import Manglekit.Core.Envelope
import Manglekit.Datalog.Syntax
import Manglekit.Effects.Unwinding

/-!
# The policy gate

One gate check turns an envelope into facts and asks the runtime for the halts
of an entity: first `halt/3`, then `halt/2` if that reported nothing, then
`halt/1`.  The check is written over any monad that offers the queries, so that
it can be read over arbitrary query outcomes, over an evaluated store, or over
the runtime's atomic sections.
-/

namespace Manglekit.Engine

open Core

abbrev Solution := StringMap String

structure QueryRun where
  reported : List Solution
  err : Option GoError

structure QueryRuntime (m : Type → Type) where
  isReady : m Bool
  queryWithSolutions : Context → List Datalog.Atom → String → m QueryRun
  executeQuery : Context → List Datalog.Atom → String → m (Except GoError Bool)

/-- Standard-library and clock services, and the two conversions of payloads to
fact texts: `toFacts` by reflection and `flatten` for JSON.  `quote` is
`strconv.Quote`; `parseFloat` gives the text of the number that
`strconv.ParseFloat` reads. -/
structure Host where
  quote : String → String
  parseFloat : String → Option String
  now : String
  toFacts : String → Value → Except GoError (List String)
  flatten : String → Value → Except GoError (List String)

structure PolicyEngine (m : Type → Type) where
  host : Host
  parseAtom : String → Except GoError Datalog.Atom
  runtime : QueryRuntime m

/-! ## From an envelope to facts -/

def escapeChar (char : Char) : List Char :=
  if char = '\\' ∨ char = '"' then ['\\', char]
  else if char = '\n' then ['\\', 'n']
  else if char = '\r' then ['\\', 'r']
  else if char = '\t' then ['\\', 't']
  else if char.toNat < 32 then [' ']
  else [char]

/-- Every special byte is an ASCII character, so the byte loop of the source is
a loop over characters. -/
def escapeString (text : String) : String :=
  String.ofList (text.toList.flatMap escapeChar)

def labelsToFacts (labels : List String) : List String :=
  labels.map fun label => "label(\"" ++ escapeString label ++ "\")"

def minInt64 : Int := -9223372036854775808

def maxInt64 : Int := 9223372036854775807

def parseDigits : List Char → Option Nat
  | [] => none
  | digits =>
    if digits.all Char.isDigit then
      some (digits.foldl (fun value digit => value * 10 + (digit.toNat - '0'.toNat)) 0)
    else none

/-- `strconv.ParseInt` in base 10 with 64 bits. -/
def parseInt (text : String) : Option Int :=
  let value :=
    match text.toList with
    | '-' :: digits => (parseDigits digits).map fun magnitude => -(magnitude : Int)
    | '+' :: digits => (parseDigits digits).map Int.ofNat
    | digits => (parseDigits digits).map Int.ofNat
  value.filter fun number => decide (minInt64 ≤ number ∧ number ≤ maxInt64)

def stringTerm (host : Host) (text : String) : Datalog.Term :=
  match parseInt text with
  | some number => .const (.number number)
  | none =>
    match host.parseFloat text with
    | some float => .const (.float float)
    | none => .const (.string text)

def metaAtom (key value : String) : Datalog.Atom :=
  ⟨"meta", [.const (.string key), .const (.string value)]⟩

/-- One entry of the metadata: a slice gives a fact per element, anything else a
single fact and, for the retry counter, `attempt/1`. -/
def metadataAtoms (host : Host) (key : String) (value : Value) : List Datalog.Atom :=
  match value.elements? with
  | some elements => elements.map fun element => metaAtom key element.sprint
  | none =>
    metaAtom key value.sprint ::
      if key = "retry_count" then [⟨"attempt", [stringTerm host value.sprint]⟩] else []

variable {m : Type → Type}

/-- Parse fact texts one by one, up to the first that does not parse. -/
def parseAtoms (engine : PolicyEngine m) (describe : String → GoError → GoError) :
    List String → List Datalog.Atom × Option GoError
  | [] => ([], none)
  | fact :: rest =>
    match engine.parseAtom fact with
    | .error err => ([], some (describe fact err))
    | .ok atom =>
      let parsed := parseAtoms engine describe rest
      (atom :: parsed.1, parsed.2)

def toMangleFacts (engine : PolicyEngine m) (entityID : String) (input : Value)
    (contentType : ContentType) : Except GoError (List Datalog.Atom) :=
  match input with
  | .nil => .ok []
  | _ =>
    let converted :=
      if contentType = .json then engine.host.flatten entityID input
      else engine.host.toFacts entityID input
    match converted with
    | .error err => .error err
    | .ok facts =>
      match parseAtoms engine
          (fun fact err => .wrap ("failed to parse fact '" ++ fact ++ "'") err) facts with
      | (_, some err) => .error err
      | (atoms, none) => .ok atoms

/-- The explicit facts of an envelope, then its metadata.  When an explicit fact
does not parse, the facts before it are returned with the error. -/
def appendEnvelopeFacts (engine : PolicyEngine m) (facts : List Datalog.Atom) (env : Envelope)
    (actionName : String) : List Datalog.Atom × Option GoError :=
  let describe := fun fact err =>
    GoError.wrap ("action " ++ engine.host.quote actionName
      ++ ": failed to parse envelope fact " ++ engine.host.quote fact) err
  match parseAtoms engine describe env.facts with
  | (explicit, some err) => (facts ++ explicit, some err)
  | (explicit, none) =>
    (facts ++ explicit
      ++ env.metadata.entries.flatMap fun entry => metadataAtoms engine.host entry.1 entry.2,
      none)

def gateFacts (engine : PolicyEngine m) (actionName entityID : String) (env : Envelope)
    (extraFacts : List Datalog.Atom) : Except GoError (List Datalog.Atom) :=
  match toMangleFacts engine entityID env.payload env.contentType with
  | .error err => .error (.input (.wrap "fact conversion error" err))
  | .ok payloadFacts =>
    match parseAtoms engine (fun _ err => err) (labelsToFacts env.securityLabels) with
    | (_, some err) => .error (.input (.wrap "label parsing error" err))
    | (labelFacts, none) =>
      match appendEnvelopeFacts engine (payloadFacts ++ extraFacts ++ labelFacts) env
          actionName with
      | (_, some err) => .error (.input (.wrap "envelope fact parsing error" err))
      | (facts, none) => .ok facts

/-! ## Halts -/

structure HaltMatch where
  reason : String
  tier : Tier
  deriving DecidableEq, Repr

def tierPriority (tier : Tier) : Nat :=
  if tier = tierT0Axiom then 0
  else if tier = tierT1Governance then 1
  else if tier = tierT2Playbook then 2
  else if tier = tierT3User then 3
  else 4

/-- A solution of `halt/3`; an empty tier counts as unknown. -/
def haltMatch3 (solution : Solution) : Option HaltMatch :=
  match solution.lookup "Reason" with
  | none => none
  | some reason =>
    let tier := (solution.lookup "Tier").getD ""
    some ⟨reason, if tier = "" then tierUnknown else tier⟩

def haltMatch2 (solution : Solution) : Option HaltMatch :=
  (solution.lookup "Reason").map fun reason => ⟨reason, tierUnknown⟩

/-- The first match of the highest priority. -/
def bestMatch (first : HaltMatch) (rest : List HaltMatch) : HaltMatch :=
  rest.foldl
    (fun best candidate =>
      if tierPriority candidate.tier < tierPriority best.tier then candidate else best)
    first

theorem bestMatch_cons (first candidate : HaltMatch) (rest : List HaltMatch) :
    bestMatch first (candidate :: rest) = bestMatch
      (if tierPriority candidate.tier < tierPriority first.tier then candidate else first) rest :=
  rfl

theorem bestMatch_mem (first : HaltMatch) (rest : List HaltMatch) :
    bestMatch first rest ∈ first :: rest := by
  induction rest generalizing first with
  | nil => simp [bestMatch]
  | cons candidate rest ih =>
    rw [bestMatch_cons]
    split_ifs
    · exact List.mem_cons_of_mem _ (ih candidate)
    · rcases List.mem_cons.mp (ih first) with chosen | member
      · rw [chosen]
        exact List.mem_cons_self
      · exact List.mem_cons_of_mem _ (List.mem_cons_of_mem _ member)

theorem bestMatch_le (first : HaltMatch) (rest : List HaltMatch) :
    ∀ halt ∈ first :: rest, tierPriority (bestMatch first rest).tier ≤ tierPriority halt.tier := by
  induction rest generalizing first with
  | nil => simp [bestMatch]
  | cons candidate rest ih =>
    rw [bestMatch_cons]
    intro halt member
    split_ifs with better
    · rcases List.mem_cons.mp member with rfl | member
      · exact le_trans (ih candidate candidate List.mem_cons_self) (le_of_lt better)
      · exact ih candidate halt member
    · have bound := ih first
      rcases List.mem_cons.mp member with rfl | member
      · exact bound halt List.mem_cons_self
      · rcases List.mem_cons.mp member with rfl | member
        · exact le_trans (bound first List.mem_cons_self) (not_lt.mp better)
        · exact bound halt (List.mem_cons_of_mem _ member)

theorem tierPriority_le_four (tier : Tier) : tierPriority tier ≤ 4 := by
  unfold tierPriority
  split_ifs <;> simp

/-- The first reported value of a variable; the query stops there, and errors of
such queries are only logged. -/
def firstValue (variableName : String) (run : QueryRun) : String :=
  (run.reported.findSome? fun solution => solution.lookup variableName).getD ""

def queryHalt3 (entityID : String) : String :=
  predHalt ++ "(\"" ++ entityID ++ "\", Reason, Tier)"

def queryHalt2 (entityID : String) : String :=
  predHalt ++ "(\"" ++ entityID ++ "\", Reason)"

def queryDeny (entityID : String) : String :=
  predHalt ++ "(\"" ++ entityID ++ "\")"

def queryViolationMsg : String := predViolation ++ "(Msg)"

def queryViolationRule : String := "violation_rule(ID)"

def haltDefinition (entityID : String) (halt : HaltMatch) : String :=
  "halt(\"" ++ entityID ++ "\", \"" ++ halt.reason ++ "\", \"" ++ halt.tier ++ "\")"

/-- The source file the tier table gives for `halt`, which it does not list. -/
def haltSourceFile : String := "unknown"

def haltTrail (now entityID : String) (halts : List HaltMatch) : AuditTrail :=
  let trail := halts.foldl
    (fun trail halt =>
      trail.addRule "halt" (haltDefinition entityID halt) haltSourceFile "halt" halt.tier)
    (newAuditTrail now "manglekit-engine" ("halt(\"" ++ entityID ++ "\", ...)"))
  { trail with matchedCount := halts.length }

/-! ## One gate check -/

structure GateResult where
  trail : Option AuditTrail
  err : Option GoError
  deriving DecidableEq

variable [Monad m]

def reportHalts (engine : PolicyEngine m) (ctx : Context) (actionName entityID : String)
    (facts : List Datalog.Atom) (first : HaltMatch) (rest : List HaltMatch) : m GateResult := do
  let best := bestMatch first rest
  let rules ← engine.runtime.queryWithSolutions ctx facts queryViolationRule
  return {
    trail := some (haltTrail engine.host.now entityID (first :: rest))
    err := some (.alignment
      { message := best.reason
        ruleID := firstValue "ID" rules
        actionName
        matchedRule := haltDefinition entityID best
        tier := best.tier }) }

/-- The legacy `halt/1` check; its halt has no trail. -/
def checkDeny (engine : PolicyEngine m) (ctx : Context) (actionName entityID : String)
    (facts : List Datalog.Atom) : m GateResult := do
  match ← engine.runtime.executeQuery ctx facts (queryDeny entityID) with
  | .error err => return ⟨none, some (.wrap "policy evaluation error" err)⟩
  | .ok false => return ⟨none, none⟩
  | .ok true =>
    let messages ← engine.runtime.queryWithSolutions ctx facts queryViolationMsg
    let rules ← engine.runtime.queryWithSolutions ctx facts queryViolationRule
    return {
      trail := none
      err := some (.alignment
        { message := firstValue "Msg" messages
          ruleID := firstValue "ID" rules
          actionName
          matchedRule := queryDeny entityID
          tier := tierUnknown }) }

/-- Query the halts of the entity.  An error of the `halt/3` query is logged and
the check goes on with what was reported; an error of `halt/2` ends it. -/
def checkHalts (engine : PolicyEngine m) (ctx : Context) (actionName entityID : String)
    (facts : List Datalog.Atom) : m GateResult := do
  let tiered ← engine.runtime.queryWithSolutions ctx facts (queryHalt3 entityID)
  match tiered.reported.filterMap haltMatch3 with
  | first :: rest => reportHalts engine ctx actionName entityID facts first rest
  | [] =>
    let untiered ← engine.runtime.queryWithSolutions ctx facts (queryHalt2 entityID)
    match untiered.err with
    | some err => return ⟨none, some (.wrap "halt query error" err)⟩
    | none =>
      match untiered.reported.filterMap haltMatch2 with
      | first :: rest => reportHalts engine ctx actionName entityID facts first rest
      | [] => checkDeny engine ctx actionName entityID facts

def evaluateGateWithTrail (engine : PolicyEngine m) (ctx : Context)
    (actionName entityID : String) (env : Envelope) (extraFacts : List Datalog.Atom) :
    m GateResult := do
  if ← engine.runtime.isReady then
    match gateFacts engine actionName entityID env extraFacts with
    | .error err => return ⟨none, some err⟩
    | .ok facts => checkHalts engine ctx actionName entityID facts
  else
    return ⟨none, some (.alignment
      { message := "policy engine not initialized: fail-closed", actionName })⟩

/-! ## What a check is made of -/

section Parts

variable {holds : (Result : Type) → m Result → Prop}
  (compositional : Effects.Compositional holds) {engine : PolicyEngine m} {ctx : Context}
  {facts : List Datalog.Atom}
  (solutions : ∀ query, holds _ (engine.runtime.queryWithSolutions ctx facts query))
  (executions : ∀ query, holds _ (engine.runtime.executeQuery ctx facts query))
include compositional solutions

theorem holds_reportHalts (actionName entityID : String) (first : HaltMatch)
    (rest : List HaltMatch) :
    holds _ (reportHalts engine ctx actionName entityID facts first rest) :=
  compositional.bind (solutions _) fun _ => compositional.pure _

include executions

section

variable (actionName entityID : String)

include actionName entityID

theorem holds_checkDeny :
    holds _ (checkDeny engine ctx actionName entityID facts) := by
  refine compositional.bind (executions _) fun answer => ?_
  split
  · exact compositional.pure _
  · exact compositional.pure _
  · exact compositional.bind (solutions _) fun _ =>
      compositional.bind (solutions _) fun _ => compositional.pure _

theorem holds_untiered (untiered : QueryRun) :
    holds _ (match untiered.err with
      | some err => pure ⟨none, some (.wrap "halt query error" err)⟩
      | none =>
        match untiered.reported.filterMap haltMatch2 with
        | first :: rest => reportHalts engine ctx actionName entityID facts first rest
        | [] => checkDeny engine ctx actionName entityID facts : m GateResult) := by
  split
  · exact compositional.pure _
  · split
    · exact holds_reportHalts compositional solutions actionName entityID _ _
    · exact holds_checkDeny compositional solutions executions actionName entityID

theorem holds_checkHalts :
    holds _ (checkHalts engine ctx actionName entityID facts) := by
  refine compositional.bind (solutions _) fun tiered => ?_
  split
  · exact holds_reportHalts compositional solutions actionName entityID _ _
  · exact compositional.bind (solutions _) fun untiered =>
      holds_untiered compositional solutions executions actionName entityID untiered

end

end Parts

/-! ## The evaluator interface -/

def assessInternal (engine : PolicyEngine m) (ctx : Context) (actionMeta : ActionMetadata)
    (input : Envelope) : m GateResult :=
  let extraFacts : List Datalog.Atom :=
    if actionMeta.name = "" then []
    else [⟨"action_operation",
      [.const (.string entityInput), .const (.string actionMeta.name)]⟩]
  evaluateGateWithTrail engine ctx actionMeta.name entityInput input extraFacts

def assess (engine : PolicyEngine m) (ctx : Context) (actionMeta : ActionMetadata)
    (input : Envelope) : m (Option GoError) := do
  return (← assessInternal engine ctx actionMeta input).err

/-- An alignment error becomes a halting decision without an error; any other
error is returned beside the halting decision. -/
def decisionOf (result : GateResult) : Decision × Option GoError :=
  match result.err with
  | none => ({ outcome := .proceed, auditTrail := result.trail }, none)
  | some err =>
    match err.asAlignment with
    | some alignment =>
      ({ outcome := .halt
         reasons := [alignment.message]
         metaMap := AList.singleton "rule_id" alignment.ruleID
         auditTrail := result.trail }, none)
    | none =>
      ({ outcome := .halt, reasons := [err.error], auditTrail := result.trail }, some err)

def assessPlan (engine : PolicyEngine m) (ctx : Context) (input : Envelope) :
    m (Decision × Option GoError) := do
  return decisionOf (← assessInternal engine ctx {} input)

/-- The output is returned unchanged unless the check found an error. -/
def outputOf (output : Envelope) (result : GateResult) : Except GoError Envelope :=
  match result.err with
  | some err => .error err
  | none => .ok output

def reflect (engine : PolicyEngine m) (ctx : Context) (actionMeta : ActionMetadata)
    (output : Envelope) : m (Except GoError Envelope) := do
  return outputOf output (← evaluateGateWithTrail engine ctx actionMeta.name entityOutput output [])

end Manglekit.Engine

import Manglekit.Engine.Reference
import Manglekit.Supervisor.Execution

/-!
# Which halts stop a supervised execution

The gate asks for tiered halts first and falls back to untiered ones only when
there are none, so an advisory tiered halt hides every untiered one.  An error
of the tiered query is only logged, and the two checks pick the deciding tier in
different orders.  The results of this module say exactly when a halt or an
error nevertheless stops the execution.
-/

namespace Manglekit.Supervisor

open Core Engine

/-! ## Halt facts of an evaluated store -/

/-- A fact `halt(entity, args...)`. -/
def haltFact (entityID : String) (args : List Datalog.Term) : Datalog.Atom :=
  ⟨predHalt, .const (.string entityID) :: args⟩

structure ParsesHaltQueries (parseAtom : String → Except GoError Datalog.Atom)
    (entityID : String) : Prop where
  halt3 : parseAtom (queryHalt3 entityID) = .ok (haltFact entityID [.var "Reason", .var "Tier"])
  halt2 : parseAtom (queryHalt2 entityID) = .ok (haltFact entityID [.var "Reason"])
  halt1 : parseAtom (queryDeny entityID) = .ok (haltFact entityID [])

/-- The tiered and the untiered halt query over the store end without an error. -/
structure HaltQueriesSucceed (parseAtom : String → Except GoError Datalog.Atom)
    (store : Datalog.Store) (entityID : String) : Prop where
  halt3 : (solutionsIn parseAtom store (queryHalt3 entityID)).err = none
  halt2 : (solutionsIn parseAtom store (queryHalt2 entityID)).err = none

def AdvisoryTerm (tier : Datalog.Term) : Prop :=
  ∃ text, constantToString tier = .ok text ∧ Advisory text

/-- A halt of the entity that is not explicitly advisory: without a tier, or with
another tier than T2 and T3. -/
def HardHalt (entityID : String) (store : Datalog.Store) : Prop :=
  haltFact entityID [] ∈ store ∨ (∃ reason, haltFact entityID [reason] ∈ store) ∨
    ∃ reason tier, haltFact entityID [reason, tier] ∈ store ∧ ¬ AdvisoryTerm tier

/-- The policy engine over an evaluation that is given as a function of the
request facts. -/
def storeEngine (host : Host) (parseAtom : String → Except GoError Datalog.Atom)
    (evaluated : List Datalog.Atom → Datalog.Store) : PolicyEngine Id :=
  ⟨host, parseAtom, storeRuntime parseAtom evaluated⟩

section StoreAnswers

variable {host : Host} {parseAtom : String → Except GoError Datalog.Atom}
  {evaluated : List Datalog.Atom → Datalog.Store} {entityID : String} {ctx : Context}
  {facts : List Datalog.Atom}

/-- A fact of the halt predicate that unifies with a query about the entity is a
halt of that entity. -/
theorem unify_halt2 (args : List Datalog.Term) (arity : args.length = 2) (solution : Solution) :
    unifyArgs (haltFact entityID [.var "Reason"]).args args ∅ = .ok (some solution) ↔
      ∃ reason reasonText, args = [.const (.string entityID), reason] ∧
        constantToString reason = .ok reasonText ∧
        solution = (∅ : Solution).insert "Reason" reasonText := by
  obtain ⟨subject, reason, rfl⟩ := List.length_eq_two.mp arity
  simp only [haltFact, unifyArgs]
  by_cases same : Datalog.Term.const (.string entityID) = subject
  · subst same
    rcases converted : constantToString reason with err | reasonText
    · simp [converted]
    · simp [converted, eq_comm]
  · simp [same, Ne.symm same, eq_comm]

theorem advisory_reported (text : String) :
    Advisory (if text = "" then tierUnknown else text) ↔ Advisory text := by
  split_ifs with empty
  · subst empty
    exact iff_of_false not_advisory_unknown fun advisory => advisory_ne_empty advisory rfl
  · rfl

theorem haltMatch3_solution (reason tier : String) :
    haltMatch3 (((∅ : Solution).insert "Reason" reason).insert "Tier" tier) =
      some ⟨reason, if tier = "" then tierUnknown else tier⟩ := by
  have reasonFound : (((∅ : Solution).insert "Reason" reason).insert "Tier" tier).lookup
      "Reason" = some reason := by
    rw [AList.lookup_insert_ne (by decide), AList.lookup_insert]
  have tierFound : (((∅ : Solution).insert "Reason" reason).insert "Tier" tier).lookup
      "Tier" = some tier := AList.lookup_insert _
  simp only [haltMatch3, reasonFound, tierFound, Option.getD_some]

theorem haltMatch2_solution (reason : String) :
    haltMatch2 ((∅ : Solution).insert "Reason" reason) = some ⟨reason, tierUnknown⟩ := by
  rw [haltMatch2, AList.lookup_insert]
  rfl

theorem solutionsIn_halt3 (parses : ParsesHaltQueries parseAtom entityID) (store : Datalog.Store) :
    solutionsIn parseAtom store (queryHalt3 entityID) =
      reportSolutions (haltFact entityID [.var "Reason", .var "Tier"])
        (store.getFacts ⟨predHalt, 3⟩) := by
  simp [solutionsIn, parseQuery, parses.halt3, haltFact, Datalog.Atom.predicate]

theorem solutionsIn_halt2 (parses : ParsesHaltQueries parseAtom entityID) (store : Datalog.Store) :
    solutionsIn parseAtom store (queryHalt2 entityID) =
      reportSolutions (haltFact entityID [.var "Reason"]) (store.getFacts ⟨predHalt, 2⟩) := by
  simp [solutionsIn, parseQuery, parses.halt2, haltFact, Datalog.Atom.predicate]

section

variable (parses : ParsesHaltQueries parseAtom entityID)
  (success : (solutionsIn parseAtom (evaluated facts) (queryHalt3 entityID)).err = none)

include parses success

theorem mem_tieredHalts_iff (halt : HaltMatch) :
    halt ∈ (answersOf (storeEngine host parseAtom evaluated) ctx entityID facts).tieredHalts ↔
      ∃ reason tier reasonText tierText, haltFact entityID [reason, tier] ∈ evaluated facts ∧
        constantToString reason = .ok reasonText ∧ constantToString tier = .ok tierText ∧
        halt = ⟨reasonText, if tierText = "" then tierUnknown else tierText⟩ := by
  have run : (answersOf (storeEngine host parseAtom evaluated) ctx entityID facts).tiered = _ :=
    solutionsIn_halt3 parses (evaluated facts)
  rw [solutionsIn_halt3 parses] at success
  rw [GateAnswers.tieredHalts, run]
  exact mem_collected_tiered_iff entityID "Reason" haltMatch3_solution success halt

theorem tiered_converts
    {reason tier : Datalog.Term} (stored : haltFact entityID [reason, tier] ∈ evaluated facts) :
    ∃ reasonText tierText, constantToString reason = .ok reasonText ∧
      constantToString tier = .ok tierText := by
  rw [solutionsIn_halt3 parses] at success
  have unified := unifies_of_success success (Datalog.Store.mem_getFacts.mpr ⟨stored, rfl⟩)
  obtain ⟨⟨reasonText, reasonConverted⟩, tierText, tierConverted⟩ :=
    (unifyArgs_tiered_ok_iff entityID "Reason" rfl).mp unified reason tier rfl
  exact ⟨reasonText, tierText, reasonConverted, tierConverted⟩

theorem tieredHalts_ne_nil_iff :
    (answersOf (storeEngine host parseAtom evaluated) ctx entityID facts).tieredHalts ≠ [] ↔
      ∃ reason tier, haltFact entityID [reason, tier] ∈ evaluated facts := by
  constructor
  · intro nonempty
    obtain ⟨halt, member⟩ := List.exists_mem_of_ne_nil _ nonempty
    obtain ⟨reason, tier, -, -, stored, -⟩ := (mem_tieredHalts_iff parses success halt).mp member
    exact ⟨reason, tier, stored⟩
  · rintro ⟨reason, tier, stored⟩
    obtain ⟨reasonText, tierText, reasonConverted, tierConverted⟩ :=
      tiered_converts parses success stored
    exact List.ne_nil_of_mem ((mem_tieredHalts_iff parses success _).mpr
      ⟨reason, tier, reasonText, tierText, stored, reasonConverted, tierConverted, rfl⟩)

theorem all_tieredHalts_advisory_iff :
    (∀ halt ∈ (answersOf (storeEngine host parseAtom evaluated) ctx entityID facts).tieredHalts,
        Advisory halt.tier) ↔
      ∀ reason tier, haltFact entityID [reason, tier] ∈ evaluated facts → AdvisoryTerm tier := by
  simp only [mem_tieredHalts_iff parses success]
  constructor
  · intro advisory reason tier stored
    obtain ⟨reasonText, tierText, reasonConverted, tierConverted⟩ :=
      tiered_converts parses success stored
    exact ⟨tierText, tierConverted, (advisory_reported tierText).mp (advisory _
      ⟨reason, tier, reasonText, tierText, stored, reasonConverted, tierConverted, rfl⟩)⟩
  · rintro advisory halt ⟨reason, tier, reasonText, tierText, stored, -, tierConverted, rfl⟩
    obtain ⟨text, converted, isAdvisory⟩ := advisory reason tier stored
    obtain rfl : tierText = text := Except.ok.inj (tierConverted.symm.trans converted)
    exact (advisory_reported tierText).mpr isAdvisory

end

theorem untieredHalts_ne_nil (parses : ParsesHaltQueries parseAtom entityID)
    (success : (solutionsIn parseAtom (evaluated facts) (queryHalt2 entityID)).err = none)
    {reason : Datalog.Term} (stored : haltFact entityID [reason] ∈ evaluated facts) :
    (answersOf (storeEngine host parseAtom evaluated) ctx entityID facts).untieredHalts ≠ [] := by
  have run : (answersOf (storeEngine host parseAtom evaluated) ctx entityID facts).untiered = _ :=
    solutionsIn_halt2 parses (evaluated facts)
  rw [solutionsIn_halt2 parses] at success
  have visited : haltFact entityID [reason] ∈ (evaluated facts).getFacts ⟨predHalt, 2⟩ :=
    Datalog.Store.mem_getFacts.mpr ⟨stored, rfl⟩
  obtain ⟨answer, unified⟩ := unifies_of_success success visited
  cases converted : constantToString reason with
  | error err => simp [haltFact, unifyArgs, converted] at unified
  | ok reasonText =>
    have reported := (mem_reported_iff success _).mpr ⟨_, visited,
      (unify_halt2 _ rfl _).mpr ⟨reason, reasonText, rfl, converted, rfl⟩⟩
    refine List.ne_nil_of_mem (List.mem_filterMap.mpr
      ⟨_, run ▸ reported, haltMatch2_solution reasonText⟩)

theorem denied_of_haltFact (parses : ParsesHaltQueries parseAtom entityID) :
    (answersOf (storeEngine host parseAtom evaluated) ctx entityID facts).denied =
      .ok (decide (haltFact entityID [] ∈ evaluated facts)) := by
  change holdsIn parseAtom (evaluated facts) (queryDeny entityID) = _
  simp [holdsIn, parseQuery, parses.halt1, Datalog.Store.contains]

/-- Beside a hard halt, the check of an input passes only because tiered halts
exist and are all advisory. -/
theorem passesInput_iff_of_hardHalt (parses : ParsesHaltQueries parseAtom entityID)
    (success : HaltQueriesSucceed parseAtom (evaluated facts) entityID)
    (hard : HardHalt entityID (evaluated facts)) :
    (answersOf (storeEngine host parseAtom evaluated) ctx entityID facts).PassesInput ↔
      (∃ reason tier, haltFact entityID [reason, tier] ∈ evaluated facts) ∧
        ∀ reason tier, haltFact entityID [reason, tier] ∈ evaluated facts → AdvisoryTerm tier := by
  unfold GateAnswers.PassesInput
  rw [tieredHalts_ne_nil_iff parses success.halt3,
    all_tieredHalts_advisory_iff parses success.halt3]
  refine or_iff_left ?_
  rintro ⟨noneTiered, -, noneUntiered, notDenied⟩
  rcases hard with legacy | ⟨reason, untiered⟩ | ⟨reason, tier, tiered, -⟩
  · rw [denied_of_haltFact parses] at notDenied
    simp [legacy] at notDenied
  · exact untieredHalts_ne_nil parses success.halt2 untiered noneUntiered
  · exact (tieredHalts_ne_nil_iff parses success.halt3).mpr ⟨reason, tier, tiered⟩ noneTiered

end StoreAnswers

/-! ## Hard halts of a request -/

namespace Deployment

variable (deployment : Deployment)

/-- The facts about which the check of the input asks the engine, unless the
request is refused before that. -/
def inputAsked (ctx : Context) (input : Envelope) : Option (List Datalog.Atom) :=
  match deployment.extracted ctx input.payload with
  | .error _ => none
  | .ok payload =>
    match flattenToQuads entityInput payload with
    | .error _ => none
    | .ok quads =>
      askedFacts deployment.host (deployment.engine []) (deployment.inputContext ctx input)
        (quadAtoms quads)

variable {deployment}

theorem reflectsOn_inputContext (ctx : Context) (input : Envelope) :
    reflectsOn (deployment.inputContext ctx input).preCheck = none := by
  simp [inputContext, Context.withPreCheck, preCheckContext, reflectsOn, entityInput, entityOutput]

/-- The inner action runs exactly if the engine was asked about the input and its
answers pass. -/
theorem runs_iff_passesInput (ctx : Context) (input : Envelope) :
    deployment.Runs ctx input ↔ ∃ facts, deployment.inputAsked ctx input = some facts ∧
      (answersOf (deployment.engine []) (deployment.inputContext ctx input) entityInput
        facts).PassesInput := by
  rw [runs_iff]
  unfold inputAsked
  cases extraction : deployment.extracted ctx input.payload with
  | error err => simp
  | ok payload =>
    cases flattened : flattenToQuads entityInput payload with
    | error panic => simp [flattened]
    | ok quads =>
      simp only [Except.ok.injEq, exists_eq_left', flattened, exists_and_left, inputVerdict]
      cases asked : askedFacts deployment.host (deployment.engine [])
          (deployment.inputContext ctx input) (quadAtoms quads) with
      | none =>
        have refuses := refuses_of_not_asked (by rfl) asked
        simp [refuses]
      | some facts =>
        rw [refuses_verify_input asked (reflectsOn_inputContext ctx input)]
        simp

/-- A derived hard halt stops the execution exactly if the gate gets to see one:
there is no tiered halt that would end the search, or a tiered halt is itself
not advisory. -/
theorem hardHalt_stops_iff {parseAtom : String → Except GoError Datalog.Atom}
    {evaluated : List Datalog.Atom → Datalog.Store}
    (policy : deployment.engine [] = storeEngine deployment.host parseAtom evaluated)
    (parses : ParsesHaltQueries parseAtom entityInput) (ctx : Context) (input : Envelope)
    (derived : ∀ facts, deployment.inputAsked ctx input = some facts →
      HaltQueriesSucceed parseAtom (evaluated facts) entityInput ∧
        HardHalt entityInput (evaluated facts)) :
    ¬ deployment.Runs ctx input ↔
      ∀ facts, deployment.inputAsked ctx input = some facts →
        (∀ reason tier, haltFact entityInput [reason, tier] ∉ evaluated facts) ∨
          ∃ reason tier, haltFact entityInput [reason, tier] ∈ evaluated facts ∧
            ¬ AdvisoryTerm tier := by
  rw [runs_iff_passesInput, not_exists, policy]
  refine forall_congr' fun facts => ?_
  rw [not_and]
  refine imp_congr_right fun asked => ?_
  obtain ⟨success, hard⟩ := derived facts asked
  rw [passesInput_iff_of_hardHalt parses success hard, not_and_or]
  push Not
  rfl

end Deployment

theorem reference_parsesHaltQueries : ParsesHaltQueries Reference.parseAtom entityInput where
  halt3 := by decide +kernel
  halt2 := by decide +kernel
  halt1 := by decide +kernel

/-- An action named `send` under a policy that is evaluated by the reference
evaluator. -/
def sendUnder (policy : List Datalog.Clause) : Deployment where
  host := Reference.host
  engine _ := storeEngine Reference.host Reference.parseAtom (Reference.evaluated policy)
  metadata := { name := "send" }
  respond _ env := .ok (.ok env)

def secretInput : Envelope := { securityLabels := ["secret"] }

def secretFacts : List Datalog.Atom :=
  [Reference.stringAtom "label" ["secret"],
    Reference.stringAtom "action_operation" ["Req", "send"]]

/-- Advice on every call of `send`, and a halt without a tier on secret data. -/
def hiddenHaltPolicy : List Datalog.Clause :=
  [⟨Reference.stringAtom "halt" ["Req", "not reviewed", "T3"],
      [.atom (Reference.stringAtom "action_operation" ["Req", "send"])]⟩,
    ⟨Reference.stringAtom "halt" ["Req", "secret data"],
      [.atom (Reference.stringAtom "label" ["secret"])]⟩]

/-- The policy derives an untiered halt for the request, and the action runs. -/
theorem advisoryHalt_hides_hardHalt :
    ParsesHaltQueries Reference.parseAtom entityInput ∧
      (sendUnder hiddenHaltPolicy).inputAsked {} secretInput = some secretFacts ∧
      HaltQueriesSucceed Reference.parseAtom (Reference.evaluated hiddenHaltPolicy secretFacts)
        entityInput ∧
      HardHalt entityInput (Reference.evaluated hiddenHaltPolicy secretFacts) ∧
      (sendUnder hiddenHaltPolicy).Runs {} secretInput := by
  refine ⟨reference_parsesHaltQueries, by decide +kernel, ⟨by decide +kernel, by decide +kernel⟩,
    .inr (.inl ⟨.const (.string "secret data"), by decide +kernel⟩), ?_⟩
  exact List.ne_nil_of_length_pos (by decide +kernel)

def governedHaltPolicy : List Datalog.Clause :=
  [⟨Reference.stringAtom "halt" ["Req", "not reviewed", "T3"],
      [.atom (Reference.stringAtom "action_operation" ["Req", "send"])]⟩,
    ⟨Reference.stringAtom "halt" ["Req", "secret data", "T1"],
      [.atom (Reference.stringAtom "label" ["secret"])]⟩]

/-- With its tier stated, the halt stops the action. -/
theorem governedHalt_stops : ¬ (sendUnder governedHaltPolicy).Runs {} secretInput := by
  have asked : (sendUnder governedHaltPolicy).inputAsked {} secretInput = some secretFacts := by
    decide +kernel
  have halted : haltFact entityInput [.const (.string "secret data"), .const (.string "T1")] ∈
      Reference.evaluated governedHaltPolicy secretFacts := by decide +kernel
  have hardTier : ¬ AdvisoryTerm (.const (.string "T1")) := by
    rintro ⟨text, converted, advisory⟩
    obtain rfl := Except.ok.inj converted
    exact absurd advisory (by decide)
  refine (Deployment.hardHalt_stops_iff rfl reference_parsesHaltQueries {} secretInput ?_).mpr ?_
  · intro facts found
    obtain rfl := Option.some.inj (asked.symm.trans found)
    exact ⟨⟨by decide +kernel, by decide +kernel⟩, .inr (.inr ⟨_, _, halted, hardTier⟩)⟩
  · intro facts found
    obtain rfl := Option.some.inj (asked.symm.trans found)
    exact .inr ⟨_, _, halted, hardTier⟩

end Manglekit.Supervisor

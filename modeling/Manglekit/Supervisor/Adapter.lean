import Manglekit.Engine.Gate

/-!
# The verifier of the supervisor

The adapter renders the atoms of a payload as facts, adds the caller's context,
asks the policy engine, and translates its answer into a verdict with a trust
tier.
-/

namespace Manglekit.Supervisor

open Core

inductive TrustTier where
  | unset
  | tier0Kernel
  | tier1Admin
  | tier2AI
  | tier3User
  deriving DecidableEq, Repr

structure AuditResult where
  pass : Bool
  violationTier : TrustTier := .unset
  conflictPath : String := ""
  trail : Option AuditTrail := none
  deriving DecidableEq

structure Evaluator (m : Type → Type) where
  assessPlan : Context → Envelope → m (Decision × Option GoError)
  reflect : Context → ActionMetadata → Envelope → m (Except GoError Envelope)

def policyEvaluator {m : Type → Type} [Monad m] (engine : Engine.PolicyEngine m) :
    Evaluator m where
  assessPlan := Engine.assessPlan engine
  reflect := Engine.reflect engine

def maxFactsPerVerify : Nat := 1000

/-- Unknown and absent tiers become the administrator's: only an explicit T2 or
T3 is soft. -/
def mapCoreTier (tier : Tier) : TrustTier :=
  if tier = tierT0Axiom then .tier0Kernel
  else if tier = tierT1Governance then .tier1Admin
  else if tier = tierT2Playbook then .tier2AI
  else if tier = tierT3User then .tier3User
  else .tier1Admin

def tierSeverity (tier : Tier) : Nat :=
  if tier = tierT0Axiom then 0
  else if tier = tierT1Governance ∨ tier = "" then 1
  else if tier = tierT2Playbook then 2
  else if tier = tierT3User then 3
  else 1

/-- One round of the search for the most severe tier; `""` stands for none yet. -/
def moreSevere (severe tier : Tier) : Tier :=
  if tier = "" then severe
  else if severe = "" ∨ tierSeverity tier < tierSeverity severe then tier
  else severe

def violationTierFromDecision (decision : Decision) : TrustTier :=
  match decision.auditTrail with
  | none => .tier1Admin
  | some trail =>
    mapCoreTier (trail.matchedRules.foldl (fun severe rule => moreSevere severe rule.tier) "")

/-- The expression `^[A-Za-z_][A-Za-z0-9_]*$`. -/
def isPredicateIdent (text : String) : Bool :=
  match text.toList with
  | [] => false
  | first :: rest => isIdentStart first && rest.all isIdentPart

/-- A fact whose predicate is not an identifier renders as the empty text. -/
def atomToDatalog (pred subject object : String) : String :=
  if isPredicateIdent pred then
    pred ++ "(\"" ++ Engine.escapeString subject ++ "\", \"" ++ Engine.escapeString object
      ++ "\")."
  else ""

def atomFacts (atoms : List Atom) : List String :=
  atoms.filterMap fun atom =>
    if atom.subject ≠ "" ∧ atom.predicate ≠ "" then
      let fact := atomToDatalog atom.predicate atom.subject atom.object
      if fact = "" then none else some fact
    else none

def actionOperationFact (host : Engine.Host) (entityID actionName : String) : String :=
  "action_operation(" ++ host.quote entityID ++ ", " ++ host.quote actionName ++ ")."

/-- The envelope that is assessed in the caller's stead.  It has no payload. -/
def assessmentEnvelope (host : Engine.Host) (preCheck : Option PreCheckContext)
    (atoms : List Atom) : Envelope :=
  match preCheck with
  | none => { facts := atomFacts atoms }
  | some pc =>
    let entityID := if pc.entityID = "" then entityInput else pc.entityID
    { facts := atomFacts atoms ++ pc.facts
        ++ (if pc.actionName = "" then [] else [actionOperationFact host entityID pc.actionName])
      metadata := pc.metadata
      securityLabels := pc.labels }

/-- The verdict on what `Reflect` returned. -/
def postCheckResult (reflected : Except GoError Envelope) : Except GoError AuditResult :=
  match reflected with
  | .ok _ => .ok { pass := true }
  | .error err =>
    match err.asAlignment with
    | some alignment =>
      .ok
        { pass := false
          violationTier := mapCoreTier alignment.tier
          conflictPath :=
            if alignment.ruleID ≠ "" then alignment.ruleID
            else if alignment.message = "" then "sdk_adapter.post_check"
            else alignment.message }
    | none => .error (.wrap "sdk_adapter post-check" err)

/-- The verdict on what `AssessPlan` returned. -/
def preCheckResult (assessed : Decision × Option GoError) : Except GoError AuditResult :=
  match assessed with
  | (_, some err) => .error (.wrap "sdk_adapter verify" err)
  | (decision, none) =>
    if decision.outcome = .halt then
      .ok
        { pass := false
          violationTier := violationTierFromDecision decision
          conflictPath := decision.reasons.headD "unknown"
          trail := decision.auditTrail }
    else .ok { pass := true, trail := decision.auditTrail }

def earlyResult (ctx : Context) (atoms : List Atom) : Option AuditResult :=
  if atoms = [] ∧ ctx.preCheck.isNone then some { pass := true }
  else if maxFactsPerVerify < atoms.length then
    some
      { pass := false
        violationTier := .tier0Kernel
        conflictPath := "sdk_adapter.fact_limit_exceeded (" ++ toString atoms.length ++ ">"
          ++ toString maxFactsPerVerify ++ ")" }
  else none

/-- Only the check of an output under a named action goes to `Reflect`. -/
def reflectsOn (preCheck : Option PreCheckContext) : Option String :=
  match preCheck with
  | some pc => if pc.entityID = entityOutput ∧ pc.actionName ≠ "" then some pc.actionName else none
  | none => none

variable {m : Type → Type} [Monad m]

def verifyAtoms (host : Engine.Host) (evaluator : Evaluator m) (ctx : Context)
    (atoms : List Atom) : m (Except GoError AuditResult) := do
  match earlyResult ctx atoms with
  | some result => return .ok result
  | none =>
    let env := assessmentEnvelope host ctx.preCheck atoms
    match reflectsOn ctx.preCheck with
    | some actionName =>
      return postCheckResult (← evaluator.reflect ctx { name := actionName } env)
    | none => return preCheckResult (← evaluator.assessPlan ctx env)

end Manglekit.Supervisor

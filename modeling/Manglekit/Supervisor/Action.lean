import Manglekit.Supervisor.Adapter

/-!
# Supervised execution

A supervised action verifies its input, runs the inner action, and verifies the
output before releasing it.
-/

namespace Manglekit.Supervisor

open Core

structure Action (m : Type → Type) where
  metadata : ActionMetadata
  execute : Context → Envelope → m (Except GoError Envelope)

/-! ## Facts of a payload -/

def structFields (value : Value) : List (FieldType × Value) :=
  match value.underlying with
  | .struct fields => fields
  | .pointer _ target =>
    match target.underlying with
    | .struct fields => fields
    | _ => []
  | _ => []

/-- Reading a tagged field that is not exported panics. -/
def fieldQuads (subjectID : String) : List (FieldType × Value) → Except Panic (List Quad)
  | [] => .ok []
  | (field, value) :: rest =>
    if field.mangle = "" then fieldQuads subjectID rest
    else if field.exported then
      (fieldQuads subjectID rest).map
        (⟨subjectID, field.mangle, value.sprint, "temporal_context"⟩ :: ·)
    else .error .unexportedField

def flattenToQuads (subjectID : String) (value : Value) : Except Panic (List Quad) :=
  fieldQuads subjectID (structFields value)

def quadAtoms (quads : List Quad) : List Atom :=
  quads.map fun quad => ⟨quad.predicate, quad.subject, quad.object⟩

/-! ## Verdicts and errors -/

def AuditResult.blocks (result : AuditResult) : Bool :=
  !result.pass && (result.violationTier = .tier0Kernel || result.violationTier = .tier1Admin)

def coreTierName : TrustTier → String
  | .unset => ""
  | .tier0Kernel => tierT0Axiom
  | .tier1Admin => tierT1Governance
  | .tier2AI => tierT2Playbook
  | .tier3User => tierT3User

/-- The rule quoted in the error is one whose tier is the violation's, if the
trail has such a rule. -/
def policyViolationFromResult (ctx : Context) (result : AuditResult) (description : String) :
    PolicyViolationError :=
  let err : PolicyViolationError :=
    { tier := coreTierName result.violationTier
      ruleID := result.conflictPath
      violation := description
      suggestion := ""
      actionName := (ctx.preCheck.map (·.actionName)).getD "" }
  let rules := (result.trail.map (·.matchedRules)).getD []
  let sameTier := fun rule : RuleInference =>
    rule.definition ≠ "" ∧ rule.tier ≠ "" ∧ mapCoreTier rule.tier = result.violationTier
  match rules.find? fun rule => decide (sameTier rule) with
  | some rule => { err with matchedRule := rule.definition, tier := rule.tier }
  | none =>
    match rules.find? fun rule => decide (rule.definition ≠ "") with
    | some rule => { err with matchedRule := rule.definition }
    | none => err

def preFlightViolation (result : AuditResult) : ViolationRule :=
  ⟨result.conflictPath, "Supervisor Pre-Flight check failed.", 0⟩

/-! ## Execution -/

section Execution

variable {m : Type → Type} [Monad m] [MonadExceptOf Panic m]

def orPanic {α : Type} : Except Panic α → m α
  | .ok value => pure value
  | .error panic => throw panic

structure SupervisedAction (m : Type → Type) where
  inner : Context → Envelope → m (Except GoError Envelope)
  verifyAtoms : Context → List Atom → m (Except GoError AuditResult)

def attachTrail (trail : Option AuditTrail) (result : Envelope) : Envelope :=
  match trail with
  | none => result
  | some trail =>
    { result with metadata := result.metadata.insert "manglekit.audit_trail" (.trail trail) }

/-- The check of the output.  It is skipped when nothing was threaded through
the context. -/
def SupervisedAction.release (action : SupervisedAction m) (ctx : Context) (result : Envelope) :
    m (Envelope × Option GoError) := do
  let outFacts ← orPanic (flattenToQuads entityOutput result.payload)
  let released := { result with contextFacts := result.contextFacts ++ outFacts }
  match ctx.preCheck with
  | none => return (released, none)
  | some pc =>
    let postCtx := ctx.withPreCheck { pc with entityID := entityOutput }
    match ← action.verifyAtoms postCtx (quadAtoms outFacts) with
    | .error err =>
      return ({}, some (.supervisor (.wrap "post-check (Reflect) verifier error" err)))
    | .ok verdict =>
      if verdict.blocks then
        return ({}, some (.policyViolation
          (policyViolationFromResult ctx verdict "Supervisor post-check (Reflect) failed.")))
      else return (released, none)

def SupervisedAction.executeInternal (action : SupervisedAction m) (ctx : Context)
    (input : Value) : m (Envelope × Option GoError) := do
  let facts ← orPanic (flattenToQuads entityInput input)
  let envelope : Envelope := { payload := input, contextFacts := facts }
  match ← action.verifyAtoms ctx (quadAtoms facts) with
  | .error err => return ({}, some (.supervisor err))
  | .ok verdict =>
    if verdict.blocks then
      return ({ envelope with violations := [preFlightViolation verdict] },
        some (.policyViolation
          (policyViolationFromResult ctx verdict "Supervisor Pre-Flight check failed.")))
    else
      match ← action.inner ctx envelope with
      | .error err => return ({}, some err)
      | .ok result => action.release ctx (attachTrail verdict.trail result)

omit [Monad m] [MonadExceptOf Panic m] in
def executeInner (action : Action m) (ctx : Context) (input : Envelope) :
    m (Except GoError Envelope) :=
  action.execute ctx
    { payload := input.payload
      metadata := input.metadata
      facts := input.contextFacts.filterMap fun quad =>
        let fact := atomToDatalog quad.predicate quad.subject quad.object
        if fact = "" then none else some fact }

/-- A supervised action as clients see it.  The extractor, when there is one,
turns free text into structured data first. -/
structure SupervisedActionV2 (m : Type → Type) where
  inner : SupervisedAction m
  wrapped : Action m
  extractor : Option (Context → String → m (Except GoError Value)) := none

def newSupervisedActionFromSDK (host : Engine.Host) (action : Action m)
    (evaluator : Evaluator m) : SupervisedActionV2 m where
  inner :=
    { inner := executeInner action
      verifyAtoms := verifyAtoms host evaluator }
  wrapped := action

def SupervisedActionV2.extract (action : SupervisedActionV2 m) (ctx : Context) (payload : Value) :
    m (Except GoError Value) :=
  match action.extractor, payload.string? with
  | some extractor, some text => do
    match ← extractor ctx text with
    | .error err => return .error (.wrap "extraction failed (fail-closed)" err)
    | .ok extracted => return .ok extracted
  | _, _ => return .ok payload

def preCheckContext (actionName : String) (input : Envelope) : PreCheckContext where
  actionName := actionName
  metadata := input.metadata
  labels := input.securityLabels
  facts := input.facts
  entityID := entityInput

def SupervisedActionV2.execute (action : SupervisedActionV2 m) (ctx : Context)
    (input : Envelope) : m (Except GoError Envelope) := do
  match ← action.extract ctx input.payload with
  | .error err => return .error err
  | .ok payload =>
    let checked := ctx.withPreCheck (preCheckContext action.wrapped.metadata.name input)
    match ← action.inner.executeInternal checked payload with
    | (_, some err) => return .error err
    | (result, none) => return .ok result

end Execution

end Manglekit.Supervisor

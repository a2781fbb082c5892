import Manglekit.Supervisor.Verdict

/-!
# Supervised executions, observed from outside

An execution records the envelopes on which the inner action was run.  The
answers of the policy engine may depend on that record, so that the check of the
output can meet another policy than the check of the input.
-/

namespace Manglekit.Supervisor

open Core Engine

/-! ## Which facts a verification asks about -/

def gateSubject (preCheck : Option PreCheckContext) : String × String :=
  match reflectsOn preCheck with
  | some actionName => (actionName, entityOutput)
  | none => ("", entityInput)

/-- The facts over which a verification queries the engine, unless it refuses
before asking. -/
def askedFacts (host : Host) (engine : PolicyEngine Id) (ctx : Context) (atoms : List Atom) :
    Option (List Datalog.Atom) :=
  match earlyResult ctx atoms with
  | some _ => none
  | none =>
    if engine.runtime.isReady.run then
      (gateFacts engine (gateSubject ctx.preCheck).1 (gateSubject ctx.preCheck).2
        (assessmentEnvelope host ctx.preCheck atoms) []).toOption
    else none

section Verification

variable {host : Host} {engine : PolicyEngine Id} {ctx : Context} {atoms : List Atom}
  {facts : List Datalog.Atom}

theorem earlyResult_blocks {result : AuditResult} (threaded : ctx.preCheck.isSome)
    (early : earlyResult ctx atoms = some result) : result.blocks = true := by
  have present : ctx.preCheck.isNone = false := by simpa using threaded
  unfold earlyResult at early
  simp only [present, Bool.false_eq_true, and_false, if_false] at early
  split_ifs at early
  obtain rfl := Option.some.inj early
  rfl

variable {env : Envelope} {actionName : String} {entityID : String}

theorem gateFacts_error {extraFacts : List Datalog.Atom} {err : GoError}
    (failed : gateFacts engine actionName entityID env extraFacts = .error err) :
    ∃ inner, err = .input inner := by
  unfold gateFacts at failed
  split at failed
  · exact ⟨_, (Except.error.inj failed).symm⟩
  · split at failed
    · exact ⟨_, (Except.error.inj failed).symm⟩
    · split at failed
      · exact ⟨_, (Except.error.inj failed).symm⟩
      · cases failed

theorem evaluateGate_eq (actionName entityID : String) (env : Envelope) :
    evaluateGateWithTrail engine ctx actionName entityID env [] =
      if engine.runtime.isReady.run = true then
        match gateFacts engine actionName entityID env [] with
        | .error err => ⟨none, some err⟩
        | .ok facts => checkHalts engine ctx actionName entityID facts
      else ⟨none, some (.alignment
        { message := "policy engine not initialized: fail-closed", actionName })⟩ := rfl

variable (ctx) in
/-- A gate that is not ready, or that cannot convert the envelope, answers with
an error that no check takes for advice. -/
theorem evaluateGate_of_not_asked (notAsked : (if engine.runtime.isReady.run then
      (gateFacts engine actionName entityID env []).toOption else none) = none) :
    ∃ err, evaluateGateWithTrail engine ctx actionName entityID env [] =
        (⟨none, some err⟩ : GateResult) ∧ ¬ AdvisoryError err := by
  rw [evaluateGate_eq]
  split_ifs at notAsked ⊢
  · cases converted : gateFacts engine actionName entityID env [] with
    | ok facts => simp [converted, Except.toOption] at notAsked
    | error err =>
      refine ⟨err, rfl, ?_⟩
      obtain ⟨inner, rfl⟩ := gateFacts_error converted
      simp [AdvisoryError, GoError.asAlignment]
  · refine ⟨_, rfl, ?_⟩
    simp [AdvisoryError, GoError.asAlignment, Advisory, tierT2Playbook, tierT3User]

variable (ctx) in
theorem evaluateGate_of_asked (asked : (if engine.runtime.isReady.run then
      (gateFacts engine actionName entityID env []).toOption else none) = some facts) :
    evaluateGateWithTrail engine ctx actionName entityID env [] =
      checkHalts engine ctx actionName entityID facts := by
  rw [evaluateGate_eq]
  split_ifs at asked ⊢
  cases converted : gateFacts engine actionName entityID env [] with
  | ok found =>
    rw [converted] at asked
    exact Option.some.inj asked ▸ rfl
  | error err => simp [converted, Except.toOption] at asked

theorem verifyAtoms_eq (threaded : earlyResult ctx atoms = none) :
    verifyAtoms host (policyEvaluator engine) ctx atoms =
      match reflectsOn ctx.preCheck with
      | some actionName => postCheckResult (outputOf (assessmentEnvelope host ctx.preCheck atoms)
          (evaluateGateWithTrail engine ctx actionName entityOutput
            (assessmentEnvelope host ctx.preCheck atoms) []))
      | none => preCheckResult (decisionOf (evaluateGateWithTrail engine ctx "" entityInput
          (assessmentEnvelope host ctx.preCheck atoms) [])) := by
  unfold verifyAtoms
  rw [threaded]
  cases reflectsOn ctx.preCheck <;> rfl

theorem refuses_of_not_asked (threaded : ctx.preCheck.isSome)
    (notAsked : askedFacts host engine ctx atoms = none) :
    Refuses (verifyAtoms host (policyEvaluator engine) ctx atoms) := by
  unfold askedFacts at notAsked
  cases early : earlyResult ctx atoms with
  | some result =>
    have answered : verifyAtoms host (policyEvaluator engine) ctx atoms = Except.ok result := by
      unfold verifyAtoms
      rw [early]
      rfl
    rw [answered]
    exact (refuses_ok result).mpr (earlyResult_blocks threaded early)
  | none =>
    rw [verifyAtoms_eq early]
    simp only [early] at notAsked
    cases subject : reflectsOn ctx.preCheck with
    | some actionName =>
      simp only [gateSubject, subject] at notAsked
      obtain ⟨err, result, notAdvisory⟩ := evaluateGate_of_not_asked ctx notAsked
      simp only [result, outputOf]
      exact (refuses_postCheck_error err).mpr fun alignment chain advisory =>
        notAdvisory ⟨alignment, chain, advisory⟩
    | none =>
      simp only [gateSubject, subject] at notAsked
      obtain ⟨err, result, -⟩ := evaluateGate_of_not_asked ctx notAsked
      simp only [result]
      exact refuses_preCheck_error err

section

variable (asked : askedFacts host engine ctx atoms = some facts)

include asked

theorem verifyAtoms_of_asked (subject : reflectsOn ctx.preCheck = none) :
    verifyAtoms host (policyEvaluator engine) ctx atoms =
      preCheckResult (decisionOf (checkHalts engine ctx "" entityInput facts)) := by
  unfold askedFacts at asked
  cases early : earlyResult ctx atoms with
  | some result => simp [early] at asked
  | none =>
    simp only [early, gateSubject, subject] at asked
    rw [verifyAtoms_eq early, subject]
    simp only [evaluateGate_of_asked ctx asked]

/-- A verification that does not reflect on an output judges the halts of the
request. -/
theorem refuses_verify_input (subject : reflectsOn ctx.preCheck = none) :
    Refuses (verifyAtoms host (policyEvaluator engine) ctx atoms) ↔
      ¬ (answersOf engine ctx entityInput facts).PassesInput := by
  rw [verifyAtoms_of_asked asked subject, (checkHalts_checked ..).refuses_input_iff]

theorem refuses_verify_output (subject : reflectsOn ctx.preCheck = some actionName) :
    Refuses (verifyAtoms host (policyEvaluator engine) ctx atoms) ↔
      ¬ (answersOf engine ctx entityOutput facts).PassesOutput := by
  unfold askedFacts at asked
  cases early : earlyResult ctx atoms with
  | some result => simp [early] at asked
  | none =>
    simp only [early, gateSubject, subject] at asked
    rw [verifyAtoms_eq early, subject,
      ← (checkHalts_checked engine ctx actionName entityOutput facts).refuses_output_iff
        (assessmentEnvelope host ctx.preCheck atoms)]
    simp only [evaluateGate_of_asked ctx asked]

end

end Verification

/-! ## Recorded executions -/

abbrev Recorded := ExceptT Panic (StateM (List Envelope))

def observing {α : Type} (read : List Envelope → α) : Recorded α :=
  ExceptT.mk fun record => (.ok (read record), record)

theorem observing_bind_run {α β : Type} (read : List Envelope → α) (next : α → Recorded β)
    (record : List Envelope) :
    (observing read >>= next).run.run record = (next (read record)).run.run record := rfl

theorem recorded_bind_run {α β : Type} (first : Recorded α) (next : α → Recorded β)
    (record : List Envelope) :
    (first >>= next).run.run record =
      match first.run.run record with
      | (.error panic, after) => (.error panic, after)
      | (.ok value, after) => (next value).run.run after := by
  change (ExceptT.bindCont next (first.run.run record).1).run (first.run.run record).2 = _
  rcases first.run.run record with ⟨panic | value, after⟩ <;> rfl

theorem orPanic_ok_bind {α β : Type} (value : α) (next : α → Recorded β) :
    (orPanic (.ok value) >>= next) = next value := rfl

/-- A supervised action in its surroundings: the policy engine, whose answers may
depend on what has run, the behaviour of the inner action, and the extractor. -/
structure Deployment where
  host : Host
  engine : List Envelope → PolicyEngine Id
  metadata : ActionMetadata
  respond : Context → Envelope → Except Panic (Except GoError Envelope)
  extractor : Option (Context → String → Except GoError Value) := none

variable {ctx : Context}

namespace Deployment

variable (deployment : Deployment)

def evaluator : Evaluator Recorded where
  assessPlan ctx env := observing fun record => assessPlan (deployment.engine record) ctx env
  reflect ctx actionMeta env :=
    observing fun record => reflect (deployment.engine record) ctx actionMeta env

def innerAction : Action Recorded where
  metadata := deployment.metadata
  execute ctx env := ExceptT.mk fun record => (deployment.respond ctx env, record ++ [env])

def action : SupervisedActionV2 Recorded :=
  { newSupervisedActionFromSDK deployment.host deployment.innerAction deployment.evaluator with
    extractor := deployment.extractor.map fun extract ctx text =>
      (pure (extract ctx text) : Recorded (Except GoError Value)) }

/-- Execute the supervised action: what it returns, and what the inner action was
run on. -/
def run (ctx : Context) (input : Envelope) :
    Except Panic (Except GoError Envelope) × List Envelope :=
  (deployment.action.execute ctx input).run.run []

def Runs (ctx : Context) (input : Envelope) : Prop := (deployment.run ctx input).2 ≠ []

def Releases (ctx : Context) (input : Envelope) : Prop :=
  ∃ output, (deployment.run ctx input).1 = .ok (.ok output)

/-! ### The stages of an execution -/

def extracted (ctx : Context) (payload : Value) : Except GoError Value :=
  match deployment.extractor, payload.string? with
  | some extract, some text =>
    match extract ctx text with
    | .error err => .error (.wrap "extraction failed (fail-closed)" err)
    | .ok value => .ok value
  | _, _ => .ok payload

def inputContext (ctx : Context) (input : Envelope) : Context :=
  ctx.withPreCheck (preCheckContext deployment.metadata.name input)

def outputContext (ctx : Context) (input : Envelope) : Context :=
  ctx.withPreCheck
    { preCheckContext deployment.metadata.name input with entityID := entityOutput }

theorem reflectsOn_outputContext (ctx : Context) (input : Envelope) :
    reflectsOn (deployment.outputContext ctx input).preCheck =
      if deployment.metadata.name = "" then none else some deployment.metadata.name := by
  by_cases unnamed : deployment.metadata.name = "" <;>
    simp [reflectsOn, Context.withPreCheck, preCheckContext, outputContext, unnamed]

def inputVerdict (ctx : Context) (input : Envelope) (quads : List Quad) :
    Except GoError AuditResult :=
  verifyAtoms deployment.host (policyEvaluator (deployment.engine []))
    (deployment.inputContext ctx input) (quadAtoms quads)

def innerEnvelope (payload : Value) (quads : List Quad) : Envelope :=
  { payload
    facts := quads.filterMap fun quad =>
      let fact := atomToDatalog quad.predicate quad.subject quad.object
      if fact = "" then none else some fact }

def outputVerdict (ctx : Context) (input inner : Envelope) (quads : List Quad) :
    Except GoError AuditResult :=
  verifyAtoms deployment.host (policyEvaluator (deployment.engine [inner]))
    (deployment.outputContext ctx input) (quadAtoms quads)

variable {deployment} in
theorem extract_eq (ctx : Context) (payload : Value) :
    deployment.action.extract ctx payload =
      (pure (deployment.extracted ctx payload) : Recorded (Except GoError Value)) := by
  unfold SupervisedActionV2.extract extracted
  simp only [action, newSupervisedActionFromSDK]
  cases deployment.extractor with
  | none => rfl
  | some extract =>
    cases payload.string? with
    | none => rfl
    | some text =>
      simp only [Option.map_some]
      cases extract ctx text <;> rfl

variable {deployment} in
theorem verifyAtoms_observing (ctx : Context) (atoms : List Atom) :
    verifyAtoms deployment.host deployment.evaluator ctx atoms =
      observing fun record =>
        verifyAtoms deployment.host (policyEvaluator (deployment.engine record)) ctx atoms := by
  unfold verifyAtoms
  cases earlyResult ctx atoms with
  | some result => rfl
  | none => cases reflectsOn ctx.preCheck <;> rfl

variable {deployment}

/-- The record does not change while an output is checked, and the output comes
out, with the facts of its payload, exactly if its check does not refuse. -/
theorem release_run {pc : PreCheckContext} (threaded : ctx.preCheck = some pc) (result : Envelope)
    (record : List Envelope) :
    ∃ outcome, (deployment.action.inner.release ctx result).run.run record = (outcome, record) ∧
      ∀ released, outcome = .ok (released, none) ↔
        ∃ quads, flattenToQuads entityOutput result.payload = .ok quads ∧
          ¬ Refuses (verifyAtoms deployment.host (policyEvaluator (deployment.engine record))
            (ctx.withPreCheck { pc with entityID := entityOutput }) (quadAtoms quads)) ∧
          { result with contextFacts := result.contextFacts ++ quads } = released := by
  have verifies : deployment.action.inner.verifyAtoms =
      verifyAtoms deployment.host deployment.evaluator := rfl
  unfold SupervisedAction.release
  rw [verifies]
  cases flattened : flattenToQuads entityOutput result.payload with
  | error panic => exact ⟨.error panic, rfl, by simp⟩
  | ok quads =>
    simp only [threaded, verifyAtoms_observing, orPanic_ok_bind, observing_bind_run,
      Except.ok.injEq, exists_eq_left']
    generalize verifyAtoms deployment.host (policyEvaluator (deployment.engine record))
      (ctx.withPreCheck { pc with entityID := entityOutput }) (quadAtoms quads) = verdict
    rcases verdict with err | verdict
    · exact ⟨_, rfl, by simp [refuses_error]⟩
    · by_cases blocked : verdict.blocks = true
      · simp only [if_pos blocked]
        exact ⟨_, rfl, by simp [refuses_ok, blocked]⟩
      · simp only [if_neg blocked]
        exact ⟨_, rfl, by simp [refuses_ok, blocked]⟩

def returned : Except Panic (Envelope × Option GoError) → Except Panic (Except GoError Envelope)
  | .error panic => .error panic
  | .ok (_, some err) => .ok (.error err)
  | .ok (result, none) => .ok (.ok result)

theorem returned_eq_ok_iff (outcome : Except Panic (Envelope × Option GoError))
    (output : Envelope) : returned outcome = .ok (.ok output) ↔ outcome = .ok (output, none) := by
  rcases outcome with panic | ⟨result, _ | err⟩ <;> simp [returned]

/-- Panics and errors of the inner action are passed on, its results go to the check of
the output. -/
def relayed (release : Envelope → Except Panic (Envelope × Option GoError)) :
    Except Panic (Except GoError Envelope) → Except Panic (Except GoError Envelope)
  | .error panic => .error panic
  | .ok (.error err) => .ok (.error err)
  | .ok (.ok result) => returned (release result)

variable (deployment) in
def releaseOutcome (ctx : Context) (input inner result : Envelope) :
    Except Panic (Envelope × Option GoError) :=
  ((deployment.action.inner.release (deployment.inputContext ctx input) result).run.run [inner]).1

theorem attachTrail_payload (trail : Option AuditTrail) (result : Envelope) :
    (attachTrail trail result).payload = result.payload := by
  cases trail <;> rfl

section

variable {input : Envelope} {payload : Value} {quads : List Quad} {verdict : AuditResult}
  (extraction : deployment.extracted ctx input.payload = .ok payload)
  (flattened : flattenToQuads entityInput payload = .ok quads)
  (judged : deployment.inputVerdict ctx input quads = .ok verdict) (passed : verdict.blocks = false)

include extraction flattened judged passed

/-- After the input was accepted, the inner action runs once, and its answer is relayed
with the trail of the check. -/
theorem run_of_accepted :
    deployment.run ctx input =
      (relayed (fun result => deployment.releaseOutcome ctx input (innerEnvelope payload quads)
          (attachTrail verdict.trail result))
        (deployment.respond (deployment.inputContext ctx input) (innerEnvelope payload quads)),
        [innerEnvelope payload quads]) := by
  have verifies : deployment.action.inner.verifyAtoms =
      verifyAtoms deployment.host deployment.evaluator := rfl
  unfold run SupervisedActionV2.execute SupervisedAction.executeInternal
  rw [extract_eq, extraction, verifies]
  have start : verifyAtoms deployment.host (policyEvaluator (deployment.engine []))
      (ctx.withPreCheck (preCheckContext deployment.action.wrapped.metadata.name input))
      (quadAtoms quads) = Except.ok verdict := judged
  simp only [pure_bind, flattened, orPanic_ok_bind, bind_assoc, verifyAtoms_observing,
    observing_bind_run, start, passed, Bool.false_eq_true, if_false]
  have inner : ((deployment.action.inner.inner
      (ctx.withPreCheck (preCheckContext deployment.action.wrapped.metadata.name input))
      { payload := payload, contextFacts := quads }).run.run []) =
        (deployment.respond (deployment.inputContext ctx input) (innerEnvelope payload quads),
          [innerEnvelope payload quads]) := rfl
  rw [recorded_bind_run, inner]
  rcases deployment.respond (deployment.inputContext ctx input) (innerEnvelope payload quads) with
    panic | err | result
  · rfl
  · rfl
  · have threaded : (deployment.inputContext ctx input).preCheck =
        some (preCheckContext deployment.metadata.name input) := rfl
    obtain ⟨outcome, released, -⟩ := release_run threaded
      (attachTrail verdict.trail result) [innerEnvelope payload quads]
    change ((deployment.action.inner.release (deployment.inputContext ctx input)
      (attachTrail verdict.trail result) >>= _).run.run [innerEnvelope payload quads]) = _
    rw [recorded_bind_run, released]
    simp only [relayed, releaseOutcome, released]
    rcases outcome with panic | ⟨output, _ | err⟩ <;> rfl

/-- After the input was accepted, the inner action runs once; what it returns is
released exactly if the check of the output does not refuse. -/
theorem accepted_run :
    ∃ outcome, deployment.run ctx input = (outcome, [innerEnvelope payload quads]) ∧
      ((∃ output, outcome = .ok (.ok output)) ↔
        ∃ result outQuads,
          deployment.respond (deployment.inputContext ctx input) (innerEnvelope payload quads) =
              .ok (.ok result) ∧
            flattenToQuads entityOutput result.payload = .ok outQuads ∧
            ¬ Refuses (deployment.outputVerdict ctx input (innerEnvelope payload quads)
              outQuads)) := by
  refine ⟨_, run_of_accepted extraction flattened judged passed, ?_⟩
  rcases deployment.respond (deployment.inputContext ctx input) (innerEnvelope payload quads) with
    panic | err | result
  · simp [relayed]
  · simp [relayed]
  · have threaded : (deployment.inputContext ctx input).preCheck =
        some (preCheckContext deployment.metadata.name input) := rfl
    obtain ⟨outcome, released, passes⟩ := release_run threaded
      (attachTrail verdict.trail result) [innerEnvelope payload quads]
    rw [attachTrail_payload] at passes
    have released : deployment.releaseOutcome ctx input (innerEnvelope payload quads)
        (attachTrail verdict.trail result) = outcome := congrArg Prod.fst released
    simp only [relayed, released, returned_eq_ok_iff, passes, Except.ok.injEq, exists_and_left,
      exists_eq_left']
    constructor
    · rintro ⟨output, outQuads, outFlattened, accepted, -⟩
      exact ⟨outQuads, outFlattened, accepted⟩
    · rintro ⟨outQuads, outFlattened, accepted⟩
      exact ⟨_, outQuads, outFlattened, accepted, rfl⟩

end

/-- An input that is refused, or that does not come to be verified, leaves the
inner action alone and returns no output. -/
theorem refused_run {input : Envelope}
    (refused : ∀ payload quads, deployment.extracted ctx input.payload = .ok payload →
      flattenToQuads entityInput payload = .ok quads →
        Refuses (deployment.inputVerdict ctx input quads)) :
    ∃ outcome, deployment.run ctx input = (outcome, []) ∧ ∀ output, outcome ≠ .ok (.ok output) := by
  have verifies : deployment.action.inner.verifyAtoms =
      verifyAtoms deployment.host deployment.evaluator := rfl
  unfold run SupervisedActionV2.execute SupervisedAction.executeInternal
  rw [extract_eq, verifies]
  cases extraction : deployment.extracted ctx input.payload with
  | error err => exact ⟨_, rfl, by simp⟩
  | ok payload =>
    simp only [pure_bind]
    cases flattened : flattenToQuads entityInput payload with
    | error panic => exact ⟨.error panic, rfl, by simp⟩
    | ok quads =>
      have verdict := refused payload quads extraction flattened
      simp only [orPanic_ok_bind, bind_assoc, verifyAtoms_observing, observing_bind_run]
      change Refuses (verifyAtoms deployment.host (policyEvaluator (deployment.engine []))
        (ctx.withPreCheck (preCheckContext deployment.action.wrapped.metadata.name input))
        (quadAtoms quads)) at verdict
      generalize verifyAtoms deployment.host (policyEvaluator (deployment.engine []))
        (ctx.withPreCheck (preCheckContext deployment.action.wrapped.metadata.name input))
        (quadAtoms quads) = judged at verdict ⊢
      rcases judged with err | result
      · exact ⟨_, rfl, by simp⟩
      · have blocked := (refuses_ok result).mp verdict
        simp only [blocked, if_true]
        exact ⟨_, rfl, by simp⟩

theorem runs_iff (ctx : Context) (input : Envelope) :
    deployment.Runs ctx input ↔
      ∃ payload quads, deployment.extracted ctx input.payload = .ok payload ∧
        flattenToQuads entityInput payload = .ok quads ∧
        ¬ Refuses (deployment.inputVerdict ctx input quads) := by
  constructor
  · intro runs
    by_contra none
    push Not at none
    obtain ⟨outcome, ran, -⟩ := refused_run none
    exact runs (by rw [ran])
  · rintro ⟨payload, quads, extraction, flattened, accepted⟩
    obtain ⟨verdict, judged, passed⟩ := (not_refuses_iff _).mp accepted
    obtain ⟨outcome, ran, -⟩ := accepted_run extraction flattened judged passed
    simp [Runs, ran]

/-- An output is released exactly if neither check refuses and the inner action
returned it. -/
theorem releases_iff (ctx : Context) (input : Envelope) :
    deployment.Releases ctx input ↔
      ∃ payload quads result outQuads, deployment.extracted ctx input.payload = .ok payload ∧
        flattenToQuads entityInput payload = .ok quads ∧
        ¬ Refuses (deployment.inputVerdict ctx input quads) ∧
        deployment.respond (deployment.inputContext ctx input) (innerEnvelope payload quads) =
          .ok (.ok result) ∧
        flattenToQuads entityOutput result.payload = .ok outQuads ∧
        ¬ Refuses (deployment.outputVerdict ctx input (innerEnvelope payload quads) outQuads) := by
  constructor
  · rintro ⟨output, released⟩
    by_contra none
    push Not at none
    by_cases accepted : ∃ payload quads, deployment.extracted ctx input.payload = .ok payload ∧
        flattenToQuads entityInput payload = .ok quads ∧
        ¬ Refuses (deployment.inputVerdict ctx input quads)
    · obtain ⟨payload, quads, extraction, flattened, accepted⟩ := accepted
      obtain ⟨verdict, judged, passed⟩ := (not_refuses_iff _).mp accepted
      obtain ⟨outcome, ran, releases⟩ := accepted_run extraction flattened judged passed
      rw [ran] at released
      obtain ⟨result, outQuads, responded, outFlattened, outAccepted⟩ :=
        releases.mp ⟨output, released⟩
      exact outAccepted (none payload quads result outQuads extraction flattened accepted
        responded outFlattened)
    · push Not at accepted
      obtain ⟨outcome, ran, withheld⟩ := refused_run accepted
      rw [ran] at released
      exact withheld output released
  · rintro ⟨payload, quads, result, outQuads, extraction, flattened, accepted, responded,
      outFlattened, outAccepted⟩
    obtain ⟨verdict, judged, passed⟩ := (not_refuses_iff _).mp accepted
    obtain ⟨outcome, ran, releases⟩ := accepted_run extraction flattened judged passed
    obtain ⟨output, released⟩ :=
      releases.mpr ⟨result, outQuads, responded, outFlattened, outAccepted⟩
    exact ⟨output, by rw [ran]; exact released⟩

end Deployment

end Manglekit.Supervisor

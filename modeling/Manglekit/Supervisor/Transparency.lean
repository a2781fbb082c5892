import Manglekit.Supervisor.QueryErrors

/-!
# What supervision changes when nothing is denied

The caller's envelope is taken apart on the way in.  The inner action is handed the
payload and the facts rendered from it; the metadata, the labels, the content type and
the caller's own facts stay behind.
-/

namespace Manglekit.Supervisor

open Core Engine

variable {answers : GateAnswers} {ctx : Context} {input result : Envelope}

namespace GateAnswers

structure NoHalts (answers : GateAnswers) : Prop where
  tiered : answers.tieredHalts = []
  untiered : answers.untieredHalts = []
  denied : answers.denied ≠ .ok true

/-- The queries behind the tiered one end without an error. -/
def Answered (answers : GateAnswers) : Prop :=
  answers.untiered.err = none ∧ ∃ found, answers.denied = .ok found

/-- The queries behind the tiered one end without an error, or in one that counts as
advisory. -/
def Tolerated (answers : GateAnswers) : Prop :=
  (∃ err, answers.untiered.err = some err ∧ AdvisoryError err) ∨
    (answers.untiered.err = none ∧ ((∃ found, answers.denied = .ok found) ∨
      ∃ err, answers.denied = .error err ∧ AdvisoryError err))

section

variable (none : answers.NoHalts)

include none

theorem NoHalts.denied_eq_false_iff :
    answers.denied = .ok false ↔ ∃ found, answers.denied = .ok found := by
  constructor
  · intro answered
    exact ⟨false, answered⟩
  · rintro ⟨_ | _, answered⟩
    · exact answered
    · exact absurd answered none.denied

theorem NoHalts.passesInput_iff :
    answers.PassesInput ↔ answers.Answered := by
  rw [PassesInput, Answered, none.denied_eq_false_iff]
  simp [none.tiered, none.untiered]

theorem NoHalts.passesOutput_iff :
    answers.PassesOutput ↔ answers.Tolerated := by
  rw [PassesOutput, Tolerated, none.denied_eq_false_iff]
  simp [none.tiered, none.untiered]

end

end GateAnswers

structure Forwards (input inner : Envelope) : Prop where
  payload : inner.payload = input.payload
  metadata : inner.metadata = input.metadata
  securityLabels : inner.securityLabels = input.securityLabels
  facts : inner.facts = input.facts
  contentType : inner.contentType = input.contentType

/-- The answer of the inner action is passed on, a result up to the entry with the audit
trail and appended context facts. -/
inductive Relays : Except Panic (Except GoError Envelope) →
    Except Panic (Except GoError Envelope) → Prop
  | panic (reason : Panic) : Relays (.error reason) (.error reason)
  | error (err : GoError) : Relays (.ok (.error err)) (.ok (.error err))
  | result (trail : Option AuditTrail) (quads : List Quad) (result : Envelope) :
      Relays (.ok (.ok result)) (.ok (.ok
        { attachTrail trail result with contextFacts := result.contextFacts ++ quads }))

variable {inner : Envelope}

namespace Deployment

variable (deployment : Deployment)

/-- No halt is derivable when the input and the output of the execution are checked. -/
structure NothingDenied (ctx : Context) (input : Envelope) : Prop where
  onInput : ∀ facts, deployment.inputAsked ctx input = some facts →
    (deployment.inputAnswers ctx input facts).NoHalts
  onOutput : ∀ inner result facts, deployment.Responds ctx input inner result →
    deployment.outputAsked ctx input inner result = some facts →
      (deployment.outputAnswers ctx input inner facts).NoHalts

/-- The inner action is run exactly once, on what the caller gave, and its answer is
passed on. -/
def Transparent (ctx : Context) (input : Envelope) : Prop :=
  ∃ inner, (deployment.run ctx input).2 = [inner] ∧ Forwards input inner ∧
    Relays (deployment.respond (deployment.inputContext ctx input) inner)
      (deployment.run ctx input).1

def InputAnswered (ctx : Context) (input : Envelope) : Prop :=
  ∃ facts, deployment.inputAsked ctx input = some facts ∧
    (deployment.inputAnswers ctx input facts).Answered

def OutputAnswered (ctx : Context) (input inner result : Envelope) : Prop :=
  ∃ facts, deployment.outputAsked ctx input inner result = some facts ∧
    if deployment.metadata.name = "" then
      (deployment.outputAnswers ctx input inner facts).Answered
    else (deployment.outputAnswers ctx input inner facts).Tolerated

/-- The caller gives nothing but a payload and the facts rendered from it, and the engine
answers about the request and about every result. -/
structure Unaltered (ctx : Context) (input : Envelope) : Prop where
  asked : deployment.InputAnswered ctx input
  metadata : input.metadata = ∅
  securityLabels : input.securityLabels = []
  contentType : input.contentType = .unset
  facts : ∀ quads, flattenToQuads entityInput input.payload = .ok quads →
    input.facts = (innerEnvelope input.payload quads).facts
  answered : ∀ inner result, deployment.Responds ctx input inner result →
    deployment.OutputAnswered ctx input inner result

variable {deployment}

theorem runs_iff_inputAnswered (nothingDenied : deployment.NothingDenied ctx input) :
    deployment.Runs ctx input ↔ deployment.InputAnswered ctx input := by
  rw [runs_iff_passesInput]
  refine exists_congr fun facts => and_congr_right fun asked => ?_
  exact (nothingDenied.onInput facts asked).passesInput_iff

theorem passesRelease_iff_outputAnswered (nothingDenied : deployment.NothingDenied ctx input)
    (responds : deployment.Responds ctx input inner result) :
    (∃ facts, deployment.outputAsked ctx input inner result = some facts ∧
        deployment.PassesRelease (deployment.outputAnswers ctx input inner facts)) ↔
      deployment.OutputAnswered ctx input inner result := by
  refine exists_congr fun facts => and_congr_right fun asked => ?_
  have noHalts := nothingDenied.onOutput inner result facts responds asked
  unfold PassesRelease
  split_ifs
  · exact noHalts.passesInput_iff
  · exact noHalts.passesOutput_iff

theorem exists_accepted (plain : deployment.extractor = none) (runs : deployment.Runs ctx input) :
    ∃ quads verdict, flattenToQuads entityInput input.payload = .ok quads ∧
      deployment.extracted ctx input.payload = .ok input.payload ∧
      deployment.inputVerdict ctx input quads = .ok verdict ∧ verdict.blocks = false := by
  obtain ⟨payload, quads, extraction, flattened, accepted⟩ := (runs_iff ctx input).mp runs
  obtain ⟨verdict, judged, passed⟩ := (not_refuses_iff _).mp accepted
  have unchanged : deployment.extracted ctx input.payload = .ok input.payload := by
    simp [extracted, plain]
  cases unchanged.symm.trans extraction
  exact ⟨quads, verdict, flattened, unchanged, judged, passed⟩

/-- A result that passes its check is released, with the trail of the check of the input
and the facts of its payload. -/
theorem releaseOutcome_of_passes {facts : List Datalog.Atom}
    (asked : deployment.outputAsked ctx input inner result = some facts)
    (passes : deployment.PassesRelease (deployment.outputAnswers ctx input inner facts))
    (trail : Option AuditTrail) :
    ∃ quads, deployment.releaseOutcome ctx input inner (attachTrail trail result) =
      .ok ({ attachTrail trail result with contextFacts := result.contextFacts ++ quads },
        none) := by
  cases flattened : flattenToQuads entityOutput result.payload with
  | error panic => simp [outputAsked, flattened] at asked
  | ok quads =>
    have accepted := (refuses_outputVerdict_iff flattened).mpr ⟨facts, asked, passes⟩
    have contextFacts : (attachTrail trail result).contextFacts = result.contextFacts := by
      cases trail <;> rfl
    have threaded : (deployment.inputContext ctx input).preCheck =
        some (preCheckContext deployment.metadata.name input) := rfl
    obtain ⟨outcome, checked, released⟩ := release_run threaded (attachTrail trail result) [inner]
    have ended := (released _).mpr
      ⟨quads, (attachTrail_payload trail result).symm ▸ flattened, accepted, rfl⟩
    rw [contextFacts] at ended
    exact ⟨quads, (congrArg Prod.fst checked).trans ended⟩

/-- When nothing is denied and nothing extracted, supervision is transparent exactly for
the requests that it leaves unaltered. -/
theorem transparent_iff_unaltered (plain : deployment.extractor = none) (ctx : Context)
    (input : Envelope) (nothingDenied : deployment.NothingDenied ctx input) :
    deployment.Transparent ctx input ↔ deployment.Unaltered ctx input := by
  constructor
  · rintro ⟨inner, ran, forwards, relays⟩
    have runs : deployment.Runs ctx input := by simp [Runs, ran]
    obtain ⟨quads, verdict, flattened, unchanged, -, -⟩ := exists_accepted plain runs
    obtain rfl : innerEnvelope input.payload quads = inner :=
      List.singleton_inj.mp ((record_of_runs runs unchanged flattened).symm.trans ran)
    refine ⟨(runs_iff_inputAnswered nothingDenied).mp runs, forwards.metadata.symm,
      forwards.securityLabels.symm, forwards.contentType.symm, ?_, ?_⟩
    · intro others otherFlattened
      cases flattened.symm.trans otherFlattened
      exact forwards.facts.symm
    · rintro inner result responds
      have responded := responds.2
      obtain rfl := List.singleton_inj.mp (ran.symm.trans responds.1)
      rw [responded] at relays
      have releases : deployment.Releases ctx input := by
        generalize outcome : (deployment.run ctx input).1 = final at relays
        cases relays with
        | result trail quads => exact ⟨_, outcome⟩
      rw [← passesRelease_iff_outputAnswered nothingDenied responds]
      exact (releases_iff_passesRelease responds).mp releases
  · intro unaltered
    obtain ⟨quads, verdict, flattened, unchanged, judged, passed⟩ :=
      exists_accepted plain ((runs_iff_inputAnswered nothingDenied).mpr unaltered.asked)
    have run := run_of_accepted unchanged flattened judged passed
    refine ⟨innerEnvelope input.payload quads, by rw [run], ?_, ?_⟩
    · exact ⟨rfl, unaltered.metadata.symm, unaltered.securityLabels.symm,
        (unaltered.facts quads flattened).symm, unaltered.contentType.symm⟩
    · rcases responded : deployment.respond (deployment.inputContext ctx input)
        (innerEnvelope input.payload quads) with panic | err | result
      · rw [run, responded]
        exact .panic panic
      · rw [run, responded]
        exact .error err
      · have responds : deployment.Responds ctx input (innerEnvelope input.payload quads) result :=
          ⟨by rw [run], responded⟩
        obtain ⟨facts, asked, passes⟩ := (passesRelease_iff_outputAnswered nothingDenied
          responds).mpr (unaltered.answered _ result responds)
        obtain ⟨outQuads, released⟩ := releaseOutcome_of_passes asked passes verdict.trail
        rw [run, responded]
        simp only [relayed, released]
        exact .result verdict.trail outQuads result

end Deployment

/-- On a request without a payload the action `send` is run on an empty envelope and
returns it. -/
theorem send_responds (noPayload : input.payload = .nil)
    (responds : (sendUnder []).Responds {} input inner result) : inner = {} ∧ result = {} := by
  have runs : (sendUnder []).Runs {} input := by simp [Deployment.Runs, responds.1]
  have extraction : (sendUnder []).extracted {} input.payload = .ok .nil := by
    rw [noPayload]
    rfl
  have ran := Deployment.record_of_runs runs extraction rfl
  obtain rfl : {} = inner := List.singleton_inj.mp (ran.symm.trans responds.1)
  exact ⟨rfl, (Except.ok.inj (Except.ok.inj responds.2)).symm⟩

/-- Nothing is denied to a request without a payload if the engine finds no halt in the
facts of the request and of an empty result. -/
theorem send_nothingDenied {input : Envelope} {inFacts outFacts : List Datalog.Atom}
    (noPayload : input.payload = .nil)
    (asked : (sendUnder []).inputAsked {} input = some inFacts)
    (outAsked : (sendUnder []).outputAsked {} input {} {} = some outFacts)
    (onInput : ((sendUnder []).inputAnswers {} input inFacts).NoHalts)
    (onOutput : ((sendUnder []).outputAnswers {} input {} outFacts).NoHalts) :
    (sendUnder []).NothingDenied {} input where
  onInput facts found := by
    cases asked.symm.trans found
    exact onInput
  onOutput inner result facts responds found := by
    obtain ⟨rfl, rfl⟩ := send_responds noPayload responds
    cases outAsked.symm.trans found
    exact onOutput

/-- A request without any content goes through unaltered. -/
theorem bareRequest_transparent :
    (sendUnder []).extractor = none ∧ (sendUnder []).NothingDenied {} {} ∧
      (sendUnder []).Transparent {} {} := by
  have asked : (sendUnder []).inputAsked {} {} =
      some [Reference.stringAtom "action_operation" ["Req", "send"]] := by decide +kernel
  have outAsked : (sendUnder []).outputAsked {} {} {} {} =
      some [Reference.stringAtom "action_operation" ["Output", "send"]] := by decide +kernel
  have nothingDenied : (sendUnder []).NothingDenied {} {} :=
    send_nothingDenied rfl asked outAsked
      ⟨by decide +kernel, by decide +kernel, by decide +kernel⟩
      ⟨by decide +kernel, by decide +kernel, by decide +kernel⟩
  refine ⟨rfl, nothingDenied,
    (Deployment.transparent_iff_unaltered rfl {} {} nothingDenied).mpr ?_⟩
  refine ⟨⟨_, asked, by decide +kernel, false, by decide +kernel⟩, rfl, rfl, rfl, ?_, ?_⟩
  · intro quads flattened
    cases flattened
    rfl
  · intro inner result responds
    obtain ⟨rfl, rfl⟩ := send_responds rfl responds
    exact ⟨_, outAsked, .inr ⟨by decide +kernel, .inl ⟨false, by decide +kernel⟩⟩⟩

/-- No halt can be derived under the empty policy, and the label of the request does not
reach the inner action. -/
theorem label_left_behind :
    (sendUnder []).extractor = none ∧ (sendUnder []).NothingDenied {} secretInput ∧
      ¬ (sendUnder []).Transparent {} secretInput := by
  have nothingDenied : (sendUnder []).NothingDenied {} secretInput :=
    @send_nothingDenied _ secretFacts [Reference.stringAtom "label" ["secret"],
        Reference.stringAtom "action_operation" ["Output", "send"]]
      rfl (by decide +kernel) (by decide +kernel)
      ⟨by decide +kernel, by decide +kernel, by decide +kernel⟩
      ⟨by decide +kernel, by decide +kernel, by decide +kernel⟩
  refine ⟨rfl, nothingDenied, ?_⟩
  rintro ⟨inner, ran, forwards, -⟩
  have unlabelled : ((sendUnder []).run {} secretInput).2.map (·.securityLabels) = [[]] := by
    decide +kernel
  rw [ran, List.map_singleton, forwards.securityLabels] at unlabelled
  simp [secretInput] at unlabelled

end Manglekit.Supervisor

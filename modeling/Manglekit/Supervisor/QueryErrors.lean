import Manglekit.Supervisor.FailClosed

/-!
# Errors of the halt queries

A halt query may report some solutions and then fail.  This module says on which
answers an execution goes on although one of its halt queries has failed.
-/

namespace Manglekit.Supervisor

open Core Engine

variable {answers : GateAnswers}

namespace GateAnswers

def FindNothing (answers : GateAnswers) : Prop :=
  answers.tieredHalts = [] ∧ answers.untiered.err = none ∧ answers.untieredHalts = [] ∧
    answers.denied = .ok false

/-- The tiered query failed, but it had reported only advisory halts, or nothing
and neither did the fallback queries. -/
def OverlookInputError (answers : GateAnswers) : Prop :=
  answers.tiered.err ≠ none ∧
    ((answers.tieredHalts ≠ [] ∧ ∀ halt ∈ answers.tieredHalts, Advisory halt.tier) ∨
      answers.FindNothing)

/-- The tiered query failed, but the best of what it had reported is advisory, or
there was nothing to find; or a fallback query failed in an error that carries
an advisory tier. -/
def OverlookOutputError (answers : GateAnswers) : Prop :=
  (answers.tiered.err ≠ none ∧
      (((∃ halt ∈ answers.tieredHalts, Advisory halt.tier) ∧
          ∀ halt ∈ answers.tieredHalts, ¬ Binding halt.tier) ∨
        answers.FindNothing)) ∨
    (answers.tieredHalts = [] ∧ ∃ err, answers.untiered.err = some err ∧ AdvisoryError err) ∨
    (answers.tieredHalts = [] ∧ answers.untiered.err = none ∧ answers.untieredHalts = [] ∧
      ∃ err, answers.denied = .error err ∧ AdvisoryError err)

section

variable (fails : answers.Fails)

include fails

/-- When a halt query fails and the tiered one did not, the failure is among the
fallback queries and there were no tiered halts. -/
theorem Fails.fallback (tieredSucceeds : answers.tiered.err = none) :
    answers.tieredHalts = [] ∧
      (answers.untiered.err ≠ none ∨
        (answers.untieredHalts = [] ∧ ∃ err, answers.denied = .error err)) :=
  fails.resolve_left fun failed => failed tieredSucceeds

theorem passesInput_iff_of_fails :
    answers.PassesInput ↔ answers.OverlookInputError := by
  constructor
  · intro passes
    refine ⟨fun tieredSucceeds => ?_, passes⟩
    obtain ⟨noneTiered, failure⟩ := fails.fallback tieredSucceeds
    rcases passes with ⟨some, -⟩ | ⟨-, untieredSucceeds, -, notDenied⟩
    · exact some noneTiered
    · rcases failure with failed | ⟨-, err, failed⟩
      · exact failed untieredSucceeds
      · simp [failed] at notDenied
  · exact fun overlooked => overlooked.2

theorem passesOutput_iff_of_fails :
    answers.PassesOutput ↔ answers.OverlookOutputError := by
  constructor
  · intro passes
    by_cases tieredSucceeds : answers.tiered.err = none
    · obtain ⟨noneTiered, failure⟩ := fails.fallback tieredSucceeds
      rcases passes with ⟨⟨halt, member, -⟩, -⟩ | ⟨-, ⟨err, failed, advisory⟩ |
          ⟨untieredSucceeds, noneUntiered, notDenied | ⟨err, failed, advisory⟩⟩⟩
      · simp [noneTiered] at member
      · exact .inr (.inl ⟨noneTiered, err, failed, advisory⟩)
      · rcases failure with failed | ⟨-, err, failed⟩
        · exact absurd untieredSucceeds failed
        · simp [failed] at notDenied
      · exact .inr (.inr ⟨noneTiered, untieredSucceeds, noneUntiered, err, failed, advisory⟩)
    · rcases passes with advisory | ⟨noneTiered, ⟨err, failed, advisory⟩ |
          ⟨untieredSucceeds, noneUntiered, notDenied | ⟨err, failed, advisory⟩⟩⟩
      · exact .inl ⟨tieredSucceeds, .inl advisory⟩
      · exact .inr (.inl ⟨noneTiered, err, failed, advisory⟩)
      · exact .inl ⟨tieredSucceeds, .inr ⟨noneTiered, untieredSucceeds, noneUntiered, notDenied⟩⟩
      · exact .inr (.inr ⟨noneTiered, untieredSucceeds, noneUntiered, err, failed, advisory⟩)
  · rintro (⟨-, advisory | nothing⟩ | ⟨noneTiered, failure⟩ |
      ⟨noneTiered, untieredSucceeds, noneUntiered, failure⟩)
    · exact .inl advisory
    · exact .inr ⟨nothing.1, .inr ⟨nothing.2.1, nothing.2.2.1, .inl nothing.2.2.2⟩⟩
    · exact .inr ⟨noneTiered, .inl failure⟩
    · exact .inr ⟨noneTiered, .inr ⟨untieredSucceeds, noneUntiered, .inr failure⟩⟩

end

end GateAnswers

/-! ## The check of the output -/

namespace Deployment

variable (deployment : Deployment)

/-- The inner action ran on `inner` and returned `result`. -/
def Responds (ctx : Context) (input inner result : Envelope) : Prop :=
  (deployment.run ctx input).2 = [inner] ∧
    deployment.respond (deployment.inputContext ctx input) inner = .ok (.ok result)

/-- The facts about which the check of the output asks the engine, unless the
output is refused before that. -/
def outputAsked (ctx : Context) (input inner result : Envelope) : Option (List Datalog.Atom) :=
  match flattenToQuads entityOutput result.payload with
  | .error _ => none
  | .ok quads =>
    askedFacts deployment.host (deployment.engine [inner]) (deployment.outputContext ctx input)
      (quadAtoms quads)

/-- An action without a name has its output checked as if it were a request. -/
def outputEntity : String := if deployment.metadata.name = "" then entityInput else entityOutput

def inputAnswers (ctx : Context) (input : Envelope) (facts : List Datalog.Atom) : GateAnswers :=
  answersOf (deployment.engine []) (deployment.inputContext ctx input) entityInput facts

def outputAnswers (ctx : Context) (input inner : Envelope) (facts : List Datalog.Atom) :
    GateAnswers :=
  answersOf (deployment.engine [inner]) (deployment.outputContext ctx input)
    deployment.outputEntity facts

def PassesRelease (answers : GateAnswers) : Prop :=
  if deployment.metadata.name = "" then answers.PassesInput else answers.PassesOutput

def OverlooksReleaseError (answers : GateAnswers) : Prop :=
  if deployment.metadata.name = "" then answers.OverlookInputError else answers.OverlookOutputError

variable {deployment} {ctx : Context}

theorem record_of_runs {input : Envelope} {payload : Value} {quads : List Quad}
    (runs : deployment.Runs ctx input)
    (extraction : deployment.extracted ctx input.payload = .ok payload)
    (flattened : flattenToQuads entityInput payload = .ok quads) :
    (deployment.run ctx input).2 = [innerEnvelope payload quads] := by
  obtain ⟨found, foundQuads, foundExtraction, foundFlattened, accepted⟩ :=
    (runs_iff ctx input).mp runs
  obtain rfl := Except.ok.inj (extraction.symm.trans foundExtraction)
  obtain rfl := Except.ok.inj (flattened.symm.trans foundFlattened)
  obtain ⟨verdict, judged, passed⟩ := (not_refuses_iff _).mp accepted
  obtain ⟨outcome, run, -⟩ := accepted_run extraction flattened judged passed
  rw [run]

theorem refuses_outputVerdict_iff {input inner result : Envelope}
    {quads : List Quad} (flattened : flattenToQuads entityOutput result.payload = .ok quads) :
    ¬ Refuses (deployment.outputVerdict ctx input inner quads) ↔
      ∃ facts, deployment.outputAsked ctx input inner result = some facts ∧
        deployment.PassesRelease (deployment.outputAnswers ctx input inner facts) := by
  unfold outputAsked outputVerdict
  simp only [flattened]
  cases asked : askedFacts deployment.host (deployment.engine [inner])
      (deployment.outputContext ctx input) (quadAtoms quads) with
  | none =>
    have refuses := refuses_of_not_asked (by rfl) asked
    simp [refuses]
  | some facts =>
    have subject := deployment.reflectsOn_outputContext ctx input
    split_ifs at subject with unnamed
    · rw [refuses_verify_input asked subject]
      simp [PassesRelease, outputAnswers, outputEntity, unnamed]
    · rw [refuses_verify_output asked subject]
      simp [PassesRelease, outputAnswers, outputEntity, unnamed]

/-- Once the inner action has returned a result, it is released exactly if the
engine was asked about it and its answers pass. -/
theorem releases_iff_passesRelease {input inner result : Envelope}
    (responds : deployment.Responds ctx input inner result) :
    deployment.Releases ctx input ↔
      ∃ facts, deployment.outputAsked ctx input inner result = some facts ∧
        deployment.PassesRelease (deployment.outputAnswers ctx input inner facts) := by
  obtain ⟨ran, responded⟩ := responds
  have runs : deployment.Runs ctx input := by simp [Runs, ran]
  obtain ⟨payload, quads, extraction, flattened, accepted⟩ := (runs_iff ctx input).mp runs
  obtain ⟨verdict, judged, passed⟩ := (not_refuses_iff _).mp accepted
  obtain ⟨outcome, run, releases⟩ := accepted_run extraction flattened judged passed
  obtain rfl : innerEnvelope payload quads = inner :=
    List.singleton_inj.mp ((record_of_runs runs extraction flattened).symm.trans ran)
  unfold Releases
  rw [run, releases]
  constructor
  · rintro ⟨other, outQuads, otherResponse, outFlattened, outAccepted⟩
    obtain rfl : result = other := by
      simpa using responded.symm.trans otherResponse
    exact (refuses_outputVerdict_iff outFlattened).mp outAccepted
  · rintro ⟨facts, asked, passes⟩
    cases outFlattened : flattenToQuads entityOutput result.payload with
    | error panic => simp [outputAsked, outFlattened] at asked
    | ok outQuads =>
      exact ⟨result, outQuads, responded, outFlattened,
        (refuses_outputVerdict_iff outFlattened).mpr ⟨facts, asked, passes⟩⟩

/-- When a halt query of the check of the input fails, the action is not run
unless the error is overlooked; when one of the check of the output fails, the
result is not released unless the error is overlooked. -/
theorem failedQuery_stops_iff (ctx : Context) (input : Envelope) :
    (∀ facts, deployment.inputAsked ctx input = some facts →
      (deployment.inputAnswers ctx input facts).Fails →
        (¬ deployment.Runs ctx input ↔
          ¬ (deployment.inputAnswers ctx input facts).OverlookInputError)) ∧
      ∀ inner result facts, deployment.Responds ctx input inner result →
        deployment.outputAsked ctx input inner result = some facts →
        (deployment.outputAnswers ctx input inner facts).Fails →
          (¬ deployment.Releases ctx input ↔
            ¬ deployment.OverlooksReleaseError
              (deployment.outputAnswers ctx input inner facts)) := by
  constructor
  · intro facts asked fails
    rw [runs_iff_passesInput, ← GateAnswers.passesInput_iff_of_fails fails]
    simp [asked, inputAnswers]
  · intro inner result facts responds asked fails
    have passes : deployment.PassesRelease (deployment.outputAnswers ctx input inner facts) ↔
        deployment.OverlooksReleaseError (deployment.outputAnswers ctx input inner facts) := by
      unfold PassesRelease OverlooksReleaseError
      split_ifs
      · exact GateAnswers.passesInput_iff_of_fails fails
      · exact GateAnswers.passesOutput_iff_of_fails fails
    rw [releases_iff_passesRelease responds, ← passes]
    simp [asked]

end Deployment

/-- A halt at the highest tier whose reason is a list, which no query can
report. -/
def listReasonPolicy : List Datalog.Clause :=
  [⟨⟨"halt", [.const (.string "Req"), .const (.compound 6 "[\"a\"]"), .const (.string "T0")]⟩, []⟩]

/-- The query for tiered halts fails on the list, and the action runs. -/
theorem failedQuery_runs :
    (sendUnder listReasonPolicy).inputAsked {} secretInput = some secretFacts ∧
      ((sendUnder listReasonPolicy).inputAnswers {} secretInput secretFacts).Fails ∧
      (sendUnder listReasonPolicy).Runs {} secretInput := by
  refine ⟨by decide +kernel, .inl (by decide +kernel), ?_⟩
  exact List.ne_nil_of_length_pos (by decide +kernel)

def reportedHaltPolicy (entityID : String) : List Datalog.Clause :=
  [⟨Reference.stringAtom "halt" [entityID, "secret data", "T1"], []⟩,
    ⟨⟨"halt", [.const (.string entityID), .const (.compound 6 "[\"a\"]"), .const (.string "T2")]⟩,
      []⟩]

/-- A failed query that has reported a governance halt stops both checks. -/
theorem reportedHalt_stops :
    ¬ (sendUnder (reportedHaltPolicy "Req")).Runs {} secretInput ∧
      ¬ (sendUnder (reportedHaltPolicy "Output")).Releases {} secretInput := by
  constructor
  · have reported : ((sendUnder (reportedHaltPolicy "Req")).inputAnswers {} secretInput
        secretFacts).tieredHalts = [⟨"secret data", "T1"⟩] := by decide +kernel
    refine ((Deployment.failedQuery_stops_iff {} secretInput).1 secretFacts (by decide +kernel)
      (.inl (by decide +kernel))).mpr ?_
    rintro ⟨-, ⟨-, advisory⟩ | nothing⟩
    · exact absurd (advisory ⟨"secret data", "T1"⟩ (by simp [reported])) (by decide)
    · simp [reported, GateAnswers.FindNothing] at nothing
  · let outputFacts : List Datalog.Atom :=
      [Reference.stringAtom "label" ["secret"],
        Reference.stringAtom "action_operation" ["Output", "send"]]
    have reported : ((sendUnder (reportedHaltPolicy "Output")).outputAnswers {} secretInput
        (Deployment.innerEnvelope .nil []) outputFacts).tieredHalts = [⟨"secret data", "T1"⟩] := by
      decide +kernel
    have runs : (sendUnder (reportedHaltPolicy "Output")).Runs {} secretInput :=
      List.ne_nil_of_length_pos (by decide +kernel)
    refine ((Deployment.failedQuery_stops_iff {} secretInput).2 (Deployment.innerEnvelope .nil [])
      (Deployment.innerEnvelope .nil []) outputFacts
      ⟨Deployment.record_of_runs runs rfl rfl, rfl⟩ (by decide +kernel)
      (.inl (by decide +kernel))).mpr ?_
    intro overlooked
    have named : (sendUnder (reportedHaltPolicy "Output")).metadata.name ≠ "" := by decide
    rw [Deployment.OverlooksReleaseError, if_neg named] at overlooked
    rcases overlooked with ⟨-, ⟨-, noneBinding⟩ | nothing⟩ | ⟨noneTiered, -⟩ | ⟨noneTiered, -⟩
    · exact noneBinding ⟨"secret data", "T1"⟩ (by simp [reported]) (by decide)
    · simp [reported, GateAnswers.FindNothing] at nothing
    · simp [reported] at noneTiered
    · simp [reported] at noneTiered

end Manglekit.Supervisor

import Manglekit.Ai.Stream
import Manglekit.Supervisor.OutputView

/-!
# Streaming and wrapped supervision

On the same halts, the streaming action denies whatever the engine reports, and the
supervised wrapper what its tiers make it block.  The two agree exactly where no halt
is let pass for its tier.
-/

namespace Manglekit.Supervisor

open Core Engine

variable {answers : GateAnswers}

namespace GateAnswers

/-- No halt is reported, and no query has to be given up. -/
structure Clean (answers : GateAnswers) : Prop where
  tiered : answers.tieredHalts = []
  succeeds : answers.untiered.err = none
  untiered : answers.untieredHalts = []
  denied : answers.denied = .ok false

def InputAdvised (answers : GateAnswers) : Prop :=
  answers.tieredHalts ≠ [] ∧ ∀ halt ∈ answers.tieredHalts, Advisory halt.tier

def OutputAdvised (answers : GateAnswers) : Prop :=
  ((∃ halt ∈ answers.tieredHalts, Advisory halt.tier) ∧
      ∀ halt ∈ answers.tieredHalts, ¬ Binding halt.tier) ∨
    (answers.tieredHalts = [] ∧
      ((∃ err, answers.untiered.err = some err ∧ AdvisoryError err) ∨
        (answers.untiered.err = none ∧ answers.untieredHalts = [] ∧
          ∃ err, answers.denied = .error err ∧ AdvisoryError err)))

theorem clean_iff_and (answers : GateAnswers) : answers.Clean ↔ answers.tieredHalts = [] ∧
    answers.untiered.err = none ∧ answers.untieredHalts = [] ∧ answers.denied = .ok false :=
  ⟨fun ⟨tiered, succeeds, untiered, denied⟩ => ⟨tiered, succeeds, untiered, denied⟩,
    fun ⟨tiered, succeeds, untiered, denied⟩ => ⟨tiered, succeeds, untiered, denied⟩⟩

theorem passesInput_iff_advised (answers : GateAnswers) :
    answers.PassesInput ↔ answers.InputAdvised ∨ answers.Clean := by
  rw [clean_iff_and]
  exact Iff.rfl

theorem passesOutput_iff_advised (answers : GateAnswers) :
    answers.PassesOutput ↔ answers.OutputAdvised ∨ answers.Clean := by
  constructor
  · rintro (advised | ⟨tiered, failed | ⟨succeeds, untiered, denied | failed⟩⟩)
    · exact .inl (.inl advised)
    · exact .inl (.inr ⟨tiered, .inl failed⟩)
    · exact .inr ⟨tiered, succeeds, untiered, denied⟩
    · exact .inl (.inr ⟨tiered, .inr ⟨succeeds, untiered, failed⟩⟩)
  · rintro ((advised | ⟨tiered, failed | ⟨succeeds, untiered, failed⟩⟩) | clean)
    · exact .inl advised
    · exact .inr ⟨tiered, .inl failed⟩
    · exact .inr ⟨tiered, .inr ⟨succeeds, untiered, .inr failed⟩⟩
    · exact .inr ⟨clean.tiered, .inr ⟨clean.succeeds, clean.untiered, .inl clean.denied⟩⟩

theorem Clean.not_inputAdvised (clean : answers.Clean) :
    ¬ answers.InputAdvised := fun advised => advised.1 clean.tiered

theorem Clean.not_outputAdvised (clean : answers.Clean) : ¬ answers.OutputAdvised := by
  rintro (⟨⟨halt, member, -⟩, -⟩ | ⟨-, ⟨err, failed, -⟩ | ⟨-, -, err, failed, -⟩⟩)
  · simp [clean.tiered] at member
  · simp [clean.succeeds] at failed
  · simp [clean.denied] at failed

/-- Two checks are answered with the same halts, in any order and number; of those
without a tier it is enough that both find some or neither does. -/
structure Alike (first second : GateAnswers) : Prop where
  tiered : ∀ halt, halt ∈ first.tieredHalts ↔ halt ∈ second.tieredHalts
  succeeds : first.untiered.err = second.untiered.err
  untiered : first.untieredHalts = [] ↔ second.untieredHalts = []
  denied : first.denied = second.denied

theorem Alike.of_eq {first second : GateAnswers} (tiered : first.tieredHalts = second.tieredHalts)
    (succeeds : first.untiered.err = second.untiered.err)
    (untiered : first.untieredHalts = second.untieredHalts)
    (denied : first.denied = second.denied) : first.Alike second :=
  ⟨fun halt => by rw [tiered], succeeds, by rw [untiered], denied⟩

theorem Alike.clean_iff {first second : GateAnswers} (alike : Alike first second) :
    first.Clean ↔ second.Clean := by
  have tiered : first.tieredHalts = [] ↔ second.tieredHalts = [] := by
    simp [List.eq_nil_iff_forall_not_mem, alike.tiered]
  rw [clean_iff_and, clean_iff_and, tiered, alike.succeeds, alike.untiered, alike.denied]

end GateAnswers

/-- A check ends without an error exactly if it is answered with nothing. -/
theorem Checked.err_eq_none_iff {now entityID : String}
    {result : GateResult} (checked : Checked now entityID answers result) :
    result.err = none ↔ answers.Clean := by
  cases checked with
  | clean noTiered succeeds noUntiered outcome =>
    exact iff_of_true rfl ⟨noTiered, succeeds, noUntiered, outcome⟩
  | tiered found => exact iff_of_false nofun fun clean => nomatch found.symm.trans clean.tiered
  | failed _ failure =>
    exact iff_of_false nofun fun clean => nomatch failure.symm.trans clean.succeeds
  | untiered _ _ found =>
    exact iff_of_false nofun fun clean => nomatch found.symm.trans clean.untiered
  | undecided _ _ _ outcome | denied _ _ _ outcome =>
    exact iff_of_false nofun fun clean => nomatch outcome.symm.trans clean.denied

end Manglekit.Supervisor

namespace Manglekit.Ai

open Core Engine Supervisor

/-- The facts over which `Reflect` queries the engine, unless it fails before. -/
def reflectedFacts (engine : PolicyEngine Id) (actionMeta : ActionMetadata) (output : Envelope) :
    Option (List Datalog.Atom) :=
  if engine.runtime.isReady.run then
    (gateFacts engine actionMeta.name entityOutput output []).toOption
  else none

variable {facts : List Datalog.Atom} {actionMeta : ActionMetadata} {input : Envelope}

theorem assess_ne_none_iff {engine : PolicyEngine Id}
    (assessed : assessedFacts engine actionMeta input = some facts) (ctx : Context) :
    assess engine ctx actionMeta input ≠ none ↔
      ¬ (answersOf engine ctx entityInput facts).Clean := by
  rw [← (checkHalts_checked engine ctx actionMeta.name entityInput facts).err_eq_none_iff,
    ← assessInternal_of_assessed assessed ctx]
  exact Iff.rfl

theorem reflect_error_iff {engine : PolicyEngine Id}
    {output : Envelope} (reflected : reflectedFacts engine actionMeta output = some facts)
    (ctx : Context) :
    (∃ err, reflect engine ctx actionMeta output = .error err) ↔
      ¬ (answersOf engine ctx entityOutput facts).Clean := by
  rw [← (checkHalts_checked engine ctx actionMeta.name entityOutput facts).err_eq_none_iff]
  have checked : reflect engine ctx actionMeta output =
      outputOf output (checkHalts engine ctx actionMeta.name entityOutput facts) :=
    congrArg (outputOf output) (evaluateGate_of_asked ctx reflected)
  rw [checked]
  unfold outputOf
  cases (checkHalts engine ctx actionMeta.name entityOutput facts).err <;> simp

namespace StreamingSupervisedAction

variable {action : StreamingSupervisedAction} {engine : PolicyEngine Id} {deployment : Deployment}

theorem preChecks_agree_iff (gated : action.gate = engineGate engine)
    {listens : List StreamChunk → Bool} {ctx : Context} {prompt : String}
    {inFacts : List Datalog.Atom} (prompted : action.promptFrom input = .ok prompt)
    (assessed : assessedFacts engine action.metadata input = some facts)
    (asked : deployment.inputAsked ctx input = some inFacts)
    (alike : (answersOf engine ctx entityInput facts).Alike
      (deployment.inputAnswers ctx input inFacts)) (entry : Entry) :
    (action.DeniesInput listens ctx input entry ↔ ¬ deployment.Runs ctx input) ↔
      ¬ (deployment.inputAnswers ctx input inFacts).InputAdvised := by
  have runs : deployment.Runs ctx input ↔
      (deployment.inputAnswers ctx input inFacts).PassesInput := by
    rw [Deployment.runs_iff_passesInput]
    simp [asked, Deployment.inputAnswers]
  rw [deniesInput_iff prompted, gated, runs, GateAnswers.passesInput_iff_advised]
  change (assess engine ctx action.metadata input ≠ none ↔ _) ↔ _
  rw [assess_ne_none_iff assessed, alike.clean_iff]
  have disjoint := @GateAnswers.Clean.not_inputAdvised (deployment.inputAnswers ctx input inFacts)
  tauto

/-- On the same halts, the two post-checks agree exactly if nothing passes for its tier.
That of an action without a name looks at other halts. -/
theorem postChecks_agree_iff (gated : action.gate = engineGate engine)
    {listens : List StreamChunk → Bool} {ctx : Context} {inner result : Envelope}
    {text : String} {outFacts : List Datalog.Atom} {entry : Entry}
    (produces : action.Produces listens ctx input text entry)
    (responds : deployment.Responds ctx input inner result)
    (reflected : reflectedFacts engine action.metadata (action.output text) = some facts)
    (asked : deployment.outputAsked ctx input inner result = some outFacts)
    (alike : (answersOf engine ctx entityOutput facts).Alike
      (answersOf (deployment.engine [inner]) (deployment.outputContext ctx input) entityOutput
        outFacts)) :
    (action.DeniesOutput listens ctx input entry ↔ ¬ deployment.Releases ctx input) ↔
      if deployment.metadata.name = "" then
        ((answersOf engine ctx entityOutput facts).Clean ↔
          (deployment.outputAnswers ctx input inner outFacts).PassesInput)
      else ¬ (deployment.outputAnswers ctx input inner outFacts).OutputAdvised := by
  have releases : deployment.Releases ctx input ↔
      deployment.PassesRelease (deployment.outputAnswers ctx input inner outFacts) := by
    rw [Deployment.releases_iff_passesRelease responds]
    simp [asked]
  rw [deniesOutput_iff produces, gated, releases]
  change ((∃ err, reflect engine ctx action.metadata (action.output text) = .error err) ↔ _) ↔ _
  rw [reflect_error_iff reflected, not_iff_not]
  unfold Deployment.PassesRelease
  split_ifs with unnamed
  · exact Iff.rfl
  · have entity : deployment.outputEntity = entityOutput := if_neg unnamed
    have answers : deployment.outputAnswers ctx input inner outFacts =
        answersOf (deployment.engine [inner]) (deployment.outputContext ctx input) entityOutput
          outFacts := by
      rw [Deployment.outputAnswers, entity]
    rw [GateAnswers.passesOutput_iff_advised, answers, alike.clean_iff]
    have disjoint := @GateAnswers.Clean.not_outputAdvised (answersOf (deployment.engine [inner])
      (deployment.outputContext ctx input) entityOutput outFacts)
    tauto

/-- On the same halts the streaming action denies exactly what the supervised wrapper
blocks, before and after the action, if and only if no halt passes for its tier. -/
theorem streaming_agrees_iff (gated : action.gate = engineGate engine)
    (listens : List StreamChunk → Bool) (ctx : Context) (input : Envelope) (entry : Entry) :
    (∀ prompt facts inFacts, action.promptFrom input = .ok prompt →
      assessedFacts engine action.metadata input = some facts →
      deployment.inputAsked ctx input = some inFacts →
      (answersOf engine ctx entityInput facts).Alike (deployment.inputAnswers ctx input inFacts) →
        ((action.DeniesInput listens ctx input entry ↔ ¬ deployment.Runs ctx input) ↔
          ¬ (deployment.inputAnswers ctx input inFacts).InputAdvised)) ∧
    ∀ text inner result facts outFacts, action.Produces listens ctx input text entry →
      deployment.Responds ctx input inner result →
      reflectedFacts engine action.metadata (action.output text) = some facts →
      deployment.outputAsked ctx input inner result = some outFacts →
      (answersOf engine ctx entityOutput facts).Alike
        (answersOf (deployment.engine [inner]) (deployment.outputContext ctx input) entityOutput
          outFacts) →
        ((action.DeniesOutput listens ctx input entry ↔ ¬ deployment.Releases ctx input) ↔
          if deployment.metadata.name = "" then
            ((answersOf engine ctx entityOutput facts).Clean ↔
              (deployment.outputAnswers ctx input inner outFacts).PassesInput)
          else ¬ (deployment.outputAnswers ctx input inner outFacts).OutputAdvised) := by
  constructor
  · intro prompt facts inFacts prompted assessed asked alike
    exact preChecks_agree_iff gated prompted assessed asked alike entry
  · intro text inner result facts outFacts produces responds reflected asked alike
    exact postChecks_agree_iff gated produces responds reflected asked alike

end StreamingSupervisedAction

/-! ## An echo, streamed and wrapped -/

def echo (policy : List Datalog.Clause) : StreamingSupervisedAction where
  name := "send"
  generator :=
    { complete := fun _ prompt => .ok prompt
      stream := fun _ prompt => .ok [{ text := prompt }] }
  gate := engineGate ((reflectingSend policy).engine [])
  verbs := { quote := Reference.host.quote, plain := Value.sprint, typeName := fun _ => "any" }

def greeting : Envelope := { payload := .string "hello" }

def haltPolicy (entityID : String) (tier : Tier) : List Datalog.Clause :=
  [⟨Reference.stringAtom "halt" [entityID, "not reviewed", tier], []⟩]

def echoFacts : List Datalog.Atom :=
  [Reference.stringAtom "value" ["Req", "hello"],
    Reference.stringAtom "action_operation" ["Req", "send"]]

def echoedFacts : List Datalog.Atom :=
  [Reference.stringAtom "value" ["Output", "hello"],
    metaAtom "action_name" "send", metaAtom "model_type" "llm"]

theorem exists_error_of_haltTier {checked : Except GoError Envelope} {tier : Tier}
    (halted : haltTier checked = some tier) : ∃ err, checked = .error err := by
  cases checked with
  | error err => exact ⟨err, rfl⟩
  | ok output => cases halted

variable {policy : List Datalog.Clause}

theorem echo_responds (runs : (reflectingSend policy).Runs {} greeting) :
    (reflectingSend policy).Responds {} greeting greeting greeting :=
  ⟨Deployment.record_of_runs runs rfl rfl, rfl⟩

theorem echo_produces
    (assessed : (echo policy).gate.assess {} (echo policy).metadata greeting = none) :
    (echo policy).Produces (fun _ => true) {} greeting "hello" .stream :=
  ⟨"hello", _, rfl, assessed, rfl, rfl⟩

/-- A governance halt of the output is denied on both ways. -/
theorem governedEcho_agrees :
    ((echo (haltPolicy "Output" "T1")).DeniesInput (fun _ => true) {} greeting .stream ↔
        ¬ (reflectingSend (haltPolicy "Output" "T1")).Runs {} greeting) ∧
      ((echo (haltPolicy "Output" "T1")).DeniesOutput (fun _ => true) {} greeting .stream ↔
        ¬ (reflectingSend (haltPolicy "Output" "T1")).Releases {} greeting) := by
  obtain ⟨pre, post⟩ := @StreamingSupervisedAction.streaming_agrees_iff
    (echo (haltPolicy "Output" "T1")) ((reflectingSend (haltPolicy "Output" "T1")).engine [])
    (reflectingSend (haltPolicy "Output" "T1")) rfl (fun _ => true) {} greeting .stream
  have runs : (reflectingSend (haltPolicy "Output" "T1")).Runs {} greeting :=
    List.ne_nil_of_length_pos (by decide +kernel)
  constructor
  · refine (pre "hello" echoFacts [Reference.stringAtom "action_operation" ["Req", "send"]] rfl
      (by decide +kernel) (by decide +kernel) ?_).mpr ?_
    · exact .of_eq (by decide +kernel) (by decide +kernel) (by decide +kernel) (by decide +kernel)
    · have none : ((reflectingSend (haltPolicy "Output" "T1")).inputAnswers {} greeting
          [Reference.stringAtom "action_operation" ["Req", "send"]]).tieredHalts = [] := by
        decide +kernel
      exact fun advised => advised.1 none
  · refine (post "hello" greeting greeting echoedFacts
      [Reference.stringAtom "action_operation" ["Output", "send"]]
      (echo_produces (by decide +kernel)) (echo_responds runs) (by decide +kernel)
      (by decide +kernel) ?_).mpr ?_
    · exact .of_eq (by decide +kernel) (by decide +kernel) (by decide +kernel) (by decide +kernel)
    · have found : ((reflectingSend (haltPolicy "Output" "T1")).outputAnswers {} greeting greeting
          [Reference.stringAtom "action_operation" ["Output", "send"]]).tieredHalts =
            [⟨"not reviewed", "T1"⟩] := by decide +kernel
      rw [if_neg (by decide)]
      rintro (⟨-, noneBinding⟩ | ⟨none, -⟩)
      · exact noneBinding ⟨"not reviewed", "T1"⟩ (by simp [found]) (by decide)
      · rw [found] at none
        cases none

/-- An advisory halt is denied by the streaming action, on both ways to run it, and let
pass by the wrapper; of the request as well as of the text. -/
theorem advisedEcho_differs :
    (echo (haltPolicy "Req" "T3")).DeniesInput (fun _ => true) {} greeting .execute ∧
      (echo (haltPolicy "Req" "T3")).DeniesInput (fun _ => true) {} greeting .stream ∧
      (reflectingSend (haltPolicy "Req" "T3")).Runs {} greeting ∧
      (echo (haltPolicy "Output" "T3")).DeniesOutput (fun _ => true) {} greeting .execute ∧
      (echo (haltPolicy "Output" "T3")).DeniesOutput (fun _ => true) {} greeting .stream ∧
      (reflectingSend (haltPolicy "Output" "T3")).Releases {} greeting := by
  have prompted : (echo (haltPolicy "Req" "T3")).promptFrom greeting = .ok "hello" := rfl
  have denied : (echo (haltPolicy "Req" "T3")).gate.assess {}
      (echo (haltPolicy "Req" "T3")).metadata greeting ≠ none := by decide +kernel
  have assessed : (echo (haltPolicy "Output" "T3")).gate.assess {}
      (echo (haltPolicy "Output" "T3")).metadata greeting = none := by decide +kernel
  have reflected : ∃ err, (echo (haltPolicy "Output" "T3")).gate.reflect {}
      (echo (haltPolicy "Output" "T3")).metadata
      ((echo (haltPolicy "Output" "T3")).output "hello") = .error err :=
    @exists_error_of_haltTier _ tierT3User (by decide +kernel)
  have executed : (echo (haltPolicy "Output" "T3")).Produces (fun _ => true) {} greeting "hello"
      .execute := ⟨"hello", rfl, assessed, rfl⟩
  refine ⟨?_, ?_, List.ne_nil_of_length_pos (by decide +kernel), ?_, ?_,
    releases_of_isSome (by decide +kernel)⟩
  · exact (StreamingSupervisedAction.deniesInput_iff prompted .execute).mpr denied
  · exact (StreamingSupervisedAction.deniesInput_iff prompted .stream).mpr denied
  · exact (StreamingSupervisedAction.deniesOutput_iff executed).mpr reflected
  · exact (StreamingSupervisedAction.deniesOutput_iff (echo_produces assessed)).mpr reflected

end Manglekit.Ai

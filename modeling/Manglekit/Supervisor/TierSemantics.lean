import Manglekit.Supervisor.FailClosed

/-!
# The tier semantics of the two checks

The check of an input takes the most severe of the collected tiers, with unknown
tiers beside T1; the check of an output takes the tier of highest priority, with
unknown tiers last.  They agree except where an advisory tier meets an unknown
one, and except for actions without a name, whose output is judged by the halts
of the request.
-/

namespace Manglekit.Supervisor

open Core Engine

namespace GateAnswers

def collected (answers : GateAnswers) : List HaltMatch :=
  if answers.tieredHalts = [] then answers.untieredHalts else answers.tieredHalts

/-- All halt queries succeed; `denied` is the answer to the last. -/
structure Succeed (answers : GateAnswers) (denied : Bool) : Prop where
  tiered : answers.tiered.err = none
  untiered : answers.untiered.err = none
  legacy : answers.denied = .ok denied

/-- What a check of an input should stop: a match that is not advisory, or a
legacy halt when there are no matches. -/
def Stop (answers : GateAnswers) : Prop :=
  (∃ halt ∈ answers.collected, ¬ Advisory halt.tier) ∨
    (answers.collected = [] ∧ answers.denied = .ok true)

end GateAnswers

def TiersAgree (halts : List HaltMatch) : Prop :=
  (∃ halt ∈ halts, Binding halt.tier) ∨ (∀ halt ∈ halts, Advisory halt.tier) ∨
    ∀ halt ∈ halts, ¬ Advisory halt.tier

section Verdicts

variable {answers : GateAnswers} {denied : Bool}

theorem not_advisory_of_binding {tier : Tier} (binding : Binding tier) : ¬ Advisory tier := by
  rcases binding with rfl | rfl <;> decide

theorem not_advisory_of_mem_untieredHalts {halt : HaltMatch}
    (member : halt ∈ answers.untieredHalts) : ¬ Advisory halt.tier := by
  rw [tier_of_mem_untieredHalts member]
  exact not_advisory_unknown

theorem passesInput_iff_not_stop (succeed : answers.Succeed denied) :
    answers.PassesInput ↔ ¬ answers.Stop := by
  unfold GateAnswers.PassesInput GateAnswers.Stop GateAnswers.collected
  by_cases noneTiered : answers.tieredHalts = []
  · simp only [noneTiered, if_true, succeed.untiered, succeed.legacy]
    cases untiered : answers.untieredHalts with
    | nil => cases denied <;> simp
    | cons first rest =>
      have blocking : ¬ Advisory first.tier := by
        have member : first ∈ answers.untieredHalts := by simp [untiered]
        exact not_advisory_of_mem_untieredHalts member
      simp [blocking]
  · simp [noneTiered]

theorem passesOutput_iff (succeed : answers.Succeed denied) :
    answers.PassesOutput ↔
      ((∃ halt ∈ answers.collected, Advisory halt.tier) ∧
          ∀ halt ∈ answers.collected, ¬ Binding halt.tier) ∨
        (answers.collected = [] ∧ denied = false) := by
  unfold GateAnswers.PassesOutput GateAnswers.collected
  by_cases noneTiered : answers.tieredHalts = []
  · have noneAdvisory : ¬ ∃ halt ∈ answers.untieredHalts, Advisory halt.tier := by
      rintro ⟨halt, member, advisory⟩
      exact not_advisory_of_mem_untieredHalts member advisory
    simp [noneTiered, succeed.untiered, succeed.legacy, noneAdvisory]
  · simp [noneTiered]

/-- On the same matches the two checks agree exactly if the two orders of tiers
do. -/
theorem passes_agree_iff {inputAnswers outputAnswers : GateAnswers}
    (inputSucceed : inputAnswers.Succeed denied) (outputSucceed : outputAnswers.Succeed denied)
    (same : inputAnswers.collected.Perm outputAnswers.collected) :
    (inputAnswers.PassesInput ↔ outputAnswers.PassesOutput) ↔
      TiersAgree inputAnswers.collected := by
  rw [passesInput_iff_not_stop inputSucceed, passesOutput_iff outputSucceed]
  have empty : outputAnswers.collected = [] ↔ inputAnswers.collected = [] := by
    constructor <;> intro nothing
    · exact List.perm_nil.mp (nothing ▸ same)
    · exact List.perm_nil.mp (nothing ▸ same.symm)
  simp only [GateAnswers.Stop, TiersAgree, ← same.mem_iff, empty, inputSucceed.legacy]
  generalize inputAnswers.collected = halts
  by_cases nothing : halts = []
  · subst nothing
    cases denied <;> simp
  · obtain ⟨first, member⟩ := List.exists_mem_of_ne_nil halts nothing
    simp only [nothing, false_and, or_false]
    by_cases binding : ∃ halt ∈ halts, Binding halt.tier
    · obtain ⟨halt, present, isBinding⟩ := binding
      have stops : ∃ halt ∈ halts, ¬ Advisory halt.tier :=
        ⟨halt, present, not_advisory_of_binding isBinding⟩
      have withheld : ¬ ∀ halt ∈ halts, ¬ Binding halt.tier := fun none =>
        none halt present isBinding
      exact iff_of_true (iff_of_false (not_not_intro stops) fun passes => withheld passes.2)
        (.inl ⟨halt, present, isBinding⟩)
    · have noneBinding : ∀ halt ∈ halts, ¬ Binding halt.tier := fun halt present isBinding =>
        binding ⟨halt, present, isBinding⟩
      by_cases advisory : ∀ halt ∈ halts, Advisory halt.tier
      · refine iff_of_true (iff_of_true ?_ ⟨⟨first, member, advisory first member⟩, noneBinding⟩)
          (.inr (.inl advisory))
        rintro ⟨halt, present, blocking⟩
        exact blocking (advisory halt present)
      · have stops : ∃ halt ∈ halts, ¬ Advisory halt.tier := by
          push Not at advisory
          exact advisory
        constructor
        · intro agree
          refine .inr (.inr fun halt present isAdvisory => ?_)
          exact agree.mpr ⟨⟨halt, present, isAdvisory⟩, noneBinding⟩ stops
        · rintro (found | all | noneAdvisory)
          · exact absurd found binding
          · exact absurd all advisory
          · refine iff_of_false (not_not_intro stops) ?_
            rintro ⟨⟨halt, present, isAdvisory⟩, -⟩
            exact noneAdvisory halt present isAdvisory

end Verdicts

/-- The context of the check of an output, and with the other entity of an input. -/
def checkContext (ctx : Context) (pc : PreCheckContext) (entityID : String) : Context :=
  ctx.withPreCheck { pc with entityID := entityID }

/-- The two checks, each asking about its own facts and engine, come to the same
verdict on the same matches exactly under these conditions.  For an action with
a name, the two orders of tiers must agree on the matches.  For an action without
one, the halts that the second evaluation derives for the request must stop
exactly if those of the first do. -/
theorem checks_agree_iff {host : Host} {before after : PolicyEngine Id} {ctx : Context}
    {pc : PreCheckContext} {atoms outAtoms : List Atom} {facts outFacts : List Datalog.Atom}
    {denied deniedAfter : Bool}
    (asked : askedFacts host before (checkContext ctx pc entityInput) atoms = some facts)
    (outAsked : askedFacts host after (checkContext ctx pc entityOutput) outAtoms = some outFacts)
    (inputSucceed :
      (answersOf before (checkContext ctx pc entityInput) entityInput facts).Succeed denied)
    (outputSucceed :
      (answersOf after (checkContext ctx pc entityOutput) entityOutput outFacts).Succeed denied)
    (requestSucceed :
      (answersOf after (checkContext ctx pc entityOutput) entityInput outFacts).Succeed
        deniedAfter)
    (same : (answersOf before (checkContext ctx pc entityInput) entityInput facts).collected.Perm
      (answersOf after (checkContext ctx pc entityOutput) entityOutput outFacts).collected) :
    (Refuses (verifyAtoms host (policyEvaluator before) (checkContext ctx pc entityInput) atoms) ↔
        Refuses (verifyAtoms host (policyEvaluator after) (checkContext ctx pc entityOutput)
          outAtoms)) ↔
      (pc.actionName ≠ "" ∧ TiersAgree
          (answersOf before (checkContext ctx pc entityInput) entityInput facts).collected) ∨
        (pc.actionName = "" ∧
          ((answersOf before (checkContext ctx pc entityInput) entityInput facts).Stop ↔
            (answersOf after (checkContext ctx pc entityOutput) entityInput outFacts).Stop)) := by
  have inputSubject : reflectsOn (checkContext ctx pc entityInput).preCheck = none := by
    simp [checkContext, Context.withPreCheck, reflectsOn, entityInput, entityOutput]
  rw [refuses_verify_input asked inputSubject]
  by_cases unnamed : pc.actionName = ""
  · have outputSubject : reflectsOn (checkContext ctx pc entityOutput).preCheck = none := by
      simp [checkContext, Context.withPreCheck, reflectsOn, unnamed]
    rw [refuses_verify_input outAsked outputSubject, passesInput_iff_not_stop inputSucceed,
      passesInput_iff_not_stop requestSucceed]
    simp [unnamed]
  · have outputSubject : reflectsOn (checkContext ctx pc entityOutput).preCheck =
        some pc.actionName := by
      simp [checkContext, Context.withPreCheck, reflectsOn, unnamed]
    rw [refuses_verify_output outAsked outputSubject, not_iff_not,
      passes_agree_iff inputSucceed outputSucceed same]
    simp [unnamed]

/-- The context in which `send` is checked. -/
def sendCheck : PreCheckContext := preCheckContext "send" {}

/-- What the gate knows when it checks `send` on the given entity. -/
def sendFacts (entityID : String) : List Datalog.Atom :=
  [Reference.stringAtom "action_operation" [entityID, "send"]]

def mixedTierPolicy (tier : Tier) : List Datalog.Clause :=
  [entityInput, entityOutput].flatMap fun entityID =>
    [⟨Reference.stringAtom "halt" [entityID, "not reviewed", "T3"], []⟩,
      ⟨Reference.stringAtom "halt" [entityID, "secret data", tier], []⟩]

def mixedTierEngine (tier : Tier) : PolicyEngine Id :=
  storeEngine Reference.host Reference.parseAtom (Reference.evaluated (mixedTierPolicy tier))

/-- Both evaluations collect advice and a tier the engine does not know; the
check of the input refuses and the check of the output does not. -/
theorem unknownTier_beside_advice :
    (answersOf (mixedTierEngine "T9") (checkContext {} sendCheck entityInput) entityInput
        (sendFacts "Req")).collected = [⟨"not reviewed", "T3"⟩, ⟨"secret data", "T9"⟩] ∧
      (answersOf (mixedTierEngine "T9") (checkContext {} sendCheck entityOutput) entityOutput
        (sendFacts "Output")).collected = [⟨"not reviewed", "T3"⟩, ⟨"secret data", "T9"⟩] ∧
      Refuses (verifyAtoms Reference.host (policyEvaluator (mixedTierEngine "T9"))
        (checkContext {} sendCheck entityInput) []) ∧
      ¬ Refuses (verifyAtoms Reference.host (policyEvaluator (mixedTierEngine "T9"))
        (checkContext {} sendCheck entityOutput) []) := by
  refine ⟨by decide +kernel, by decide +kernel, by decide +kernel, by decide +kernel⟩

/-- Beside a governance halt both checks refuse. -/
theorem governanceTier_beside_advice :
    Refuses (verifyAtoms Reference.host (policyEvaluator (mixedTierEngine "T1"))
        (checkContext {} sendCheck entityInput) []) ↔
      Refuses (verifyAtoms Reference.host (policyEvaluator (mixedTierEngine "T1"))
        (checkContext {} sendCheck entityOutput) []) := by
  have collected : (answersOf (mixedTierEngine "T1") (checkContext {} sendCheck entityInput)
      entityInput (sendFacts "Req")).collected =
        [⟨"not reviewed", "T3"⟩, ⟨"secret data", "T1"⟩] := by decide +kernel
  have collectedAfter : (answersOf (mixedTierEngine "T1") (checkContext {} sendCheck entityOutput)
      entityOutput (sendFacts "Output")).collected =
        [⟨"not reviewed", "T3"⟩, ⟨"secret data", "T1"⟩] := by decide +kernel
  have agree : TiersAgree [⟨"not reviewed", "T3"⟩, ⟨"secret data", "T1"⟩] :=
    .inl ⟨⟨"secret data", "T1"⟩, by simp, by decide⟩
  have succeed : ∀ entityID checked facts,
      (entityID, checked, facts) ∈ [(entityInput, entityInput, sendFacts "Req"),
        (entityOutput, entityOutput, sendFacts "Output"),
        (entityOutput, entityInput, sendFacts "Output")] →
      (answersOf (mixedTierEngine "T1") (checkContext {} sendCheck entityID) checked
        facts).Succeed false := by
    intro entityID checked facts member
    simp only [List.mem_cons, Prod.mk.injEq, List.not_mem_nil, or_false] at member
    rcases member with ⟨rfl, rfl, rfl⟩ | ⟨rfl, rfl, rfl⟩ | ⟨rfl, rfl, rfl⟩ <;>
      exact ⟨by decide +kernel, by decide +kernel, by decide +kernel⟩
  refine (checks_agree_iff (by decide +kernel) (by decide +kernel)
    (succeed _ _ (sendFacts "Req") (by simp)) (succeed _ _ (sendFacts "Output") (by simp))
    (succeed _ _ (sendFacts "Output") (by simp)) (by rw [collected, collectedAfter])).mpr ?_
  rw [collected]
  exact .inl ⟨by decide, agree⟩

end Manglekit.Supervisor

import Manglekit.Engine.Query
import Manglekit.Supervisor.Action

/-!
# From query outcomes to verdicts

The check of an input judges all collected halts through the audit trail; the
check of an output judges only the halt the engine put into its error.  Both are
described here in terms of the outcomes of the queries.
-/

namespace Manglekit.Supervisor

open Core Engine

/-! ## Tiers -/

/-- The tiers whose halts do not block. -/
def Advisory (tier : Tier) : Prop := tier = tierT2Playbook ∨ tier = tierT3User

instance (tier : Tier) : Decidable (Advisory tier) :=
  inferInstanceAs (Decidable (tier = tierT2Playbook ∨ tier = tierT3User))

def Binding (tier : Tier) : Prop := tier = tierT0Axiom ∨ tier = tierT1Governance

instance (tier : Tier) : Decidable (Binding tier) :=
  inferInstanceAs (Decidable (tier = tierT0Axiom ∨ tier = tierT1Governance))

variable {tier : Tier}

theorem advisory_ne_empty (advisory : Advisory tier) : tier ≠ "" := by
  rcases advisory with rfl | rfl <;> decide

theorem not_advisory_unknown : ¬ Advisory tierUnknown := by decide

def TrustTier.blocking (tier : TrustTier) : Bool :=
  tier = .tier0Kernel || tier = .tier1Admin

theorem blocking_mapCoreTier (tier : Tier) :
    (mapCoreTier tier).blocking = true ↔ ¬ Advisory tier := by
  unfold mapCoreTier Advisory
  split_ifs with axiomTier governance playbook user
  · subst axiomTier; decide
  · subst governance; decide
  · subst playbook; decide
  · subst user; decide
  · simp [TrustTier.blocking, playbook, user]

theorem tierSeverity_of_advisory (advisory : Advisory tier) : 2 ≤ tierSeverity tier := by
  rcases advisory with rfl | rfl <;> decide

theorem tierSeverity_of_not_advisory (blocking : ¬ Advisory tier) : tierSeverity tier < 2 := by
  unfold Advisory at blocking
  unfold tierSeverity
  split_ifs <;> simp_all

variable {severe : Tier}

theorem advisory_moreSevere (found : severe ≠ "") (named : tier ≠ "") :
    Advisory (moreSevere severe tier) ↔ Advisory severe ∧ Advisory tier := by
  by_cases severeAdvisory : Advisory severe <;> by_cases tierAdvisory : Advisory tier
  · simp only [moreSevere, named, found, false_or, if_false]
    split_ifs <;> simp [severeAdvisory, tierAdvisory]
  · have worse : tierSeverity tier < tierSeverity severe :=
      lt_of_lt_of_le (tierSeverity_of_not_advisory tierAdvisory)
        (tierSeverity_of_advisory severeAdvisory)
    simp [moreSevere, named, worse, tierAdvisory]
  · have kept : ¬ tierSeverity tier < tierSeverity severe := by
      have := tierSeverity_of_not_advisory severeAdvisory
      have := tierSeverity_of_advisory tierAdvisory
      omega
    simp [moreSevere, named, found, kept, severeAdvisory]
  · simp only [moreSevere, named, found, false_or, if_false]
    split_ifs <;> simp [severeAdvisory, tierAdvisory]

theorem moreSevere_ne_empty (named : tier ≠ "") : moreSevere severe tier ≠ "" := by
  unfold moreSevere
  rw [if_neg named]
  split_ifs with replaced
  · exact named
  · exact fun empty => replaced (.inl empty)

theorem advisory_foldl_moreSevere {tiers : List Tier} (found : severe ≠ "")
    (named : ∀ tier ∈ tiers, tier ≠ "") :
    Advisory (tiers.foldl moreSevere severe) ↔ Advisory severe ∧ ∀ tier ∈ tiers, Advisory tier := by
  induction tiers generalizing severe with
  | nil => simp
  | cons tier rest ih =>
    have tierNamed : tier ≠ "" := named tier List.mem_cons_self
    rw [List.foldl_cons, ih (moreSevere_ne_empty tierNamed)
        fun other member => named other (List.mem_cons_of_mem _ member),
      advisory_moreSevere found tierNamed, List.forall_mem_cons, and_assoc]

/-! ## The best match -/

theorem tierPriority_lt_two_iff (tier : Tier) : tierPriority tier < 2 ↔ Binding tier := by
  unfold tierPriority Binding
  split_ifs <;> simp_all

theorem advisory_iff_tierPriority (tier : Tier) :
    Advisory tier ↔ 2 ≤ tierPriority tier ∧ tierPriority tier ≤ 3 := by
  unfold tierPriority Advisory
  split_ifs with axiomTier governance playbook user
  · subst axiomTier; decide
  · subst governance; decide
  · simp [playbook]
  · simp [user]
  · simp [playbook, user]

theorem advisory_bestMatch (first : HaltMatch) (rest : List HaltMatch) :
    Advisory (bestMatch first rest).tier ↔
      (∀ halt ∈ first :: rest, ¬ Binding halt.tier) ∧
        ∃ halt ∈ first :: rest, Advisory halt.tier := by
  constructor
  · intro advisory
    refine ⟨fun halt member binding => ?_, _, bestMatch_mem first rest, advisory⟩
    have lower := ((advisory_iff_tierPriority _).mp advisory).1
    have bound := bestMatch_le first rest halt member
    have := (tierPriority_lt_two_iff _).mpr binding
    omega
  · rintro ⟨noneBinding, halt, member, advisory⟩
    have bound := bestMatch_le first rest halt member
    have upper := ((advisory_iff_tierPriority _).mp advisory).2
    have lower := noneBinding _ (bestMatch_mem first rest)
    rw [← tierPriority_lt_two_iff] at lower
    exact (advisory_iff_tierPriority _).mpr ⟨by omega, by omega⟩

/-! ## Verdicts -/

def Refuses (verdict : Except GoError AuditResult) : Prop :=
  ∀ result, verdict = .ok result → result.blocks = true

theorem refuses_error (err : GoError) : Refuses (.error err) := by
  simp [Refuses]

theorem refuses_ok (result : AuditResult) : Refuses (.ok result) ↔ result.blocks = true := by
  simp [Refuses]

instance (verdict : Except GoError AuditResult) : Decidable (Refuses verdict) :=
  match verdict with
  | .error err => isTrue (refuses_error err)
  | .ok result => decidable_of_iff _ (refuses_ok result).symm

theorem not_refuses_iff (verdict : Except GoError AuditResult) :
    ¬ Refuses verdict ↔ ∃ result, verdict = .ok result ∧ result.blocks = false := by
  simp [Refuses]

def haltRule (entityID : String) (halt : HaltMatch) : RuleInference :=
  ⟨"halt", halt.tier, haltDefinition entityID halt, haltSourceFile, "halt"⟩

theorem haltTrail_rules (now entityID : String) (halts : List HaltMatch) :
    (haltTrail now entityID halts).matchedRules = halts.map (haltRule entityID) := by
  have collected : ∀ (trail : AuditTrail), (halts.foldl
      (fun trail halt =>
        trail.addRule "halt" (haltDefinition entityID halt) haltSourceFile "halt" halt.tier)
      trail).matchedRules = trail.matchedRules ++ halts.map (haltRule entityID) := by
    induction halts with
    | nil => simp
    | cons halt rest ih =>
      intro trail
      rw [List.foldl_cons, ih]
      simp [AuditTrail.addRule, haltRule]
  simpa [haltTrail, newAuditTrail] using
    collected (newAuditTrail now "manglekit-engine" ("halt(\"" ++ entityID ++ "\", ...)"))

theorem haltTrail_tiers (now entityID : String) (halts : List HaltMatch) :
    (haltTrail now entityID halts).matchedRules.map (·.tier) = halts.map (·.tier) := by
  rw [haltTrail_rules, List.map_map]
  rfl

theorem foldl_moreSevere_haltTrail (now entityID : String) {first : HaltMatch}
    (rest : List HaltMatch) (named : first.tier ≠ "") :
    (haltTrail now entityID (first :: rest)).matchedRules.foldl
        (fun severe rule => moreSevere severe rule.tier) "" =
      (rest.map (·.tier)).foldl moreSevere first.tier := by
  have start : moreSevere "" first.tier = first.tier := by
    simp [moreSevere, named]
  rw [← List.foldl_map (f := fun rule : RuleInference => rule.tier) (g := moreSevere),
    haltTrail_tiers, List.map_cons, List.foldl_cons, start]

theorem refuses_preCheck_halts (now entityID : String) (alignment : AlignmentError)
    {first : HaltMatch} {rest : List HaltMatch} (named : ∀ halt ∈ first :: rest, halt.tier ≠ "") :
    Refuses (preCheckResult (decisionOf
        ⟨some (haltTrail now entityID (first :: rest)), some (.alignment alignment)⟩)) ↔
      ∃ halt ∈ first :: rest, ¬ Advisory halt.tier := by
  have severe := foldl_moreSevere_haltTrail now entityID rest (named first List.mem_cons_self)
  have restNamed : ∀ tier ∈ rest.map (·.tier), tier ≠ "" := by
    simpa using fun halt member => named halt (List.mem_cons_of_mem _ member)
  have judged := advisory_foldl_moreSevere (named first List.mem_cons_self) restNamed
  simp only [decisionOf, GoError.asAlignment, preCheckResult, if_true, refuses_ok,
    AuditResult.blocks, violationTierFromDecision, severe, Bool.not_false, Bool.true_and]
  rw [← TrustTier.blocking, blocking_mapCoreTier, judged]
  simp [imp_iff_not_or]

/-- The post-check lets an alignment error pass if its tier is advisory; other
errors never pass. -/
theorem refuses_postCheck_error (err : GoError) :
    Refuses (postCheckResult (.error err)) ↔
      ∀ alignment, err.asAlignment = some alignment → ¬ Advisory alignment.tier := by
  cases chain : err.asAlignment with
  | none => simp [postCheckResult, chain, refuses_error]
  | some alignment =>
    simp only [postCheckResult, chain, refuses_ok, AuditResult.blocks, Bool.not_false,
      Bool.true_and]
    rw [← TrustTier.blocking, blocking_mapCoreTier]
    simp

theorem refuses_preCheck_error (err : GoError) :
    Refuses (preCheckResult (decisionOf ⟨none, some err⟩)) := by
  cases chain : err.asAlignment with
  | none => simp [decisionOf, chain, preCheckResult, refuses_error]
  | some alignment =>
    simp [decisionOf, chain, preCheckResult, refuses_ok, AuditResult.blocks,
      violationTierFromDecision]

/-! ## What the answers of a gate check let pass -/

def AdvisoryError (err : GoError) : Prop :=
  ∃ alignment, err.asAlignment = some alignment ∧ Advisory alignment.tier

structure GateAnswers where
  tiered : QueryRun
  untiered : QueryRun
  denied : Except GoError Bool

namespace GateAnswers

def tieredHalts (answers : GateAnswers) : List HaltMatch :=
  answers.tiered.reported.filterMap haltMatch3

def untieredHalts (answers : GateAnswers) : List HaltMatch :=
  answers.untiered.reported.filterMap haltMatch2

/-- The check of an input passes if all tiered halts are advisory, or if there
are none and the fallback queries find nothing. -/
def PassesInput (answers : GateAnswers) : Prop :=
  (answers.tieredHalts ≠ [] ∧ ∀ halt ∈ answers.tieredHalts, Advisory halt.tier) ∨
    (answers.tieredHalts = [] ∧ answers.untiered.err = none ∧ answers.untieredHalts = [] ∧
      answers.denied = .ok false)

/-- The check of an output passes if some tiered halt is advisory and none is
binding, or if there are none and the fallback queries find nothing or fail in an
error that counts as advisory. -/
def PassesOutput (answers : GateAnswers) : Prop :=
  ((∃ halt ∈ answers.tieredHalts, Advisory halt.tier) ∧
      ∀ halt ∈ answers.tieredHalts, ¬ Binding halt.tier) ∨
    (answers.tieredHalts = [] ∧
      ((∃ err, answers.untiered.err = some err ∧ AdvisoryError err) ∨
        (answers.untiered.err = none ∧ answers.untieredHalts = [] ∧
          (answers.denied = .ok false ∨ ∃ err, answers.denied = .error err ∧ AdvisoryError err))))

def Fails (answers : GateAnswers) : Prop :=
  answers.tiered.err ≠ none ∨
    (answers.tieredHalts = [] ∧
      (answers.untiered.err ≠ none ∨
        (answers.untieredHalts = [] ∧ ∃ err, answers.denied = .error err)))

end GateAnswers

theorem tier_ne_empty_of_mem_tieredHalts {answers : GateAnswers} {halt : HaltMatch}
    (member : halt ∈ answers.tieredHalts) : halt.tier ≠ "" := by
  obtain ⟨solution, -, matched⟩ := List.mem_filterMap.mp member
  unfold haltMatch3 at matched
  split at matched
  · simp at matched
  · obtain rfl := Option.some.inj matched
    dsimp only
    split_ifs with empty
    · decide
    · exact empty

theorem tier_of_mem_untieredHalts {answers : GateAnswers} {halt : HaltMatch}
    (member : halt ∈ answers.untieredHalts) : halt.tier = tierUnknown := by
  obtain ⟨solution, -, matched⟩ := List.mem_filterMap.mp member
  obtain ⟨reason, -, rfl⟩ := Option.map_eq_some_iff.mp matched
  rfl

def answersOf (engine : PolicyEngine Id) (ctx : Context) (entityID : String)
    (facts : List Datalog.Atom) : GateAnswers where
  tiered := engine.runtime.queryWithSolutions ctx facts (queryHalt3 entityID)
  untiered := engine.runtime.queryWithSolutions ctx facts (queryHalt2 entityID)
  denied := engine.runtime.executeQuery ctx facts (queryDeny entityID)

section Checks

variable (engine : PolicyEngine Id) (ctx : Context) (actionName entityID : String)
  (facts : List Datalog.Atom)

theorem checkHalts_eq :
    checkHalts engine ctx actionName entityID facts =
      match (answersOf engine ctx entityID facts).tieredHalts with
      | first :: rest => reportHalts engine ctx actionName entityID facts first rest
      | [] =>
        match (answersOf engine ctx entityID facts).untiered.err with
        | some err => ⟨none, some (.wrap "halt query error" err)⟩
        | none =>
          match (answersOf engine ctx entityID facts).untieredHalts with
          | first :: rest => reportHalts engine ctx actionName entityID facts first rest
          | [] => checkDeny engine ctx actionName entityID facts := rfl

/-- The ways a check ends, each with the answers that lead to it. -/
inductive Checked (now entityID : String) (answers : GateAnswers) : GateResult → Prop where
  | tiered {first rest alignment} (found : answers.tieredHalts = first :: rest)
      (tier : alignment.tier = (bestMatch first rest).tier) : Checked now entityID answers
        ⟨some (haltTrail now entityID (first :: rest)), some (.alignment alignment)⟩
  | failed {err} (noTiered : answers.tieredHalts = [])
      (failure : answers.untiered.err = some err) :
      Checked now entityID answers ⟨none, some (.wrap "halt query error" err)⟩
  | untiered {first rest alignment} (noTiered : answers.tieredHalts = [])
      (succeeds : answers.untiered.err = none) (found : answers.untieredHalts = first :: rest)
      (tier : alignment.tier = (bestMatch first rest).tier) : Checked now entityID answers
        ⟨some (haltTrail now entityID (first :: rest)), some (.alignment alignment)⟩
  | undecided {err} (noTiered : answers.tieredHalts = []) (succeeds : answers.untiered.err = none)
      (noUntiered : answers.untieredHalts = []) (outcome : answers.denied = .error err) :
      Checked now entityID answers ⟨none, some (.wrap "policy evaluation error" err)⟩
  | clean (noTiered : answers.tieredHalts = []) (succeeds : answers.untiered.err = none)
      (noUntiered : answers.untieredHalts = []) (outcome : answers.denied = .ok false) :
      Checked now entityID answers ⟨none, none⟩
  | denied {alignment} (noTiered : answers.tieredHalts = [])
      (succeeds : answers.untiered.err = none) (noUntiered : answers.untieredHalts = [])
      (outcome : answers.denied = .ok true) (tier : alignment.tier = tierUnknown) :
      Checked now entityID answers ⟨none, some (.alignment alignment)⟩

theorem checkHalts_checked :
    Checked engine.host.now entityID (answersOf engine ctx entityID facts)
      (checkHalts engine ctx actionName entityID facts) := by
  rw [checkHalts_eq]
  split
  next first rest found => exact .tiered found rfl
  next noTiered =>
    split
    next err failure => exact .failed noTiered failure
    next succeeds =>
      split
      next first rest found => exact .untiered noTiered succeeds found rfl
      next noUntiered =>
        rcases outcome : (answersOf engine ctx entityID facts).denied with err | _ | _ <;>
          have asked : engine.runtime.executeQuery ctx facts (queryDeny entityID) = _ := outcome <;>
          unfold checkDeny <;> rw [asked]
        · exact .undecided noTiered succeeds noUntiered outcome
        · exact .clean noTiered succeeds noUntiered outcome
        · exact .denied noTiered succeeds noUntiered outcome rfl

end Checks

namespace Checked

variable {now entityID : String} {answers : GateAnswers} {result : GateResult}
  (checked : Checked now entityID answers result)

include checked

theorem refuses_input_iff :
    Refuses (preCheckResult (decisionOf result)) ↔ ¬ answers.PassesInput := by
  unfold GateAnswers.PassesInput
  cases checked with
  | tiered found _ =>
    rw [refuses_preCheck_halts _ _ _ fun halt member =>
      tier_ne_empty_of_mem_tieredHalts (found ▸ member)]
    simp [found, imp_iff_not_or]
  | failed noTiered failure => simp [noTiered, failure, refuses_preCheck_error]
  | @untiered first rest _ noTiered _ found _ =>
    have unknown : ∀ halt ∈ first :: rest, halt.tier = tierUnknown := fun halt member =>
      tier_of_mem_untieredHalts (found ▸ member)
    have named : ∀ halt ∈ first :: rest, halt.tier ≠ "" := by
      intro halt member
      rw [unknown halt member]
      decide
    rw [refuses_preCheck_halts _ _ _ named]
    simpa [noTiered, found] using .inl (unknown first List.mem_cons_self ▸ not_advisory_unknown)
  | undecided noTiered _ _ outcome | denied noTiered _ _ outcome _ =>
    simp [noTiered, outcome, refuses_preCheck_error]
  | clean noTiered succeeds noUntiered outcome =>
    simp [noTiered, succeeds, noUntiered, outcome, decisionOf, preCheckResult, refuses_ok,
      AuditResult.blocks]

theorem refuses_output_iff (output : Envelope) :
    Refuses (postCheckResult (outputOf output result)) ↔ ¬ answers.PassesOutput := by
  unfold GateAnswers.PassesOutput
  cases checked with
  | tiered found tier =>
    simp only [outputOf, refuses_postCheck_error, GoError.asAlignment, Option.some.injEq,
      forall_eq', tier, advisory_bestMatch]
    simp [found, and_comm]
  | failed noTiered failure =>
    simp [noTiered, failure, outputOf, refuses_postCheck_error, GoError.asAlignment, AdvisoryError]
  | @untiered first rest _ noTiered succeeds found tier =>
    have unknown : (bestMatch first rest).tier = tierUnknown :=
      tier_of_mem_untieredHalts (found ▸ bestMatch_mem first rest)
    simp [noTiered, succeeds, found, outputOf, refuses_postCheck_error, GoError.asAlignment, tier,
      unknown, not_advisory_unknown]
  | undecided noTiered succeeds noUntiered outcome =>
    simp [noTiered, succeeds, noUntiered, outcome, outputOf, refuses_postCheck_error,
      GoError.asAlignment, AdvisoryError]
  | clean noTiered succeeds noUntiered outcome =>
    simp [noTiered, succeeds, noUntiered, outcome, outputOf, postCheckResult, refuses_ok,
      AuditResult.blocks]
  | denied noTiered succeeds noUntiered outcome tier =>
    simp [noTiered, succeeds, noUntiered, outcome, outputOf, refuses_postCheck_error,
      GoError.asAlignment, tier, not_advisory_unknown]

end Checked

end Manglekit.Supervisor

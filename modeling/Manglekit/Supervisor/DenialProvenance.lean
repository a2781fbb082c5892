import Manglekit.Supervisor.TierSemantics
import Mathlib.Data.List.Find

/-!
# What a denial is put down to

The adapter reads the tier of a violation off the rules in the trail.  A denial takes its
tier and its rule from the first of these rules with the tier of the violation, and its
rule ID from the reason that the engine gave.  The engine ranks unknown tiers last and the
adapter ranks them beside T1, so the two may speak of different halts.
-/

namespace Manglekit.Supervisor

open Core Engine

/-! ## The tier of a trail -/

/-- Rules without a tier are passed over. -/
theorem foldl_moreSevere_filter (severe : Tier) (tiers : List Tier) :
    tiers.foldl moreSevere severe =
      (tiers.filter fun tier => decide (tier ≠ "")).foldl moreSevere severe := by
  induction tiers generalizing severe with
  | nil => rfl
  | cons tier rest ih =>
    by_cases untagged : tier = ""
    · subst untagged
      simpa [moreSevere] using ih severe
    · simpa [untagged] using ih (moreSevere severe tier)

theorem advisory_severest_iff (tiers : List Tier) :
    Advisory (tiers.foldl moreSevere "") ↔
      (∃ tier ∈ tiers, Advisory tier) ∧ ∀ tier ∈ tiers, tier = "" ∨ Advisory tier := by
  have named : ∀ tier, tier ∈ tiers ∧ tier ≠ "" ↔
      tier ∈ tiers.filter fun tier => decide (tier ≠ "") := by simp
  have reduced : ((∃ tier ∈ tiers, Advisory tier) ∧ ∀ tier ∈ tiers, tier = "" ∨ Advisory tier) ↔
      (∃ tier ∈ tiers.filter fun tier => decide (tier ≠ ""), Advisory tier) ∧
        ∀ tier ∈ tiers.filter fun tier => decide (tier ≠ ""), Advisory tier := by
    refine and_congr ⟨?_, ?_⟩ ⟨?_, ?_⟩
    · rintro ⟨tier, member, advisory⟩
      exact ⟨tier, (named tier).mp ⟨member, advisory_ne_empty advisory⟩, advisory⟩
    · rintro ⟨tier, member, advisory⟩
      exact ⟨tier, ((named tier).mpr member).1, advisory⟩
    · intro all tier member
      obtain ⟨present, tagged⟩ := (named tier).mpr member
      exact (all tier present).resolve_left tagged
    · intro all tier member
      by_cases untagged : tier = ""
      · exact .inl untagged
      · exact .inr (all tier ((named tier).mp ⟨member, untagged⟩))
  rw [foldl_moreSevere_filter, reduced]
  have tagged : ∀ tier ∈ tiers.filter fun tier => decide (tier ≠ ""), tier ≠ "" :=
    fun tier member => ((named tier).mpr member).2
  generalize (tiers.filter fun tier => decide (tier ≠ "")) = kept at tagged
  cases kept with
  | nil => simp [Advisory, tierT2Playbook, tierT3User]
  | cons first rest =>
    have start : moreSevere "" first = first := by
      simp [moreSevere, tagged first List.mem_cons_self]
    rw [List.foldl_cons, start, advisory_foldl_moreSevere (tagged first List.mem_cons_self)
      fun tier member => tagged tier (List.mem_cons_of_mem _ member), List.forall_mem_cons]
    exact ⟨fun all => ⟨⟨first, List.mem_cons_self, all.1⟩, all⟩, fun all => all.2⟩

/-- The rules without a tier stand beside advice only. -/
def AdviceHides (rules : List RuleInference) : Prop :=
  (∃ rule ∈ rules, rule.tier = "") ∧ (∃ rule ∈ rules, Advisory rule.tier) ∧
    ∀ rule ∈ rules, rule.tier = "" ∨ Advisory rule.tier

theorem blocking_violationTier_iff {decision : Decision} {trail : AuditTrail}
    (trailed : decision.auditTrail = some trail) :
    (violationTierFromDecision decision).blocking = true ↔
      ¬ ((∃ rule ∈ trail.matchedRules, Advisory rule.tier) ∧
        ∀ rule ∈ trail.matchedRules, rule.tier = "" ∨ Advisory rule.tier) := by
  have severest := advisory_severest_iff (trail.matchedRules.map (·.tier))
  rw [List.foldl_map] at severest
  simp only [violationTierFromDecision, trailed]
  rw [blocking_mapCoreTier, severest]
  simp

/-- Whatever the evaluator answers, the adapter reports a blocking tier for a trail with a
rule that is no advice, exactly if advice does not hide that the rule has no tier. -/
theorem untagged_rules_block_iff {host : Host} {evaluator : Evaluator Id} {ctx : Context}
    {atoms : List Atom} {decision : Decision} {trail : AuditTrail}
    (threaded : earlyResult ctx atoms = none) (subject : reflectsOn ctx.preCheck = none)
    (assessed : evaluator.assessPlan ctx (assessmentEnvelope host ctx.preCheck atoms) =
      (decision, none))
    (halted : decision.outcome = .halt) (trailed : decision.auditTrail = some trail) :
    ((∃ rule ∈ trail.matchedRules, ¬ Advisory rule.tier) →
        ∃ verdict, verifyAtoms host evaluator ctx atoms = Except.ok verdict ∧
          verdict.pass = false ∧ verdict.violationTier.blocking = true) ↔
      ¬ AdviceHides trail.matchedRules := by
  have reported : verifyAtoms host evaluator ctx atoms = Except.ok
      { pass := false
        violationTier := violationTierFromDecision decision
        conflictPath := decision.reasons.headD "unknown"
        trail := decision.auditTrail } := by
    have asked : verifyAtoms host evaluator ctx atoms =
        preCheckResult (evaluator.assessPlan ctx (assessmentEnvelope host ctx.preCheck atoms)) := by
      unfold verifyAtoms
      rw [threaded, subject]
      rfl
    rw [asked, assessed]
    simp [preCheckResult, halted]
  have judged : (∃ verdict, verifyAtoms host evaluator ctx atoms = Except.ok verdict ∧
      verdict.pass = false ∧ verdict.violationTier.blocking = true) ↔
        (violationTierFromDecision decision).blocking = true := by
    rw [reported]
    constructor
    · rintro ⟨verdict, same, -, blocks⟩
      obtain rfl := Except.ok.inj same
      exact blocks
    · intro blocks
      exact ⟨_, rfl, rfl, blocks⟩
  rw [judged, blocking_violationTier_iff trailed]
  constructor
  · rintro blocks ⟨⟨rule, member, untagged⟩, advised, rest⟩
    refine blocks ⟨rule, member, ?_⟩ ⟨advised, rest⟩
    exact fun advisory => advisory_ne_empty advisory untagged
  · rintro visible ⟨rule, member, hard⟩ ⟨advised, rest⟩
    exact visible ⟨⟨rule, member, (rest rule member).resolve_right hard⟩, advised, rest⟩

def taggedRule (tier : Tier) : RuleInference :=
  ⟨"limit", tier, "limit(Entity) :- request(Entity).", "policy.dl", "limit"⟩

/-- An evaluator that halts everything, with rules of the given tiers in its trail. -/
def haltingEvaluator (tiers : List Tier) : Evaluator Id where
  assessPlan _ _ :=
    ({ outcome := .halt
       reasons := ["over the limit"]
       auditTrail := some { newAuditTrail "" "limiter" "limit(Entity)" with
        matchedRules := tiers.map taggedRule } }, none)
  reflect _ _ output := Except.ok output

def payment : List Atom := [⟨"amount", "Req", "900"⟩]

theorem untagged_rule_hidden :
    (∃ rule ∈ ["", "T2"].map taggedRule, ¬ Advisory rule.tier) ∧
      ¬ ∃ verdict, verifyAtoms Reference.host (haltingEvaluator ["", "T2"]) {} payment =
        Except.ok verdict ∧ verdict.pass = false ∧ verdict.violationTier.blocking = true := by
  refine ⟨by decide, ?_⟩
  rintro ⟨verdict, judged, -, blocks⟩
  obtain rfl := Except.ok.inj judged
  exact absurd blocks (by decide)

theorem untagged_rule_blocks :
    ∃ verdict, verifyAtoms Reference.host (haltingEvaluator ["", "T1", "T2"]) {} payment =
      Except.ok verdict ∧ verdict.pass = false ∧ verdict.violationTier.blocking = true := by
  have visible : ¬ AdviceHides (["", "T1", "T2"].map taggedRule) := by
    rintro ⟨-, -, rest⟩
    exact absurd (rest (taggedRule "T1") (by simp)) (by decide)
  exact (untagged_rules_block_iff (by decide) rfl rfl rfl rfl).mpr visible
    ⟨taggedRule "", by simp, by decide⟩

/-! ## The first halt of the best tier -/

theorem find?_bestMatch (first : HaltMatch) (rest : List HaltMatch) :
    (first :: rest).find?
        (fun halt => decide (tierPriority halt.tier = tierPriority (bestMatch first rest).tier)) =
      some (bestMatch first rest) := by
  induction rest generalizing first with
  | nil => simp [bestMatch]
  | cons candidate rest ih =>
    rw [bestMatch_cons]
    split_ifs with better
    · have bound := bestMatch_le candidate rest candidate List.mem_cons_self
      rw [List.find?_cons_of_neg (by simp; omega)]
      exact ih candidate
    · have found := ih first
      have bound := bestMatch_le first rest first List.mem_cons_self
      by_cases chosen : tierPriority first.tier = tierPriority (bestMatch first rest).tier
      · rw [List.find?_cons_of_pos (by simpa using chosen)] at found ⊢
        exact found
      · rw [List.find?_cons_of_neg (by simpa using chosen)] at found ⊢
        rw [List.find?_cons_of_neg (by simp; omega)]
        exact found

variable {tier : Tier} {halts : List HaltMatch}

theorem find?_eq_bestMatch {first found : HaltMatch} {rest : List HaltMatch} {rank : Nat}
    (ranks : ∀ other, tierPriority other = rank ↔ other = tier)
    (lowest : ∀ halt ∈ first :: rest, rank ≤ tierPriority halt.tier)
    (found_eq : (first :: rest).find? (fun halt => decide (halt.tier = tier)) = some found) :
    found = bestMatch first rest := by
  have tierFound : found.tier = tier := by simpa using List.find?_some found_eq
  have least : tierPriority (bestMatch first rest).tier = rank := by
    refine le_antisymm ?_ (lowest _ (bestMatch_mem first rest))
    have bound := bestMatch_le first rest found (List.mem_of_find?_eq_some found_eq)
    rwa [(ranks found.tier).mpr tierFound] at bound
  have best := find?_bestMatch first rest
  simp only [least, ranks] at best
  exact Option.some.inj (found_eq.symm.trans best)

theorem tierPriority_eq_zero (tier : Tier) : tierPriority tier = 0 ↔ tier = tierT0Axiom := by
  unfold tierPriority
  split_ifs <;> simp_all

theorem tierPriority_eq_one (tier : Tier) : tierPriority tier = 1 ↔ tier = tierT1Governance := by
  unfold tierPriority
  split_ifs <;> simp_all [tierT0Axiom, tierT1Governance]

theorem tierPriority_eq_two (tier : Tier) : tierPriority tier = 2 ↔ tier = tierT2Playbook := by
  unfold tierPriority
  split_ifs <;> simp_all [tierT0Axiom, tierT1Governance, tierT2Playbook]

theorem tierPriority_eq_three (tier : Tier) : tierPriority tier = 3 ↔ tier = tierT3User := by
  unfold tierPriority
  split_ifs <;> simp_all [tierT0Axiom, tierT1Governance, tierT2Playbook, tierT3User]

/-- The first halt of T1, or else of T2, or else of T3. -/
def leading (halts : List HaltMatch) : Option HaltMatch :=
  (halts.find? fun halt => decide (halt.tier = tierT1Governance)).or
    ((halts.find? fun halt => decide (halt.tier = tierT2Playbook)).or
      (halts.find? fun halt => decide (halt.tier = tierT3User)))

theorem absent_of_find? (none : halts.find? (fun halt => decide (halt.tier = tier)) = none) :
    ∀ halt ∈ halts, halt.tier ≠ tier := by
  simpa using none

section Leading

variable {first : HaltMatch} {rest : List HaltMatch}
  (noAxiom : ∀ halt ∈ first :: rest, halt.tier ≠ tierT0Axiom)
include noAxiom

theorem leading_eq_bestMatch {leader : HaltMatch} (leads : leading (first :: rest) = some leader) :
    leader = bestMatch first rest := by
  have one : ∀ halt ∈ first :: rest, 1 ≤ tierPriority halt.tier := fun halt member =>
    Nat.one_le_iff_ne_zero.mpr fun zero => noAxiom halt member ((tierPriority_eq_zero _).mp zero)
  unfold leading at leads
  cases governance : (first :: rest).find? fun halt => decide (halt.tier = tierT1Governance) with
  | some found =>
    obtain rfl : found = leader := by simpa [governance] using leads
    exact find?_eq_bestMatch tierPriority_eq_one one governance
  | none =>
    have two : ∀ halt ∈ first :: rest, 2 ≤ tierPriority halt.tier := fun halt member =>
      lt_of_le_of_ne (one halt member) fun equal =>
        absent_of_find? governance halt member ((tierPriority_eq_one _).mp equal.symm)
    rw [governance, Option.none_or] at leads
    cases playbook : (first :: rest).find? fun halt => decide (halt.tier = tierT2Playbook) with
    | some found =>
      obtain rfl : found = leader := by simpa [playbook] using leads
      exact find?_eq_bestMatch tierPriority_eq_two two playbook
    | none =>
      have three : ∀ halt ∈ first :: rest, 3 ≤ tierPriority halt.tier := fun halt member =>
        lt_of_le_of_ne (two halt member) fun equal =>
          absent_of_find? playbook halt member ((tierPriority_eq_two _).mp equal.symm)
      rw [playbook, Option.none_or] at leads
      exact find?_eq_bestMatch tierPriority_eq_three three leads

theorem first_eq_bestMatch (none : leading (first :: rest) = none) :
    first = bestMatch first rest ∧ ¬ Advisory first.tier := by
  simp only [leading, Option.or_eq_none_iff] at none
  obtain ⟨governance, playbook, user⟩ := none
  have unknown : ∀ halt ∈ first :: rest, tierPriority halt.tier = 4 := by
    intro halt member
    have axiomTier := mt (tierPriority_eq_zero _).mp (noAxiom halt member)
    have governanceTier := mt (tierPriority_eq_one _).mp (absent_of_find? governance halt member)
    have playbookTier := mt (tierPriority_eq_two _).mp (absent_of_find? playbook halt member)
    have userTier := mt (tierPriority_eq_three _).mp (absent_of_find? user halt member)
    have bound := tierPriority_le_four halt.tier
    omega
  constructor
  · have best := find?_bestMatch first rest
    rw [unknown _ (bestMatch_mem first rest),
      List.find?_cons_of_pos (by simpa using unknown first List.mem_cons_self)] at best
    exact Option.some.inj best
  · rw [advisory_iff_tierPriority, unknown first List.mem_cons_self]
    omega

end Leading

/-! ## The tier of the violation -/

theorem moreSevere_cases {severe : Tier} (found : severe ≠ "") (named : tier ≠ "") :
    (moreSevere severe tier = tier ∧ tierSeverity tier < tierSeverity severe) ∨
      (moreSevere severe tier = severe ∧ tierSeverity severe ≤ tierSeverity tier) := by
  simp only [moreSevere, named, found, false_or, if_false]
  split_ifs with worse
  · exact .inl ⟨rfl, worse⟩
  · exact .inr ⟨rfl, not_lt.mp worse⟩

theorem severest_spec {severe : Tier} {tiers : List Tier} (found : severe ≠ "")
    (named : ∀ tier ∈ tiers, tier ≠ "") :
    tiers.foldl moreSevere severe ∈ severe :: tiers ∧
      ∀ tier ∈ severe :: tiers,
        tierSeverity (tiers.foldl moreSevere severe) ≤ tierSeverity tier := by
  induction tiers generalizing severe with
  | nil => simp
  | cons tier rest ih =>
    have tierNamed : tier ≠ "" := named tier List.mem_cons_self
    have stepNamed : moreSevere severe tier ≠ "" := moreSevere_ne_empty tierNamed
    obtain ⟨member, least⟩ := ih stepNamed
      fun other later => named other (List.mem_cons_of_mem _ later)
    rw [List.foldl_cons]
    have bound := least _ List.mem_cons_self
    have later : ∀ other ∈ rest, _ := fun other member =>
      least other (List.mem_cons_of_mem _ member)
    rcases moreSevere_cases found tierNamed with ⟨same, worse⟩ | ⟨same, kept⟩
    · rw [same] at member bound later ⊢
      refine ⟨List.mem_cons_of_mem _ member, ?_⟩
      simp only [List.forall_mem_cons]
      exact ⟨le_trans bound worse.le, bound, later⟩
    · rw [same] at member bound later ⊢
      refine ⟨?_, ?_⟩
      · rcases List.mem_cons.mp member with first | present
        · exact List.mem_cons.mpr (.inl first)
        · exact List.mem_cons_of_mem _ (List.mem_cons_of_mem _ present)
      · simp only [List.forall_mem_cons]
        exact ⟨bound, le_trans bound kept, later⟩

theorem tierSeverity_eq_zero (tier : Tier) : tierSeverity tier = 0 ↔ tier = tierT0Axiom := by
  unfold tierSeverity
  split_ifs <;> simp_all

theorem tierSeverity_of_blocking (blocking : ¬ Advisory tier) (noAxiom : tier ≠ tierT0Axiom) :
    tierSeverity tier = 1 := by
  have upper := tierSeverity_of_not_advisory blocking
  have lower := mt (tierSeverity_eq_zero tier).mp noAxiom
  omega

theorem mapCoreTier_eq_tier0Kernel (tier : Tier) :
    mapCoreTier tier = .tier0Kernel ↔ tier = tierT0Axiom := by
  unfold mapCoreTier
  split_ifs <;> simp_all

theorem mapCoreTier_eq_tier1Admin (noAxiom : tier ≠ tierT0Axiom) :
    mapCoreTier tier = .tier1Admin ↔ ¬ Advisory tier := by
  unfold mapCoreTier Advisory
  split_ifs <;> simp_all [tierT1Governance, tierT2Playbook, tierT3User]

/-- The tier that the adapter reports for named tiers: the kernel's if there is an axiom
among them, and otherwise the administrator's if it blocks. -/
theorem mapCoreTier_severest {severe : Tier} {tiers : List Tier} (found : severe ≠ "")
    (named : ∀ tier ∈ tiers, tier ≠ "")
    (blocks : (mapCoreTier (tiers.foldl moreSevere severe)).blocking = true) :
    (tierT0Axiom ∈ severe :: tiers ∧
        mapCoreTier (tiers.foldl moreSevere severe) = .tier0Kernel) ∨
      (tierT0Axiom ∉ severe :: tiers ∧
        mapCoreTier (tiers.foldl moreSevere severe) = .tier1Admin) := by
  obtain ⟨member, least⟩ := severest_spec found named
  by_cases axiomTier : tierT0Axiom ∈ severe :: tiers
  · refine .inl ⟨axiomTier, (mapCoreTier_eq_tier0Kernel _).mpr ?_⟩
    have bound := least _ axiomTier
    rw [(tierSeverity_eq_zero _).mpr rfl] at bound
    exact (tierSeverity_eq_zero _).mp (Nat.le_zero.mp bound)
  · have noAxiom : tiers.foldl moreSevere severe ≠ tierT0Axiom := fun equal =>
      axiomTier (equal ▸ member)
    exact .inr ⟨axiomTier, (mapCoreTier_eq_tier1Admin noAxiom).mpr
      ((blocking_mapCoreTier _).mp blocks)⟩

/-! ## Denials -/

def GateAnswers.Finds (answers : GateAnswers) (halts : List HaltMatch) : Prop :=
  answers.tieredHalts = halts ∨
    (answers.tieredHalts = [] ∧ answers.untiered.err = none ∧ answers.untieredHalts = halts)

/-- The error speaks of the halt, and no other halt is more severe. -/
structure PutDownTo (halts : List HaltMatch) (error : PolicyViolationError) (halt : HaltMatch) :
    Prop where
  member : halt ∈ halts
  tier : error.tier = halt.tier
  matchedRule : error.matchedRule = haltDefinition entityInput halt
  ruleID : error.ruleID = halt.reason
  blocking : ¬ Advisory halt.tier
  severest : ∀ other ∈ halts, tierSeverity halt.tier ≤ tierSeverity other.tier

/-- There is an axiom among the halts, or the first halt that blocks gives the same reason
as the halt that leads. -/
def SpeaksOfOne (halts : List HaltMatch) : Prop :=
  (∃ halt ∈ halts, halt.tier = tierT0Axiom) ∨
    ∀ blocker ∈ halts.find? (fun halt => decide (¬ Advisory halt.tier)),
      ∀ leader ∈ leading halts, blocker.reason = leader.reason

section Denials

variable {host : Host} {engine : PolicyEngine Id} {ctx : Context} {atoms : List Atom}
  {facts : List Datalog.Atom} {first : HaltMatch} {rest : List HaltMatch}

theorem tier_ne_empty_of_finds {answers : GateAnswers} (finds : answers.Finds halts) :
    ∀ halt ∈ halts, halt.tier ≠ "" := by
  rintro halt member
  rcases finds with rfl | ⟨-, -, rfl⟩
  · exact tier_ne_empty_of_mem_tieredHalts member
  · rw [tier_of_mem_untieredHalts member]
    decide

theorem verifyAtoms_of_finds (asked : askedFacts host engine ctx atoms = some facts)
    (subject : reflectsOn ctx.preCheck = none)
    (finds : (answersOf engine ctx entityInput facts).Finds (first :: rest)) :
    verifyAtoms host (policyEvaluator engine) ctx atoms = Except.ok
      { pass := false
        violationTier := mapCoreTier ((rest.map (·.tier)).foldl moreSevere first.tier)
        conflictPath := (bestMatch first rest).reason
        trail := some (haltTrail engine.host.now entityInput (first :: rest)) } := by
  have checked : checkHalts engine ctx "" entityInput facts =
      reportHalts engine ctx "" entityInput facts first rest := by
    rw [checkHalts_eq]
    rcases finds with tiered | ⟨none, succeeds, untiered⟩
    · rw [tiered]
    · rw [none, succeeds, untiered]
  have severest := foldl_moreSevere_haltTrail engine.host.now entityInput rest
    (tier_ne_empty_of_finds finds first List.mem_cons_self)
  rw [verifyAtoms_of_asked asked subject, checked, ← severest]
  rfl

theorem haltDefinition_ne_empty (entityID : String) (halt : HaltMatch) :
    haltDefinition entityID halt ≠ "" := by
  intro empty
  simpa [haltDefinition] using congrArg String.toList empty

theorem reason_eq_of_definition {entityID : String} {halt other : HaltMatch}
    (tier : halt.tier = other.tier)
    (same : haltDefinition entityID halt = haltDefinition entityID other) :
    halt.reason = other.reason := by
  have lists := congrArg String.toList same
  simp only [haltDefinition, tier, String.toList_append, List.append_assoc,
    List.append_cancel_left_eq] at lists
  exact String.toList_injective (List.append_cancel_right lists)

section

variable {verdict : AuditResult} {now : String} {blamed : HaltMatch} (description : String)
  (trailed : verdict.trail = some (haltTrail now entityInput halts))
  (named : ∀ halt ∈ halts, halt.tier ≠ "")
  (found : halts.find? (fun halt => decide (mapCoreTier halt.tier = verdict.violationTier)) =
    some blamed)

include description trailed named found

theorem policyViolation_of_find? :
    policyViolationFromResult ctx verdict description =
      { tier := blamed.tier
        ruleID := verdict.conflictPath
        violation := description
        suggestion := ""
        actionName := (ctx.preCheck.map (·.actionName)).getD ""
        matchedRule := haltDefinition entityInput blamed } := by
  have matched : (halts.map (haltRule entityInput)).find? (fun rule =>
      decide (rule.definition ≠ "" ∧ rule.tier ≠ "" ∧
        mapCoreTier rule.tier = verdict.violationTier)) = some (haltRule entityInput blamed) := by
    rw [List.find?_map, Option.map_eq_some_iff]
    refine ⟨blamed, ?_, rfl⟩
    rw [← found]
    apply List.find?_congr
    intro halt member
    rw [Function.comp, decide_eq_decide]
    simp [haltRule, haltDefinition_ne_empty, named halt member]
  simp only [policyViolationFromResult, trailed, haltTrail_rules, Option.map_some,
    Option.getD_some, matched]
  rfl

theorem exists_putDownTo_iff (blocking : ¬ Advisory blamed.tier)
    (severest : ∀ other ∈ halts, tierSeverity blamed.tier ≤ tierSeverity other.tier) :
    (∃ halt, PutDownTo halts (policyViolationFromResult ctx verdict description) halt) ↔
      blamed.reason = verdict.conflictPath := by
  rw [policyViolation_of_find? description trailed named found]
  constructor
  · rintro ⟨halt, blame⟩
    exact (reason_eq_of_definition blame.tier blame.matchedRule).trans blame.ruleID.symm
  · intro same
    exact ⟨blamed, List.mem_of_find?_eq_some found, rfl, rfl, same.symm, blocking, severest⟩

end

/-- Whenever the check of an input blocks, its denial speaks of one halt, and of a most
severe one, exactly if there is an axiom among the halts or the first halt that blocks
gives the reason of the one that leads. -/
theorem denial_speaksOfOne_iff {verdict : AuditResult} (description : String)
    (asked : askedFacts host engine ctx atoms = some facts)
    (subject : reflectsOn ctx.preCheck = none)
    (finds : (answersOf engine ctx entityInput facts).Finds (first :: rest))
    (judged : verifyAtoms host (policyEvaluator engine) ctx atoms = Except.ok verdict)
    (blocks : verdict.blocks = true) :
    (∃ halt, PutDownTo (first :: rest) (policyViolationFromResult ctx verdict description) halt) ↔
      SpeaksOfOne (first :: rest) := by
  have reported := verifyAtoms_of_finds asked subject finds
  rw [judged] at reported
  obtain rfl := Except.ok.inj reported
  have named := tier_ne_empty_of_finds finds
  have tiersNamed : ∀ tier ∈ rest.map (·.tier), tier ≠ "" := by
    simpa using fun halt member => named halt (List.mem_cons_of_mem _ member)
  have present : tierT0Axiom ∈ first.tier :: rest.map (·.tier) ↔
      ∃ halt ∈ first :: rest, halt.tier = tierT0Axiom := by
    rw [← List.map_cons (f := fun halt : HaltMatch => halt.tier), List.mem_map]
  rcases mapCoreTier_severest (named first List.mem_cons_self) tiersNamed
      (by simpa [AuditResult.blocks, TrustTier.blocking] using blocks) with
    ⟨axiomTier, violation⟩ | ⟨noAxiomTier, violation⟩
  · -- The first axiom is blamed, and it is also what the engine chose.
    obtain ⟨halt, member, isAxiom⟩ := present.mp axiomTier
    obtain ⟨blamed, found⟩ : ∃ blamed, (first :: rest).find?
        (fun halt => decide (halt.tier = tierT0Axiom)) = some blamed :=
      Option.isSome_iff_exists.mp (List.find?_isSome.mpr ⟨halt, member, decide_eq_true isAxiom⟩)
    have blamedTier : blamed.tier = tierT0Axiom := by simpa using List.find?_some found
    have best := find?_eq_bestMatch tierPriority_eq_zero (fun _ _ => Nat.zero_le _) found
    refine (exists_putDownTo_iff description rfl named ?_ ?_ ?_).trans
      (iff_of_true (congrArg HaltMatch.reason best) (.inl ⟨halt, member, isAxiom⟩))
    · simpa only [violation, mapCoreTier_eq_tier0Kernel] using found
    · rw [blamedTier]
      decide
    · intro other _
      rw [(tierSeverity_eq_zero _).mpr blamedTier]
      exact Nat.zero_le _
  · have noAxiom : ∀ halt ∈ first :: rest, halt.tier ≠ tierT0Axiom := fun halt member isAxiom =>
      noAxiomTier (present.mpr ⟨halt, member, isAxiom⟩)
    obtain ⟨blamed, found⟩ : ∃ blamed, (first :: rest).find?
        (fun halt => decide (¬ Advisory halt.tier)) = some blamed := by
      obtain ⟨severest, -⟩ := severest_spec (named first List.mem_cons_self) tiersNamed
      rw [← List.map_cons (f := fun halt : HaltMatch => halt.tier), List.mem_map] at severest
      obtain ⟨halt, member, same⟩ := severest
      have hard : ¬ Advisory halt.tier := by
        rw [← mapCoreTier_eq_tier1Admin (noAxiom halt member), same]
        exact violation
      exact Option.isSome_iff_exists.mp (List.find?_isSome.mpr ⟨halt, member, decide_eq_true hard⟩)
    have hard : ¬ Advisory blamed.tier := by simpa using List.find?_some found
    refine (exists_putDownTo_iff description rfl named ?_ hard ?_).trans ?_
    · rw [← found]
      apply List.find?_congr
      intro halt member
      rw [violation, decide_eq_decide]
      exact mapCoreTier_eq_tier1Admin (noAxiom halt member)
    · intro other member
      rw [tierSeverity_of_blocking hard (noAxiom _ (List.mem_of_find?_eq_some found))]
      exact Nat.one_le_iff_ne_zero.mpr fun zero =>
        noAxiom other member ((tierSeverity_eq_zero _).mp zero)
    · have absent : ¬ ∃ halt ∈ first :: rest, halt.tier = tierT0Axiom := by
        rintro ⟨halt, member, isAxiom⟩
        exact noAxiom halt member isAxiom
      simp only [SpeaksOfOne, absent, false_or, found, Option.mem_def, Option.some.injEq,
        forall_eq']
      cases leads : leading (first :: rest) with
      | some leader =>
        rw [← leading_eq_bestMatch noAxiom leads]
        simp
      | none =>
        obtain ⟨best, firstHard⟩ := first_eq_bestMatch noAxiom leads
        rw [List.find?_cons_of_pos (by simpa using firstHard)] at found
        rw [← best, Option.some.inj found]
        simp

end Denials

/-- An engine that derives the halts for every request. -/
def haltingEngine (halts : List HaltMatch) : PolicyEngine Id :=
  storeEngine Reference.host Reference.parseAtom (Reference.evaluated (halts.map fun halt =>
    ⟨Reference.stringAtom "halt" [entityInput, halt.reason, halt.tier], []⟩))

def sendContext : Context := checkContext {} sendCheck entityInput

def unreviewed : HaltMatch := ⟨"not reviewed", "T9"⟩

def secretData : HaltMatch := ⟨"secret data", "T1"⟩

/-- The verdict on an action without payload. -/
def sendVerdict (halts : List HaltMatch) : Except GoError AuditResult :=
  verifyAtoms Reference.host (policyEvaluator (haltingEngine halts)) sendContext []

theorem sendVerdict_of_any {property : AuditResult → Bool}
    (checked : (sendVerdict halts).toOption.any property = true) :
    ∃ verdict, sendVerdict halts = .ok verdict ∧ property verdict = true := by
  obtain ⟨verdict, judged, holds⟩ := (Option.any_eq_true _ _).mp checked
  refine ⟨verdict, ?_, holds⟩
  rcases result : sendVerdict halts with err | found
  · simp [result, Except.toOption] at judged
  · rw [result] at judged
    exact congrArg Except.ok (Option.some.inj judged)

/-- The denial takes its tier from one halt and its rule ID from the other. -/
theorem denial_speaks_of_two :
    ∃ verdict, sendVerdict [unreviewed, secretData] = .ok verdict ∧ verdict.blocks = true ∧
      ¬ ∃ halt, PutDownTo [unreviewed, secretData]
        (policyViolationFromResult sendContext verdict "denied") halt := by
  have checked : (sendVerdict [unreviewed, secretData]).toOption.any (fun verdict =>
      decide (verdict.blocks = true ∧
        (policyViolationFromResult sendContext verdict "denied").tier = unreviewed.tier ∧
        (policyViolationFromResult sendContext verdict "denied").ruleID = secretData.reason)) =
      true := by
    decide +kernel
  obtain ⟨verdict, judged, holds⟩ := sendVerdict_of_any checked
  obtain ⟨blocks, tier, ruleID⟩ := of_decide_eq_true holds
  refine ⟨verdict, judged, blocks, ?_⟩
  rintro ⟨halt, blame⟩
  rw [blame.tier] at tier
  rw [blame.ruleID] at ruleID
  rcases List.mem_pair.mp blame.member with rfl | rfl
  · exact absurd ruleID (by decide)
  · exact absurd tier (by decide)

theorem denial_speaks_of_governance :
    ∃ verdict, sendVerdict [secretData, unreviewed] = .ok verdict ∧ verdict.blocks = true ∧
      ∃ halt, PutDownTo [secretData, unreviewed]
        (policyViolationFromResult sendContext verdict "denied") halt := by
  have checked : (sendVerdict [secretData, unreviewed]).toOption.any AuditResult.blocks = true := by
    decide +kernel
  have asked : askedFacts Reference.host (haltingEngine [secretData, unreviewed]) sendContext [] =
      some (sendFacts entityInput) := by decide +kernel
  have finds : (answersOf (haltingEngine [secretData, unreviewed]) sendContext entityInput
      (sendFacts entityInput)).Finds [secretData, unreviewed] := .inl (by decide +kernel)
  have one : SpeaksOfOne [secretData, unreviewed] := by
    right
    simp [leading, secretData, unreviewed, Advisory, tierT1Governance, tierT2Playbook, tierT3User]
  obtain ⟨verdict, judged, blocks⟩ := sendVerdict_of_any checked
  exact ⟨verdict, judged, blocks,
    (denial_speaksOfOne_iff "denied" asked rfl finds judged blocks).mpr one⟩

end Manglekit.Supervisor

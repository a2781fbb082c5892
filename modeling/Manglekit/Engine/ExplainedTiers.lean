import Manglekit.Engine.ProofSearch
import Manglekit.Engine.Reference

/-!
# The tiers of explained facts

A control fact carries its tier as the third argument.  The tier of an explanation is
instead found by a scan over the head of the rule, which sees constants and variables with
one particular name and takes the first argument that reads as a tier.
-/

namespace Manglekit.Engine

open Core Datalog

/-! ## What the scan sees -/

section Scan

def termTier : Term → Option Tier
  | .const constant => governanceTier constant
  | .var _ => none

def expectedTier (third : Term) : Tier := (termTier third).getD tierUnknown

def seen : Term → Bool
  | .const _ => true
  | .var symbol => decide (symbol = "Tier")

def seenArgs (patterns args : List Term) : List Term :=
  ((patterns.zip args).filter fun pair => seen pair.1).map (·.2)

theorem seenArgs_cons (pattern arg : Term) (patterns args : List Term) :
    seenArgs (pattern :: patterns) (arg :: args) =
      if seen pattern then arg :: seenArgs patterns args else seenArgs patterns args := by
  cases visible : seen pattern <;> simp [seenArgs, visible]

theorem tierCandidate_eq {subst : Substitution} {pattern : Term}
    (ground : isGroundTerm (applySubstTerm subst pattern) = true) :
    (tierCandidate subst pattern).bind governanceTier =
      if seen pattern then termTier (applySubstTerm subst pattern) else none := by
  cases pattern with
  | const constant => rfl
  | var symbol =>
    by_cases named : symbol = "Tier"
    · subst named
      rcases found : subst.lookup "Tier" with _ | bound
      · simp [applySubstTerm, found, isGroundTerm] at ground
      · cases bound with
        | var other => simp [applySubstTerm, found, isGroundTerm] at ground
        | const constant => simp [tierCandidate, applySubstTerm, seen, found, termTier]
    · simp [tierCandidate, seen, named]

theorem tierFromSubst_eq {patterns : List Term} {subst : Substitution}
    (ground : isGround (applySubstToArgs patterns subst) = true) :
    tierFromSubst patterns subst =
      ((seenArgs patterns (applySubstToArgs patterns subst)).findSome? termTier).getD
        tierUnknown := by
  have scans : (patterns.findSome? fun arg => (tierCandidate subst arg).bind governanceTier) =
      (seenArgs patterns (applySubstToArgs patterns subst)).findSome? termTier := by
    induction patterns with
    | nil => rfl
    | cons pattern patterns ih =>
      simp only [applySubstToArgs, isGround, List.map_cons, List.all_cons,
        Bool.and_eq_true] at ground
      have rest := ih ground.2
      simp only [applySubstToArgs, List.map_cons] at rest ⊢
      rw [List.findSome?_cons, tierCandidate_eq ground.1, seenArgs_cons, rest]
      cases seen pattern <;> simp [List.findSome?_cons]
  rw [tierFromSubst, scans]

theorem seenArgs_self {args : List Term} (ground : isGround args = true) :
    seenArgs args args = args := by
  induction args with
  | nil => rfl
  | cons arg args ih =>
    simp only [isGround, List.all_cons, Bool.and_eq_true] at ground
    rw [seenArgs_cons, ih ground.2]
    cases arg with
    | const constant => rfl
    | var symbol => simp [isGroundTerm] at ground

theorem termTier_ne_unknown {term : Term} {tier : Tier} (found : termTier term = some tier) :
    tier ≠ tierUnknown ∧ tier ≠ "" := by
  cases term with
  | var symbol => simp [termTier] at found
  | const constant =>
    simp only [termTier, governanceTier, Option.ite_none_right_eq_some, Option.some.injEq] at found
    obtain ⟨member, rfl⟩ := found
    simp only [List.mem_cons, List.not_mem_nil, or_false] at member
    rcases member with same | same | same | same <;> rw [same] <;> decide

end Scan

/-! ## The tier of an explained fact -/

section Explained

variable (rules : List SourceClause) (store : Store)

/-- The arguments of a fact that the scan sees: those that the head of its first match shows,
or all of them if no rule matches. -/
def visibleArgs (fact : Datalog.Atom) : List Term :=
  match firstMatch store rules fact with
  | some found => seenArgs found.clause.head.args fact.args
  | none => fact.args

def stepsAfter (facts : List Datalog.Atom) : Nat := ((explainFacts rules store facts).run 0).2

variable {rules store}

variable {fact : Datalog.Atom}

theorem tier_of_reconstructed (ground : GroundStore store) {tree : Derivation}
    (proves : tree.proved = some fact) (reconstructed : Reconstructed rules store tree) :
    tree.tier =
      if tree.via = .depthLimit then ""
      else ((visibleArgs rules store fact).findSome? termTier).getD tierUnknown := by
  cases reconstructed with
  | @rule root found children stored first aligned below =>
    obtain rfl := Option.some.inj proves
    obtain ⟨-, samePredicate, unified, -⟩ := firstMatch_spec first
    have unification := unifyAtomArgs_sound (PredicateSym.mk.inj samePredicate).2 unified
    have groundArgs := ground root stored
    rw [← unification.applied] at groundArgs
    have scanned := tierFromSubst_eq groundArgs
    rw [unification.applied] at scanned
    simpa [Derivation.tier, Derivation.via, visibleArgs, first] using scanned
  | @fact root stored unmatched =>
    obtain rfl := Option.some.inj proves
    have groundArgs := ground root stored
    have same := applySubstToArgs_of_ground groundArgs []
    have scanned := tierFromSubst_eq (same.symm ▸ groundArgs)
    rw [same, seenArgs_self groundArgs] at scanned
    simpa [Derivation.tier, Derivation.via, visibleArgs, unmatched] using scanned
  | depthLimit stored => simp [Derivation.tier, Derivation.via]
  | test unproved => simp [unproved] at proves

theorem run_explainFacts_cons (fact : Datalog.Atom) (facts : List Datalog.Atom) (steps : Nat) :
    (explainFacts rules store (fact :: facts)).run steps =
      let proved := (prove rules store maxExplainDepth fact).run steps
      let rest := (explainFacts rules store facts).run proved.2
      (proved.1.getD (.fact fact) :: rest.1, rest.2) := rfl

theorem run_explainFacts_append (before after : List Datalog.Atom) (steps : Nat) :
    (explainFacts rules store (before ++ after)).run steps =
      let first := (explainFacts rules store before).run steps
      let second := (explainFacts rules store after).run first.2
      (first.1 ++ second.1, second.2) := by
  induction before generalizing steps with
  | nil => rfl
  | cons fact before ih =>
    rw [List.cons_append, run_explainFacts_cons, run_explainFacts_cons]
    simp only [ih, List.cons_append]

theorem length_explainFacts (facts : List Datalog.Atom) (steps : Nat) :
    ((explainFacts rules store facts).run steps).1.length = facts.length := by
  induction facts generalizing steps with
  | nil => rfl
  | cons fact facts ih =>
    rw [run_explainFacts_cons]
    simp only [List.length_cons, ih]

theorem explainAtom_getElem? (ground : GroundStore store) {queryAtom : Datalog.Atom}
    {before after : List Datalog.Atom}
    (explained : explainedFacts store queryAtom = before ++ fact :: after) :
    ∃ tree, (explainAtom rules store queryAtom)[before.length]? = some tree ∧
      tree.proved = some fact ∧ Reconstructed rules store tree ∧
      (tree.via = .depthLimit ↔ maxExplainSteps ≤ stepsAfter rules store before) := by
  have stored : fact ∈ store := by
    have member : fact ∈ explainedFacts store queryAtom := by simp [explained]
    exact explainedFacts_stored member
  have always : Always (prove rules store maxExplainDepth fact) _ :=
    always_prove ground stored maxExplainDepth
  obtain ⟨tree, found, proves, reconstructed⟩ := always (stepsAfter rules store before)
  refine ⟨tree, ?_, proves, reconstructed, via_prove_iff ground stored found⟩
  change ((explainFacts rules store (explainedFacts store queryAtom)).run 0).1[before.length]? = _
  rw [explained, run_explainFacts_append]
  simp only
  rw [List.getElem?_append_right (length_explainFacts before 0).le, length_explainFacts,
    Nat.sub_self, run_explainFacts_cons]
  change some (((prove rules store maxExplainDepth fact).run
    (stepsAfter rules store before)).1.getD (.fact fact)) = some tree
  rw [found, Option.getD_some]

theorem getD_eq_getD_iff {Value : Type} {default : Value} {first second : Option Value}
    (firstNe : ∀ value ∈ first, value ≠ default) (secondNe : ∀ value ∈ second, value ≠ default) :
    first.getD default = second.getD default ↔ first = second := by
  cases first <;> cases second <;> simp_all [eq_comm]

theorem findSome?_termTier_ne_unknown (args : List Term) :
    ∀ tier ∈ args.findSome? termTier, tier ≠ tierUnknown := by
  intro tier found
  obtain ⟨arg, -, read⟩ := List.exists_of_findSome?_eq_some found
  exact (termTier_ne_unknown read).1

theorem expectedTier_ne_empty (third : Term) : expectedTier third ≠ "" := by
  unfold expectedTier
  rcases read : termTier third with _ | tier
  · decide
  · exact (termTier_ne_unknown read).2

/-- An explanation reports the expected tier if it is not cut off and the first visible tier
is the one of the third argument. -/
theorem tier_eq_expected_iff (ground : GroundStore store) {third : Term} {tree : Derivation}
    (proves : tree.proved = some fact) (reconstructed : Reconstructed rules store tree) :
    tree.tier = expectedTier third ↔
      tree.via ≠ .depthLimit ∧
        (visibleArgs rules store fact).findSome? termTier = termTier third := by
  rw [tier_of_reconstructed ground proves reconstructed]
  split
  next cut =>
    exact iff_of_false (expectedTier_ne_empty third).symm fun within => within.1 cut
  next within =>
    rw [and_iff_right within]
    exact getD_eq_getD_iff (findSome?_termTier_ne_unknown _)
      fun tier read => (termTier_ne_unknown read).1

end Explained

/-! ## Audited queries -/

section Audited

def ruleOf (printer : Printer) (derivation : Derivation) : RuleInference :=
  ⟨derivation.predicate, derivation.tier,
    if derivation.ruleText printer = "" then derivation.factText printer
      else derivation.ruleText printer, "", derivation.predicate⟩

theorem matchedRules_foldl (printer : Printer) (derivations : List Derivation)
    (trail : AuditTrail) :
    (derivations.foldl (recordDerivation printer) trail).matchedRules =
      trail.matchedRules ++ derivations.map (ruleOf printer) := by
  induction derivations generalizing trail with
  | nil => simp
  | cons derivation derivations ih =>
    rw [List.foldl_cons, ih]
    simp [recordDerivation, AuditTrail.addRule, ruleOf]

variable {parseAtom : String → Except GoError Datalog.Atom} {rules : List SourceClause}
  {evaluated : List Datalog.Atom → Store} {engine : PolicyEngine Id} {printer : Printer}
  {ctx explainCtx : Context} {latencyMs : Nat} {facts : List String} {query : String}
  {result : QueryWithAuditResult} {atoms : List Datalog.Atom}

theorem matchedRules_queryWithAudit {explanation : Explanation}
    (parsesFacts : ∀ describe, parseAtoms engine describe facts = (atoms, none))
    (explained : explainIn parseAtom rules (evaluated atoms) query = .ok explanation)
    (audited : queryWithAudit engine
      (fun _ atoms query => explainIn parseAtom rules (evaluated atoms) query)
      printer ctx explainCtx latencyMs facts query = Except.ok result) :
    result.auditTrail.matchedRules = explanation.derivations.map (ruleOf printer) := by
  simp only [queryWithAudit, parsesFacts] at audited
  dsimp only [bind] at audited
  split at audited
  · cases audited
  · cases audited
    simp only [explained]
    exact matchedRules_foldl printer explanation.derivations _

/-- The tier reported for the fact at this place, by the explanation and in the trail. -/
structure TierReported (explanation : Explanation) (trail : AuditTrail) (place : Nat)
    (third : Term) : Prop where
  explained : explanation.derivations[place]?.map (·.tier) = some (expectedTier third)
  recorded : trail.matchedRules[place]?.map (·.tier) = some (expectedTier third)

/-- The tier of a ternary fact is reported as its third argument exactly if there are steps
left when its turn comes, and the first tier that the scan sees is the one of the third
argument. -/
theorem explained_tier_iff {queryAtom : Datalog.Atom} {before after : List Datalog.Atom}
    {predicate : String} {entity text third : Term}
    (ground : GroundStore (evaluated atoms))
    (parsesFacts : ∀ describe, parseAtoms engine describe facts = (atoms, none))
    (parsesQuery : parseAtom query = .ok queryAtom)
    (audited : queryWithAudit engine
      (fun _ atoms query => explainIn parseAtom rules (evaluated atoms) query)
      printer ctx explainCtx latencyMs facts query = Except.ok result)
    (matched : explainedFacts (evaluated atoms) queryAtom =
      before ++ ⟨predicate, [entity, text, third]⟩ :: after) :
    (∃ explanation, explainIn parseAtom rules (evaluated atoms) query = .ok explanation ∧
        TierReported explanation result.auditTrail before.length third) ↔
      stepsAfter rules (evaluated atoms) before < maxExplainSteps ∧
        (visibleArgs rules (evaluated atoms) ⟨predicate, [entity, text, third]⟩).findSome?
          termTier = termTier third := by
  obtain ⟨tree, found, proves, reconstructed, cut⟩ :
      ∃ tree, (explainAtom rules (evaluated atoms) queryAtom)[before.length]? = some tree ∧ _ :=
    explainAtom_getElem? ground matched
  have explained : explainIn parseAtom rules (evaluated atoms) query =
      .ok ⟨query, !(explainAtom rules (evaluated atoms) queryAtom).isEmpty,
        explainAtom rules (evaluated atoms) queryAtom⟩ := by
    simp only [explainIn, parsesQuery]
  have recorded := matchedRules_queryWithAudit parsesFacts explained audited
  have reported : tree.tier = expectedTier third ↔ ∃ explanation,
      explainIn parseAtom rules (evaluated atoms) query = .ok explanation ∧
        TierReported explanation result.auditTrail before.length third := by
    constructor
    · intro expected
      refine ⟨_, explained, ⟨?_, ?_⟩⟩
      · simp only [found, Option.map_some, expected]
      · simp only [recorded, List.getElem?_map, found, Option.map_some, ruleOf, expected]
    · rintro ⟨explanation, same, report⟩
      obtain rfl := Except.ok.inj (explained.symm.trans same)
      simpa [found] using report.explained
  rw [← reported, tier_eq_expected_iff ground proves reconstructed, ne_eq, cut, not_le]

end Audited

/-! ## A concrete policy -/

section Concrete

def flaggingRule (name : String) : SourceClause where
  head := ⟨"halt", [.var "Entity", .var "Reason", .var name]⟩
  premises := [.atom ⟨"flagged", [.var "Entity", .var "Reason", .var name]⟩]

def flaggingEngine (name : String) : PolicyEngine Id where
  host := Reference.host
  parseAtom := Reference.parseAtom
  runtime := storeRuntime Reference.parseAtom
    (Reference.evaluated [(flaggingRule name).toClause])

def plainPrinter : Printer := ⟨(·.symbol), (·.symbol), fun _ => "", (·.head.symbol)⟩

def flagged : Datalog.Atom := Reference.stringAtom "flagged" ["Req", "secret data", "T1"]

def explainFlagged (name : String) : Except GoError Explanation :=
  explainIn Reference.parseAtom [flaggingRule name]
    (Reference.evaluated [(flaggingRule name).toClause] [flagged]) "halt(\"Req\", Reason, Tier)"

def auditFlagged (name : String) : Except GoError QueryWithAuditResult :=
  queryWithAudit (flaggingEngine name)
    (fun _ atoms query => explainIn Reference.parseAtom [flaggingRule name]
      (Reference.evaluated [(flaggingRule name).toClause] atoms) query)
    plainPrinter {} {} 0 ["flagged(\"Req\", \"secret data\", \"T1\")"]
    "halt(\"Req\", Reason, Tier)"

/-- The tier of the halt is T1, and it is reported as unknown since the variable has another
name. -/
theorem tier_hidden_by_name :
    expectedTier (.const (.string "T1")) = "T1" ∧
      (explainFlagged "T").toOption.map (fun explanation => explanation.derivations.map (·.tier)) =
        some [tierUnknown] ∧
      (auditFlagged "T").toOption.map
        (fun result => result.auditTrail.matchedRules.map (·.tier)) = some [tierUnknown] := by
  refine ⟨by decide, by decide +kernel, by decide +kernel⟩

theorem tier_shown_by_name :
    ∃ result explanation, auditFlagged "Tier" = .ok result ∧
      explainFlagged "Tier" = .ok explanation ∧
      TierReported explanation result.auditTrail 0 (.const (.string "T1")) := by
  have audited : (auditFlagged "Tier").isOk = true := by decide +kernel
  rcases audit : auditFlagged "Tier" with err | result
  · simp [audit, Except.isOk, Except.toBool] at audited
  have shown : (visibleArgs [flaggingRule "Tier"]
      (Reference.evaluated [(flaggingRule "Tier").toClause] [flagged])
      (Reference.stringAtom "halt" ["Req", "secret data", "T1"])).findSome? termTier =
        termTier (.const (.string "T1")) := by decide +kernel
  have matched : explainedFacts (Reference.evaluated [(flaggingRule "Tier").toClause] [flagged])
      ⟨"halt", [.const (.string "Req"), .var "Reason", .var "Tier"]⟩ =
        [] ++ Reference.stringAtom "halt" ["Req", "secret data", "T1"] :: [] := by
    decide +kernel
  obtain ⟨explanation, explained, reported⟩ := (explained_tier_iff (by decide +kernel)
    (fun _ => by rfl) (by decide +kernel) audit matched).mpr ⟨by decide, shown⟩
  exact ⟨result, explanation, rfl, explained, reported⟩

end Concrete

end Manglekit.Engine

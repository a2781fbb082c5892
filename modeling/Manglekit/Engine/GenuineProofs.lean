import Manglekit.Engine.ProofSearch
import Manglekit.Engine.Reference

/-!
# Explanations as proofs

An explanation is a proof if each rule in it is a ground instance that fires, with the
children for its premises.  The search passes over tests with unbound variables, and a fact
that it matches later can make such a test fail.  Cycles are no danger: a proof that is not
cut off unfolds the one match of each fact, so that no fact stands above itself.
-/

namespace Manglekit.Engine

open Core Datalog Relation

/-! ## Genuine proofs -/

section Genuine

variable (rules : List SourceClause) (store : Store)

def Justifies (valuation : Valuation) : Premise → Derivation → Prop
  | .atom premise, child => child.proved = some (premise.ground valuation)
  | .negAtom premise, .negation _ => premise.ground valuation ∉ store
  | .eq left right, .eq _ _ => left.value valuation = right.value valuation
  | .ineq left right, .ineq _ _ => left.value valuation ≠ right.value valuation
  | _, _ => False

def Genuine : Derivation → Prop
  | .rule fact clause _ children => clause ∈ rules ∧ ∃ valuation,
      clause.head.ground valuation = fact ∧
        List.Forall₂ (Justifies store valuation) clause.premises children
  | _ => True

def IsChild (parent child : Derivation) : Prop := child ∈ parent.children

structure GenuineTree (tree : Derivation) : Prop where
  genuine : ∀ node, ReflTransGen IsChild tree node → Genuine rules store node
  acyclic : (∀ node, ReflTransGen IsChild tree node → node.via ≠ .depthLimit) →
    ∀ upper lower fact, ReflTransGen IsChild tree upper → TransGen IsChild upper lower →
      upper.proved = some fact → lower.proved ≠ some fact

def ExplainsGenuinely : Prop :=
  ∀ parseAtom query explanation, explainIn parseAtom rules store query = .ok explanation →
    ∀ tree ∈ explanation.derivations, GenuineTree rules store tree

def AgreesWith (subst : Substitution) (valuation : Valuation) : Prop :=
  ∀ symbol constant, subst.lookup symbol = some (.const constant) → valuation symbol = constant

/-- The tests that were passed over hold as well, for some values of the variables that are
still open. -/
def Completes (found : RuleMatch) : Prop :=
  ∃ valuation, AgreesWith found.final valuation ∧
    ∀ premise ∈ found.clause.premises, premise.Holds store.toSet store.toSet valuation

end Genuine

/-! ## Ground instances -/

variable {atom : Datalog.Atom}

section Instances

variable {subst : Substitution} {valuation : Valuation}

theorem applySubstTerm_of_agrees {term : Term} (agrees : AgreesWith subst valuation)
    (ground : isGroundTerm (applySubstTerm subst term) = true) :
    Term.const (term.value valuation) = applySubstTerm subst term := by
  cases term with
  | const constant => rfl
  | var symbol =>
    rcases found : subst.lookup symbol with _ | bound
    · simp [applySubstTerm, found, isGroundTerm] at ground
    · cases bound with
      | var other => simp [applySubstTerm, found, isGroundTerm] at ground
      | const constant =>
        simp [applySubstTerm, found, Term.value, agrees symbol constant found]

theorem ground_of_agrees (agrees : AgreesWith subst valuation)
    (ground : isGround (applySubstToArgs atom.args subst) = true) :
    atom.ground valuation = ⟨atom.symbol, applySubstToArgs atom.args subst⟩ := by
  have each : ∀ term ∈ atom.args,
      Term.const (term.value valuation) = applySubstTerm subst term := fun term member =>
    applySubstTerm_of_agrees agrees (List.all_eq_true.mp ground _ (List.mem_map_of_mem member))
  rw [Datalog.Atom.ground, List.map_congr_left each, applySubstToArgs]

/-- Conversely a ground instance determines the valuation of its variables. -/
theorem agrees_of_ground
    (same : atom.ground valuation = ⟨atom.symbol, applySubstToArgs atom.args subst⟩)
    {symbol : String} (occurs : symbol ∈ atom.vars) {constant : Constant}
    (bound : subst.lookup symbol = some (.const constant)) : valuation symbol = constant := by
  obtain ⟨term, member, inTerm⟩ := List.mem_flatMap.mp occurs
  have args := (Datalog.Atom.mk.inj same).2
  have equal := List.map_inj_left.mp args term member
  cases term with
  | const other => simp [Term.vars] at inTerm
  | var name =>
    obtain rfl : symbol = name := by simpa [Term.vars] using inTerm
    simpa [applySubstTerm, bound, Term.value] using equal

end Instances

/-! ## Nodes of reconstructed proofs -/

variable {final : Substitution} {tree : Derivation} {found : RuleMatch}

section Nodes

variable {rules : List SourceClause} {store : Store}

theorem Reconstructed.stored (reconstructed : Reconstructed rules store tree)
    {fact : Datalog.Atom} (proves : tree.proved = some fact) : fact ∈ store := by
  cases reconstructed with
  | rule stored first aligned below | fact stored unmatched
  | depthLimit stored => exact Option.some.inj proves ▸ stored
  | test unproved => simp [unproved] at proves

theorem Reconstructed.child {parent child : Derivation}
    (reconstructed : Reconstructed rules store parent) (isChild : IsChild parent child) :
    Reconstructed rules store child := by
  cases reconstructed with
  | rule stored first aligned below => exact below child isChild
  | fact stored unmatched | depthLimit stored => simp [IsChild, Derivation.children] at isChild
  | test unproved =>
    cases parent <;> simp_all [IsChild, Derivation.children, Derivation.proved]

theorem Reconstructed.descendant {node : Derivation}
    (reconstructed : Reconstructed rules store tree)
    (chain : ReflTransGen IsChild tree node) : Reconstructed rules store node := by
  induction chain with
  | refl => exact reconstructed
  | tail _ isChild ih => exact ih.child isChild

/-! ### Justified premises -/

variable {valuation : Valuation} {premises : List Premise} {children : List Derivation}

theorem justifies_of_answers (agrees : AgreesWith final valuation)
    (ground : ∀ child ∈ children, ∀ fact, child.proved = some fact → isGround fact.args = true)
    (holds : ∀ premise ∈ premises, premise.Holds store.toSet store.toSet valuation)
    (aligned : List.Forall₂ (Answers final) premises children) :
    List.Forall₂ (Justifies store valuation) premises children := by
  induction aligned with
  | nil => exact .nil
  | @cons premise child premises children answers rest ih =>
    refine .cons ?_ (ih
      (fun child member => ground child (List.mem_cons_of_mem _ member))
      fun premise member => holds premise (List.mem_cons_of_mem _ member))
    have held := holds premise List.mem_cons_self
    cases premise with
    | atom premise =>
      have proved : child.proved = some _ := answers
      rw [Justifies, proved, ground_of_agrees agrees (ground child List.mem_cons_self _ proved)]
    | _ => cases child <;> first | exact held | exact answers

theorem holds_of_justifies
    (stored : ∀ child ∈ children, ∀ fact, child.proved = some fact → fact ∈ store)
    (aligned : List.Forall₂ (Justifies store valuation) premises children) :
    ∀ premise ∈ premises, premise.Holds store.toSet store.toSet valuation := by
  induction aligned with
  | nil => simp
  | @cons premise child premises children justifies rest ih =>
    refine List.forall_mem_cons.mpr ⟨?_, ih fun child member =>
      stored child (List.mem_cons_of_mem _ member)⟩
    cases premise with
    | atom premise => exact stored child List.mem_cons_self _ justifies
    | _ => cases child <;> first | exact justifies | exact justifies.elim

/-- A match and an instance with the same children agree on the variables of the positive
premises. -/
theorem agrees_of_justifies (aligned : List.Forall₂ (Answers final) premises children)
    (justified : List.Forall₂ (Justifies store valuation) premises children) {symbol : String}
    (occurs : symbol ∈ premises.flatMap Premise.binds) {constant : Constant}
    (bound : final.lookup symbol = some (.const constant)) : valuation symbol = constant := by
  induction aligned with
  | nil => simp at occurs
  | @cons premise child premises children answers rest ih =>
    obtain ⟨justifies, justifiedRest⟩ := List.forall₂_cons.mp justified
    rw [List.flatMap_cons, List.mem_append] at occurs
    rcases occurs with here | later
    · cases premise with
      | atom premise =>
        have same : some (premise.ground valuation) = some _ := justifies.symm.trans answers
        exact agrees_of_ground (Option.some.inj same) here bound
      | _ => simp [Premise.binds] at here
    · exact ih justifiedRest later

theorem genuine_iff_completes (ground : GroundStore store) {fact : Datalog.Atom}
    (stored : fact ∈ store) (first : firstMatch store rules fact = some found)
    (aligned : List.Forall₂ (Answers found.final) found.clause.premises children)
    (below : ∀ child ∈ children, Reconstructed rules store child) :
    Genuine rules store (.rule fact found.clause found.head children) ↔ Completes store found := by
  have spec := matchSpec ground stored first
  have storedBelow : ∀ child ∈ children, ∀ fact, child.proved = some fact → fact ∈ store :=
    fun child member fact proves => (below child member).stored proves
  constructor
  · rintro ⟨-, valuation, instantiated, justified⟩
    refine ⟨valuation, fun symbol constant bound => ?_, holds_of_justifies storedBelow justified⟩
    rcases spec.bound symbol _ bound with inHead | inPremises
    · exact agrees_of_ground (instantiated.trans spec.head.symm) inHead bound
    · exact agrees_of_justifies aligned justified inPremises bound
  · rintro ⟨valuation, agrees, holds⟩
    refine ⟨(firstMatch_spec first).1, valuation, ?_, ?_⟩
    · have groundHead : isGround (applySubstToArgs found.clause.head.args found.final) = true := by
        have args := congrArg Datalog.Atom.args spec.head
        rw [show applySubstToArgs found.clause.head.args found.final = fact.args from args]
        exact ground fact stored
      rw [ground_of_agrees agrees groundHead, spec.head]
    · exact justifies_of_answers agrees
        (fun child member fact proves => ground fact (storedBelow child member fact proves))
        holds aligned

end Nodes

/-! ## Cycles -/

section Cycles

variable (rules : List SourceClause) (store : Store)

/-- The lower fact is matched by a positive premise of the upper fact's match. -/
def Supports (lower upper : Datalog.Atom) : Prop :=
  ∃ found premise, firstMatch store rules upper = some found ∧
    Premise.atom premise ∈ found.clause.premises ∧
    lower = ⟨premise.symbol, applySubstToArgs premise.args found.final⟩

variable {rules store}

theorem exists_answer {premises : List Premise}
    {children : List Derivation} (aligned : List.Forall₂ (Answers final) premises children)
    {premise : Premise} (member : premise ∈ premises) :
    ∃ child ∈ children, Answers final premise child := by
  induction aligned with
  | nil => simp at member
  | @cons other child premises children answers rest ih =>
    rcases List.mem_cons.mp member with rfl | later
    · exact ⟨child, List.mem_cons_self, answers⟩
    · obtain ⟨found, present, answered⟩ := ih later
      exact ⟨found, List.mem_cons_of_mem _ present, answered⟩

variable {fact : Datalog.Atom}

theorem exists_premise {premises : List Premise} {children : List Derivation}
    (aligned : List.Forall₂ (Answers final) premises children) {child : Derivation}
    (member : child ∈ children) (proves : child.proved = some fact) :
    ∃ premise, Premise.atom premise ∈ premises ∧
      fact = ⟨premise.symbol, applySubstToArgs premise.args final⟩ := by
  induction aligned with
  | nil => simp at member
  | @cons premise other premises children answers rest ih =>
    rcases List.mem_cons.mp member with rfl | later
    · cases premise with
      | atom premise =>
        exact ⟨premise, List.mem_cons_self, Option.some.inj (proves.symm.trans answers)⟩
      | _ => cases child <;> simp_all [Answers, Derivation.proved]
    · obtain ⟨premise, present, same⟩ := ih later
      exact ⟨premise, List.mem_cons_of_mem _ present, same⟩

theorem acc_of_reconstructed (reconstructed : Reconstructed rules store tree)
    (complete : ∀ node, ReflTransGen IsChild tree node → node.via ≠ .depthLimit)
    (proves : tree.proved = some fact) : Acc (Supports rules store) fact := by
  induction reconstructed generalizing fact with
  | @rule root found children stored first aligned below ih =>
    obtain rfl := Option.some.inj proves
    refine ⟨_, ?_⟩
    rintro lower ⟨other, premise, matched, member, rfl⟩
    obtain rfl := Option.some.inj (first.symm.trans matched)
    obtain ⟨child, childMember, answered⟩ := exists_answer aligned member
    exact ih child childMember (fun node chain => complete node (.head childMember chain)) answered
  | fact stored unmatched =>
    obtain rfl := Option.some.inj proves
    refine ⟨_, ?_⟩
    rintro lower ⟨other, premise, matched, -⟩
    simp [unmatched] at matched
  | depthLimit stored => exact absurd rfl (complete _ .refl)
  | test unproved => simp [unproved] at proves

theorem supports_of_child {parent child : Derivation}
    (reconstructed : Reconstructed rules store parent) (isChild : IsChild parent child)
    {lower : Datalog.Atom} (proves : child.proved = some lower) :
    ∃ upper, parent.proved = some upper ∧ Supports rules store lower upper := by
  cases reconstructed with
  | @rule upper found children stored first aligned below =>
    obtain ⟨premise, member, same⟩ := exists_premise aligned isChild proves
    exact ⟨upper, rfl, found, premise, first, member, same⟩
  | fact stored unmatched | depthLimit stored => simp [IsChild, Derivation.children] at isChild
  | test unproved =>
    cases parent <;> simp_all [IsChild, Derivation.children, Derivation.proved]

theorem supports_of_chain {upper lower : Derivation}
    (reconstructed : Reconstructed rules store upper) (chain : TransGen IsChild upper lower)
    {upperFact lowerFact : Datalog.Atom} (provesUpper : upper.proved = some upperFact)
    (provesLower : lower.proved = some lowerFact) :
    TransGen (Supports rules store) lowerFact upperFact := by
  induction chain generalizing lowerFact with
  | single isChild =>
    obtain ⟨fact, proves, supports⟩ := supports_of_child reconstructed isChild provesLower
    obtain rfl := Option.some.inj (provesUpper.symm.trans proves)
    exact .single supports
  | tail chain isChild ih =>
    obtain ⟨fact, proves, supports⟩ := supports_of_child
      (reconstructed.descendant chain.to_reflTransGen) isChild provesLower
    exact .head supports (ih proves)

theorem not_transGen_of_acc {α : Type} {relation : α → α → Prop} {element : α}
    (accessible : Acc (TransGen relation) element) : ¬ TransGen relation element element := by
  intro cycle
  induction accessible with
  | intro element _ ih => exact ih element cycle cycle

theorem acyclic_of_reconstructed {upper lower : Derivation}
    (reconstructed : Reconstructed rules store tree)
    (complete : ∀ node, ReflTransGen IsChild tree node → node.via ≠ .depthLimit)
    (inside : ReflTransGen IsChild tree upper) (chain : TransGen IsChild upper lower)
    (proves : upper.proved = some fact) : lower.proved ≠ some fact := by
  intro provesLower
  have reconstructedUpper := reconstructed.descendant inside
  have accessible := acc_of_reconstructed reconstructedUpper
    (fun node below => complete node (inside.trans below)) proves
  exact not_transGen_of_acc accessible.transGen
    (supports_of_chain reconstructedUpper chain proves provesLower)

end Cycles

/-! ## Genuine explanations -/

section Explanations

variable {rules : List SourceClause} {store : Store} (ground : GroundStore store)
include ground

omit ground in
theorem hasConstants_of_ground {queryAtom fact : Datalog.Atom}
    (groundQuery : isGround queryAtom.args = true)
    (lengths : queryAtom.args.length = fact.args.length) :
    hasConstants queryAtom fact = true ↔ queryAtom.args = fact.args := by
  unfold hasConstants
  generalize queryAtom.args = patterns at groundQuery lengths
  generalize fact.args = args at lengths
  induction patterns generalizing args with
  | nil => simp [List.length_eq_zero_iff.mp lengths.symm]
  | cons pattern patterns ih =>
    cases args with
    | nil => simp at lengths
    | cons arg args =>
      simp only [isGround, List.all_cons, Bool.and_eq_true] at groundQuery
      have rest := ih groundQuery.2 args (Nat.succ.inj lengths)
      cases pattern with
      | var symbol => simp [isGroundTerm] at groundQuery
      | const constant =>
        simp only [List.zip_cons_cons, List.all_cons, Bool.and_eq_true, decide_eq_true_eq,
          rest, List.cons.injEq]

variable {fact : Datalog.Atom}

theorem explainedFacts_self (stored : fact ∈ store) : explainedFacts store fact = [fact] := by
  have nodup : (explainedFacts store fact).Nodup := (store.distinct.filter _).filter _
  refine List.perm_singleton.mp
    ((List.perm_ext_iff_of_nodup nodup (List.nodup_singleton fact)).mpr fun other => ?_)
  rw [explainedFacts, List.mem_filter, Store.mem_getFacts, List.mem_singleton]
  constructor
  · rintro ⟨⟨-, samePredicate⟩, agrees⟩
    obtain ⟨sameSymbol, sameLength⟩ := PredicateSym.mk.inj samePredicate
    have sameArgs := (hasConstants_of_ground (ground fact stored) sameLength.symm).mp agrees
    cases other
    cases fact
    simp_all
  · rintro rfl
    exact ⟨⟨stored, rfl⟩, (hasConstants_of_ground (ground other stored) rfl).mpr rfl⟩

theorem explainAtom_self (stored : fact ∈ store) :
    ∃ tree, explainAtom rules store fact = [tree] ∧ tree.proved = some fact ∧
      Reconstructed rules store tree ∧ tree.via ≠ .depthLimit := by
  have always : Always (prove rules store maxExplainDepth fact) _ :=
    always_prove ground stored maxExplainDepth
  obtain ⟨tree, found, proves, reconstructed⟩ := always 0
  refine ⟨tree, ?_, proves, reconstructed, ?_⟩
  · rw [explainAtom, explainedFacts_self ground stored]
    change [(((prove rules store maxExplainDepth fact).run 0).1).getD (.fact fact)] = [tree]
    rw [found, Option.getD_some]
  · rw [ne_eq, via_prove_iff ground stored found]
    decide

theorem genuine_of_completes
    (completes : ∀ fact ∈ store, ∀ found ∈ firstMatch store rules fact, Completes store found)
    (reconstructed : Reconstructed rules store tree) : Genuine rules store tree := by
  cases reconstructed with
  | rule stored first aligned below =>
    exact (genuine_iff_completes ground stored first aligned below).mpr (completes _ stored _ first)
  | fact stored unmatched => trivial
  | depthLimit stored => trivial
  | test unproved => cases tree <;> trivial

theorem completes_of_genuine (genuine : ExplainsGenuinely rules store) (stored : fact ∈ store)
    (first : firstMatch store rules fact = some found) : Completes store found := by
  obtain ⟨tree, explained, proves, reconstructed, within⟩ : ∃ tree,
      explainAtom rules store fact = [tree] ∧ _ := explainAtom_self ground stored
  have explanation : explainIn (fun _ => .ok fact) rules store "" =
      .ok ⟨"", true, [tree]⟩ := by simp [explainIn, explained]
  have root := (genuine _ _ _ explanation tree List.mem_cons_self).genuine tree .refl
  cases reconstructed with
  | rule stored matched aligned below =>
    obtain rfl := Option.some.inj proves
    obtain rfl := Option.some.inj (matched.symm.trans first)
    exact (genuine_iff_completes ground stored matched aligned below).mp root
  | fact stored unmatched =>
    obtain rfl := Option.some.inj proves
    simp [unmatched] at first
  | depthLimit stored => exact absurd rfl within
  | test unproved => simp [unproved] at proves

end Explanations

/-! ## Rules whose tests are bound -/

section Bound

variable {rules : List SourceClause} {store : Store} {subst : Substitution}

theorem isGroundTerm_of_covered (closed : Closed subst) {term : Term}
    (covered : Covered subst term.vars) : isGroundTerm (applySubstTerm subst term) = true := by
  cases term with
  | const constant => rfl
  | var symbol =>
    obtain ⟨bound, found⟩ := covered symbol (by simp [Term.vars])
    simpa [applySubstTerm, found] using closed symbol bound found

theorem isGround_of_covered (closed : Closed subst)
    (covered : Covered subst atom.vars) : isGround (applySubstToArgs atom.args subst) = true := by
  refine List.all_eq_true.mpr fun term member => ?_
  obtain ⟨arg, argMember, rfl⟩ := List.mem_map.mp member
  exact isGroundTerm_of_covered closed fun symbol occurs =>
    covered symbol (List.mem_flatMap.mpr ⟨arg, argMember, occurs⟩)

/-- A test that is not refuted although its variables are bound holds. -/
theorem holds_of_not_refuted {test : Premise} (isTest : ∀ premise, test ≠ .atom premise)
    (closed : Closed subst) (covered : Covered subst test.needs)
    (unrefuted : ¬ refuted store subst test = true) {valuation : Valuation}
    (agrees : AgreesWith subst valuation) : test.Holds store.toSet store.toSet valuation := by
  have bound {term : Term} (covers : Covered subst term.vars) :
      isGroundTerm (applySubstTerm subst term) = true ∧
        Term.const (term.value valuation) = applySubstTerm subst term :=
    ⟨isGroundTerm_of_covered closed covers,
      applySubstTerm_of_agrees agrees (isGroundTerm_of_covered closed covers)⟩
  have sides {left right : Term} (covers : Covered subst (left.vars ++ right.vars)) :=
    And.intro (bound fun symbol occurs => covers symbol (List.mem_append_left _ occurs))
      (bound fun symbol occurs => covers symbol (List.mem_append_right _ occurs))
  cases test with
  | atom premise => exact absurd rfl (isTest premise)
  | negAtom premise =>
    have ground := isGround_of_covered closed covered
    intro stored
    refine unrefuted ?_
    rw [ground_of_agrees agrees ground] at stored
    simpa [refuted, ground, Store.contains] using stored
  | eq left right =>
    obtain ⟨⟨groundLeft, sameLeft⟩, groundRight, sameRight⟩ := sides covered
    have equal : applySubstTerm subst left = applySubstTerm subst right := by
      simpa [refuted, groundLeft, groundRight] using unrefuted
    rw [← sameLeft, ← sameRight] at equal
    exact Term.const.inj equal
  | ineq left right =>
    obtain ⟨⟨groundLeft, sameLeft⟩, groundRight, sameRight⟩ := sides covered
    have different : applySubstTerm subst left ≠ applySubstTerm subst right := by
      simpa [refuted, groundLeft, groundRight] using unrefuted
    rw [← sameLeft, ← sameRight] at different
    exact fun equal => different (congrArg Term.const equal)

theorem holds_of_safe (ground : GroundStore store) {head : Datalog.Atom} {premises : List Premise}
    {symbols : List String} (safe : SafeFrom symbols head premises)
    (closed : Closed subst) (covered : Covered subst symbols)
    (matched : final ∈ looseMatches store premises subst) {valuation : Valuation}
    (agrees : AgreesWith final valuation) :
    ∀ premise ∈ premises, premise.Holds store.toSet store.toSet valuation := by
  induction premises generalizing symbols subst with
  | nil => simp
  | cons premise rest ih =>
    refine List.forall_mem_cons.mpr ?_
    obtain ⟨needed, safeRest⟩ := safe
    cases premise with
    | atom premise =>
      obtain ⟨middle, candidate, later⟩ := List.mem_flatMap.mp matched
      obtain ⟨fact, visited, unified⟩ := mem_candidates_iff.mp candidate
      have chosen := chosen_of_unify ground closed visited unified
      have grown := grown_of_looseMatch ground chosen.closed later
      refine ⟨?_, ih safeRest chosen.closed ?_ later⟩
      · have instantiated := ground_of_agrees
          (fun symbol constant found => agrees symbol constant (grown.kept _ _ found))
          (isGround_of_covered chosen.closed chosen.covered)
        change premise.ground valuation ∈ store
        rw [instantiated, chosen.applied]
        exact chosen.stored
      · intro symbol occurs
        rcases List.mem_append.mp occurs with earlier | here
        · obtain ⟨term, found⟩ := covered symbol earlier
          exact ⟨term, chosen.kept symbol term found⟩
        · exact chosen.covered symbol here
    | _ =>
      rw [looseMatches_test (by simp)] at matched
      split at matched
      · simp at matched
      next unrefuted =>
        have grown := grown_of_looseMatch ground closed matched
        refine ⟨holds_of_not_refuted (by simp) closed
          (fun symbol occurs => covered symbol (needed symbol occurs)) unrefuted
          fun symbol constant found => agrees symbol constant (grown.kept _ _ found), ?_⟩
        exact ih (by simpa [Premise.binds] using safeRest) closed covered matched

def valuationOf (subst : Substitution) : Valuation := fun symbol =>
  match subst.lookup symbol with
  | some (.const constant) => constant
  | _ => .string ""

/-- Rules whose tests stand after the premises that bind their variables are explained by
genuine proofs; the variables of the head are bound from the start. -/
theorem completes_of_safe (ground : GroundStore store) {fact : Datalog.Atom}
    (stored : fact ∈ store)
    (first : firstMatch store rules fact = some found)
    (safe : SafeFrom found.clause.head.vars found.clause.head found.clause.premises) :
    Completes store found := by
  obtain ⟨-, samePredicate, unified, matched⟩ := firstMatch_spec first
  have unification := unifyAtomArgs_sound (PredicateSym.mk.inj samePredicate).2 unified
  have closed := unification.closed (by simp [Closed]) (ground fact stored)
  have agrees : AgreesWith found.final (valuationOf found.final) := by
    intro symbol constant bound
    simp [valuationOf, bound]
  exact ⟨valuationOf found.final, agrees,
    holds_of_safe ground safe closed unification.covered matched agrees⟩

end Bound

/-! ## Concrete programs -/

section Concrete

def aliasRule : SourceClause where
  head := ⟨"permitted", [.var "X"]⟩
  premises := [.atom ⟨"requested", [.var "X"]⟩, .eq (.var "Y") (.var "X"),
    .eq (.var "Y") (.const (.string "admin"))]

def listRule : SourceClause where
  head := ⟨"permitted", [.var "X"]⟩
  premises := [.atom ⟨"listed", [.var "X"]⟩]

def guestStore : Store :=
  Store.empty.addAll [Reference.stringAtom "requested" ["guest"],
    Reference.stringAtom "listed" ["guest"], Reference.stringAtom "permitted" ["guest"]]

/-- Paths in a graph that do not lead back. -/
def pathRules : List SourceClause :=
  [{ head := ⟨"path", [.var "X", .var "Y"]⟩
     premises := [.atom ⟨"edge", [.var "X", .var "Y"]⟩] },
    { head := ⟨"path", [.var "X", .var "Z"]⟩
      premises := [.atom ⟨"edge", [.var "X", .var "Y"]⟩, .atom ⟨"path", [.var "Y", .var "Z"]⟩,
        .ineq (.var "X") (.var "Z")] }]

def circleStore : Store :=
  Reference.evaluated (pathRules.map (·.toClause)) [Reference.stringAtom "edge" ["a", "b"],
    Reference.stringAtom "edge" ["b", "c"], Reference.stringAtom "edge" ["c", "a"]]

end Concrete

end Manglekit.Engine

import Mathlib.Order.Lattice.Nat

/-!
# Perfect models of stratified programs

A program is a set of ground rules over an arbitrary type of facts.  A rule
has positive premises, which may be recursive, and a guard, which stands for
negation and aggregation and is tested against the facts below its stratum.
The perfect model is built one stratum at a time over a given set of facts.

The central result is that facts which the model already contains may be added
to its input without changing it.
-/

namespace Stratified

universe u

/-- A ground rule.  The guard is a test of the store reached so far. -/
structure Rule (Fact : Type u) where
  head : Fact
  premises : Set Fact
  guard : Set Fact → Prop

/-- A set of ground rules with the stratification of its facts.  A premise may
lie in the stratum of the head; a guard only looks strictly below it. -/
structure Program (Fact : Type u) where
  rules : Set (Rule Fact)
  stratum : Fact → Nat
  premise_le : ∀ rule ∈ rules, ∀ fact ∈ rule.premises,
    stratum fact ≤ stratum rule.head
  guard_congr : ∀ rule ∈ rules, ∀ first second : Set Fact,
    (∀ fact, stratum fact < stratum rule.head → (fact ∈ first ↔ fact ∈ second)) →
    (rule.guard first ↔ rule.guard second)

namespace Program

variable {Fact : Type u} (program : Program Fact)

/-- Facts derived in one stratum from `facts`, guards tested against the
frozen set `context`. -/
inductive Derives (index : Nat) (context facts : Set Fact) : Fact → Prop where
  | given {fact} : fact ∈ facts → Derives index context facts fact
  | rule {rule} :
      rule ∈ program.rules →
      program.stratum rule.head = index →
      rule.guard context →
      (∀ fact ∈ rule.premises, Derives index context facts fact) →
      Derives index context facts rule.head

def level (facts : Set Fact) : Nat → Set Fact
  | 0 => facts
  | index + 1 => {fact | program.Derives index (level facts index) (level facts index) fact}

/-- The perfect model of the program over the given facts. -/
def perfect (facts : Set Fact) : Set Fact :=
  {fact | ∃ index, fact ∈ program.level facts index}

theorem level_succ_subset (facts : Set Fact) (index : Nat) :
    program.level facts index ⊆ program.level facts (index + 1) :=
  fun _ membership => .given membership

theorem level_mono (facts : Set Fact) {low high : Nat} (below : low ≤ high) :
    program.level facts low ⊆ program.level facts high := by
  induction below with
  | refl => exact Set.Subset.refl _
  | step _ ih =>
    exact ih.trans (program.level_succ_subset facts _)

theorem level_subset_perfect (facts : Set Fact) (index : Nat) :
    program.level facts index ⊆ program.perfect facts :=
  fun _ membership => ⟨index, membership⟩

theorem subset_perfect (facts : Set Fact) : facts ⊆ program.perfect facts :=
  program.level_subset_perfect facts 0

theorem Derives.mem_or_stratum_eq {index : Nat} {context facts : Set Fact} {fact : Fact}
    (derived : program.Derives index context facts fact) :
    fact ∈ facts ∨ program.stratum fact = index := by
  cases derived with
  | given membership => exact .inl membership
  | rule _ stratumEq _ _ => exact .inr stratumEq

theorem mem_level_of_mem_perfect (facts : Set Fact) {fact : Fact} {index : Nat}
    (membership : fact ∈ program.perfect facts) (settled : program.stratum fact < index) :
    fact ∈ program.level facts index := by
  obtain ⟨reached, membership⟩ := membership
  rcases Nat.le_total reached index with below | above
  · exact program.level_mono facts below membership
  · induction above with
    | refl => exact membership
    | @step middle above ih =>
      rcases Derives.mem_or_stratum_eq program membership with earlier | stratumEq
      · exact ih earlier
      · have bound : index ≤ middle := above
        omega

theorem perfect_closed (facts : Set Fact) {rule : Rule Fact} (member : rule ∈ program.rules)
    (guarded : rule.guard (program.perfect facts))
    (premises : rule.premises ⊆ program.perfect facts) :
    rule.head ∈ program.perfect facts := by
  refine ⟨program.stratum rule.head + 1, .rule member rfl ?_ ?_⟩
  · refine (program.guard_congr rule member _ _ ?_).mp guarded
    intro fact below
    exact ⟨fun inModel => program.mem_level_of_mem_perfect facts inModel below,
      fun atLevel => program.level_subset_perfect facts _ atLevel⟩
  · intro fact premise
    have settled : program.stratum fact < program.stratum rule.head + 1 :=
      Nat.lt_succ_of_le (program.premise_le rule member fact premise)
    exact program.mem_level_of_mem_perfect facts (premises premise) settled

theorem mem_or_head_of_mem_perfect {facts : Set Fact} {fact : Fact}
    (membership : fact ∈ program.perfect facts) :
    fact ∈ facts ∨ ∃ rule ∈ program.rules, rule.head = fact := by
  obtain ⟨index, membership⟩ := membership
  induction index with
  | zero => exact .inl membership
  | succ index ih =>
    cases membership with
    | given earlier => exact ih earlier
    | rule member _ _ _ => exact .inr ⟨_, member, rfl⟩

section Stability

variable {facts extra : Set Fact}

theorem level_subset_level_union (derivable : extra ⊆ program.perfect facts) (index : Nat) :
    program.level facts index ⊆ program.level (facts ∪ extra) index ∧
      program.level (facts ∪ extra) index ⊆ program.level facts index ∪ extra := by
  induction index with
  | zero => exact ⟨Set.subset_union_left, Set.Subset.refl _⟩
  | succ index ih =>
    obtain ⟨lower, upper⟩ := ih
    -- below the stratum being closed the two stores agree, so the guards do
    have agree : ∀ fact, program.stratum fact < index →
        (fact ∈ program.level facts index ↔ fact ∈ program.level (facts ∪ extra) index) := by
      intro fact below
      refine ⟨fun membership => lower membership, fun membership => ?_⟩
      rcases upper membership with settled | added
      · exact settled
      · exact program.mem_level_of_mem_perfect facts (derivable added) below
    constructor
    · intro fact derived
      induction derived with
      | given membership => exact .given (lower membership)
      | @rule rule member stratumEq guarded _ premises =>
        refine .rule member stratumEq ?_ premises
        exact (program.guard_congr rule member _ _
          (fun fact below => agree fact (stratumEq ▸ below))).mp guarded
    · intro fact derived
      induction derived with
      | given membership =>
        rcases upper membership with settled | added
        · exact .inl (.given settled)
        · exact .inr added
      | @rule rule member stratumEq guarded _ premises =>
        refine .inl (.rule member stratumEq ?_ ?_)
        · exact (program.guard_congr rule member _ _
            (fun fact below => agree fact (stratumEq ▸ below))).mpr guarded
        · intro fact premise
          rcases premises fact premise with settled | added
          · exact settled
          · have settled : program.stratum fact < index + 1 :=
              Nat.lt_succ_of_le (stratumEq ▸ program.premise_le rule member fact premise)
            exact program.mem_level_of_mem_perfect facts (derivable added) settled

/-- Facts of the model may be added to its input without changing it. -/
theorem perfect_union_of_subset (derivable : extra ⊆ program.perfect facts) :
    program.perfect (facts ∪ extra) = program.perfect facts := by
  apply Set.Subset.antisymm
  · rintro fact ⟨index, membership⟩
    rcases (program.level_subset_level_union derivable index).2 membership with
      settled | added
    · exact ⟨index, settled⟩
    · exact derivable added
  · rintro fact ⟨index, membership⟩
    exact ⟨index, (program.level_subset_level_union derivable index).1 membership⟩

/-- Over a larger input the model stays the same exactly when the larger input
lies inside the model. -/
theorem perfect_eq_iff {larger : Set Fact} (included : facts ⊆ larger) :
    program.perfect larger = program.perfect facts ↔ larger ⊆ program.perfect facts := by
  constructor
  · intro equal
    exact equal ▸ program.subset_perfect larger
  · intro derivable
    have extended := program.perfect_union_of_subset derivable
    rwa [Set.union_eq_self_of_subset_left included] at extended

theorem perfect_perfect : program.perfect (program.perfect facts) = program.perfect facts :=
  (program.perfect_eq_iff (program.subset_perfect facts)).mpr (Set.Subset.refl _)

end Stability

end Program

end Stratified

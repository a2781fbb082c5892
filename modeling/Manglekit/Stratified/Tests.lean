import Manglekit.Stratified.PerfectModel

/-!
# Programs that test for single facts

Each rule of such a program concludes its head outright, from the presence of one
fact, or from its absence.  As long as no head is tested, the model adds exactly the
heads whose tests hold of the given facts.  Any two sets of facts are told apart by
a test.
-/

namespace Stratified

universe u

variable {Fact : Type u}

inductive Test (Fact : Type u) where
  | always
  | present (fact : Fact)
  | absent (fact : Fact)

namespace Test

def Holds (facts : Set Fact) : Test Fact → Prop
  | .always => True
  | .present fact => fact ∈ facts
  | .absent fact => fact ∉ facts

def Tests (test : Test Fact) (fact : Fact) : Prop := test = .present fact ∨ test = .absent fact

@[simp]
theorem not_tests_always (fact : Fact) : ¬ (always : Test Fact).Tests fact := by
  simp [Tests]

def toRule (head : Fact) : Test Fact → Rule Fact
  | .always => ⟨head, ∅, fun _ => True⟩
  | .present fact => ⟨head, {fact}, fun _ => True⟩
  | .absent fact => ⟨head, ∅, fun facts => fact ∉ facts⟩

@[simp]
theorem toRule_head (head : Fact) (test : Test Fact) : (test.toRule head).head = head := by
  cases test <;> rfl

theorem holds_iff (head : Fact) (test : Test Fact) (facts : Set Fact) :
    test.Holds facts ↔ (test.toRule head).guard facts ∧ (test.toRule head).premises ⊆ facts := by
  cases test with
  | always | present fact | absent fact => simp [Holds, toRule]

theorem tests_of_mem_premises {head fact : Fact} {test : Test Fact}
    (premise : fact ∈ (test.toRule head).premises) : test.Tests fact := by
  cases test with
  | always => cases premise
  | present tested =>
    obtain rfl : fact = tested := premise
    exact .inl rfl
  | absent tested => cases premise

theorem exists_separating {first second : Set Fact} (differ : first ≠ second) :
    ∃ test : Test Fact, test.Holds first ∧ ¬ test.Holds second := by
  by_contra none
  push Not at none
  refine differ (Set.Subset.antisymm (fun fact => none (.present fact)) fun fact given => ?_)
  by_contra missing
  exact none (.absent fact) missing given

theorem exists_untested {one two : Fact} (distinct : one ≠ two) (test : Test Fact) :
    ¬ test.Tests one ∨ ¬ test.Tests two := by
  by_contra both
  push Not at both
  obtain ⟨rfl | rfl, same | same⟩ := both <;> simp_all

end Test

def Independent (tests : List (Fact × Test Fact)) : Prop :=
  ∀ entry ∈ tests, ∀ other ∈ tests, ¬ entry.2.Tests other.1

namespace Program

open Classical in
noncomputable def ofTests (tests : List (Fact × Test Fact)) (independent : Independent tests) :
    Program Fact where
  rules := {rule | ∃ entry ∈ tests, entry.2.toRule entry.1 = rule}
  stratum fact := if ∃ entry ∈ tests, entry.1 = fact then 1 else 0
  premise_le := by
    rintro _ ⟨entry, member, rfl⟩ fact _
    have top : ∃ other ∈ tests, other.1 = (entry.2.toRule entry.1).head :=
      ⟨entry, member, (Test.toRule_head _ _).symm⟩
    rw [if_pos top]
    split_ifs <;> simp
  guard_congr := by
    rintro _ ⟨⟨head, test⟩, member, rfl⟩ first second agree
    cases test with
    | always => exact Iff.rfl
    | present fact => exact Iff.rfl
    | absent fact =>
      refine not_congr (agree fact ?_)
      have untested : ¬ ∃ entry ∈ tests, entry.1 = fact := by
        rintro ⟨other, otherMember, rfl⟩
        exact independent _ member other otherMember (.inr rfl)
      have top : ∃ entry ∈ tests, entry.1 = ((Test.absent fact).toRule head).head :=
        ⟨_, member, rfl⟩
      rw [if_neg untested, if_pos top]
      exact Nat.one_pos

section OfTests

variable {tests : List (Fact × Test Fact)} (independent : Independent tests) {facts : Set Fact}

theorem stratum_head {entry : Fact × Test Fact} (member : entry ∈ tests) :
    (ofTests tests independent).stratum entry.1 = 1 := if_pos ⟨entry, member, rfl⟩

theorem level_one_ofTests : (ofTests tests independent).level facts 1 = facts := by
  apply Set.Subset.antisymm
  · intro fact derived
    cases derived with
    | given membership => exact membership
    | @rule fired member stratumEq _ _ =>
      obtain ⟨entry, listed, rfl⟩ := member
      rw [Test.toRule_head, stratum_head independent listed] at stratumEq
      cases stratumEq
  · exact (ofTests tests independent).level_mono facts (Nat.zero_le 1)

theorem given_of_derives {index : Nat} {context : Set Fact} {entry : Fact × Test Fact}
    (member : entry ∈ tests) {fact : Fact} (tested : entry.2.Tests fact)
    (derived : (ofTests tests independent).Derives index context facts fact) : fact ∈ facts := by
  cases derived with
  | given membership => exact membership
  | rule fired _ _ _ =>
    obtain ⟨other, listed, rfl⟩ := fired
    rw [Test.toRule_head] at tested
    exact absurd tested (independent entry member other listed)

theorem mem_of_derives {index : Nat} {fact : Fact}
    (derived : (ofTests tests independent).Derives index facts facts fact) :
    fact ∈ facts ∨ ∃ entry ∈ tests, entry.1 = fact ∧ entry.2.Holds facts := by
  cases derived with
  | given membership => exact .inl membership
  | @rule fired member _ guarded premises =>
    obtain ⟨entry, listed, rfl⟩ := member
    refine .inr ⟨entry, listed, (Test.toRule_head _ _).symm,
      (Test.holds_iff entry.1 entry.2 facts).mpr ⟨guarded, fun fact premise => ?_⟩⟩
    exact given_of_derives independent listed (Test.tests_of_mem_premises premise)
      (premises fact premise)

theorem perfect_ofTests :
    (ofTests tests independent).perfect facts =
      facts ∪ {fact | ∃ entry ∈ tests, entry.1 = fact ∧ entry.2.Holds facts} := by
  apply Set.Subset.antisymm
  · intro fact membership
    have low : (ofTests tests independent).stratum fact < 2 := by
      unfold ofTests
      dsimp only
      split_ifs <;> decide
    have settled := (ofTests tests independent).mem_level_of_mem_perfect facts membership low
    change (ofTests tests independent).Derives 1 ((ofTests tests independent).level facts 1)
      ((ofTests tests independent).level facts 1) fact at settled
    rw [level_one_ofTests] at settled
    exact mem_of_derives independent settled
  · rintro fact (given | ⟨entry, listed, rfl, holds⟩)
    · exact (ofTests tests independent).subset_perfect facts given
    · obtain ⟨guarded, premises⟩ := (Test.holds_iff entry.1 entry.2 facts).mp holds
      rw [← Test.toRule_head entry.1 entry.2]
      refine ⟨2, .rule ⟨entry, listed, rfl⟩ ?_ ?_ fun fact premise => .given ?_⟩
      · rw [Test.toRule_head, stratum_head independent listed]
      · rw [level_one_ofTests]
        exact guarded
      · rw [level_one_ofTests]
        exact premises premise

end OfTests

end Program

end Stratified

import Mathlib.Data.List.Basic
import Mathlib.Tactic.Ring

/-!
# Positional notation

A list of digits, the most significant first, stands for a number.  Lists of one length are ordered
as their numbers are, and the same digits can be read in groups, as digits of a larger base.
-/

namespace Positional

/-- Digits of a base in their order. -/
structure Digits (Digit : Type) [LT Digit] where
  base : Nat
  rank : Digit → Nat
  rank_lt : ∀ digit, rank digit < base
  rank_injective : Function.Injective rank
  lt_iff : ∀ digit other, digit < other ↔ rank digit < rank other

variable {Digit Word : Type} [LT Digit] [LT Word]

namespace Digits

variable (digits : Digits Digit)

def value : List Digit → Nat
  | [] => 0
  | digit :: rest => digits.rank digit * digits.base ^ rest.length + value rest

theorem value_lt (number : List Digit) : digits.value number < digits.base ^ number.length := by
  induction number with
  | nil => simp [value]
  | cons digit rest ih =>
    have bound : (digits.rank digit + 1) * digits.base ^ rest.length ≤
        digits.base * digits.base ^ rest.length :=
      Nat.mul_le_mul_right _ (digits.rank_lt digit)
    rw [value, List.length_cons, pow_succ']
    rw [Nat.succ_mul] at bound
    omega

theorem value_append (number rest : List Digit) :
    digits.value (number ++ rest) =
      digits.value number * digits.base ^ rest.length + digits.value rest := by
  induction number with
  | nil => simp [value]
  | cons digit others ih =>
    rw [List.cons_append, value, ih, value, List.length_append]
    ring

end Digits

/-- Two numbers in a base compare by their first digits, and then by the rest. -/
theorem mul_add_lt_iff {first second base rest other : Nat} (small : rest < base)
    (otherSmall : other < base) :
    first * base + rest < second * base + other ↔
      first < second ∨ first = second ∧ rest < other := by
  rcases lt_trichotomy first second with less | rfl | greater
  · have := Nat.mul_le_mul_right base (Nat.succ_le_of_lt less)
    rw [Nat.succ_mul] at this
    exact iff_of_true (by omega) (.inl less)
  · simp
  · have := Nat.mul_le_mul_right base (Nat.succ_le_of_lt greater)
    rw [Nat.succ_mul] at this
    exact iff_of_false (by omega) (by omega)

namespace Digits

theorem value_lt_value_iff (digits : Digits Digit) {number other : List Digit}
    (length : number.length = other.length) :
    digits.value number < digits.value other ↔ number < other := by
  induction number generalizing other with
  | nil =>
    obtain rfl := List.length_eq_zero_iff.mp length.symm
    simp
  | cons digit rest ih =>
    cases other with
    | nil => simp at length
    | cons digit' rest' =>
      have length : rest.length = rest'.length := Nat.succ.inj length
      have small := digits.value_lt rest
      rw [length] at small
      rw [List.cons_lt_cons_iff, value, value, length, mul_add_lt_iff small (digits.value_lt rest'),
        ih length, digits.lt_iff, digits.rank_injective.eq_iff]

theorem eq_of_value_eq [Std.Trichotomous (α := Digit) (· < ·)] (digits : Digits Digit)
    {number other : List Digit} (length : number.length = other.length)
    (same : digits.value number = digits.value other) : number = other := by
  apply List.le_antisymm
  · exact fun less => same.not_gt ((digits.value_lt_value_iff length.symm).mpr less)
  · exact fun less => same.not_lt ((digits.value_lt_value_iff length).mpr less)

/-- Each word is written with `width` digits of the smaller base. -/
structure Grouped (words : Digits Word) (digits : Digits Digit) (width : Nat) where
  write : Word → List Digit
  length_write : ∀ word, (write word).length = width
  value_write : ∀ word, digits.value (write word) = words.rank word
  base_eq : words.base = digits.base ^ width

namespace Grouped

variable {words : Digits Word} {digits : Digits Digit} {width : Nat}
  (grouped : Grouped words digits width)

theorem length_flatMap (number : List Word) :
    (number.flatMap grouped.write).length = width * number.length := by
  induction number with
  | nil => rfl
  | cons word rest ih =>
    rw [List.flatMap_cons, List.length_append, grouped.length_write, ih, List.length_cons]
    ring

theorem value_flatMap (number : List Word) :
    digits.value (number.flatMap grouped.write) = words.value number := by
  induction number with
  | nil => rfl
  | cons word rest ih =>
    rw [List.flatMap_cons, value_append, grouped.value_write, grouped.length_flatMap, ih, value,
      grouped.base_eq, pow_mul]

theorem flatMap_lt_flatMap_iff {number other : List Word} (length : number.length = other.length) :
    number.flatMap grouped.write < other.flatMap grouped.write ↔ number < other := by
  rw [← words.value_lt_value_iff length, ← grouped.value_flatMap, ← grouped.value_flatMap,
    digits.value_lt_value_iff]
  rw [grouped.length_flatMap, grouped.length_flatMap, length]

end Grouped

end Digits

end Positional

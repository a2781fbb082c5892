import Mathlib.Data.List.Basic

/-!
# Trees of wrapped errors

An error value with the errors that it unwraps to.  `errors.Is` and `errors.As` look at the
error itself and then, depth first, at what it unwraps to.
-/

namespace Errors

inductive Tree (Value : Type) where
  | node (value : Value) (unwrapped : List (Tree Value))

namespace Tree

variable {Value Target : Type}

mutual

/-- The values of a tree in the order in which they are looked at. -/
def values : Tree Value → List Value
  | .node value unwrapped => value :: valuesOfAll unwrapped

def valuesOfAll : List (Tree Value) → List Value
  | [] => []
  | tree :: rest => tree.values ++ valuesOfAll rest

end

/-- `errors.Is`, for a target that the values recognise. -/
def is (recognises : Value → Bool) (tree : Tree Value) : Bool := tree.values.any recognises

/-- `errors.As`, for a target type that some values have. -/
def as (assert : Value → Option Target) (tree : Tree Value) : Option Target :=
  tree.values.findSome? assert

variable {tree : Tree Value}

theorem is_iff {recognises : Value → Bool} :
    tree.is recognises = true ↔ ∃ value ∈ tree.values, recognises value = true :=
  List.any_eq_true

theorem as_isSome_iff {assert : Value → Option Target} :
    (tree.as assert).isSome = true ↔ ∃ value ∈ tree.values, (assert value).isSome = true :=
  List.findSome?_isSome_iff

theorem is_of_as {recognises : Value → Bool} {assert : Value → Option Target}
    (recognised : ∀ value, (assert value).isSome = true → recognises value = true)
    (found : (tree.as assert).isSome = true) : tree.is recognises = true := by
  obtain ⟨value, member, asserted⟩ := as_isSome_iff.mp found
  exact is_iff.mpr ⟨value, member, recognised value asserted⟩

end Tree

end Errors

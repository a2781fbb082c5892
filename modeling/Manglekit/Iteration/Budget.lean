import Manglekit.Iteration.Turns
import Mathlib.Data.List.Count

/-!
# Loops that count

A loop does its work under keys and counts how often it has used each of them.  If a key is used
only below a limit, the loop ends, whatever order it uses the keys in.
-/

namespace Iteration

variable {Key : Type*} [DecidableEq Key]

def use (used : Key → Nat) (key : Key) : Key → Nat := Function.update used key (used key + 1)

def allowance (limit : Nat) (used : Key → Nat) : List Key → Nat
  | [] => 0
  | key :: rest => limit - used key + allowance limit used rest

variable {limit : Nat} {keys : List Key} {used : Key → Nat} {key : Key}

theorem use_self : use used key key = used key + 1 := Function.update_self ..

theorem use_of_ne {other : Key} (different : other ≠ key) : use used key other = used other :=
  Function.update_of_ne different ..

theorem le_use (used : Key → Nat) (key other : Key) : used other ≤ use used key other := by
  by_cases same : other = key
  · rw [same, use_self]
    exact Nat.le_succ _
  · exact Nat.le_of_eq (use_of_ne same).symm

omit [DecidableEq Key] in
theorem allowance_le (limit : Nat) (used : Key → Nat) (keys : List Key) :
    allowance limit used keys ≤ keys.length * limit := by
  induction keys with
  | nil => exact Nat.zero_le _
  | cons key rest ih =>
    rw [allowance, List.length_cons, Nat.succ_mul]
    omega

theorem allowance_use_le (limit : Nat) (used : Key → Nat) (key : Key) (keys : List Key) :
    allowance limit (use used key) keys ≤ allowance limit used keys := by
  induction keys with
  | nil => exact Nat.le_refl _
  | cons other rest ih =>
    have grown := le_use used key other
    rw [allowance, allowance]
    omega

theorem allowance_use_lt (member : key ∈ keys) (within : used key < limit) :
    allowance limit (use used key) keys < allowance limit used keys := by
  induction keys with
  | nil => cases member
  | cons other rest ih =>
    rw [allowance, allowance]
    rcases List.mem_cons.mp member with rfl | later
    · have others := allowance_use_le limit used key rest
      rw [use_self]
      omega
    · have grown := le_use used key other
      have less := ih later
      omega

/-- The keys in the order of their uses, beside the counters, which may have started above zero. -/
structure Tallied (limit : Nat) (keys : List Key) (used : Key → Nat) (uses : List Key) : Prop where
  counted : ∀ key, uses.count key ≤ used key
  within : ∀ key, uses.count key ≤ limit
  total : uses.length + allowance limit used keys ≤ keys.length * limit

theorem Tallied.nil (limit : Nat) (keys : List Key) (used : Key → Nat) :
    Tallied limit keys used [] where
  counted _ := Nat.zero_le _
  within _ := Nat.zero_le _
  total := by simpa using allowance_le limit used keys

section

variable {uses : List Key} (tallied : Tallied limit keys used uses)

include tallied

theorem Tallied.use (member : key ∈ keys) (within : used key < limit) :
    Tallied limit keys (use used key) (uses ++ [key]) := by
  have count (other : Key) : (uses ++ [key]).count other =
      uses.count other + if other = key then 1 else 0 := by
    by_cases same : other = key
    · simp [same]
    · simp [same, Ne.symm same]
  refine ⟨fun other => ?_, fun other => ?_, ?_⟩
  · rw [count]
    have counted := tallied.counted other
    split
    next same =>
      rw [same, use_self]
      rw [same] at counted
      omega
    next different =>
      rw [use_of_ne different]
      omega
  · rw [count]
    have counted := tallied.counted other
    have bounded := tallied.within other
    split
    next same =>
      rw [same] at counted bounded ⊢
      omega
    · exact bounded
  · have total := tallied.total
    have less := allowance_use_lt member within
    rw [List.length_append, List.length_singleton]
    omega

theorem Tallied.length_le :
    uses.length ≤ keys.length * limit := by
  have total := tallied.total
  omega

end

theorem exists_iterate_of_uses {State Result : Type*} {turn : State → Turn State Result}
    {state : State} {Invariant : State → Prop} (used : State → Key → Nat)
    (preserved : ∀ before after, turn before = .next after → Invariant before → Invariant after)
    (uses : ∀ before after, turn before = .next after → Invariant before →
      ∃ key ∈ keys, used before key < limit ∧ used after = use (used before) key)
    (holds : Invariant state) :
    ∃ result, iterate turn (keys.length * limit + 1) state = some result := by
  have decreases (before after : State) (next : turn before = .next after)
      (invariant : Invariant before) :
      allowance limit (used after) keys < allowance limit (used before) keys := by
    obtain ⟨key, member, within, counted⟩ := uses before after next invariant
    rw [counted]
    exact allowance_use_lt member within
  obtain ⟨result, ended⟩ :=
    exists_iterate (fun state => allowance limit (used state) keys) preserved decreases holds
  exact ⟨result, iterate_mono ended (by have := allowance_le limit (used state) keys; omega)⟩

end Iteration

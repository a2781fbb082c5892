import Mathlib.Data.Option.Defs
import Mathlib.Logic.Relation

/-!
# Loops as turns

A loop takes one turn after another; a turn leads to the next one or ends the loop.  What every
turn keeps is there at the end, and a loop whose turns use up a measure ends.
-/

namespace Iteration

inductive Turn (State Result : Type*) where
  | next (state : State)
  | done (result : Result)

variable {State Result : Type*} (turn : State → Turn State Result)

/-- The result after at most so many turns. -/
def iterate : Nat → State → Option Result
  | 0, _ => none
  | turns + 1, state =>
    match turn state with
    | .next after => iterate turns after
    | .done result => some result

def Follows (state after : State) : Prop := turn state = .next after

def Reaches : State → State → Prop := Relation.ReflTransGen (Follows turn)

def Ends (state : State) (result : Result) : Prop :=
  ∃ last, Reaches turn state last ∧ turn last = .done result

variable {turn} {state : State} {result : Result}

variable {turns : Nat}

theorem iterate_of_next {after : State} (next : turn state = .next after) :
    iterate turn (turns + 1) state = iterate turn turns after := by
  rw [iterate, next]

theorem iterate_of_done (done : turn state = .done result) :
    iterate turn (turns + 1) state = some result := by
  rw [iterate, done]

section

variable (ended : iterate turn turns state = some result)

include ended

theorem ends_of_iterate :
    Ends turn state result := by
  induction turns generalizing state with
  | zero => cases ended
  | succ turns ih =>
    cases turned : turn state with
    | next after =>
      rw [iterate_of_next turned] at ended
      obtain ⟨last, reached, done⟩ := ih ended
      exact ⟨last, .head turned reached, done⟩
    | done earlier =>
      rw [iterate_of_done turned] at ended
      cases ended
      exact ⟨state, .refl, turned⟩

theorem iterate_mono {more : Nat}
    (enough : turns ≤ more) : iterate turn more state = some result := by
  induction turns generalizing state more with
  | zero => cases ended
  | succ turns ih =>
    obtain ⟨more, rfl⟩ := Nat.exists_eq_add_of_lt enough
    cases turned : turn state with
    | next after =>
      rw [iterate_of_next turned] at ended ⊢
      exact ih ended (Nat.le_add_right ..)
    | done earlier =>
      rw [iterate_of_done turned] at ended ⊢
      exact ended

end

theorem Reaches.invariant {Invariant : State → Prop} {last : State}
    (reached : Reaches turn state last)
    (preserved : ∀ before after, turn before = .next after → Invariant before → Invariant after)
    (holds : Invariant state) : Invariant last := by
  induction reached with
  | refl => exact holds
  | tail _ next ih => exact preserved _ _ next ih

theorem exists_iterate {Invariant : State → Prop} (measure : State → Nat)
    (preserved : ∀ before after, turn before = .next after → Invariant before → Invariant after)
    (decreases : ∀ before after, turn before = .next after → Invariant before →
      measure after < measure before)
    (holds : Invariant state) : ∃ result, iterate turn (measure state + 1) state = some result := by
  have enough : ∀ turns, measure state < turns →
      ∃ result, iterate turn turns state = some result := by
    intro turns
    induction turns generalizing state with
    | zero => omega
    | succ turns ih =>
      intro less
      cases turned : turn state with
      | next after =>
        rw [iterate_of_next turned]
        refine ih (preserved _ _ turned holds) ?_
        have := decreases _ _ turned holds
        omega
      | done result => exact ⟨result, iterate_of_done turned⟩
  exact enough _ (Nat.lt_succ_self _)

/-! ## Two loops side by side -/

section Alongside

variable {OtherState OtherResult : Type*} {States : State → OtherState → Prop}
  {Results : Result → OtherResult → Prop} {otherTurn : OtherState → Turn OtherState OtherResult}

/-- Two turns that both go on or both end, in states or with results that are related. -/
inductive Alike (States : State → OtherState → Prop) (Results : Result → OtherResult → Prop) :
    Turn State Result → Turn OtherState OtherResult → Prop where
  | next {state : State} {other : OtherState} : States state other →
      Alike States Results (.next state) (.next other)
  | done {result : Result} {other : OtherResult} : Results result other →
      Alike States Results (.done result) (.done other)

theorem iterate_alike
    (alike : ∀ state other, States state other →
      Alike States Results (turn state) (otherTurn other))
    {other : OtherState} (related : States state other) (turns : Nat) :
    Option.Rel Results (iterate turn turns state) (iterate otherTurn turns other) := by
  induction turns generalizing state other with
  | zero => exact .none
  | succ turns ih =>
    have taken := alike state other related
    rw [iterate, iterate]
    cases turned : turn state <;> cases otherTurned : otherTurn other <;>
      rw [turned, otherTurned] at taken <;> cases taken
    next goOn => exact ih goOn
    next results => exact .some results

end Alongside

end Iteration

import Manglekit.Effects.Unwinding

/-!
# Views of the state, and a journal beside it

A computation that is put together from operations which keep a view of the state keeps the
view.  One such view is a journal beside the state: some computations note down that they were
performed, all others run beside the journal and cannot see it.
-/

namespace Effects

variable {Fault State View Note Result : Type}

def Preserves (view : State → View) (Result : Type)
    (computation : Stateful Fault State Result) : Prop :=
  ∀ state, view (runFrom computation state).2 = view state

variable {computation : Stateful Fault State Result}

theorem Preserves.view_eq {view : State → View}
    (preserves : Preserves view Result computation) {state after : State}
    {outcome : Except Fault Result} (ended : runFrom computation state = (outcome, after)) :
    view after = view state := by
  have same := preserves state
  rwa [ended] at same

theorem preserves_of_yields {view : State → View}
    {property : Result → Prop} (yields : Yields (Preserves view) computation property) :
    Preserves view Result computation := by
  induction yields with
  | operation member => exact member
  | pure result _ => exact fun _ => rfl
  | @bind _ _ first next _ _ yields _ firstHypothesis nextHypothesis =>
    intro state
    have began := firstHypothesis state
    rw [runFrom_bind]
    rcases ended : runFrom first state with ⟨fault | result, after⟩
    · rwa [ended] at began
    · rw [ended] at began
      exact (nextHypothesis result (yields.result ended) after).trans began

/-! ## Journals -/

abbrev Journaled (Fault State Note : Type) := Stateful Fault (State × List Note)

def quietly (computation : Stateful Fault State Result) : Journaled Fault State Note Result :=
  ExceptT.mk (StateT.mk fun state =>
    ((runFrom computation state.1).1, (runFrom computation state.1).2, state.2))

def noting (note : Note) (computation : Stateful Fault State Result) :
    Journaled Fault State Note Result :=
  ExceptT.mk (StateT.mk fun state =>
    ((runFrom computation state.1).1, (runFrom computation state.1).2, state.2 ++ [note]))

theorem runFrom_noting (note : Note) (computation : Stateful Fault State Result)
    (state : State × List Note) :
    runFrom (noting note computation) state =
      ((runFrom computation state.1).1, (runFrom computation state.1).2, state.2 ++ [note]) := rfl

abbrev Quiet (Result : Type) (computation : Journaled Fault State Note Result) : Prop :=
  Preserves Prod.snd Result computation

theorem quiet_quietly (computation : Stateful Fault State Result) :
    Quiet Result (quietly computation : Journaled Fault State Note Result) := fun _ => rfl

end Effects

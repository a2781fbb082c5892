import Mathlib.Data.List.Induction

/-!
# Machines and their runs

A machine answers a move with its next state, if the move is enabled.  A run performs
moves one after another.  What every step preserves holds along every run.  A monitor
watches the steps of a machine and changes nothing.
-/

namespace Transition

structure Machine (State Move : Type) where
  step : State → Move → Option State

namespace Machine

variable {State Move Note : Type} (machine : Machine State Move)

def run (start : State) (moves : List Move) : Option State :=
  moves.foldlM machine.step start

@[simp]
theorem run_nil (start : State) : machine.run start [] = some start := rfl

variable {start after : State} {moves : List Move}

theorem run_cons {move : Move} :
    machine.run start (move :: moves) = some after ↔
      ∃ next, machine.step start move = some next ∧ machine.run next moves = some after := by
  simp [run, Option.bind_eq_some_iff]

variable {machine}

theorem run_invariant (invariant : State → Prop)
    (preserved : ∀ state move after, machine.step state move = some after →
      invariant state → invariant after) (reached : machine.run start moves = some after)
    (holds : invariant start) : invariant after := by
  induction moves generalizing start with
  | nil => exact Option.some.inj reached ▸ holds
  | cons move rest ih =>
    obtain ⟨next, stepped, remaining⟩ := machine.run_cons.mp reached
    exact ih remaining (preserved start move next stepped holds)

/-! ## Conditions on the steps of a run -/

def Meets (machine : Machine State Move) (condition : State → Move → Prop) :
    State → List Move → Prop
  | _, [] => True
  | state, move :: rest =>
    condition state move ∧
      ∀ next, machine.step state move = some next → machine.Meets condition next rest

theorem meets_of_forall_mem {condition : State → Move → Prop}
    (always : ∀ move ∈ moves, ∀ state, condition state move) (start : State) :
    machine.Meets condition start moves := by
  induction moves generalizing start with
  | nil => exact trivial
  | cons move rest ih =>
    refine ⟨always move List.mem_cons_self start, fun next _ => ?_⟩
    exact ih (fun later member => always later (List.mem_cons_of_mem _ member)) next

theorem meets_true (start : State) (moves : List Move) :
    machine.Meets (fun _ _ => True) start moves :=
  meets_of_forall_mem (fun _ _ _ => trivial) start

/-! ## Monitors -/

/-- The machine, with notes that are taken of every step. -/
def watched (machine : Machine State Move) (monitor : Note → State → Move → State → Note) :
    Machine (State × Note) Move where
  step pair move :=
    (machine.step pair.1 move).map fun after => (after, monitor pair.2 pair.1 move after)

variable {monitor : Note → State → Move → State → Note}

theorem step_watched {state : State} {note noted : Note} {move : Move} :
    (machine.watched monitor).step (state, note) move = some (after, noted) ↔
      machine.step state move = some after ∧ monitor note state move after = noted := by
  simp only [watched, Option.map_eq_some_iff, Prod.mk.injEq]
  constructor
  · rintro ⟨next, stepped, rfl, rfl⟩
    exact ⟨stepped, rfl⟩
  · rintro ⟨stepped, rfl⟩
    exact ⟨after, stepped, rfl, rfl⟩

theorem watched_invariant (invariant : State → Note → Prop) {condition : State → Move → Prop}
    (preserved : ∀ state note move after, machine.step state move = some after →
      condition state move → invariant state note →
      invariant after (monitor note state move after)) {note noted : Note}
    (meets : machine.Meets condition start moves)
    (reached : (machine.watched monitor).run (start, note) moves = some (after, noted))
    (holds : invariant start note) : invariant after noted := by
  induction moves generalizing start note with
  | nil =>
    cases reached
    exact holds
  | cons move rest ih =>
    obtain ⟨⟨next, nextNote⟩, stepped, remaining⟩ := (run_cons _).mp reached
    obtain ⟨moved, rfl⟩ := step_watched.mp stepped
    exact ih (meets.2 next moved) remaining (preserved start note move next moved meets.1 holds)

theorem run_of_watched {note noted : Note}
    (reached : (machine.watched monitor).run (start, note) moves = some (after, noted)) :
    machine.run start moves = some after := by
  induction moves generalizing start note with
  | nil =>
    cases reached
    rfl
  | cons move rest ih =>
    obtain ⟨⟨next, nextNote⟩, stepped, remaining⟩ := (run_cons _).mp reached
    exact machine.run_cons.mpr ⟨next, (step_watched.mp stepped).1, ih remaining⟩

end Machine

end Transition

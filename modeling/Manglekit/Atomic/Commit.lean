import Manglekit.Atomic.Process

/-!
# Processes that commit in their last section

Such a process reads the shared state section by section and replaces it at most once,
in the section that ends it with a committed result.  Unless it commits, a pool runs
with it as it runs without it.
-/

namespace Atomic

namespace Process

variable {State Event Fault Result Other : Type}

/-- Every section leaves the state as it is, or ends the process with a committed
result. -/
def CommitsLast (committed : Result → Prop) : Process State Event Fault Result → Prop
  | .done _ => True
  | .abort _ => True
  | .step _ update next => ∀ state,
      (update state = state ∧ (next state).CommitsLast committed) ∨
        ∃ result, next state = .done result ∧ committed result

variable {committed : Result → Prop}

theorem CommitsLast.reads {event : State → Event} {body : State → Other × State}
    {continuation : Other → Process State Event Fault Result}
    (kept : ∀ state, (body state).2 = state)
    (continued : ∀ result, (continuation result).CommitsLast committed) :
    ((atomically event body : Process State Event Fault Other).bind continuation).CommitsLast
      committed :=
  fun state => .inl ⟨kept state, continued (body state).1⟩

theorem CommitsLast.commits {event : State → Event} {body : State → Result × State}
    (commit : ∀ state, committed (body state).1) :
    (atomically event body : Process State Event Fault Result).CommitsLast committed :=
  fun state => .inr ⟨(body state).1, rfl, commit state⟩

theorem CommitsLast.wrapped {wrap : Result → Other} {wrapped : Other → Prop}
    (keeps : ∀ result, committed result → wrapped (wrap result))
    {process : Process State Event Fault Result} (last : process.CommitsLast committed) :
    (process.bind fun result => .done (wrap result)).CommitsLast wrapped := by
  induction process with
  | done result => trivial
  | abort fault => trivial
  | step event update next ih =>
    intro state
    rcases last state with ⟨kept, remaining⟩ | ⟨result, ends, commit⟩
    · exact .inl ⟨kept, ih state remaining⟩
    · refine .inr ⟨wrap result, ?_, keeps result commit⟩
      dsimp only
      rw [ends, done_bind]

end Process

namespace Pool

variable {Thread State Event Fault Result : Type} [DecidableEq Thread]
  {committed : Result → Prop} {idle : Thread → Bool}

theorem threads_advance_of_ne (pool : Pool Thread State Event Fault Result)
    {moved thread : Thread} (other : thread ≠ moved) :
    (pool.advance moved).threads thread = pool.threads thread := by
  rcases pool.advance_cases moved with ⟨unchanged, _⟩ | ⟨event, update, next, _, advanced, _⟩
  · rw [unchanged]
  · rw [advanced]
    exact Function.update_of_ne other _ _

variable {pool other : Pool Thread State Event Fault Result}

section

variable {thread : Thread} {result : Result} (ended : pool.threads thread = .done result)

include ended

theorem threads_advance_of_done (moved : Thread) :
    (pool.advance moved).threads thread = .done result := by
  by_cases other : thread = moved
  · subst other
    rw [advance, ended]
    exact ended
  · rw [threads_advance_of_ne pool other, ended]

theorem threads_run_of_done (schedule : List Thread) :
    (pool.run schedule).threads thread = .done result := by
  induction schedule generalizing pool with
  | nil => exact ended
  | cons moved rest ih =>
    exact ih (threads_advance_of_done ended moved)

end

/-- Two pools in the same state, with the same threads but for the idle ones. -/
structure SameBut (idle : Thread → Bool) (pool other : Pool Thread State Event Fault Result) :
    Prop where
  state : pool.state = other.state
  threads : ∀ thread, idle thread = false → pool.threads thread = other.threads thread

omit [DecidableEq Thread] in
theorem SameBut.refl (pool : Pool Thread State Event Fault Result) :
    SameBut idle pool pool := ⟨rfl, fun _ _ => rfl⟩

section

variable (same : SameBut idle pool other)

include same

theorem SameBut.advance {moved : Thread}
    (active : idle moved = false) : SameBut idle (pool.advance moved) (other.advance moved) := by
  have process := same.threads moved active
  cases pending : pool.threads moved with
  | done result | abort fault => simpa [Pool.advance, ← process, pending] using same
  | step event update next =>
    rw [advance_of_step pending, advance_of_step (process ▸ pending)]
    refine ⟨congrArg update same.state, fun thread others => ?_⟩
    dsimp only
    rw [same.state]
    by_cases isMoved : thread = moved
    · rw [isMoved, Function.update_self, Function.update_self]
    · rw [Function.update_of_ne isMoved, Function.update_of_ne isMoved, same.threads thread others]

/-- A section of an idle thread, unless it commits, changes nothing for the others. -/
theorem SameBut.advance_idle {moved : Thread}
    (isIdle : idle moved = true) (last : (pool.threads moved).CommitsLast committed)
    (after : ∀ result, (pool.advance moved).threads moved = .done result → ¬ committed result) :
    SameBut idle (pool.advance moved) other ∧
      ((pool.advance moved).threads moved).CommitsLast committed := by
  rcases pool.advance_cases moved with ⟨unchanged, _⟩ | ⟨event, update, next, pending, advanced, _⟩
  · rw [unchanged]
    exact ⟨same, last⟩
  · rw [pending] at last
    have moves : (pool.advance moved).threads moved = next pool.state := by
      rw [advanced]
      exact Function.update_self _ _ _
    rcases last pool.state with ⟨kept, remaining⟩ | ⟨result, ends, commit⟩
    · rw [moves]
      refine ⟨⟨?_, fun thread active => ?_⟩, remaining⟩
      · rw [advanced]
        exact kept.trans same.state
      · have others : thread ≠ moved := by
          rintro rfl
          rw [isIdle] at active
          cases active
        rw [threads_advance_of_ne pool others]
        exact same.threads thread active
    · exact absurd commit (after result (moves.trans ends))

theorem SameBut.run
    (last : ∀ thread, idle thread = true → (pool.threads thread).CommitsLast committed)
    (schedule : List Thread)
    (uncommitted : ∀ thread, idle thread = true → ∀ result,
      (pool.run schedule).threads thread = .done result → ¬ committed result) :
    SameBut idle (pool.run schedule) (other.run (schedule.filter fun thread => !idle thread)) := by
  induction schedule generalizing pool other with
  | nil => exact same
  | cons moved rest ih =>
    cases turn : idle moved with
    | false =>
      have active : ∀ thread, idle thread = true → thread ≠ moved := by
        rintro thread isIdle rfl
        rw [turn] at isIdle
        cases isIdle
      rw [List.filter_cons_of_pos (by simp [turn]), run_cons, run_cons]
      refine ih (same.advance turn) (fun thread isIdle => ?_) uncommitted
      rw [threads_advance_of_ne pool (active thread isIdle)]
      exact last thread isIdle
    | true =>
      rw [List.filter_cons_of_neg (by simp [turn]), run_cons]
      obtain ⟨unseen, remaining⟩ := same.advance_idle turn (last moved turn)
        fun result ended => uncommitted moved turn result (threads_run_of_done ended rest)
      refine ih unseen (fun thread isIdle => ?_) uncommitted
      by_cases isMoved : thread = moved
      · exact isMoved ▸ remaining
      · rw [threads_advance_of_ne pool isMoved]
        exact last thread isIdle

end

end Pool

end Atomic

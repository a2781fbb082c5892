import Mathlib.Data.List.Induction

/-!
# Processes made of atomic sections

A process alternates private computation with atomic sections on a shared
state, and ends in a result or aborts.  Run alone it is a state-passing
function; run in a pool, a schedule chooses which process performs its next
section.  Every section emits an event, so that a property of an interleaving
can be stated over its trace.
-/

namespace Atomic

/-- One section reads the state, announces its event, replaces the state and
decides how the process continues. -/
inductive Process (State Event Fault Result : Type) where
  | done (result : Result)
  | abort (fault : Fault)
  | step (event : State → Event) (update : State → State)
      (next : State → Process State Event Fault Result)

namespace Process

variable {State Event Fault Result Other : Type}

def bind (process : Process State Event Fault Result)
    (continuation : Result → Process State Event Fault Other) :
    Process State Event Fault Other :=
  match process with
  | .done result => continuation result
  | .abort fault => .abort fault
  | .step event update next => .step event update fun state => (next state).bind continuation

instance : Monad (Process State Event Fault) where
  pure := .done
  bind := bind

def atomically (event : State → Event) (body : State → Result × State) :
    Process State Event Fault Result :=
  .step event (fun state => (body state).2) fun state => .done (body state).1

variable (result : Result)

@[simp]
theorem pure_eq_done : (pure result : Process State Event Fault Result) = .done result := rfl

@[simp]
theorem bind_eq (process : Process State Event Fault Result)
    (continuation : Result → Process State Event Fault Other) :
    process >>= continuation = process.bind continuation := rfl

@[simp]
theorem done_bind (continuation : Result → Process State Event Fault Other) :
    (Process.done result).bind continuation = continuation result := rfl

@[simp]
theorem abort_bind (fault : Fault) (continuation : Result → Process State Event Fault Other) :
    (Process.abort fault).bind continuation = .abort fault := rfl

@[simp]
theorem step_bind (event : State → Event) (update : State → State)
    (next : State → Process State Event Fault Result)
    (continuation : Result → Process State Event Fault Other) :
    (Process.step event update next).bind continuation =
      .step event update fun state => (next state).bind continuation := rfl

@[simp]
theorem atomically_bind (event : State → Event) (body : State → Result × State)
    (continuation : Result → Process State Event Fault Other) :
    (atomically event body).bind continuation =
      .step event (fun state => (body state).2) fun state => continuation (body state).1 := rfl

/-- Run the process alone, without interference. -/
def exec : Process State Event Fault Result → State → Except Fault Result × State
  | .done result, state => (.ok result, state)
  | .abort fault, state => (.error fault, state)
  | .step _ update next, state => (next state).exec (update state)

@[simp]
theorem exec_done (state : State) :
    (Process.done result : Process State Event Fault Result).exec state = (.ok result, state) := rfl

@[simp]
theorem exec_abort (fault : Fault) (state : State) :
    (Process.abort fault : Process State Event Fault Result).exec state =
      (.error fault, state) := rfl

@[simp]
theorem exec_step (event : State → Event) (update : State → State)
    (next : State → Process State Event Fault Result) (state : State) :
    (Process.step event update next).exec state = (next state).exec (update state) := rfl

@[simp]
theorem exec_atomically (event : State → Event) (body : State → Result × State) (state : State) :
    (atomically event body : Process State Event Fault Result).exec state =
      (.ok (body state).1, (body state).2) := rfl

theorem exec_bind (process : Process State Event Fault Result)
    (continuation : Result → Process State Event Fault Other) (state : State) :
    (process.bind continuation).exec state =
      match process.exec state with
      | (.ok result, after) => (continuation result).exec after
      | (.error fault, after) => (.error fault, after) := by
  induction process generalizing state with
  | done result => rfl
  | abort fault => rfl
  | step event update next ih => exact ih state (update state)

theorem exec_bind_done (process : Process State Event Fault Result) (wrap : Result → Other)
    (state : State) :
    (process.bind fun result => .done (wrap result)).exec state =
      ((process.exec state).1.map wrap, (process.exec state).2) := by
  rw [exec_bind]
  rcases process.exec state with ⟨fault | result, after⟩ <;> rfl

def Keeps (invariant : State → Prop) (process : Process State Event Fault Result) : Prop :=
  ∀ state, invariant state → invariant (process.exec state).2

theorem keeps_done (invariant : State → Prop) (result : Result) :
    (Process.done result : Process State Event Fault Result).Keeps invariant :=
  fun _ holds => holds

theorem keeps_abort (invariant : State → Prop) (fault : Fault) :
    (Process.abort fault : Process State Event Fault Result).Keeps invariant :=
  fun _ holds => holds

variable {event : State → Event} {body : State → Result × State}

theorem keeps_atomically {invariant : State → Prop}
    (kept : ∀ state, invariant state → invariant (body state).2) :
    (atomically event body : Process State Event Fault Result).Keeps invariant :=
  fun state holds => kept state holds

variable {process : Process State Event Fault Result}

theorem Keeps.bind {invariant : State → Prop}
    {continuation : Result → Process State Event Fault Other}
    (keeps : process.Keeps invariant)
    (continued : ∀ result, (continuation result).Keeps invariant) :
    (process.bind continuation).Keeps invariant := by
  intro state holds
  have first := keeps state holds
  rw [exec_bind]
  rcases ended : process.exec state with ⟨fault | result, after⟩
  · rw [ended] at first
    exact first
  · rw [ended] at first
    exact continued result after first

/-- Run alone from related states, the process ends in the same way and in related states. -/
def Respects (related : State → State → Prop) (process : Process State Event Fault Result) :
    Prop :=
  ∀ first second, related first second →
    (process.exec first).1 = (process.exec second).1 ∧
      related (process.exec first).2 (process.exec second).2

theorem respects_done (related : State → State → Prop) (result : Result) :
    (Process.done result : Process State Event Fault Result).Respects related :=
  fun _ _ holds => ⟨rfl, holds⟩

theorem respects_atomically {related : State → State → Prop}
    (respected : ∀ first second, related first second →
      (body first).1 = (body second).1 ∧ related (body first).2 (body second).2) :
    (atomically event body : Process State Event Fault Result).Respects related := by
  intro first second holds
  obtain ⟨same, after⟩ := respected first second holds
  exact ⟨congrArg Except.ok same, after⟩

theorem Respects.bind {related : State → State → Prop}
    {continuation : Result → Process State Event Fault Other}
    (respects : process.Respects related)
    (continued : ∀ result, (continuation result).Respects related) :
    (process.bind continuation).Respects related := by
  intro first second holds
  obtain ⟨same, after⟩ := respects first second holds
  rw [exec_bind, exec_bind]
  rcases ended : process.exec first with ⟨result, firstAfter⟩
  rcases otherEnded : process.exec second with ⟨other, secondAfter⟩
  rw [ended, otherEnded] at same after
  cases same
  cases result with
  | error fault => exact ⟨rfl, after⟩
  | ok result => exact continued result firstAfter secondAfter after

def outcome? : Process State Event Fault Result → Option (Except Fault Result)
  | .done result => some (.ok result)
  | .abort fault => some (.error fault)
  | .step _ _ _ => none

theorem exec_of_outcome?
    {outcome : Except Fault Result} (ended : process.outcome? = some outcome) (state : State) :
    (process.exec state).1 = outcome := by
  cases process with
  | done result | abort fault => exact Option.some.inj ended
  | step event update next => cases ended

def result? : Process State Event Fault Result → Option Result
  | .done result => some result
  | _ => none

theorem result?_eq_some {result : Result} :
    process.result? = some result ↔ process = .done result := by
  cases process <;> simp [result?]

/-- Every section of the process, entered in any state, satisfies the relation
between the state before, the event and the state after. -/
def Every (relation : State → Event → State → Prop) : Process State Event Fault Result → Prop
  | .done _ => True
  | .abort _ => True
  | .step event update next =>
    ∀ state, relation state (event state) (update state) ∧ (next state).Every relation

theorem Every.bind {relation : State → Event → State → Prop}
    {continuation : Result → Process State Event Fault Other}
    (every : process.Every relation) (continued : ∀ result, (continuation result).Every relation) :
    (process.bind continuation).Every relation := by
  induction process with
  | done result => exact continued result
  | abort fault => trivial
  | step event update next ih =>
    exact fun state => ⟨(every state).1, ih state (every state).2⟩

theorem every_atomically {relation : State → Event → State → Prop}
    (related : ∀ state, relation state (event state) (body state).2) :
    (atomically event body : Process State Event Fault Result).Every relation :=
  fun state => ⟨related state, trivial⟩

end Process

structure Pool (Thread State Event Fault Result : Type) where
  state : State
  threads : Thread → Process State Event Fault Result

namespace Pool

variable {Thread State Event Fault Result : Type} [DecidableEq Thread]

/-- The chosen thread performs its next section; a finished thread does nothing. -/
def advance (pool : Pool Thread State Event Fault Result) (thread : Thread) :
    Pool Thread State Event Fault Result :=
  match pool.threads thread with
  | .done _ | .abort _ => pool
  | .step _ update next =>
    ⟨update pool.state, Function.update pool.threads thread (next pool.state)⟩

omit [DecidableEq Thread] in
def emitted (pool : Pool Thread State Event Fault Result) (thread : Thread) :
    List (Thread × Event) :=
  match pool.threads thread with
  | .done _ | .abort _ => []
  | .step event _ _ => [(thread, event pool.state)]

def run (pool : Pool Thread State Event Fault Result) (schedule : List Thread) :
    Pool Thread State Event Fault Result :=
  schedule.foldl advance pool

/-- The events of a schedule, in order. -/
def trace (pool : Pool Thread State Event Fault Result) : List Thread → List (Thread × Event)
  | [] => []
  | thread :: rest => pool.emitted thread ++ (pool.advance thread).trace rest

variable (pool : Pool Thread State Event Fault Result)

@[simp]
theorem run_nil : pool.run [] = pool := rfl

@[simp]
theorem run_cons (thread : Thread) (schedule : List Thread) :
    pool.run (thread :: schedule) = (pool.advance thread).run schedule := rfl

theorem run_append (first second : List Thread) :
    pool.run (first ++ second) = (pool.run first).run second := by
  simp [run]

theorem trace_append (first second : List Thread) :
    pool.trace (first ++ second) = pool.trace first ++ (pool.run first).trace second := by
  induction first generalizing pool with
  | nil => rfl
  | cons thread rest ih =>
    simp only [List.cons_append, trace, ih, run_cons, List.append_assoc]

theorem run_induction
    {motive : Pool Thread State Event Fault Result → List (Thread × Event) → Prop}
    (initial : motive pool [])
    (preserved : ∀ reached past thread, motive reached past →
      motive (reached.advance thread) (past ++ reached.emitted thread))
    (schedule : List Thread) : motive (pool.run schedule) (pool.trace schedule) := by
  induction schedule using List.reverseRecOn with
  | nil => exact initial
  | append_singleton schedule thread ih =>
    rw [run_append, trace_append]
    simpa [trace, run] using preserved _ _ thread ih

theorem advance_of_step {pool : Pool Thread State Event Fault Result} {thread : Thread}
    {event : State → Event} {update : State → State}
    {next : State → Process State Event Fault Result}
    (pending : pool.threads thread = .step event update next) :
    pool.advance thread =
      ⟨update pool.state, Function.update pool.threads thread (next pool.state)⟩ := by
  simp [advance, pending]

omit [DecidableEq Thread] in
theorem emitted_of_step {pool : Pool Thread State Event Fault Result} {thread : Thread}
    {event : State → Event} {update : State → State}
    {next : State → Process State Event Fault Result}
    (pending : pool.threads thread = .step event update next) :
    pool.emitted thread = [(thread, event pool.state)] := by
  simp [emitted, pending]

theorem advance_cases (thread : Thread) :
    (pool.advance thread = pool ∧ pool.emitted thread = []) ∨
      ∃ event update next, pool.threads thread = .step event update next ∧
        pool.advance thread =
          ⟨update pool.state, Function.update pool.threads thread (next pool.state)⟩ ∧
        pool.emitted thread = [(thread, event pool.state)] := by
  cases pending : pool.threads thread with
  | done result | abort fault => exact .inl ⟨by simp [advance, pending], by simp [emitted, pending]⟩
  | step event update next =>
    exact .inr ⟨event, update, next, rfl, advance_of_step pending, emitted_of_step pending⟩

theorem every_advance {relation : Thread → State → Event → State → Prop}
    {pool : Pool Thread State Event Fault Result}
    (every : ∀ thread, (pool.threads thread).Every (relation thread)) (moved thread : Thread) :
    ((pool.advance moved).threads thread).Every (relation thread) := by
  rcases pool.advance_cases moved with ⟨unchanged, _⟩ | ⟨event, update, next, pending, advanced, _⟩
  · rw [unchanged]
    exact every thread
  · have remaining := every moved
    rw [pending] at remaining
    rw [advanced]
    dsimp only
    by_cases same : thread = moved
    · subst same
      rw [Function.update_self]
      exact (remaining pool.state).2
    · rw [Function.update_of_ne same]
      exact every thread

/-- A property of state and trace holds along every run if it is preserved by
whatever the sections of the threads can do. -/
theorem trace_invariant {relation : Thread → State → Event → State → Prop}
    {invariant : State → List (Thread × Event) → Prop}
    (every : ∀ thread, (pool.threads thread).Every (relation thread))
    (initial : invariant pool.state [])
    (preserved : ∀ state past thread event after, relation thread state event after →
      invariant state past → invariant after (past ++ [(thread, event)]))
    (schedule : List Thread) : invariant (pool.run schedule).state (pool.trace schedule) := by
  suffices both : (∀ thread, ((pool.run schedule).threads thread).Every (relation thread)) ∧
      invariant (pool.run schedule).state (pool.trace schedule) from both.2
  refine pool.run_induction
    (motive := fun reached past => (∀ thread, (reached.threads thread).Every (relation thread)) ∧
      invariant reached.state past) ⟨every, initial⟩ ?_ schedule
  rintro reached past thread ⟨remaining, holds⟩
  refine ⟨every_advance remaining thread, ?_⟩
  rcases reached.advance_cases thread with
    ⟨unchanged, silent⟩ | ⟨event, update, next, pending, advanced, emitted⟩
  · rw [unchanged, silent, List.append_nil]
    exact holds
  · have step := remaining thread
    rw [pending] at step
    rw [advanced, emitted]
    exact preserved _ _ _ _ _ (step reached.state).1 holds

end Pool

end Atomic

import Manglekit.Resilience.Probes

/-!
# Calls that outlive the state they started in

`runStandard` leaves the breaker alone when it is no longer closed.  It does not compare
generations, so a call that slept through a whole cycle of open, half open and closed finds
the breaker closed and counts as if it had started there.
-/

namespace Manglekit.Resilience

open Transition

variable {Call Response Error : Type} [DecidableEq Call]
  {config : CircuitBreakerConfig Error} {system after : System Call Response Error}

/-- Notes for every call whether the breaker has changed its state since the call read it. -/
def noteTransition (stale : Call → Bool) (before : System Call Response Error)
    (move : Move Call Response Error) (after : System Call Response Error) (call : Call) : Bool :=
  if before.breaker.state ≠ after.breaker.state then true
  else
    match move with
    | .observe observer => if call = observer then false else stale call
    | _ => stale call

def CircuitBreakerConfig.aging (config : CircuitBreakerConfig Error) :
    Machine (System Call Response Error × (Call → Bool)) (Move Call Response Error) :=
  config.machine.watched noteTransition

/-- The call has read a closed breaker and has not recorded its outcome yet. -/
def Phase.isStandard : Phase Response Error → Bool
  | .observed snapshot => snapshot.state = .closed
  | .running | .ran _ _ => true
  | _ => false

/-- When a probe closes the breaker, no call from an earlier closed period is in flight. -/
def ClosesAlone (config : CircuitBreakerConfig Error) (system : System Call Response Error)
    (move : Move Call Response Error) : Prop :=
  ∀ call now response err, move = .finish call now → system.calls call = .probed response err →
    config.counts err = false → ∀ other, (system.calls other).isStandard = false

/-- A call from an earlier closed period never meets a closed breaker. -/
def StaleMeetOpen (system : System Call Response Error) (stale : Call → Bool) : Prop :=
  ∀ call, (system.calls call).isStandard = true → stale call = true →
    system.breaker.state ≠ .closed

/-! ## One step -/

@[simp]
theorem isStandard_decide (snapshot : Snapshot) (now : Int) :
    (config.decide snapshot now : Phase Response Error).isStandard =
      (Phase.observed snapshot : Phase Response Error).isStandard := by
  rcases snapshot with ⟨state, lastOpen, generation⟩
  cases state with
  | closed => rfl
  | halfOpen => rfl
  | opened =>
    simp only [CircuitBreakerConfig.decide]
    split <;> rfl

variable {move : Move Call Response Error}

theorem noteTransition_of_same {stale : Call → Bool}
    (same : system.breaker.state = after.breaker.state)
    (notObserve : ∀ call, move ≠ .observe call) :
    noteTransition stale system move after = stale := by
  funext call
  unfold noteTransition
  rw [if_neg (not_not.mpr same)]
  cases move with
  | observe observer => exact absurd rfl (notObserve observer)
  | _ => rfl

namespace StaleMeetOpen

variable {stale : Call → Bool}

theorem put (meetOpen : StaleMeetOpen system stale) {call : Call} {breaker : CircuitBreaker}
    {phase : Phase Response Error}
    (notObserve : ∀ call, move ≠ .observe call)
    (sameState : breaker.state = system.breaker.state)
    (noStart : phase.isStandard = true → (system.calls call).isStandard = true) :
    StaleMeetOpen (system.put call breaker phase)
      (noteTransition stale system move (system.put call breaker phase)) := by
  rw [noteTransition_of_same (by simp [sameState]) notObserve]
  intro other standard noted
  rw [System.breaker_put, sameState]
  refine meetOpen other ?_ noted
  by_cases same : other = call
  · subst same
    rw [System.calls_put_self] at standard
    exact noStart standard
  · rwa [System.calls_put_of_ne _ same] at standard

omit [DecidableEq Call] in
theorem of_not_closed (notClosed : system.breaker.state ≠ .closed) : StaleMeetOpen system stale :=
  fun _ _ _ => notClosed

theorem observe (meetOpen : StaleMeetOpen system stale) (call : Call) :
    let next := system.put call system.breaker (.observed system.breaker.snapshot)
    StaleMeetOpen next (noteTransition stale system (.observe call) next) := by
  intro next other standard noted
  have unchanged : ¬ system.breaker.state ≠ next.breaker.state := not_not.mpr rfl
  unfold noteTransition at noted
  rw [if_neg unchanged] at noted
  by_cases same : other = call
  · simp [same] at noted
  · rw [System.calls_put_of_ne _ same] at standard
    simp only [same, if_false] at noted
    exact meetOpen other standard noted

theorem step (meetOpen : StaleMeetOpen system stale) (alone : ClosesAlone config system move)
    (stepped : config.machine.step system move = some after) :
    StaleMeetOpen after (noteTransition stale system move after) := by
  cases step_cases stepped with
  | observe _ => exact meetOpen.observe _
  | decide now observed =>
    exact meetOpen.put (by simp) rfl (by rw [isStandard_decide, observed]; exact id)
  | restart _ _ => exact meetOpen.put (by simp) rfl (by simp [Phase.isStandard])
  | probe _ _ _ => exact of_not_closed (by simp)
  | missed _ _ | answerProbe _ _ _ => exact meetOpen.put (by simp) rfl (by simp [Phase.isStandard])
  | answerStandard _ _ running =>
    exact meetOpen.put (by simp) rfl (by simp [running, Phase.isStandard])
  | @finishProbe call response err now probed =>
    by_cases counted : config.counts err = true
    · exact of_not_closed (by simp [CircuitBreakerConfig.finishProbe, counted])
    · -- The probe closes the breaker, with nobody left from before.
      have nobody := alone call now response err rfl probed (eq_false_of_ne_true counted)
      intro other standard _
      by_cases same : other = call
      · simp [same, Phase.isStandard] at standard
      · rw [System.calls_put_of_ne _ same, nobody other] at standard
        cases standard
  | @finishStandard call response err now _ =>
    by_cases sameState : (config.finishStandard now err system.breaker).state = system.breaker.state
    · exact meetOpen.put (by simp) sameState (by simp [Phase.isStandard])
    · refine of_not_closed ?_
      rw [System.breaker_put]
      intro closed
      revert sameState closed
      unfold CircuitBreakerConfig.finishStandard
      split_ifs <;> simp_all

end StaleMeetOpen

theorem finishStandard_of_not_closed {breaker : CircuitBreaker} (now : Int) (err : Option Error)
    (notClosed : breaker.state ≠ .closed) : config.finishStandard now err breaker = breaker := by
  unfold CircuitBreakerConfig.finishStandard
  rw [if_pos notClosed]

/-- In every run in which a probe closes the breaker only when no standard call is in flight,
the outcome of a standard call changes the failures or the state only if the breaker has kept
its state since the call read it. -/
theorem stale_outcome_ignored (config : CircuitBreakerConfig Error)
    {moves : List (Move Call Response Error)}
    (alone : config.machine.Meets (ClosesAlone config) System.New moves)
    {system : System Call Response Error} {stale : Call → Bool}
    (reached : config.aging.run (System.New, fun _ => false) moves = some (system, stale))
    {call : Call} {response : Response} {err : Option Error}
    (ran : system.calls call = .ran response err) {now : Int}
    {after : System Call Response Error}
    (finished : config.machine.step system (.finish call now) = some after)
    (moved : after.breaker.failures ≠ system.breaker.failures ∨
      after.breaker.state ≠ system.breaker.state) :
    stale call = false := by
  have meetOpen : StaleMeetOpen system stale := by
    refine Machine.watched_invariant StaleMeetOpen ?_ alone reached (by simp [StaleMeetOpen])
    intro _ _ _ _ stepped alone meetOpen
    exact meetOpen.step alone stepped
  by_contra isStale
  have notClosed : system.breaker.state ≠ .closed :=
    meetOpen call (by rw [ran]; rfl) (eq_true_of_ne_false isStale)
  cases step_cases finished with
  | finishProbe now probed => exact absurd (ran.symm.trans probed) (by simp)
  | finishStandard now _ =>
    rw [System.breaker_put, finishStandard_of_not_closed now _ notClosed] at moved
    exact moved.elim (absurd rfl) (absurd rfl)

def loneFailure : List (Move Nat Nat String) :=
  [.observe 1, .decide 1 0, .answer 1 0 (some "down")]

theorem loneFailure_fresh :
    fragile.machine.Meets (ClosesAlone fragile) System.New loneFailure ∧
      ∃ system stale after, fragile.aging.run (System.New, fun _ => false) loneFailure =
          some (system, stale) ∧
        system.calls 1 = .ran 0 (some "down") ∧
        fragile.machine.step system (.finish 1 5) = some after ∧
        after.breaker.state ≠ system.breaker.state ∧ stale 1 = false := by
  have alone : fragile.machine.Meets (ClosesAlone fragile) System.New loneFailure :=
    Machine.meets_of_forall_mem (by simp [loneFailure, ClosesAlone]) System.New
  have ends : (fragile.aging.run (System.New, fun _ => false) loneFailure).map
      (fun reached => (reached.1.breaker, reached.1.calls 1)) =
        some ({}, .ran 0 (some "down")) := by decide +kernel
  obtain ⟨⟨system, stale⟩, reached, shape⟩ := Option.map_eq_some_iff.mp ends
  obtain ⟨fresh, ran⟩ : system.breaker = {} ∧ system.calls 1 = .ran 0 (some "down") :=
    Prod.mk.injEq .. ▸ shape
  have finished : fragile.machine.step system (.finish 1 5) =
      some (system.put 1 ⟨.opened, 1, 5, 1⟩ (.returned (.answered 0 (some "down")))) := by
    simp only [CircuitBreakerConfig.machine, CircuitBreakerConfig.step, Move.call, ran, fresh]
    rfl
  have moved : State.opened ≠ system.breaker.state := by simp [fresh]
  exact ⟨alone, system, stale, _, reached, ran, finished, moved,
    stale_outcome_ignored fragile alone reached ran finished (Or.inr moved)⟩

/-- The first call sleeps while the second opens the breaker and the third closes it again. -/
def sleepingCall : List (Move Nat Nat String) :=
  [.observe 1, .decide 1 0,
    .observe 2, .decide 2 0, .answer 2 0 (some "down"), .finish 2 5,
    .observe 3, .decide 3 20, .claim 3, .answer 3 7 none, .finish 3 21,
    .answer 1 0 (some "down")]

/-- The failure of the sleeping call is older than the recovery and opens the breaker. -/
theorem sleepingCall_reopens :
    ((fragile.aging.run (System.New, fun _ => false) sleepingCall).map fun reached =>
        (reached.2 1, reached.1.breaker.state, reached.1.calls 1)) =
      some (true, .closed, .ran 0 (some "down")) ∧
    ((fragile.aging.run (System.New, fun _ => false) (sleepingCall ++ [.finish 1 22])).map
        fun reached => (reached.1.breaker.failures, reached.1.breaker.state)) =
      some (1, .opened) := by
  decide +kernel

end Manglekit.Resilience

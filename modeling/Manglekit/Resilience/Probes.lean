import Manglekit.Resilience.CircuitBreaker

/-!
# One probe at a time

The breaker is half open from the section that claims the probe to the section that records
its outcome.  A call that is turned away after its snapshot never reaches the inner action.
-/

namespace Manglekit.Resilience

open Transition

variable {Call Response Error : Type} [DecidableEq Call]
  {config : CircuitBreakerConfig Error} {system after : System Call Response Error}

def Phase.isProbe : Phase Response Error → Bool
  | .probing | .probed _ _ => true
  | _ => false

@[simp]
theorem isProbe_decide (snapshot : Snapshot) (now : Int) :
    (config.decide snapshot now : Phase Response Error).isProbe = false := by
  unfold CircuitBreakerConfig.decide
  split
  · split <;> rfl
  · rfl
  · rfl

theorem zero_below (positive : 1 ≤ config.failureThreshold) : 0 < config.failureThreshold :=
  UInt64.lt_of_lt_of_le (by decide) positive

structure Sound (config : CircuitBreakerConfig Error)
    (system : System Call Response Error) : Prop where
  halfOpen_iff : system.breaker.state = .halfOpen ↔ ∃ call, (system.calls call).isProbe = true
  unique : ∀ first second, (system.calls first).isProbe = true →
    (system.calls second).isProbe = true → first = second
  below : system.breaker.state = .closed → system.breaker.failures < config.failureThreshold

variable {breaker : CircuitBreaker} {phase : Phase Response Error} {move : Move Call Response Error}
  {call : Call}

namespace Sound

omit [DecidableEq Call] in
theorem new (positive : 1 ≤ config.failureThreshold) :
    Sound config (System.New : System Call Response Error) where
  halfOpen_iff := by simp [System.New, Phase.isProbe]
  unique := by simp [System.New, Phase.isProbe]
  below _ := zero_below positive

theorem put (sound : Sound config system) (sameState : breaker.state = system.breaker.state)
    (below : breaker.state = .closed → breaker.failures < config.failureThreshold)
    (sameProbe : phase.isProbe = (system.calls call).isProbe) :
    Sound config (system.put call breaker phase) := by
  have probes : ∀ other, ((system.put call breaker phase).calls other).isProbe =
      (system.calls other).isProbe := by
    intro other
    by_cases same : other = call
    · rw [same, System.calls_put_self, sameProbe]
    · rw [System.calls_put_of_ne _ same]
  refine ⟨?_, ?_, below⟩
  · simp only [System.breaker_put, sameState, probes, sound.halfOpen_iff]
  · simp only [probes]
    exact sound.unique

theorem put_released (notHalfOpen : breaker.state ≠ .halfOpen)
    (below : breaker.state = .closed → breaker.failures < config.failureThreshold)
    (released : phase.isProbe = false)
    (holder : ∀ other, (system.calls other).isProbe = true → other = call) :
    Sound config (system.put call breaker phase) := by
  have noProbe : ∀ other, ((system.put call breaker phase).calls other).isProbe = false := by
    intro other
    by_cases same : other = call
    · rw [same, System.calls_put_self, released]
    · rw [System.calls_put_of_ne _ same]
      exact eq_false_of_ne_true fun probe => same (holder other probe)
  exact ⟨by simp [notHalfOpen, noProbe], by simp [noProbe], below⟩

theorem put_claimed (sound : Sound config system)
    (halfOpen : breaker.state = .halfOpen) (before : system.breaker.state ≠ .halfOpen)
    (claimed : phase.isProbe = true) : Sound config (system.put call breaker phase) := by
  have holder : ∀ other, ((system.put call breaker phase).calls other).isProbe = true →
      other = call := by
    intro other probe
    by_contra distinct
    rw [System.calls_put_of_ne _ distinct] at probe
    exact before (sound.halfOpen_iff.mpr ⟨other, probe⟩)
  refine ⟨iff_of_true halfOpen ⟨call, ?_⟩, ?_, ?_⟩
  · rw [System.calls_put_self, claimed]
  · intro first second firstProbe secondProbe
    rw [holder first firstProbe, holder second secondProbe]
  · intro closed
    rw [System.breaker_put, halfOpen] at closed
    cases closed

section

variable (sound : Sound config system) (positive : 1 ≤ config.failureThreshold)

include sound positive

theorem finishStandard {response : Response} {err : Option Error} (now : Int)
    (ran : system.calls call = .ran response err) (result : Result Response Error) :
    Sound config (system.put call (config.finishStandard now err system.breaker)
      (.returned result)) := by
  have notProbe : (Phase.returned result).isProbe = (system.calls call).isProbe := by
    rw [ran]
    rfl
  unfold CircuitBreakerConfig.finishStandard
  split_ifs with notClosed succeeded counted reached
  · exact sound.put rfl sound.below notProbe
  · exact sound.put rfl (fun _ => zero_below positive) notProbe
  · refine put_released (by simp) (by simp) rfl fun other probe => ?_
    -- A closed breaker has no probe to release.
    exact absurd (sound.halfOpen_iff.mpr ⟨other, probe⟩) (by simp [not_not.mp notClosed])
  · exact sound.put rfl (fun _ => UInt64.not_le.mp reached) notProbe
  · exact sound.put rfl sound.below notProbe

theorem step (stepped : config.machine.step system move = some after) : Sound config after := by
  cases step_cases stepped with
  | observe starting => exact sound.put rfl sound.below (by rw [starting]; rfl)
  | decide now observed =>
    exact sound.put rfl sound.below (by rw [observed, isProbe_decide]; rfl)
  | restart claiming _ => exact sound.put rfl sound.below (by rw [claiming]; rfl)
  | probe claiming _ opened => exact sound.put_claimed rfl (by simp [opened]) rfl
  | missed claiming _ => exact sound.put rfl sound.below (by rw [claiming]; rfl)
  | answerProbe response err probing =>
    exact sound.put rfl sound.below (by rw [probing]; rfl)
  | answerStandard response err running =>
    exact sound.put rfl sound.below (by rw [running]; rfl)
  | @finishProbe call response err now probed =>
    have holder : ∀ other, (system.calls other).isProbe = true → other = call :=
      fun other probe => sound.unique other call probe (by rw [probed]; rfl)
    unfold CircuitBreakerConfig.finishProbe
    split_ifs
    · exact put_released (by simp) (by simp) rfl holder
    · exact put_released (by simp) (fun _ => zero_below positive) rfl holder
  | finishStandard now ran => exact sound.finishStandard positive now ran _

end

end Sound

/-! ## Calls that are turned away -/

def Phase.entersInner : Phase Response Error → Bool
  | .probing | .running => true
  | _ => false

/-- Notes every call of the inner action, by the call that makes it. -/
def noteInvocation (invoked : List Call) (_ : System Call Response Error)
    (move : Move Call Response Error) (after : System Call Response Error) : List Call :=
  if (after.calls move.call).entersInner then move.call :: invoked else invoked

def CircuitBreakerConfig.invoking (config : CircuitBreakerConfig Error) :
    Machine (System Call Response Error × List Call) (Move Call Response Error) :=
  config.machine.watched noteInvocation

def Phase.pastInner : Phase Response Error → Bool
  | .probing | .probed _ _ | .running | .ran _ _ | .returned (.answered _ _) => true
  | _ => false

/-- A snapshot on which `Execute` returns at once: open within the timeout, or half open. -/
def TurnsAway (config : CircuitBreakerConfig Error) (snapshot : Snapshot) (now : Int) : Prop :=
  (snapshot.state = .opened ∧ since now snapshot.lastOpen ≤ config.resetTimeout) ∨
    snapshot.state = .halfOpen

theorem decide_of_turnsAway {snapshot : Snapshot} {now : Int}
    (away : TurnsAway config snapshot now) :
    (config.decide snapshot now : Phase Response Error) = .returned .circuitOpen := by
  unfold CircuitBreakerConfig.decide
  rcases away with ⟨opened, within⟩ | halfOpen
  · simp [opened, within]
  · simp [halfOpen]

theorem pastInner_of_entersInner (enters : phase.entersInner = true) : phase.pastInner = true := by
  cases phase <;> first | rfl | cases enters

/-- A step moves one call, which has not returned yet and never falls back behind the inner
action. -/
theorem step_call (stepped : config.machine.step system move = some after) :
    (∀ result, system.calls move.call ≠ .returned result) ∧
      ∃ breaker phase, after = system.put move.call breaker phase ∧
        ((system.calls move.call).pastInner = true → phase.pastInner = true) := by
  cases step_cases stepped with
  | observe starting =>
    exact ⟨by simp [Move.call, starting], _, _, rfl, by simp [Move.call, starting, Phase.pastInner]⟩
  | decide now observed =>
    exact ⟨by simp [Move.call, observed], _, _, rfl, by simp [Move.call, observed, Phase.pastInner]⟩
  | restart claiming _ =>
    exact ⟨by simp [Move.call, claiming], _, _, rfl, by simp [Move.call, claiming, Phase.pastInner]⟩
  | probe claiming _ _ => exact ⟨by simp [Move.call, claiming], _, _, rfl, fun _ => rfl⟩
  | missed claiming _ =>
    exact ⟨by simp [Move.call, claiming], _, _, rfl, by simp [Move.call, claiming, Phase.pastInner]⟩
  | answerProbe _ _ probing => exact ⟨by simp [Move.call, probing], _, _, rfl, fun _ => rfl⟩
  | answerStandard _ _ running => exact ⟨by simp [Move.call, running], _, _, rfl, fun _ => rfl⟩
  | finishProbe now probed => exact ⟨by simp [Move.call, probed], _, _, rfl, fun _ => rfl⟩
  | finishStandard now ran => exact ⟨by simp [Move.call, ran], _, _, rfl, fun _ => rfl⟩

def InvokedPast (system : System Call Response Error) (invoked : List Call) : Prop :=
  ∀ call ∈ invoked, (system.calls call).pastInner = true

theorem InvokedPast.step {invoked : List Call} (past : InvokedPast system invoked)
    (stepped : config.machine.step system move = some after) :
    InvokedPast after (noteInvocation invoked system move after) := by
  obtain ⟨_, breaker, phase, rfl, keepsPast⟩ := step_call stepped
  intro call noted
  by_cases same : call = move.call
  · subst same
    rw [System.calls_put_self]
    unfold noteInvocation at noted
    rw [System.calls_put_self] at noted
    split_ifs at noted with enters
    · exact pastInner_of_entersInner enters
    · exact keepsPast (past _ noted)
  · rw [System.calls_put_of_ne _ same]
    refine past call ?_
    unfold noteInvocation at noted
    split_ifs at noted
    · exact (List.mem_cons.mp noted).resolve_left same
    · exact noted

/-- The call was turned away, without the inner action. -/
def TurnedAway (call : Call) (system : System Call Response Error) (invoked : List Call) : Prop :=
  system.calls call = .returned .circuitOpen ∧ call ∉ invoked

theorem TurnedAway.step {invoked : List Call} (away : TurnedAway call system invoked)
    (stepped : config.machine.step system move = some after) :
    TurnedAway call after (noteInvocation invoked system move after) := by
  obtain ⟨unreturned, breaker, phase, rfl, _⟩ := step_call stepped
  have other : call ≠ move.call := by
    rintro rfl
    exact unreturned _ away.1
  refine ⟨by rw [System.calls_put_of_ne _ other, away.1], ?_⟩
  unfold noteInvocation
  split_ifs
  · exact List.not_mem_cons_of_ne_of_not_mem other away.2
  · exact away.2

/-- In every interleaving the breaker is half open exactly while one call holds the probe, no
two calls hold it together, a closed breaker has failed less often than the threshold, and a
call that is turned away on its snapshot has not invoked the inner action and never will. -/
theorem one_probe_in_flight (config : CircuitBreakerConfig Error)
    (positive : 1 ≤ config.failureThreshold) {moves : List (Move Call Response Error)}
    {after : System Call Response Error} {invoked : List Call}
    (reached : config.invoking.run (System.New, []) moves = some (after, invoked)) :
    (after.breaker.state = .halfOpen ↔ ∃! call, (after.calls call).isProbe = true) ∧
      (∀ first second, (after.calls first).isProbe = true →
        (after.calls second).isProbe = true → first = second) ∧
      (after.breaker.state = .closed → after.breaker.failures < config.failureThreshold) ∧
      ∀ call snapshot now later final invokedLater,
        after.calls call = .observed snapshot → TurnsAway config snapshot now →
        config.invoking.run (after, invoked) (.decide call now :: later) =
          some (final, invokedLater) →
        call ∉ invokedLater := by
  have sound : Sound config after :=
    Machine.run_invariant (Sound config) (fun _ _ _ stepped sound => sound.step positive stepped)
      (Machine.run_of_watched reached) (Sound.new positive)
  have past : InvokedPast after invoked :=
    Machine.watched_invariant InvokedPast (fun _ _ _ _ stepped _ past => past.step stepped)
      (Machine.meets_true _ moves) reached (by simp [InvokedPast])
  refine ⟨?_, sound.unique, sound.below, ?_⟩
  · rw [sound.halfOpen_iff]
    refine ⟨fun ⟨call, probe⟩ => ⟨call, probe, fun other holds => ?_⟩, ExistsUnique.exists⟩
    exact sound.unique other call holds probe
  · intro call snapshot now later final invokedLater observed away continued
    obtain ⟨⟨next, noted⟩, decided, remaining⟩ := (Machine.run_cons _).mp continued
    obtain ⟨stepped, rfl⟩ := Machine.step_watched.mp decided
    -- The snapshot has not been followed by an inner call, and now the call has returned.
    have turned : TurnedAway call next (noteInvocation invoked after (.decide call now) next) := by
      have notYet : call ∉ invoked := fun noted => by
        have reachedInner := past call noted
        rw [observed] at reachedInner
        cases reachedInner
      cases step_cases stepped with
      | decide now observedAgain =>
        cases observed.symm.trans observedAgain
        rw [decide_of_turnsAway away]
        simp [TurnedAway, noteInvocation, Move.call, Phase.entersInner, notYet]
    have turnedLater := Machine.watched_invariant (TurnedAway call)
      (fun _ _ _ _ stepped _ away => away.step stepped) (Machine.meets_true _ later) remaining
      turned
    exact turnedLater.2

def fragile : CircuitBreakerConfig String := { failureThreshold := 1, resetTimeout := 10 }

/-- The first call opens the breaker, the second becomes the probe, and the third reads the
breaker while the probe is in flight. -/
def overlappingProbe : List (Move Nat Nat String) :=
  [.observe 1, .decide 1 0, .answer 1 0 (some "down"), .finish 1 5,
    .observe 2, .decide 2 20, .claim 2, .observe 3]

theorem overlappingProbe_single :
    1 ≤ fragile.failureThreshold ∧
      ∃ after invoked, fragile.invoking.run (System.New, []) overlappingProbe =
          some (after, invoked) ∧
        after.breaker.state = .halfOpen ∧ (∃! call, (after.calls call).isProbe = true) ∧
        ∀ later final invokedLater,
          fragile.invoking.run (after, invoked) (.decide 3 21 :: later) =
            some (final, invokedLater) → 3 ∉ invokedLater := by
  have ends : (fragile.invoking.run (System.New, []) overlappingProbe).map
      (fun reached => (reached.1.breaker.state, reached.1.calls 3)) =
        some (.halfOpen, .observed ⟨.halfOpen, 5, 2⟩) := by decide +kernel
  obtain ⟨⟨after, invoked⟩, reached, shape⟩ := Option.map_eq_some_iff.mp ends
  obtain ⟨halfOpen, observed⟩ := Prod.mk.injEq .. ▸ shape
  obtain ⟨exactly, _, _, turnedAway⟩ := one_probe_in_flight fragile (by decide) reached
  refine ⟨by decide, after, invoked, reached, halfOpen, exactly.mp halfOpen, ?_⟩
  intro later final invokedLater
  exact turnedAway 3 _ 21 later final invokedLater observed (Or.inr rfl)

end Manglekit.Resilience

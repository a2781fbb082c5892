import Manglekit.Transition.Machine

/-!
# The circuit breaker

Any number of calls of `Execute` run side by side.  A call works in sections: it reads the
breaker under the read lock, it claims the probe under the write lock, and it records the
outcome of the inner action under the write lock.  Between its sections it reads the clock
and waits for the inner action, whose answers are arbitrary.
-/

namespace Manglekit.Resilience

open Transition

inductive State where
  | closed
  | opened
  | halfOpen
  deriving DecidableEq, Repr

/-- A nil `FailureWhen` counts every error. -/
structure CircuitBreakerConfig (Error : Type) where
  failureThreshold : UInt64
  resetTimeout : Int
  failureWhen : Option (Error → Bool) := none

structure CircuitBreaker where
  state : State := .closed
  failures : UInt64 := 0
  lastOpen : Int := 0
  generation : UInt64 := 0
  deriving DecidableEq, Repr

/-- The difference of two times as `time.Since` reports it, within the range of a duration. -/
def since (now earlier : Int) : Int :=
  max (-9223372036854775808) (min 9223372036854775807 (now - earlier))

/-- What `Execute` returns: an empty envelope with `ErrCircuitOpen`, or the answer of the
inner action. -/
inductive Result (Response Error : Type) where
  | circuitOpen
  | answered (response : Response) (err : Option Error)
  deriving DecidableEq, Repr

structure Snapshot where
  state : State
  lastOpen : Int
  generation : UInt64
  deriving DecidableEq, Repr

inductive Phase (Response Error : Type) where
  | starting
  | observed (snapshot : Snapshot)
  | claiming (generation : UInt64)
  | probing
  | probed (response : Response) (err : Option Error)
  | running
  | ran (response : Response) (err : Option Error)
  | returned (result : Result Response Error)
  deriving DecidableEq, Repr

namespace CircuitBreakerConfig

variable {Response Error : Type} (config : CircuitBreakerConfig Error)

def counts : Option Error → Bool
  | none => false
  | some err =>
    match config.failureWhen with
    | none => true
    | some failureWhen => failureWhen err

/-- `Execute` after its snapshot, up to the next lock or the inner action. -/
def decide (snapshot : Snapshot) (now : Int) : Phase Response Error :=
  match snapshot.state with
  | .opened =>
    if since now snapshot.lastOpen ≤ config.resetTimeout then .returned .circuitOpen
    else .claiming snapshot.generation
  | .halfOpen => .returned .circuitOpen
  | .closed => .running

/-- The section of `runProbe`. -/
def finishProbe (now : Int) (err : Option Error) (breaker : CircuitBreaker) : CircuitBreaker :=
  if config.counts err then
    { breaker with state := .opened, lastOpen := now, generation := breaker.generation + 1 }
  else { breaker with state := .closed, failures := 0, generation := breaker.generation + 1 }

/-- The section of `runStandard`. -/
def finishStandard (now : Int) (err : Option Error) (breaker : CircuitBreaker) :
    CircuitBreaker :=
  if breaker.state ≠ .closed then breaker
  else if err.isNone then { breaker with failures := 0 }
  else if config.counts err then
    if breaker.failures + 1 ≥ config.failureThreshold then
      { state := .opened, failures := breaker.failures + 1, lastOpen := now
        generation := breaker.generation + 1 }
    else { breaker with failures := breaker.failures + 1 }
  else breaker

end CircuitBreakerConfig

def CircuitBreaker.snapshot (breaker : CircuitBreaker) : Snapshot :=
  ⟨breaker.state, breaker.lastOpen, breaker.generation⟩

/-- The section of `Execute` that turns an open breaker half open, for one call alone. -/
def CircuitBreaker.claim {Response Error : Type} (generation : UInt64)
    (breaker : CircuitBreaker) : CircuitBreaker × Phase Response Error :=
  if breaker.generation ≠ generation then (breaker, .starting)
  else if breaker.state = .opened then
    ({ breaker with state := .halfOpen, generation := breaker.generation + 1 }, .probing)
  else (breaker, .returned .circuitOpen)

/-! ## Calls side by side -/

/-- The breaker and every call on it. -/
structure System (Call Response Error : Type) where
  breaker : CircuitBreaker
  calls : Call → Phase Response Error

/-- One step of one call, with what it meets outside the breaker: the time, or the answer of
the inner action. -/
inductive Move (Call Response Error : Type) where
  | observe (call : Call)
  | decide (call : Call) (now : Int)
  | claim (call : Call)
  | answer (call : Call) (response : Response) (err : Option Error)
  | finish (call : Call) (now : Int)

variable {Call Response Error : Type}

def Move.call : Move Call Response Error → Call
  | .observe call | .decide call _ | .claim call | .answer call _ _ | .finish call _ => call

/-- `NewCircuitBreaker`, before its first call. -/
def System.New : System Call Response Error := ⟨{}, fun _ => .starting⟩

variable [DecidableEq Call]

def System.put (system : System Call Response Error) (call : Call) (breaker : CircuitBreaker)
    (phase : Phase Response Error) : System Call Response Error :=
  ⟨breaker, Function.update system.calls call phase⟩

variable (system : System Call Response Error)

section

variable (call : Call) (breaker : CircuitBreaker) (phase : Phase Response Error)

include call breaker phase

@[simp]
theorem System.breaker_put :
    (system.put call breaker phase).breaker = breaker := rfl

@[simp]
theorem System.calls_put_self :
    (system.put call breaker phase).calls call = phase :=
  Function.update_self ..

end

theorem System.calls_put_of_ne {call other : Call}
    (distinct : other ≠ call) (breaker : CircuitBreaker) (phase : Phase Response Error) :
    (system.put call breaker phase).calls other = system.calls other :=
  Function.update_of_ne distinct ..

def CircuitBreakerConfig.step (config : CircuitBreakerConfig Error)
    (system : System Call Response Error) (move : Move Call Response Error) :
    Option (System Call Response Error) :=
  let breaker := system.breaker
  match move, system.calls move.call with
  | .observe call, .starting => some (system.put call breaker (.observed breaker.snapshot))
  | .decide call now, .observed snapshot =>
    some (system.put call breaker (config.decide snapshot now))
  | .claim call, .claiming generation =>
    let (breaker, phase) := breaker.claim generation
    some (system.put call breaker phase)
  | .answer call response err, .probing => some (system.put call breaker (.probed response err))
  | .answer call response err, .running => some (system.put call breaker (.ran response err))
  | .finish call now, .probed response err =>
    some (system.put call (config.finishProbe now err breaker)
      (.returned (.answered response err)))
  | .finish call now, .ran response err =>
    some (system.put call (config.finishStandard now err breaker)
      (.returned (.answered response err)))
  | _, _ => none

/-- The breaker under every interleaving of its calls. -/
def CircuitBreakerConfig.machine (config : CircuitBreakerConfig Error) :
    Machine (System Call Response Error) (Move Call Response Error) where
  step := config.step

inductive Step (config : CircuitBreakerConfig Error) (system : System Call Response Error) :
    Move Call Response Error → System Call Response Error → Prop where
  | observe {call} (starting : system.calls call = .starting) :
      Step config system (.observe call)
        (system.put call system.breaker (.observed system.breaker.snapshot))
  | decide {call snapshot} (now : Int) (observed : system.calls call = .observed snapshot) :
      Step config system (.decide call now)
        (system.put call system.breaker (config.decide snapshot now))
  | restart {call generation} (claiming : system.calls call = .claiming generation)
      (stale : system.breaker.generation ≠ generation) :
      Step config system (.claim call) (system.put call system.breaker .starting)
  | probe {call generation} (claiming : system.calls call = .claiming generation)
      (current : system.breaker.generation = generation)
      (opened : system.breaker.state = .opened) :
      Step config system (.claim call)
        (system.put call { system.breaker with
          state := .halfOpen, generation := system.breaker.generation + 1 } .probing)
  | missed {call generation} (claiming : system.calls call = .claiming generation)
      (notOpened : system.breaker.state ≠ .opened) :
      Step config system (.claim call)
        (system.put call system.breaker (.returned .circuitOpen))
  | answerProbe {call} (response : Response) (err : Option Error)
      (probing : system.calls call = .probing) :
      Step config system (.answer call response err)
        (system.put call system.breaker (.probed response err))
  | answerStandard {call} (response : Response) (err : Option Error)
      (running : system.calls call = .running) :
      Step config system (.answer call response err)
        (system.put call system.breaker (.ran response err))
  | finishProbe {call response err} (now : Int)
      (probed : system.calls call = .probed response err) :
      Step config system (.finish call now)
        (system.put call (config.finishProbe now err system.breaker)
          (.returned (.answered response err)))
  | finishStandard {call response err} (now : Int)
      (ran : system.calls call = .ran response err) :
      Step config system (.finish call now)
        (system.put call (config.finishStandard now err system.breaker)
          (.returned (.answered response err)))

theorem step_cases {config : CircuitBreakerConfig Error}
    {system after : System Call Response Error} {move : Move Call Response Error}
    (stepped : config.machine.step system move = some after) : Step config system move after := by
  simp only [CircuitBreakerConfig.machine, CircuitBreakerConfig.step] at stepped
  split at stepped
  case h_3 call generation claiming =>
      simp only [CircuitBreaker.claim] at stepped
      split_ifs at stepped with stale opened <;> cases stepped
      · exact .restart claiming stale
      · exact .probe claiming (not_not.mp stale) opened
      · exact .missed claiming opened
  case h_8 => cases stepped
  all_goals cases stepped
  · exact .observe ‹_›
  · exact .decide _ ‹_›
  · exact .answerProbe _ _ ‹_›
  · exact .answerStandard _ _ ‹_›
  · exact .finishProbe _ ‹_›
  · exact .finishStandard _ ‹_›

end Manglekit.Resilience

import Mathlib.Data.List.Basic

/-!
# Observers that cannot tell two states apart

A computation that is put together from some operations inherits what the operations
guarantee.  Two guarantees matter here: from states that an observer cannot tell
apart, the computation ends alike; and it leads to a state that the observer cannot
tell from the one before.

If the calls that an observer sees do the former and all other calls the latter, then
the other calls can be removed from a history without the observer noticing.
-/

namespace Effects

/-! ## Confinement -/

section Confinement

variable {m : Type → Type} [Monad m] {Result Other : Type}

/-- The computation is put together from operations of one kind, and its results have
the property. -/
inductive Yields (operation : (Result : Type) → m Result → Prop) :
    {Result : Type} → m Result → (Result → Prop) → Prop where
  | operation {Result : Type} {computation : m Result} :
      operation Result computation → Yields operation computation fun _ => True
  | pure {Result : Type} {property : Result → Prop} (result : Result) :
      property result → Yields operation (pure result) property
  | bind {Result Other : Type} {first : m Result} {next : Result → m Other}
      {between : Result → Prop} {property : Other → Prop} :
      Yields operation first between →
      (∀ result, between result → Yields operation (next result) property) →
      Yields operation (first >>= next) property

def Confined (operation : (Result : Type) → m Result → Prop) (computation : m Result) : Prop :=
  Yields operation computation fun _ => True

variable {operations : (Result : Type) → m Result → Prop} {computation : m Result}

namespace Confined

theorem operation (member : operations Result computation) :
    Confined operations computation := Yields.operation member

theorem pure (result : Result) : Confined operations (Pure.pure result) :=
  Yields.pure result trivial

theorem bind {first : m Result} {next : Result → m Other} (confined : Confined operations first)
    (continues : ∀ result, Confined operations (next result)) :
    Confined operations (first >>= next) :=
  Yields.bind confined fun result _ => continues result

end Confined

structure Compositional (holds : (Result : Type) → m Result → Prop) : Prop where
  pure : ∀ {Result : Type} (result : Result), holds Result (pure result)
  bind : ∀ {Result Other : Type} {first : m Result} {next : Result → m Other},
    holds Result first → (∀ result, holds Other (next result)) → holds Other (first >>= next)

theorem compositional_confined :
    Compositional fun Result (computation : m Result) => Confined operations computation :=
  ⟨.pure, .bind⟩

theorem Yields.confined {property : Result → Prop}
    (yields : Yields operations computation property) : Confined operations computation := by
  induction yields with
  | operation member => exact .operation member
  | pure result _ => exact .pure result
  | bind first _ _ nextHypothesis => exact Yields.bind first nextHypothesis

theorem Yields.imp {property weaker : Result → Prop}
    (yields : Yields operations computation property)
    (implies : ∀ result, property result → weaker result) :
    Yields operations computation weaker := by
  induction yields with
  | operation member =>
    rw [funext fun result => eq_true (implies result trivial)]
    exact .operation member
  | pure result holds => exact .pure result (implies result holds)
  | bind first _ _ nextHypothesis =>
    exact .bind first fun result holds => nextHypothesis result holds implies

end Confinement

/-! ## Computations on a state -/

section Computations

variable {Fault State Result Other : Type}

abbrev Stateful (Fault State : Type) := ExceptT Fault (StateM State)

def runFrom (computation : Stateful Fault State Result) (state : State) :
    Except Fault Result × State :=
  (computation.run.run state).run

@[simp]
theorem runFrom_pure (result : Result) (state : State) :
    runFrom (pure result : Stateful Fault State Result) state = (.ok result, state) := rfl

@[simp]
theorem runFrom_throw (fault : Fault) (state : State) :
    runFrom (throw fault : Stateful Fault State Result) state = (.error fault, state) := rfl

theorem runFrom_bind (first : Stateful Fault State Result)
    (next : Result → Stateful Fault State Other) (state : State) :
    runFrom (first >>= next) state =
      match runFrom first state with
      | (.ok result, after) => runFrom (next result) after
      | (.error fault, after) => (.error fault, after) := by
  have continued : runFrom (first >>= next) state =
      runFrom (ExceptT.mk (ExceptT.bindCont next (runFrom first state).1))
        (runFrom first state).2 := rfl
  rw [continued]
  rcases runFrom first state with ⟨fault | result, after⟩ <;> rfl

variable {first : Stateful Fault State Result}

theorem runFrom_bind_ok
    {next : Result → Stateful Fault State Other} {state after : State} {other : Other}
    (ended : runFrom (first >>= next) state = (.ok other, after)) :
    ∃ result reached, runFrom first state = (.ok result, reached) ∧
      runFrom (next result) reached = (.ok other, after) := by
  rw [runFrom_bind] at ended
  rcases began : runFrom first state with ⟨fault | result, reached⟩
  · simp [began] at ended
  · rw [began] at ended
    exact ⟨result, reached, rfl, ended⟩

theorem after_bind {next : Result → Stateful Fault State Other}
    (reads : ∀ result state, (runFrom (next result) state).2 = state) (state : State) :
    (runFrom (first >>= next) state).2 = (runFrom first state).2 := by
  rw [runFrom_bind]
  rcases runFrom first state with ⟨fault | result, after⟩
  · rfl
  · exact reads result after

/-- The property holds of the state in which the computation ends, however it ends. -/
def EndsIn (property : State → Prop) (computation : Stateful Fault State Result)
    (state : State) : Prop :=
  property (runFrom computation state).2

/-- What holds of the state before the computation holds of the state after it. -/
def Keeps (property : State → Prop) (computation : Stateful Fault State Result) : Prop :=
  ∀ state, property state → EndsIn property computation state

theorem keeps_pure (property : State → Prop) (result : Result) :
    Keeps property (pure result : Stateful Fault State Result) :=
  fun _ holds => holds

theorem keeps_throw (property : State → Prop) (fault : Fault) :
    Keeps property (throw fault : Stateful Fault State Result) :=
  fun _ holds => holds

theorem EndsIn.bind {property : State → Prop}
    {next : Result → Stateful Fault State Other} {state : State}
    (ends : EndsIn property first state) (continues : ∀ result, Keeps property (next result)) :
    EndsIn property (first >>= next) state := by
  unfold EndsIn at ends ⊢
  rw [runFrom_bind]
  rcases ended : runFrom first state with ⟨fault | result, after⟩
  · rwa [ended] at ends
  · rw [ended] at ends
    exact continues result after ends

variable (relation : State → State → Prop)

def Agrees (computation : Stateful Fault State Result) (first second : State) : Prop :=
  (runFrom computation first).1 = (runFrom computation second).1 ∧
    relation (runFrom computation first).2 (runFrom computation second).2

def Leaves (computation : Stateful Fault State Result) (state : State) : Prop :=
  relation state (runFrom computation state).2

variable {relation}

theorem Agrees.bind {next : Result → Stateful Fault State Other} {state other : State}
    (agrees : Agrees relation first state other)
    (continues : ∀ result after otherAfter, runFrom first state = (.ok result, after) →
      runFrom first other = (.ok result, otherAfter) → relation after otherAfter →
      Agrees relation (next result) after otherAfter) :
    Agrees relation (first >>= next) state other := by
  unfold Agrees at agrees ⊢
  rw [runFrom_bind, runFrom_bind]
  rcases ended : runFrom first state with ⟨outcome, after⟩
  rcases otherEnded : runFrom first other with ⟨otherOutcome, otherAfter⟩
  rw [ended, otherEnded] at agrees
  obtain ⟨rfl, related⟩ := agrees
  cases outcome with
  | error fault => exact ⟨rfl, related⟩
  | ok result => exact continues result after otherAfter ended otherEnded related

variable {operation : (Result : Type) → Stateful Fault State Result → Prop}
  {computation : Stateful Fault State Result} {property : Result → Prop}

theorem Yields.result (yields : Yields operation computation property) {state after : State}
    {result : Result} (ended : runFrom computation state = (.ok result, after)) :
    property result := by
  induction yields generalizing state after with
  | operation _ => trivial
  | pure returned holds =>
    cases ended
    exact holds
  | @bind _ _ first next _ _ _ _ firstHypothesis nextHypothesis =>
    obtain ⟨between, reached, began, continued⟩ := runFrom_bind_ok ended
    exact nextHypothesis between (firstHypothesis began) continued

/-- What all operations agree on, every computation that is put together from them
agrees on. -/
theorem Yields.agrees
    (operations : ∀ Result computation, operation Result computation →
      ∀ state other, relation state other → Agrees relation computation state other)
    (yields : Yields operation computation property) {state other : State}
    (related : relation state other) : Agrees relation computation state other := by
  induction yields generalizing state other with
  | operation member => exact operations _ _ member state other related
  | pure result => exact ⟨rfl, related⟩
  | bind first _ firstHypothesis nextHypothesis =>
    exact (firstHypothesis related).bind fun result _ _ ended _ after =>
      nextHypothesis result (first.result ended) after

section Transitive

variable (symmetric : ∀ ⦃state other⦄, relation state other → relation other state)
  (transitive : ∀ ⦃state other third⦄, relation state other → relation other third →
    relation state third)

include transitive in
theorem Leaves.bind {next : Result → Stateful Fault State Other} {state : State}
    (leaves : Leaves relation first state)
    (continues : ∀ result after, runFrom first state = (.ok result, after) →
      relation state after → Leaves relation (next result) after) :
    Leaves relation (first >>= next) state := by
  unfold Leaves at leaves ⊢
  rw [runFrom_bind]
  rcases ended : runFrom first state with ⟨outcome, after⟩
  rw [ended] at leaves
  cases outcome with
  | error fault => exact leaves
  | ok result => exact transitive leaves (continues result after ended leaves)

include symmetric transitive in
/-- What no operation disturbs, no computation that is put together from them disturbs.
The relation need only be reflexive where a computation starts. -/
theorem Yields.leaves
    (operations : ∀ Result computation, operation Result computation →
      ∀ state, relation state state → Leaves relation computation state)
    (yields : Yields operation computation property) {state : State}
    (related : relation state state) : Leaves relation computation state := by
  induction yields generalizing state with
  | operation member => exact operations _ _ member state related
  | pure result => exact related
  | bind first _ firstHypothesis nextHypothesis =>
    refine Leaves.bind transitive (firstHypothesis related) fun result after ended reached => ?_
    exact nextHypothesis result (first.result ended) (transitive (symmetric reached) reached)

end Transitive

end Computations

/-! ## Histories of calls -/

section Histories

variable {Call Outcome State : Type} (perform : Call → State → Outcome × State)

def outcomes : List Call → State → List Outcome
  | [], _ => []
  | call :: rest, state => (perform call state).1 :: outcomes rest (perform call state).2

variable (visible : Call → Bool)

def observed : List Call → State → List Outcome
  | [], _ => []
  | call :: rest, state =>
    let after := observed rest (perform call state).2
    if visible call then (perform call state).1 :: after else after

variable (allowed : State → Call → Bool)

def allowedAlong : List Call → State → Bool
  | [], _ => true
  | call :: rest, state => allowed state call && allowedAlong rest (perform call state).2

/-- Calls that are visible agree on what an observer cannot tell apart, and allowed
calls that are not visible change nothing that the observer could tell. -/
structure Unwinding (relation : State → State → Prop) : Prop where
  symmetric : ∀ ⦃state other⦄, relation state other → relation other state
  transitive : ∀ ⦃state other third⦄, relation state other → relation other third →
    relation state third
  agrees : ∀ call state other, visible call = true → allowed state call = true →
    relation state other → (perform call state).1 = (perform call other).1 ∧
      relation (perform call state).2 (perform call other).2
  leaves : ∀ call state, visible call = false → allowed state call = true →
    relation state state → relation state (perform call state).2

variable {perform visible allowed} {relation : State → State → Prop}

theorem Unwinding.observed_eq (unwinding : Unwinding perform visible allowed relation)
    {history : List Call} {state other : State} (related : relation state other)
    (along : allowedAlong perform allowed history state = true) :
    observed perform visible history state = outcomes perform (history.filter visible) other := by
  induction history generalizing state other with
  | nil => rfl
  | cons call rest ih =>
    simp only [allowedAlong, Bool.and_eq_true] at along
    cases seen : visible call with
    | true =>
      obtain ⟨same, after⟩ := unwinding.agrees call state other seen along.1 related
      simp only [observed, seen, if_true, List.filter_cons_of_pos, outcomes, same]
      rw [ih after along.2]
    | false =>
      have before := unwinding.transitive related (unwinding.symmetric related)
      have after := unwinding.leaves call state seen along.1 before
      simp only [observed, seen, Bool.false_eq_true, if_false, not_false_eq_true,
        List.filter_cons_of_neg]
      exact ih (unwinding.transitive (unwinding.symmetric after) related) along.2

end Histories

end Effects

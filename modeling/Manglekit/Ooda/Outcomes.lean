import Manglekit.Ooda.Loops

/-!
# How the act phase ends

A part of a loop returns, with or without an error, or it panics.  The act phase panics where the
result of an execution cannot be recorded: it is filed under the name of the action, which a
decision need not have.
-/

namespace Manglekit.Ooda

open Core Effects Loop

variable {World East : Type}

/-! ## The runs of a part -/

variable {panic : Panic}

section Runs

variable {Answer Other : Type} {part : Loop World East Answer} {run after : Run World East}
  {next : Answer → Loop World East Other}

def ran (part : Loop World East Answer) (run : Run World East) :
    Except Panic (Except GoError Answer) × Run World East :=
  runFrom part.run run

theorem ran_bind_ok {answer : Answer} (ended : ran part run = (.ok (.ok answer), after)) :
    ran (part >>= next) run = ran (next answer) after := by
  unfold ran at *
  rw [ExceptT.run_bind, runFrom_bind, ended]

theorem ran_bind_error {err : GoError} (ended : ran part run = (.ok (.error err), after)) :
    ran (part >>= next) run = (.ok (.error err), after) := by
  unfold ran at *
  rw [ExceptT.run_bind, runFrom_bind, ended]
  rfl

theorem ran_bind_panic (ended : ran part run = (.error panic, after)) :
    ran (part >>= next) run = (.error panic, after) := by
  unfold ran at *
  rw [ExceptT.run_bind, runFrom_bind, ended]

theorem ran_attempt_ok {ended : Except GoError Answer} (ends : ran part run = (.ok ended, after)) :
    ran (attempt part) run = (.ok (.ok ended), after) := by
  unfold ran at *
  rw [attempt, ExceptT.run_lift, ← bind_pure_comp, runFrom_bind, ends]
  rfl

theorem ran_attempt_panic (ended : ran part run = (.error panic, after)) :
    ran (attempt part) run = (.error panic, after) := by
  unfold ran at *
  rw [attempt, ExceptT.run_lift, ← bind_pure_comp, runFrom_bind, ended]

variable {message : String}

theorem ran_within_ok {answer : Answer} (ended : ran part run = (.ok (.ok answer), after)) :
    ran (within message part) run = (.ok (.ok answer), after) :=
  ran_bind_ok (ran_attempt_ok ended)

theorem ran_within_error {err : GoError} (ended : ran part run = (.ok (.error err), after)) :
    ran (within message part) run = (.ok (.error (.wrap message err)), after) :=
  ran_bind_ok (ran_attempt_ok ended)

theorem ran_within_panic (ended : ran part run = (.error panic, after)) :
    ran (within message part) run = (.error panic, after) :=
  ran_bind_panic (ran_attempt_panic ended)

end Runs

def Returns {Answer : Type} (part : Loop World East Answer) (run : Run World East) : Prop :=
  ∃ ended after, ran part run = (.ok ended, after)

section Returning

variable {Answer Other : Type} {part : Loop World East Answer} {run after : Run World East}
  {next : Answer → Loop World East Other}

theorem returns_readFrame_bind {next : CognitiveFrame East → Loop World East Answer} :
    Returns (readFrame >>= next) run ↔ Returns (next run.frame) run := Iff.rfl

theorem returns_update_bind {change : CognitiveFrame East → CognitiveFrame East}
    {next : Unit → Loop World East Answer} :
    Returns (update change >>= next) run ↔
      Returns (next ()) { run with frame := change run.frame } := Iff.rfl

theorem not_returns (ended : ran part run = (.error panic, after)) : ¬ Returns part run := by
  rintro ⟨_, _, returned⟩
  rw [ended] at returned
  cases returned

theorem returns_bind_iff :
    Returns (part >>= next) run ↔ Returns part run ∧
      ∀ answer after, ran part run = (.ok (.ok answer), after) → Returns (next answer) after := by
  rcases ended : ran part run with ⟨panic | err | answer, after⟩
  · exact iff_of_false (not_returns (ran_bind_panic ended)) fun both => not_returns ended both.1
  · exact iff_of_true ⟨_, _, ran_bind_error ended⟩ ⟨⟨_, _, ended⟩, by simp⟩
  · simp only [Returns, ran_bind_ok ended, ended, Prod.mk.injEq, Except.ok.injEq]
    simp

theorem ran_attempt_eq_ok_iff {ended : Except GoError Answer} :
    ran (attempt part) run = (.ok (.ok ended), after) ↔ ran part run = (.ok ended, after) := by
  rcases ends : ran part run with ⟨panic | other, reached⟩
  · simp [ran_attempt_panic ends]
  · simp [ran_attempt_ok ends]

theorem returns_within_iff {message : String} :
    Returns (within message part) run ↔ Returns part run := by
  rcases ended : ran part run with ⟨panic | err | answer, after⟩
  · exact iff_of_false (not_returns (ran_within_panic ended)) (not_returns ended)
  · exact iff_of_true ⟨_, _, ran_within_error ended⟩ ⟨_, _, ended⟩
  · exact iff_of_true ⟨_, _, ran_within_ok ended⟩ ⟨_, _, ended⟩

theorem ran_within_eq_ok_iff {message : String} {answer : Answer} :
    ran (within message part) run = (.ok (.ok answer), after) ↔
      ran part run = (.ok (.ok answer), after) := by
  rcases ended : ran part run with ⟨panic | err | other, reached⟩
  · simp [ran_within_panic ended]
  · simp [ran_within_error ended]
  · simp [ran_within_ok ended]

theorem returns_attempt_iff : Returns (attempt part) run ↔ Returns part run := by
  rcases ended : ran part run with ⟨panic | ends, after⟩
  · exact iff_of_false (not_returns (ran_attempt_panic ended)) (not_returns ended)
  · exact iff_of_true ⟨_, _, ran_attempt_ok ended⟩ ⟨_, _, ended⟩

end Returning

variable (components : Components World East)

/-! ## Recording a result -/

def acting (run : Run World East) : Run World East :=
  { run with frame := { run.frame with phase := .act } }

def Executed (run : Run World East) (result : Option Value) (after : Run World East) : Prop :=
  ∃ decision, run.frame.decision = some decision ∧
    ran (executeAction components decision) (acting run) = (.ok (.ok result), after)

/-- There is an action to file the result under, if the result goes to a session. -/
def Fileable (result : Option Value) (after : Run World East) : Prop :=
  components.transientStore.isSome → result.isSome → after.frame.sessionID ≠ "" →
    (after.frame.decision.bind (·.action)).isSome

variable {components}

theorem returns_commitResult_iff (result : Option Value) (run : Run World East) :
    Returns (commitResult components result) run ↔ Fileable components result run := by
  rw [commitResult, returns_readFrame_bind]
  cases stored : components.transientStore with
  | none => exact iff_of_true ⟨.ok (), run, rfl⟩ (by simp [Fileable, stored])
  | some store =>
    cases result with
    | none => exact iff_of_true ⟨.ok (), run, rfl⟩ (by simp [Fileable])
    | some value =>
      by_cases unnamed : run.frame.sessionID = ""
      · simp only [unnamed, if_true]
        exact iff_of_true ⟨.ok (), run, rfl⟩ (by simp [Fileable, unnamed])
      · simp only [unnamed, if_false]
        cases filed : run.frame.decision.bind (·.action) with
        | none =>
          exact iff_of_false (not_returns rfl) (by simp [Fileable, stored, unnamed, filed])
        | some action =>
          exact iff_of_true ⟨.ok (), _, rfl⟩ (by simp [Fileable, filed])

theorem returns_dispatch (dispatcher : Dispatcher World) (actionName : String)
    (args : StringMap Value) (run : Run World East) :
    Returns (dispatch dispatcher actionName args) run := by
  unfold dispatch
  split
  · refine returns_bind_iff.mpr ⟨⟨_, _, rfl⟩, fun answer after _ => ?_⟩
    cases answer <;> exact ⟨_, _, rfl⟩
  · exact ⟨_, _, rfl⟩

theorem returns_executeAction (decision : Decision) (run : Run World East) :
    Returns (executeAction components decision) run := by
  unfold executeAction
  split
  · refine returns_bind_iff.mpr ⟨⟨_, _, rfl⟩, fun _ _ _ => returns_bind_iff.mpr
      ⟨returns_attempt_iff.mpr (returns_dispatch _ _ _ _), fun answer after _ => ?_⟩⟩
    cases answer <;> exact ⟨_, _, rfl⟩
  · refine returns_bind_iff.mpr ⟨⟨_, _, rfl⟩, fun _ _ _ => returns_bind_iff.mpr
      ⟨⟨_, _, rfl⟩, fun answer after _ => ?_⟩⟩
    cases answer <;> exact ⟨_, _, rfl⟩
  · exact ⟨_, _, rfl⟩
  · exact ⟨_, _, rfl⟩

/-- The result of an execution, if there is one, can be recorded. -/
def Recordable (components : Components World East) (run : Run World East) : Prop :=
  ∀ result after, Executed components run result after → Fileable components result after

theorem returns_act_iff (run : Run World East) :
    Returns (act components) run ↔ Recordable components run := by
  have sameDecision : (acting run).frame.decision = run.frame.decision := rfl
  rw [act, enter, returns_update_bind, returns_readFrame_bind]
  change Returns _ (acting run) ↔ _
  rw [Recordable]
  unfold Executed
  rw [← sameDecision]
  generalize acting run = started
  cases decided : started.frame.decision with
  | none => exact iff_of_true ⟨_, _, rfl⟩ (by simp)
  | some decision =>
    rw [returns_bind_iff]
    simp only [returns_update_bind, returns_within_iff, ran_within_eq_ok_iff,
      returns_commitResult_iff, returns_executeAction, true_and]
    constructor
    · rintro files result after ⟨_, same, executed⟩
      cases same
      exact files result after executed
    · exact fun files result after executed => files result after ⟨_, rfl, executed⟩

theorem returns_rollback (run : Run World East) : Returns (rollback components) run := by
  rw [rollback, returns_readFrame_bind]
  split <;> exact ⟨_, _, rfl⟩

/-! ## The retry drivers -/

def counting (retryCount : Int) (run : Run World East) : Run World East :=
  { run with frame := { run.frame with retryCount } }

variable (components) in
/-- The states in which an attempt to act starts. -/
inductive Attempted (ctx : Context) : (remaining attempted : Nat) → (run started : Run World East) →
    Prop
  | here {remaining attempted : Nat} {run : Run World East}
      (waits : (if attempted = 0 then none else ctx.err (.backoff attempted)) = none) :
      Attempted ctx (remaining + 1) attempted run (counting attempted run)
  | later {remaining attempted : Nat} {run failed rolled started : Run World East} {err : GoError}
      (waits : (if attempted = 0 then none else ctx.err (.backoff attempted)) = none)
      (fails : ran (act components) (counting attempted run) = (.ok (.error err), failed))
      (rolls : ran (rollback components) failed = (.ok (.ok ()), rolled))
      (starts : Attempted ctx remaining (attempted + 1) rolled started) :
      Attempted ctx (remaining + 1) attempted run started

theorem returns_retrying_iff (ctx : Context) (remaining attempted : Nat) (lastErr : Option GoError)
    (run : Run World East) :
    Returns (retrying components ctx remaining attempted lastErr) run ↔
      ∀ started, Attempted components ctx remaining attempted run started →
        Recordable components started := by
  induction remaining generalizing attempted lastErr run with
  | zero =>
    refine iff_of_true ?_ (fun _ starts => nomatch starts)
    cases lastErr <;> exact ⟨_, _, rfl⟩
  | succ remaining ih =>
    rw [retrying, returns_update_bind]
    cases waits : if attempted = 0 then none else ctx.err (.backoff attempted) with
    | some err =>
      refine iff_of_true ⟨_, _, rfl⟩ fun started starts => ?_
      cases starts <;> simp_all
    | none =>
      dsimp only
      rw [returns_bind_iff, returns_attempt_iff, returns_act_iff]
      simp only [ran_attempt_eq_ok_iff]
      constructor
      · rintro ⟨recordable, continues⟩ started starts
        cases starts with
        | here => exact recordable
        | later _ fails rolls starts =>
          have retries := (returns_bind_iff.mp (continues _ _ fails)).2 () _ rolls
          exact (ih _ _ _).mp retries started starts
      · intro recordable
        refine ⟨recordable _ (.here waits), fun answer failed fails => ?_⟩
        cases answer with
        | ok _ => exact ⟨_, _, rfl⟩
        | error err =>
          refine returns_bind_iff.mpr ⟨returns_rollback _, fun _ rolled rolls => ?_⟩
          exact (ih _ _ _).mpr fun started starts =>
            recordable started (.later waits fails rolls starts)

/-- Acting, alone or with retries, returns if and only if what is executed can be recorded. -/
theorem acting_returns_iff (components : Components World East) (ctx : Context)
    (run : Run World East) :
    (Returns (act components) run ↔ Recordable components run) ∧
      (Returns (actWithRetry components ctx) run ↔
        ∀ started, Attempted components ctx (run.frame.maxRetries + 1).toNat 0 run started →
          Recordable components started) ∧
      (Returns (actWithSimpleRetry components ctx) run ↔
        ∀ started, Attempted components ctx (simpleRetries run.frame + 1).toNat 0 run started →
          Recordable components started) :=
  ⟨returns_act_iff run, returns_retrying_iff ctx _ 0 none run,
    returns_retrying_iff ctx _ 0 none run⟩

/-- A frame in a session with a decision that names no action, an executor and a store. -/
def sessionFrame : Run Unit Unit :=
  ⟨{ sessionID := "s1", decision := some { outcome := "PROCEED" }, east := () }, (), []⟩

def recordingComponents : Components Unit Unit where
  executor := some
    { execute := fun _ frame world => (.ok (some (.string "done")), frame, world)
      rollback := fun _ frame world => (none, frame, world) }
  transientStore := some
    { toAtoms := fun _ world => (.ok [], world), put := fun _ _ _ world => (none, world) }

theorem actionless_result_panics :
    ¬ Returns (act recordingComponents) sessionFrame ∧
      ¬ Returns (actWithRetry recordingComponents {}) sessionFrame :=
  ⟨not_returns rfl, not_returns rfl⟩

end Manglekit.Ooda

import Manglekit.Engine.History
import Manglekit.Engine.Reference

/-!
# The facts that a query sees

A query evaluates the current program over the base facts and the facts of the
request.  The base facts hold whatever earlier evaluations derived, so they are
compared here with what the current program derives from the explicitly loaded
facts.
-/

namespace Manglekit.Engine

open Core Datalog

section Visibility

variable {Key : Type} [DecidableEq Key] (mangle : Mangle Key)

def Visible (runtime : MangleRuntime Key) (ctx : Context) (facts : List Datalog.Atom)
    (options : EvalOptions) (store : Store) : Prop :=
  ((evaluatedWorkingStore mangle ctx facts options).exec runtime).1 = .ok (.ok store)

variable {mangle} {runtime : MangleRuntime Key} {ctx : Context} {facts : List Datalog.Atom}
  {options : EvalOptions} {store : Store} {program : Program}

theorem exec_evaluateMiss {base : Store} {key : Option Key} :
    (evaluateMiss mangle ctx facts options program base key).exec runtime =
      match ctx.err .workingStore with
      | some err => (.ok (.error err), runtime)
      | none =>
        match evalStratifiedWithContext mangle ctx program (base.addAll facts) options
            runtime.evalTimeout with
        | (_, some err) => (.ok (.error (.wrap "evaluation failed" err)), runtime)
        | (evaluated, none) =>
          match key with
          | none => (.ok (.ok evaluated), runtime)
          | some key =>
            (if runtime.idbCache.isSome then .ok (.ok evaluated) else .error .nilMapWrite,
              { runtime with
                idbCache := runtime.idbCache.map (insertEntry key evaluated) }) := by
  simp only [evaluateMiss]
  cases ctx.err .workingStore with
  | some err => rfl
  | none =>
    simp only [readTimeout, Atomic.Process.bind_eq, Atomic.Process.atomically_bind,
      Atomic.Process.exec_step]
    rcases evalStratifiedWithContext mangle ctx program (base.addAll facts) options
      runtime.evalTimeout with ⟨evaluated, _ | err⟩
    · cases key with
      | none => rfl
      | some key =>
        simp only [cacheInsert, Atomic.Process.bind_eq, Atomic.Process.atomically_bind,
          Atomic.Process.step_bind, Atomic.Process.exec_step]
        cases runtime.idbCache <;> rfl
    · rfl

theorem evaluation_of_miss {base : Store} {key : Option Key}
    (answered : ((evaluateMiss mangle ctx facts options program base key).exec runtime).1 =
      .ok (.ok store)) :
    evalStratifiedWithContext mangle ctx program (base.addAll facts) options
      runtime.evalTimeout = (store, none) := by
  rw [exec_evaluateMiss] at answered
  split at answered
  · cases answered
  · split at answered
    · cases answered
    next evaluated evaluation =>
      rw [evaluation]
      split at answered
      · cases answered
        rfl
      · split_ifs at answered
        cases answered
        rfl

theorem exec_evaluatedWorkingStore :
    (evaluatedWorkingStore mangle ctx facts options).exec runtime =
      match storeSnapshotBody mangle facts runtime with
      | (.notReady, after) => (.ok (.error (.text "runtime not initialized")), after)
      | (.hit store, after) => (.ok (.ok store), after)
      | (.miss program base key, after) =>
        (evaluateMiss mangle ctx facts options program base key).exec after := by
  simp only [evaluatedWorkingStore, storeSnapshot, Atomic.Process.bind_eq,
    Atomic.Process.atomically_bind, Atomic.Process.exec_step]
  rcases storeSnapshotBody mangle facts runtime with ⟨snapshot, after⟩
  cases snapshot <;> rfl

variable (mangle facts) in
theorem storeSnapshotBody_uncached (active : runtime.program = some program)
    (uncached : runtime.idbCache = none) :
    ∃ key after, storeSnapshotBody mangle facts runtime =
        (.miss program runtime.baseFactStore key, after) ∧
      after.evalTimeout = runtime.evalTimeout := by
  simp only [storeSnapshotBody, active, uncached, Option.getD_none, List.lookup_nil]
  split <;> exact ⟨_, _, rfl, rfl⟩

theorem visible_uncached (uncached : runtime.idbCache = none)
    (visible : Visible mangle runtime ctx facts options store) :
    ∃ program, runtime.program = some program ∧
      evalStratifiedWithContext mangle ctx program (runtime.baseFactStore.addAll facts) options
        runtime.evalTimeout = (store, none) := by
  rw [Visible, exec_evaluatedWorkingStore] at visible
  cases active : runtime.program with
  | none => simp [storeSnapshotBody, active] at visible
  | some program =>
    obtain ⟨key, after, missed, timeout⟩ := storeSnapshotBody_uncached mangle facts active uncached
    rw [missed] at visible
    exact ⟨program, rfl, timeout ▸ evaluation_of_miss visible⟩

end Visibility

/-! ## A negated premise that becomes false -/

theorem reference_evaluatesTo :
    Reference.mangle.EvaluatesTo fun program _ => Reference.meaning program :=
  fun program options ctx timeout store result =>
    @Reference.eval_perfect program options ctx timeout store result

/-- After a history: what a query sees, and what the program derives from the
explicit facts alone. -/
structure Observation where
  runtime : MangleRuntime Reference.Key
  program : Program
  visible : Store
  model : Store

def observe (history : List PolicyUpdate) : Option Observation := do
  let runtime ← performAll Reference.mangle {} history
  let program ← runtime.program
  match ((evaluatedWorkingStore Reference.mangle {} [] {}).exec runtime).1,
      Reference.eval program {} {} 0 runtime.explicitFactStore with
  | .ok (.ok visible), (model, none) => some { runtime, program, visible, model }
  | _, _ => none

theorem observe_spec {history : List PolicyUpdate} {seen : Observation}
    (observed : observe history = some seen) :
    performAll Reference.mangle {} history = some seen.runtime ∧
      seen.runtime.program = some seen.program ∧
      Visible Reference.mangle seen.runtime {} [] {} seen.visible ∧
      seen.model.toSet =
        (Reference.meaning seen.program).perfect (Loaded Reference.mangle history) := by
  simp only [observe, Option.bind_eq_bind, Option.bind_eq_some_iff] at observed
  obtain ⟨runtime, reached, program, active, observed⟩ := observed
  split at observed
  next visible model answered evaluation =>
    cases observed
    have records := records_of_performAll reference_evaluatesTo .default reached
    rw [← records.explicit]
    exact ⟨reached, active, answered, Reference.eval_perfect evaluation⟩
  · cases observed

/-- The second fact withdraws what the first one derives. -/
def withdrawnHistory : List PolicyUpdate :=
  [.reload {} "r(\"x\") :- e(\"x\"), !f(\"x\").", .loadFacts {} ["e(\"x\")"],
    .loadFacts {} ["f(\"x\")"]]

end Manglekit.Engine

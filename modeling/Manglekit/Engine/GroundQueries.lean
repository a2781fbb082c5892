import Manglekit.Engine.CacheTransparency

/-!
# Boolean queries and queries for solutions

The same atom without variables can be looked up, or asked for its solutions.  The two
read one and the same store if it is cached, and else each evaluates its own: the lookup
without options, the other with those of the runtime.  A callback, a temporal store, an
evaluation time or a limit can therefore tell them apart.
-/

namespace Manglekit.Engine

open Core Datalog Atomic

/-! ## Queries without variables -/

theorem unifyArgs_closed {queryArgs args : List Term}
    (closed : queryArgs.flatMap Term.vars = []) (sameLength : queryArgs.length = args.length)
    (solution : Solution) :
    unifyArgs queryArgs args solution = .ok (if queryArgs = args then some solution else none) := by
  induction queryArgs generalizing args with
  | nil =>
    cases args with
    | nil => rfl
    | cons arg args => simp at sameLength
  | cons queryArg queryArgs ih =>
    cases args with
    | nil => simp at sameLength
    | cons arg args =>
      cases queryArg with
      | var symbol => simp [Term.vars] at closed
      | const constant =>
        have rest := ih (by simpa [Term.vars] using closed) (Nat.succ.inj sameLength)
        by_cases same : Term.const constant = arg
        · simp [unifyArgs, same, rest]
        · simp [unifyArgs, same]

variable {queryAtom : Datalog.Atom}

/-- Nothing is converted, so a query without variables does not fail, and it
reports a solution for itself only. -/
theorem reportSolutions_closed (closed : queryAtom.vars = []) {facts : List Datalog.Atom}
    (visited : ∀ fact ∈ facts, fact.predicate = queryAtom.predicate) :
    (reportSolutions queryAtom facts).err = none ∧
      ((reportSolutions queryAtom facts).reported ≠ [] ↔ queryAtom ∈ facts) := by
  induction facts with
  | nil => simp [reportSolutions]
  | cons fact rest ih =>
    obtain ⟨success, reported⟩ := ih fun other member =>
      visited other (List.mem_cons_of_mem _ member)
    obtain ⟨sameSymbol, sameLength⟩ := PredicateSym.mk.inj (visited fact (by simp))
    have unified := unifyArgs_closed closed sameLength.symm ∅
    by_cases same : queryAtom = fact
    · subst same
      simp [reportSolutions, unified, success]
    · have differ : queryAtom.args ≠ fact.args := by
        intro sameArgs
        exact same (by cases queryAtom; cases fact; simp_all)
      simpa [reportSolutions, unified, differ, same, success] using reported

/-- On one store, looking an atom without variables up and reporting its solutions
agree. -/
theorem solutionsIn_closed {parseAtom : String → Except GoError Datalog.Atom} {query : String}
    (parsed : parseAtom query = .ok queryAtom) (closed : queryAtom.vars = []) (store : Store) :
    (solutionsIn parseAtom store query).err = none ∧
      ((solutionsIn parseAtom store query).reported ≠ [] ↔
        holdsIn parseAtom store query = .ok true) := by
  simp only [solutionsIn, holdsIn, parseQuery, parsed, Store.contains]
  have visited : ∀ fact ∈ store.getFacts queryAtom.predicate,
      fact.predicate = queryAtom.predicate := fun fact member => (Store.mem_getFacts.mp member).2
  obtain ⟨success, reported⟩ := reportSolutions_closed closed visited
  refine ⟨success, reported.trans ?_⟩
  simp

/-! ## Runs -/

inductive RuntimeStep where
  | call (call : RuntimeCall)
  | registerExternalPredicate (name : String) (fn : Option ExternalPredicate)
  | enableTemporal
  | addTemporalFact (text : String) (start stop : Int)
  | setEvaluationTime (time : Option Int)
  | withEvalTimeout (timeout : Nat)

section Runs

variable {Key : Type} [DecidableEq Key] (mangle : Mangle Key)

def RuntimeStep.perform (runtime : MangleRuntime Key) : RuntimeStep → MangleRuntime Key
  | .call made => ((made.process mangle).exec runtime).2
  | .registerExternalPredicate name fn =>
    ((Engine.registerExternalPredicate name fn).exec runtime).2
  | .enableTemporal => (Engine.enableTemporal.exec runtime).2
  | .addTemporalFact text start stop =>
    ((Engine.addTemporalFact mangle text start stop).exec runtime).2
  | .setEvaluationTime time => ((Engine.setEvaluationTime time).exec runtime).2
  | .withEvalTimeout timeout => ((Engine.withEvalTimeout timeout).exec runtime).2

def reachedBy (steps : List RuntimeStep) : MangleRuntime Key :=
  steps.foldl (RuntimeStep.perform mangle) {}

end Runs

/-! ## Agreement -/

def answerFails : Except Panic (Except GoError Bool) → Bool
  | .ok (.ok _) => false
  | _ => true

def solutionsFail : Except Panic QueryRun → Bool
  | .ok run => run.err.isSome
  | .error _ => true

/-- The boolean query holds exactly if the query for solutions reports one, and they fail
together. -/
structure SameVerdict (answer : Except Panic (Except GoError Bool))
    (solutions : Except Panic QueryRun) : Prop where
  holds_iff : answer = .ok (.ok true) ↔ ∃ run, solutions = .ok run ∧ run.reported ≠ []
  fails_iff : answerFails answer = solutionsFail solutions

theorem sameVerdict_error (err other : GoError) :
    SameVerdict (.ok (.error err)) (.ok ⟨[], some other⟩) := ⟨by simp, rfl⟩

theorem sameVerdict_panic (err : GoError) (panic : Panic) :
    SameVerdict (.ok (.error err)) (.error panic) := ⟨by simp, rfl⟩

theorem sameVerdict_store {parseAtom : String → Except GoError Datalog.Atom} {query : String}
    (parsed : parseAtom query = .ok queryAtom) (closed : queryAtom.vars = []) (store : Store) :
    SameVerdict (.ok (holdsIn parseAtom store query))
      (.ok (solutionsIn parseAtom store query)) := by
  obtain ⟨success, reported⟩ := solutionsIn_closed parsed closed store
  refine ⟨?_, ?_⟩
  · simp [reported]
  · have answered : holdsIn parseAtom store query = .ok (store.contains queryAtom) := by
      simp only [holdsIn, parseQuery, parsed]
    simp [answered, answerFails, solutionsFail, success]

section Agreement

variable {Key : Type} [DecidableEq Key] (mangle : Mangle Key)

def QueriesAgree (runtime : MangleRuntime Key) (ctx : Context) (facts : List Datalog.Atom)
    (query : String) : Prop :=
  SameVerdict ((executeQuery mangle ctx facts query).exec runtime).1
    ((queryWithSolutions mangle ctx facts query).exec runtime).1

/-- A query gets as far as the evaluation of this program: it is not cancelled before, and
there is no cached store for its facts. -/
structure ReachesEvaluation (runtime : MangleRuntime Key) (ctx : Context)
    (facts : List Datalog.Atom) (program : Program) : Prop where
  active : runtime.program = some program
  asked : ctx.err .query = none
  missed : runtime.cacheable = true →
    (runtime.idbCache.getD []).lookup (requestKey mangle runtime facts) = none
  copied : ctx.err .workingStore = none
  started : ctx.err .evaluation = none

omit [DecidableEq Key] in
/-- No setting bears on the evaluation of the program: no temporal store, no evaluation
time, no callback for one of its predicates, and no limit. -/
structure MangleRuntime.Unrestricted (runtime : MangleRuntime Key) (program : Program) :
    Prop where
  temporal : runtime.temporalEnabled = true → runtime.temporalStore = none
  evaluationTime : runtime.evaluationTime = none
  callbacks : MangleRuntime.callbacks program.info runtime.externalPreds = []
  limit : runtime.maxCreatedFacts ≤ 0

omit [DecidableEq Key] in
def lookupEvaluated (query : String) : Except GoError Store → RuntimeM Key (Except GoError Bool)
  | .error err => pure (.error err)
  | .ok store => pure (holdsIn mangle.parseAtom store query)

variable {mangle} {runtime : MangleRuntime Key} {ctx : Context} {facts : List Datalog.Atom}
  {program : Program} {query : String}

omit [DecidableEq Key] in
theorem MangleRuntime.Unrestricted.evalOptions_eq (unrestricted : runtime.Unrestricted program) :
    runtime.evalOptions program = {} := by
  have temporal : (if runtime.temporalEnabled then runtime.temporalStore else none) = none := by
    split_ifs with enabled
    · exact unrestricted.temporal enabled
    · rfl
  simp [MangleRuntime.evalOptions, EvalOptions.withLimit, MangleRuntime.buildEvalOptionsFor,
    temporal, unrestricted.evaluationTime, unrestricted.callbacks,
    Int.not_lt.mpr unrestricted.limit]

theorem exec_executeQuery (asked : ctx.err .query = none) :
    (executeQuery mangle ctx facts query).exec runtime =
      (evaluatedWorkingStore mangle ctx facts {} >>= lookupEvaluated mangle query).exec
        runtime := by
  simp only [executeQuery, asked]
  rfl

theorem exec_queryWithSolutions_active (active : runtime.program = some program)
    (asked : ctx.err .query = none) :
    (queryWithSolutions mangle ctx facts query).exec runtime =
      (evaluatedWorkingStore mangle ctx facts (runtime.evalOptions program) >>=
        reportEvaluated mangle query).exec runtime := by
  simp only [queryWithSolutions, asked, buildEvalOptionsLockedSnapshot, readLimit,
    Process.bind_eq, Process.atomically_bind, Process.step_bind, Process.exec_step, active]
  rfl

theorem exec_evaluateMiss_congr {options others : EvalOptions} {base : Store} {key : Option Key}
    (same : ctx.err .workingStore = none → ctx.err .evaluation = none → options = others) :
    (evaluateMiss mangle ctx facts options program base key).exec runtime =
      (evaluateMiss mangle ctx facts others program base key).exec runtime := by
  rw [exec_evaluateMiss, exec_evaluateMiss]
  cases copied : ctx.err .workingStore with
  | some err => rfl
  | none =>
    cases started : ctx.err .evaluation with
    | some err => simp only [evalStratifiedWithContext, started]
    | none => rw [same copied started]

theorem exec_evaluatedWorkingStore_unrestricted (active : runtime.program = some program)
    (asked : ctx.err .query = none)
    (unrestricted : ReachesEvaluation mangle runtime ctx facts program →
      runtime.Unrestricted program) :
    (evaluatedWorkingStore mangle ctx facts {}).exec runtime =
      (evaluatedWorkingStore mangle ctx facts (runtime.evalOptions program)).exec runtime := by
  rw [exec_evaluatedWorkingStore, exec_evaluatedWorkingStore]
  have missed : (runtime.cacheable = true →
      (runtime.idbCache.getD []).lookup (requestKey mangle runtime facts) = none) →
      ctx.err .workingStore = none → ctx.err .evaluation = none →
      {} = runtime.evalOptions program := fun missed copied started =>
    (unrestricted ⟨active, asked, missed, copied, started⟩).evalOptions_eq.symm
  cases cacheable : runtime.cacheable with
  | false =>
    rw [storeSnapshotBody_uncacheable cacheable active]
    exact exec_evaluateMiss_congr (missed (by simp [cacheable]))
  | true =>
    cases found : (runtime.idbCache.getD []).lookup (requestKey mangle runtime facts) with
    | some store => rw [storeSnapshotBody_hit cacheable active found]
    | none =>
      rw [storeSnapshotBody_miss cacheable active found]
      exact exec_evaluateMiss_congr (missed fun _ => found)

/-- Without a program, the one has nothing to evaluate, and the other already fails to
build its options if there are callbacks. -/
theorem queriesAgree_of_inactive (inactive : runtime.program = none)
    (asked : ctx.err .query = none) : QueriesAgree mangle runtime ctx facts query := by
  have answer : ((executeQuery mangle ctx facts query).exec runtime).1 =
      .ok (.error (.text "runtime not initialized")) := by
    rw [exec_executeQuery asked, Process.bind_eq, Process.exec_bind, exec_evaluatedWorkingStore]
    simp only [storeSnapshotBody, inactive]
    rfl
  rw [QueriesAgree, answer]
  cases external : runtime.externalPreds with
  | nil =>
    rw [exec_queryWithSolutions mangle runtime external asked, Process.bind_eq,
      Process.exec_bind, exec_evaluatedWorkingStore]
    simp only [storeSnapshotBody, inactive]
    exact sameVerdict_error _ _
  | cons first rest =>
    simp only [queryWithSolutions, asked, buildEvalOptionsLockedSnapshot, Process.bind_eq,
      Process.atomically_bind, Process.step_bind, Process.exec_step, inactive, external]
    exact sameVerdict_panic _ _

theorem queriesAgree_of_unrestricted (parsed : mangle.parseAtom query = .ok queryAtom)
    (closed : queryAtom.vars = [])
    (unrestricted : ∀ program, ReachesEvaluation mangle runtime ctx facts program →
      runtime.Unrestricted program) : QueriesAgree mangle runtime ctx facts query := by
  cases asked : ctx.err .query with
  | some err =>
    simp only [QueriesAgree, executeQuery, queryWithSolutions, asked]
    exact sameVerdict_error _ _
  | none =>
    cases active : runtime.program with
    | none => exact queriesAgree_of_inactive active asked
    | some program =>
      rw [QueriesAgree, exec_executeQuery asked, exec_queryWithSolutions_active active asked,
        Process.bind_eq, Process.bind_eq, Process.exec_bind, Process.exec_bind,
        exec_evaluatedWorkingStore_unrestricted active asked (unrestricted program)]
      rcases (evaluatedWorkingStore mangle ctx facts (runtime.evalOptions program)).exec
        runtime with ⟨panic | err | store, after⟩
      · exact ⟨by simp, rfl⟩
      · exact sameVerdict_error _ _
      · exact sameVerdict_store parsed closed store

end Agreement

/-! ## A limit that tells them apart -/

section Limits

def twoRules : RuntimeStep :=
  .call (.addPolicy {} "blocked(X) :- requested(X). logged(X) :- requested(X)." false)

def liftedRun : List RuntimeStep :=
  [.call (.withMaxCreatedFacts 1), twoRules, .call (.withMaxCreatedFacts 0)]

def requestedFact : Datalog.Atom := Reference.stringAtom "requested" ["a"]

end Limits

end Manglekit.Engine

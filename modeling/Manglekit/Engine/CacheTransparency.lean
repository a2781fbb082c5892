import Manglekit.Engine.VisibleFacts

/-!
# Transparency of the cache of evaluated stores

The same calls are made on a runtime with its cache and on one that bypasses it.
The bypassing runtime is the caching one with the cache erased, as long as every
cached store is what its request would evaluate to.

Two calls can break this: loading facts that fails after some of them were added,
and a query that finds a store which it would not have been able to evaluate.
-/

namespace Manglekit.Engine

open Core Datalog Atomic

section Bypass

variable {Key : Type} {Result Other : Type}

def MangleRuntime.bypassed (runtime : MangleRuntime Key) : MangleRuntime Key :=
  { runtime with idbCache := none, disableIDBCache := true }

section Fields

variable (runtime : MangleRuntime Key)

@[simp]
theorem bypassed_program : runtime.bypassed.program = runtime.program := rfl

@[simp]
theorem bypassed_baseFactStore : runtime.bypassed.baseFactStore = runtime.baseFactStore := rfl

@[simp]
theorem bypassed_explicitFactStore :
    runtime.bypassed.explicitFactStore = runtime.explicitFactStore := rfl

@[simp]
theorem bypassed_ruleUnits : runtime.bypassed.ruleUnits = runtime.ruleUnits := rfl

@[simp]
theorem bypassed_persistentUnits : runtime.bypassed.persistentUnits = runtime.persistentUnits := rfl

@[simp]
theorem bypassed_persistentSources :
    runtime.bypassed.persistentSources = runtime.persistentSources := rfl

@[simp]
theorem bypassed_externalPreds : runtime.bypassed.externalPreds = runtime.externalPreds := rfl

@[simp]
theorem bypassed_evalTimeout : runtime.bypassed.evalTimeout = runtime.evalTimeout := rfl

@[simp]
theorem evaluate_bypassed (mangle : Mangle Key) (ctx : Context) (program : Program)
    (store : Store) :
    evaluate mangle ctx runtime.bypassed program store =
      evaluate mangle ctx runtime program store := rfl

@[simp]
theorem factSnapshotOf_bypassed : factSnapshotOf runtime.bypassed = factSnapshotOf runtime := rfl

end Fields

/-- Run alone, the process does the same with and without the cache. -/
def Transparent (process : RuntimeM Key Result) (runtime : MangleRuntime Key) : Prop :=
  process.exec runtime.bypassed =
    ((process.exec runtime).1, (process.exec runtime).2.bypassed)

theorem Transparent.bind {process : RuntimeM Key Result}
    {continuation : Result → RuntimeM Key Other} {runtime : MangleRuntime Key}
    (first : Transparent process runtime)
    (second : ∀ result after, process.exec runtime = (.ok result, after) →
      Transparent (continuation result) after) :
    Transparent (process >>= continuation) runtime := by
  simp only [Transparent, Process.bind_eq, Process.exec_bind] at first ⊢
  rw [first]
  rcases ended : process.exec runtime with ⟨result, after⟩
  cases result with
  | error fault => rfl
  | ok result => exact second result after ended

theorem transparent_pure (result : Result) (runtime : MangleRuntime Key) :
    Transparent (pure result : RuntimeM Key Result) runtime := rfl

theorem transparent_atomically {event : MangleRuntime Key → Section}
    {body : MangleRuntime Key → Result × MangleRuntime Key} {runtime : MangleRuntime Key}
    (oblivious : body runtime.bypassed = ((body runtime).1, (body runtime).2.bypassed)) :
    Transparent (.atomically event body) runtime := by
  simp only [Transparent, Process.exec_atomically, oblivious]

end Bypass

/-! ## Updates -/

section Updates

variable {Key : Type} (mangle : Mangle Key) (runtime : MangleRuntime Key) (ctx : Context)

theorem transparent_loadFacts (facts : List String) :
    Transparent (loadFacts mangle ctx facts) runtime := by
  apply transparent_atomically
  simp only [loadFactsBody, bypassed_program, bypassed_baseFactStore, bypassed_explicitFactStore]
  rcases addFacts mangle facts (runtime.baseFactStore, runtime.explicitFactStore) with
    ⟨stores, failure⟩
  cases failure with
  | some err => rfl
  | none => cases runtime.program <;> rfl

theorem transparent_addPolicy (source : String) (persistent : Bool) :
    Transparent (addPolicy mangle ctx source persistent) runtime := by
  simp only [addPolicy]
  split
  · exact transparent_pure _ _
  · split
    · exact transparent_pure _ _
    next unit parsed =>
      apply transparent_atomically
      simp only [addPolicyBody, bypassed_externalPreds, bypassed_ruleUnits]
      generalize buildProgram mangle _ _ _ = built
      cases built <;> rfl

theorem transparent_reloadFromSource (source : String) :
    Transparent (reloadFromSource mangle ctx source) runtime := by
  simp only [Transparent, exec_reloadFromSource, bypassed_persistentUnits,
    bypassed_persistentSources, bypassed_externalPreds, bypassed_explicitFactStore,
    evaluate_bypassed, factSnapshotOf_bypassed]
  split
  · rfl
  · generalize reloadProgram mangle source _ _ _ = built
    rcases built with err | ⟨units, program⟩
    · rfl
    · dsimp only
      rcases evaluate mangle ctx runtime program (factSnapshotOf runtime).merged with
        ⟨evaluated, failure⟩
      cases failure <;> rfl

theorem transparent_load (path : String) (resolved : Except GoError (List SourceFile)) :
    Transparent (load mangle ctx path resolved) runtime := by
  unfold load
  split
  · exact transparent_pure _ _
  · split
    · exact transparent_pure _ _
    · split
      · exact transparent_pure _ _
      · exact transparent_atomically rfl

end Updates

/-! ## Queries -/

/-- Options with neither a temporal part nor callbacks. -/
structure EvalOptions.Plain (options : EvalOptions) : Prop where
  temporalStore : options.temporalStore = none
  evaluationTime : options.evaluationTime = none
  externalPredicates : options.externalPredicates = []

theorem plain_default : EvalOptions.Plain {} := ⟨rfl, rfl, rfl⟩

variable {options : EvalOptions} {program : Program} {store : Store}

theorem EvalOptions.Plain.withLimit (plain : options.Plain) (limit : Int) :
    (options.withLimit limit).Plain := by
  unfold EvalOptions.withLimit
  split
  · exact ⟨plain.temporalStore, plain.evaluationTime, plain.externalPredicates⟩
  · exact plain

section Assumptions

variable {Key : Type}

/-- The limit, the deadline and the context decide whether an evaluation succeeds,
not what it computes. -/
def Mangle.Deterministic (mangle : Mangle Key) : Prop :=
  ∀ program store (options others : EvalOptions) ctx otherCtx timeout otherTimeout result other,
    options.Plain → others.Plain →
    mangle.eval program options ctx timeout store = (result, none) →
    mangle.eval program others otherCtx otherTimeout store = (other, none) → result = other

def Mangle.KeysInjective (mangle : Mangle Key) : Prop :=
  ∀ programVersion baseVersion facts otherProgram otherBase others,
    mangle.idbCacheKey programVersion baseVersion facts =
      mangle.idbCacheKey otherProgram otherBase others →
    programVersion = otherProgram ∧ baseVersion = otherBase ∧ facts = others

theorem evalStratified_deterministic {mangle : Mangle Key} (deterministic : mangle.Deterministic)
    {result other : Store} {others : EvalOptions} {ctx otherCtx : Context}
    {timeout otherTimeout : Nat} (plain : options.Plain) (otherPlain : others.Plain)
    (evaluation : evalStratifiedWithContext mangle ctx program store options timeout =
      (result, none))
    (otherEvaluation :
      evalStratifiedWithContext mangle otherCtx program store others otherTimeout =
        (other, none)) : result = other := by
  unfold evalStratifiedWithContext at evaluation otherEvaluation
  split at evaluation
  · cases evaluation
  · split at otherEvaluation
    · cases otherEvaluation
    · exact deterministic _ _ _ _ _ _ _ _ _ _ plain otherPlain evaluation otherEvaluation

end Assumptions

section Validity

variable {Key : Type} [DecidableEq Key] (mangle : Mangle Key)

/-- Every cached store is an evaluation of the request it is filed under, by the
current program over the current base facts. -/
structure CacheValid (runtime : MangleRuntime Key) : Prop where
  enabled : runtime.disableIDBCache = false
  external : runtime.externalPreds = []
  temporal : runtime.temporalEnabled = false
  evaluationTime : runtime.evaluationTime = none
  entries : ∀ entry ∈ runtime.idbCache.getD [],
    ∃ program facts ctx options timeout, runtime.program = some program ∧
      entry.1 = mangle.idbCacheKey runtime.programVersion runtime.baseVersion facts ∧
      options.Plain ∧
      evalStratifiedWithContext mangle ctx program (runtime.baseFactStore.addAll facts) options
        timeout = (entry.2, none)

def answersAfresh (runtime : MangleRuntime Key) (ctx : Context) (facts : List Datalog.Atom)
    (options : EvalOptions) : Bool :=
  match runtime.program, storeSnapshotBody mangle facts runtime with
  | some program, (.hit _, _) =>
    (ctx.err .workingStore).isNone &&
      (evalStratifiedWithContext mangle ctx program (runtime.baseFactStore.addAll facts)
        options runtime.evalTimeout).2.isNone
  | _, _ => true

omit [DecidableEq Key] in
def MangleRuntime.allocated (runtime : MangleRuntime Key) : MangleRuntime Key :=
  { runtime with idbCache := some (runtime.idbCache.getD []) }

variable {mangle} {runtime : MangleRuntime Key} {ctx : Context} {facts : List Datalog.Atom}

omit [DecidableEq Key] in
theorem CacheValid.cacheable (valid : CacheValid mangle runtime) : runtime.cacheable = true := by
  simp [MangleRuntime.cacheable, valid.enabled, valid.external, valid.temporal]

omit [DecidableEq Key] in
theorem CacheValid.plain (valid : CacheValid mangle runtime) (info : ProgramInfo) (limit : Int) :
    ((runtime.buildEvalOptionsFor info).withLimit limit).Plain := by
  apply EvalOptions.Plain.withLimit
  refine ⟨?_, valid.evaluationTime, ?_⟩
  · simp [MangleRuntime.buildEvalOptionsFor, valid.temporal]
  · simp [MangleRuntime.buildEvalOptionsFor, MangleRuntime.callbacks, valid.external]

variable {cache : List (Key × Store)}

theorem mem_of_lookup {key : Key}
    (found : cache.lookup key = some store) : (key, store) ∈ cache := by
  obtain ⟨before, rest, rfl, _⟩ := List.lookup_eq_some_iff.mp found
  simp

theorem CacheValid.hit (valid : CacheValid mangle runtime) (injective : mangle.KeysInjective)
    (deterministic : mangle.Deterministic) (active : runtime.program = some program)
    {evaluated : Store}
    (found : (runtime.idbCache.getD []).lookup
      (mangle.idbCacheKey runtime.programVersion runtime.baseVersion facts) = some store)
    (plain : options.Plain) {timeout : Nat}
    (evaluation : evalStratifiedWithContext mangle ctx program
      (runtime.baseFactStore.addAll facts) options timeout = (evaluated, none)) :
    evaluated = store := by
  obtain ⟨current, others, otherCtx, otherOptions, otherTimeout, activeCurrent, keyed, otherPlain,
    cached⟩ := valid.entries _ (mem_of_lookup found)
  cases active.symm.trans activeCurrent
  obtain ⟨_, _, rfl⟩ := injective _ _ _ _ _ _ keyed
  exact evalStratified_deterministic deterministic plain otherPlain evaluation cached

theorem exec_bypassed :
    (evaluatedWorkingStore mangle ctx facts options).exec runtime.bypassed =
      match runtime.program with
      | none => (.ok (.error (.text "runtime not initialized")), runtime.bypassed)
      | some program =>
        (evaluateMiss mangle ctx facts options program runtime.baseFactStore none).exec
          runtime.bypassed := by
  rw [exec_evaluatedWorkingStore]
  cases active : runtime.program with
  | none => simp [storeSnapshotBody, active]
  | some program =>
    simp [storeSnapshotBody, active, MangleRuntime.cacheable, MangleRuntime.bypassed]

abbrev requestKey (mangle : Mangle Key) (runtime : MangleRuntime Key)
    (facts : List Datalog.Atom) : Key :=
  mangle.idbCacheKey runtime.programVersion runtime.baseVersion facts

section

variable (cacheable : runtime.cacheable = true) (active : runtime.program = some program)

include cacheable active

theorem storeSnapshotBody_hit
    (found : (runtime.idbCache.getD []).lookup (requestKey mangle runtime facts) = some store) :
    storeSnapshotBody mangle facts runtime = (.hit store, runtime.allocated) := by
  simp [storeSnapshotBody, MangleRuntime.allocated, active, cacheable, found]

theorem storeSnapshotBody_miss
    (missing : (runtime.idbCache.getD []).lookup (requestKey mangle runtime facts) = none) :
    storeSnapshotBody mangle facts runtime =
      (.miss program runtime.baseFactStore (some (requestKey mangle runtime facts)),
        runtime.allocated) := by
  simp [storeSnapshotBody, MangleRuntime.allocated, active, cacheable, missing]

end

theorem storeSnapshotBody_uncacheable (uncacheable : runtime.cacheable = false)
    (active : runtime.program = some program) :
    storeSnapshotBody mangle facts runtime =
      (.miss program runtime.baseFactStore none, runtime) := by
  simp [storeSnapshotBody, active, uncacheable]

theorem storeSnapshotBody_inactive (inactive : runtime.program = none) :
    storeSnapshotBody mangle facts runtime = (.notReady, runtime) := by
  simp [storeSnapshotBody, inactive]

theorem transparent_evaluatedWorkingStore (valid : CacheValid mangle runtime)
    (injective : mangle.KeysInjective) (deterministic : mangle.Deterministic)
    (plain : options.Plain) (afresh : answersAfresh mangle runtime ctx facts options = true) :
    Transparent (evaluatedWorkingStore mangle ctx facts options) runtime := by
  rw [Transparent, exec_bypassed, exec_evaluatedWorkingStore]
  cases active : runtime.program with
  | none => simp [storeSnapshotBody, active]
  | some program =>
    dsimp only
    rw [exec_evaluateMiss]
    cases found : (runtime.idbCache.getD []).lookup (requestKey mangle runtime facts) with
    | some store =>
      have hit := storeSnapshotBody_hit valid.cacheable active found
      simp only [answersAfresh, active, hit, Bool.and_eq_true, Option.isNone_iff_eq_none] at afresh
      obtain ⟨uncancelled, succeeds⟩ := afresh
      simp only [hit, uncancelled, bypassed_evalTimeout]
      rcases evaluation : evalStratifiedWithContext mangle ctx program
        (runtime.baseFactStore.addAll facts) options runtime.evalTimeout with
        ⟨evaluated, failure⟩
      rw [evaluation] at succeeds
      cases succeeds
      cases valid.hit injective deterministic active found plain evaluation
      rfl
    | none =>
      rw [storeSnapshotBody_miss valid.cacheable active found]
      simp only [exec_evaluateMiss]
      cases ctx.err .workingStore with
      | some err => rfl
      | none =>
        dsimp only
        have timeout : runtime.allocated.evalTimeout = runtime.bypassed.evalTimeout := rfl
        rw [timeout]
        rcases evalStratifiedWithContext mangle ctx program
          (runtime.baseFactStore.addAll facts) options runtime.bypassed.evalTimeout with
          ⟨evaluated, _ | err⟩
        · rfl
        · rfl

omit [DecidableEq Key] in
theorem CacheValid.of_settings {after : MangleRuntime Key} (valid : CacheValid mangle runtime)
    (settings : after.settings = runtime.settings) (empty : after.idbCache.getD [] = []) :
    CacheValid mangle after where
  enabled := (congrArg (·.disableIDBCache) settings).trans valid.enabled
  external := (congrArg (·.externalPreds) settings).trans valid.external
  temporal := (congrArg (·.temporalEnabled) settings).trans valid.temporal
  evaluationTime := (congrArg (·.evaluationTime) settings).trans valid.evaluationTime
  entries := by simp [empty]

theorem mem_insertEntry {key : Key} {entry : Key × Store}
    (member : entry ∈ insertEntry key store cache) : entry = (key, store) ∨ entry ∈ cache := by
  refine (List.mem_cons.mp member).imp_right fun kept => ?_
  have inKept := (List.mem_filter.mp kept).1
  split_ifs at inKept
  · cases inKept
  · exact inKept

theorem CacheValid.inserted (valid : CacheValid mangle runtime)
    (active : runtime.program = some program) (plain : options.Plain) {timeout : Nat}
    {evaluated : Store}
    (evaluation : evalStratifiedWithContext mangle ctx program
      (runtime.baseFactStore.addAll facts) options timeout = (evaluated, none)) :
    CacheValid mangle { runtime.allocated with
      idbCache := runtime.allocated.idbCache.map
        (insertEntry (requestKey mangle runtime facts) evaluated) } := by
  refine ⟨valid.enabled, valid.external, valid.temporal, valid.evaluationTime, ?_⟩
  intro entry member
  rcases mem_insertEntry member with rfl | earlier
  · exact ⟨program, facts, ctx, options, timeout, active, rfl, plain, evaluation⟩
  · exact valid.entries entry earlier

theorem valid_evaluatedWorkingStore (valid : CacheValid mangle runtime) (plain : options.Plain) :
    CacheValid mangle ((evaluatedWorkingStore mangle ctx facts options).exec runtime).2 := by
  have allocated : CacheValid mangle runtime.allocated :=
    ⟨valid.enabled, valid.external, valid.temporal, valid.evaluationTime, valid.entries⟩
  rw [exec_evaluatedWorkingStore]
  cases active : runtime.program with
  | none => simpa [storeSnapshotBody, active] using valid
  | some program =>
    cases found : (runtime.idbCache.getD []).lookup (requestKey mangle runtime facts) with
    | some store =>
      rw [storeSnapshotBody_hit valid.cacheable active found]
      exact allocated
    | none =>
      rw [storeSnapshotBody_miss valid.cacheable active found]
      dsimp only
      rw [exec_evaluateMiss]
      split
      · exact allocated
      · split
        · exact allocated
        next evaluation => exact valid.inserted active plain evaluation

end Validity

/-! ## Calls -/

section Calls

variable {Key : Type} {mangle : Mangle Key} {Result Other : Type}

/-- The process does the same with and without the cache, and leaves a valid one. -/
structure Faithful (mangle : Mangle Key) (process : RuntimeM Key Result)
    (runtime : MangleRuntime Key) : Prop where
  transparent : Transparent process runtime
  valid : CacheValid mangle (process.exec runtime).2

variable {runtime : MangleRuntime Key}

theorem faithful_pure (valid : CacheValid mangle runtime) (result : Result) :
    Faithful mangle (pure result) runtime :=
  ⟨transparent_pure result runtime, valid⟩

theorem Faithful.bind {process : RuntimeM Key Result} {continuation : Result → RuntimeM Key Other}
    (first : Faithful mangle process runtime)
    (second : ∀ result after, process.exec runtime = (.ok result, after) →
      CacheValid mangle after → Faithful mangle (continuation result) after) :
    Faithful mangle (process >>= continuation) runtime := by
  have reached := first.valid
  refine ⟨first.transparent.bind fun result after ended => ?_, ?_⟩
  · rw [ended] at reached
    exact (second result after ended reached).transparent
  · rw [Process.bind_eq, Process.exec_bind]
    rcases ended : process.exec runtime with ⟨result, after⟩
    rw [ended] at reached
    cases result with
    | error fault => exact reached
    | ok result => exact (second result after ended reached).valid

/-! ### Updates -/

variable {ctx : Context}

section

variable (valid : CacheValid mangle runtime)

include valid

theorem CacheValid.empty_of_idle
    (idle : runtime.program = none) : runtime.idbCache.getD [] = [] := by
  rw [List.eq_nil_iff_forall_not_mem]
  intro entry member
  obtain ⟨program, _, _, _, _, active, _⟩ := valid.entries entry member
  simp [idle] at active

theorem faithful_loadFacts {facts : List String} (harmless :
      (addFacts mangle facts (runtime.baseFactStore, runtime.explicitFactStore)).2 = none ∨
      runtime.idbCache.getD [] = [] ∨
      (addFacts mangle facts (runtime.baseFactStore, runtime.explicitFactStore)).1.1 =
        runtime.baseFactStore) :
    Faithful mangle (loadFacts mangle ctx facts) runtime := by
  refine ⟨transparent_loadFacts mangle runtime ctx facts, ?_⟩
  simp only [loadFacts, Process.exec_atomically, loadFactsBody]
  rcases added : addFacts mangle facts (runtime.baseFactStore, runtime.explicitFactStore) with
    ⟨stores, failure⟩
  rw [added] at harmless
  cases failure with
  | none =>
    cases active : runtime.program with
    | none => exact valid.of_settings rfl (valid.empty_of_idle active)
    | some program => exact valid.of_settings rfl rfl
  | some err =>
    rcases harmless with impossible | empty | same
    · cases impossible
    · exact valid.of_settings rfl empty
    · refine ⟨valid.enabled, valid.external, valid.temporal, valid.evaluationTime, ?_⟩
      dsimp only at same ⊢
      rw [same]
      exact valid.entries

theorem faithful_addPolicy (source : String)
    (persistent : Bool) : Faithful mangle (addPolicy mangle ctx source persistent) runtime := by
  refine ⟨transparent_addPolicy mangle runtime ctx source persistent, ?_⟩
  simp only [addPolicy]
  split
  · exact valid
  · split
    · exact valid
    · simp only [Process.exec_atomically, addPolicyBody]
      split
      · exact valid
      · exact valid.of_settings rfl rfl

theorem faithful_reloadFromSource (source : String) :
    Faithful mangle (reloadFromSource mangle ctx source) runtime := by
  refine ⟨transparent_reloadFromSource mangle runtime ctx source, ?_⟩
  rw [exec_reloadFromSource]
  split
  · exact valid
  · split
    · exact valid
    · split
      · exact valid
      · exact valid.of_settings rfl rfl

theorem faithful_load (path : String) (resolved : Except GoError (List SourceFile)) :
    Faithful mangle (load mangle ctx path resolved) runtime := by
  refine ⟨transparent_load mangle runtime ctx path resolved, ?_⟩
  unfold load
  split
  · exact valid
  · split
    · exact valid
    · split
      · exact valid
      · exact valid.of_settings rfl rfl

theorem faithful_withMaxCreatedFacts (limit : Int) :
    Faithful mangle (withMaxCreatedFacts limit) runtime :=
  ⟨transparent_atomically rfl,
    valid.enabled, valid.external, valid.temporal, valid.evaluationTime, valid.entries⟩

end

/-! ### Queries -/

def MangleRuntime.queryOptions (runtime : MangleRuntime Key) : EvalOptions :=
  match runtime.program with
  | some program => runtime.evalOptions program
  | none => (runtime.buildEvalOptionsFor ⟨[], [], [], []⟩).withLimit runtime.maxCreatedFacts

theorem CacheValid.plain_queryOptions (valid : CacheValid mangle runtime) :
    runtime.queryOptions.Plain := by
  unfold MangleRuntime.queryOptions
  split <;> exact valid.plain _ _

def reportEvaluated (mangle : Mangle Key) (query : String) :
    Except GoError Store → RuntimeM Key QueryRun
  | .error err => pure ⟨[], some err⟩
  | .ok store => pure (solutionsIn mangle.parseAtom store query)

end Calls

section Queries

variable {Key : Type} [DecidableEq Key] {mangle : Mangle Key} {runtime : MangleRuntime Key}
  {ctx : Context}

theorem exec_queryWithSolutions (mangle : Mangle Key) (runtime : MangleRuntime Key)
    (external : runtime.externalPreds = []) (ready : ctx.err .query = none)
    (facts : List Datalog.Atom) (query : String) :
    (queryWithSolutions mangle ctx facts query).exec runtime =
      (evaluatedWorkingStore mangle ctx facts runtime.queryOptions >>=
        reportEvaluated mangle query).exec runtime := by
  simp only [queryWithSolutions, ready, buildEvalOptionsLockedSnapshot, readLimit,
    Process.bind_eq, Process.atomically_bind, Process.step_bind, Process.exec_step]
  cases active : runtime.program with
  | none => simp [external, active, MangleRuntime.queryOptions]; rfl
  | some program => simp [active, MangleRuntime.queryOptions, MangleRuntime.evalOptions]; rfl

variable (injective : mangle.KeysInjective) (deterministic : mangle.Deterministic)

include injective deterministic

theorem faithful_executeQuery (valid : CacheValid mangle runtime) {facts : List Datalog.Atom}
    {query : String}
    (afresh : ctx.err .query = none → answersAfresh mangle runtime ctx facts {} = true) :
    Faithful mangle (executeQuery mangle ctx facts query) runtime := by
  unfold executeQuery
  split
  · exact faithful_pure valid _
  next ready =>
    apply Faithful.bind
    · exact ⟨transparent_evaluatedWorkingStore valid injective deterministic plain_default
        (afresh ready), valid_evaluatedWorkingStore valid plain_default⟩
    · intro answered after _ validAfter
      cases answered <;> exact faithful_pure validAfter _

theorem faithful_queryWithSolutions (valid : CacheValid mangle runtime)
    {facts : List Datalog.Atom} {query : String}
    (afresh : ctx.err .query = none →
      answersAfresh mangle runtime ctx facts runtime.queryOptions = true) :
    Faithful mangle (queryWithSolutions mangle ctx facts query) runtime := by
  cases ready : ctx.err .query with
  | some err =>
    simp only [queryWithSolutions, ready]
    exact faithful_pure valid _
  | none =>
    have plain := valid.plain_queryOptions
    have reported : Faithful mangle (evaluatedWorkingStore mangle ctx facts
        runtime.queryOptions >>= reportEvaluated mangle query) runtime := by
      apply Faithful.bind
      · exact ⟨transparent_evaluatedWorkingStore valid injective deterministic plain
          (afresh ready), valid_evaluatedWorkingStore valid plain⟩
      · intro answered after _ validAfter
        cases answered <;> exact faithful_pure validAfter _
    have executed := exec_queryWithSolutions mangle runtime valid.external ready facts query
    have bypassed :=
      exec_queryWithSolutions mangle runtime.bypassed valid.external ready facts query
    constructor
    · rw [Transparent, bypassed, executed]
      exact reported.transparent
    · rw [executed]
      exact reported.valid

omit injective deterministic

/-! ### Sequences of calls -/

variable (mangle) in
/-- The call does not depend on the cache: a list of facts that fails to parse adds
nothing to base facts that have cached evaluations, and a query only finds a store
that it could have evaluated. -/
def RuntimeCall.harmless (runtime : MangleRuntime Key) : RuntimeCall → Bool
  | .loadFacts _ facts =>
    let added := addFacts mangle facts (runtime.baseFactStore, runtime.explicitFactStore)
    added.2.isNone || (runtime.idbCache.getD []).isEmpty ||
      decide (added.1.1.facts = runtime.baseFactStore.facts)
  | .executeQuery ctx facts _ =>
    (ctx.err .query).isSome || answersAfresh mangle runtime ctx facts {}
  | .queryWithSolutions ctx facts _ =>
    (ctx.err .query).isSome || answersAfresh mangle runtime ctx facts runtime.queryOptions
  | _ => true

variable (mangle) in
def harmlessRun : List RuntimeCall → MangleRuntime Key → Bool
  | [], _ => true
  | call :: rest, runtime =>
    call.harmless mangle runtime && harmlessRun rest ((call.process mangle).exec runtime).2

variable (mangle) in
def callResults : List RuntimeCall → MangleRuntime Key → List (Except Panic CallResult)
  | [], _ => []
  | call :: rest, runtime =>
    ((call.process mangle).exec runtime).1 ::
      callResults rest ((call.process mangle).exec runtime).2

omit [DecidableEq Key] in
theorem Faithful.map {process : RuntimeM Key Result} (faithful : Faithful mangle process runtime)
    (wrap : Result → Other) :
    Faithful mangle (process >>= fun result => pure (wrap result)) runtime :=
  faithful.bind fun _ _ _ valid => faithful_pure valid _

include injective deterministic in
theorem faithful_call (valid : CacheValid mangle runtime) {call : RuntimeCall}
    (harmless : call.harmless mangle runtime = true) :
    Faithful mangle (call.process mangle) runtime := by
  cases call with
  | loadFacts ctx facts =>
    apply Faithful.map
    apply faithful_loadFacts valid
    simpa [RuntimeCall.harmless, or_assoc, Store.ext_iff] using harmless
  | addPolicy ctx source persistent => exact (faithful_addPolicy valid source persistent).map _
  | load ctx path resolved => exact (faithful_load valid path resolved).map _
  | reloadFromSource ctx source => exact (faithful_reloadFromSource valid source).map _
  | withMaxCreatedFacts limit =>
    exact (faithful_withMaxCreatedFacts valid limit).map fun _ => CallResult.configured
  | executeQuery ctx facts query =>
    apply Faithful.map
    apply faithful_executeQuery injective deterministic valid
    intro ready
    simpa [RuntimeCall.harmless, ready] using harmless
  | queryWithSolutions ctx facts query =>
    apply Faithful.map
    apply faithful_queryWithSolutions injective deterministic valid
    intro ready
    simpa [RuntimeCall.harmless, ready] using harmless

include injective deterministic in
theorem callResults_bypassed (valid : CacheValid mangle runtime) {calls : List RuntimeCall}
    (harmless : harmlessRun mangle calls runtime = true) :
    callResults mangle calls runtime.bypassed = callResults mangle calls runtime := by
  induction calls generalizing runtime with
  | nil => rfl
  | cons call rest ih =>
    rw [harmlessRun, Bool.and_eq_true] at harmless
    have faithful := faithful_call injective deterministic valid harmless.1
    have same := faithful.transparent
    rw [Transparent] at same
    simp only [callResults, same]
    rw [ih faithful.valid harmless.2]

/-- From a new runtime without callbacks and temporal mode, harmless calls return
the same with the cache as without it. -/
theorem cache_transparent (injective : mangle.KeysInjective)
    (deterministic : mangle.Deterministic) {start : MangleRuntime Key} (new : start.New)
    (enabled : start.disableIDBCache = false) (external : start.externalPreds = [])
    (temporal : start.temporalEnabled = false) (evaluationTime : start.evaluationTime = none)
    {calls : List RuntimeCall} (harmless : harmlessRun mangle calls start = true) :
    callResults mangle calls start.bypassed = callResults mangle calls start := by
  have uncached : start.idbCache = none := by
    rw [← new]
    rfl
  apply callResults_bypassed injective deterministic _ harmless
  exact ⟨enabled, external, temporal, evaluationTime, by simp [uncached]⟩

end Queries

/-! ## Two runs that differ -/

theorem reference_keysInjective : Reference.mangle.KeysInjective := by
  intro programVersion baseVersion facts otherProgram otherBase others same
  change (programVersion, baseVersion, facts) = (otherProgram, otherBase, others) at same
  cases same
  exact ⟨rfl, rfl, rfl⟩

theorem reference_deterministic : Reference.mangle.Deterministic := by
  intro program store options others ctx otherCtx timeout otherTimeout result other _ _ evaluation
    otherEvaluation
  change Reference.eval program options ctx timeout store = (result, none) at evaluation
  change Reference.eval program others otherCtx otherTimeout store = (other, none)
    at otherEvaluation
  have equal := Reference.evaluate_of_eval evaluation
  rw [Reference.evaluate_of_eval otherEvaluation] at equal
  exact (Option.some.inj equal).symm

def readout : Except Panic CallResult → Option Bool
  | .ok (.answer (.ok answer)) => some answer
  | .ok (.solutions run) => some run.err.isSome
  | _ => none

/-- The last text is no fact, but the one before it is added. -/
def staleCalls : List RuntimeCall :=
  [.reloadFromSource {} "q(X) :- p(X).", .executeQuery {} [] "p(\"a\")",
    .loadFacts {} ["p(\"a\")", "?"], .executeQuery {} [] "p(\"a\")"]

/-- The first query evaluates without a limit, the second one with it. -/
def limitedCalls : List RuntimeCall :=
  let request := [Reference.stringAtom "p" ["a"], Reference.stringAtom "p" ["b"]]
  [.reloadFromSource {} "q(X) :- p(X).", .withMaxCreatedFacts 1,
    .executeQuery {} request "q(\"a\")", .queryWithSolutions {} request "q(X)"]

theorem cache_visible :
    (callResults Reference.mangle staleCalls {}).map readout =
        [none, some false, none, some false] ∧
      (callResults Reference.mangle staleCalls ({} : MangleRuntime _).bypassed).map readout =
        [none, some false, none, some true] ∧
      (callResults Reference.mangle limitedCalls {}).map readout =
        [none, none, some true, some false] ∧
      (callResults Reference.mangle limitedCalls ({} : MangleRuntime _).bypassed).map readout =
        [none, none, some true, some true] := by
  decide +kernel

def repeatedCalls : List RuntimeCall :=
  [.reloadFromSource {} "q(X) :- p(X).", .executeQuery {} [] "q(\"a\")",
    .executeQuery {} [] "q(\"a\")", .loadFacts {} ["p(\"a\")"], .executeQuery {} [] "q(\"a\")"]

theorem repeatedCalls_transparent :
    harmlessRun Reference.mangle repeatedCalls {} = true ∧
      callResults Reference.mangle repeatedCalls ({} : MangleRuntime _).bypassed =
        callResults Reference.mangle repeatedCalls {} := by
  have harmless : harmlessRun Reference.mangle repeatedCalls {} = true := by decide +kernel
  exact ⟨harmless, cache_transparent reference_keysInjective reference_deterministic .default
    rfl rfl rfl rfl harmless⟩

end Manglekit.Engine

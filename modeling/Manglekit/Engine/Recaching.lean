import Manglekit.Engine.ExplicitFacts
import Manglekit.Engine.Interchangeable

/-!
# States that differ in the version of their facts

An update that fails can leave all facts as they were, and still start a new version of
them and drop the cache.  Such states are told apart only by what is cached, since a
cached store spares an evaluation that could have failed.  With the same stores cached,
under the keys of each version, they answer all calls alike.
-/

namespace Manglekit.Engine

open Core Datalog Atomic Process

/-! ## States that differ in their caches -/

variable (source : String)

section Recached

variable {Key : Type}

/-- The runtime with another version of the same base facts and another cache. -/
def MangleRuntime.recached (runtime : MangleRuntime Key) (version : Nat)
    (cache : Option (List (Key × Store))) : MangleRuntime Key :=
  { runtime with baseVersion := version, idbCache := cache }

variable (mangle : Mangle Key)

/-- The stores that are evaluated for lists of facts, under the keys of this state. -/
def filedAs (runtime : MangleRuntime Key) (entries : List (List Datalog.Atom × Store)) :
    List (Key × Store) :=
  entries.map fun entry => (requestKey mangle runtime entry.1, entry.2)

/-- The states differ in the version of the base facts, and have the same stores cached
if they use the cache at all. -/
structure Shifted (first second : MangleRuntime Key) : Prop where
  recached : ∃ version cache, second = first.recached version cache
  cached : first.cacheable = true → ∃ entries,
    first.idbCache.getD [] = filedAs mangle first entries ∧
      second.idbCache.getD [] = filedAs mangle second entries

variable {mangle}

theorem Shifted.of_dropped {first : MangleRuntime Key} {version : Nat} {cache : Option _}
    (uncached : first.idbCache.getD [] = []) (otherUncached : cache.getD [] = []) :
    Shifted mangle first (first.recached version cache) :=
  ⟨⟨version, cache, rfl⟩, fun _ => ⟨[], uncached, otherUncached⟩⟩

variable {first second : MangleRuntime Key} {ctx : Context}

theorem Shifted.loadFactsBody (shifted : Shifted mangle first second) (facts : List String) :
    (loadFactsBody mangle ctx facts first).1 = (loadFactsBody mangle ctx facts second).1 ∧
      Shifted mangle (loadFactsBody mangle ctx facts first).2
        (loadFactsBody mangle ctx facts second).2 := by
  obtain ⟨⟨version, cache, rfl⟩, cached⟩ := shifted
  have added : addFacts mangle facts
      ((first.recached version cache).baseFactStore,
        (first.recached version cache).explicitFactStore) =
      addFacts mangle facts (first.baseFactStore, first.explicitFactStore) := rfl
  have active : (first.recached version cache).program = first.program := rfl
  unfold Engine.loadFactsBody
  rw [added, active]
  rcases addFacts mangle facts (first.baseFactStore, first.explicitFactStore) with
    ⟨stores, failure⟩
  cases failure with
  | some err => exact ⟨rfl, ⟨version, cache, rfl⟩, cached⟩
  | none =>
    cases first.program with
    | none => exact ⟨rfl, ⟨version, cache, rfl⟩, cached⟩
    | some program => exact ⟨rfl, .of_dropped rfl rfl⟩

theorem respects_addPolicy (persistent : Bool) :
    (addPolicy mangle ctx source persistent).Respects (Shifted mangle) := by
  unfold addPolicy
  split_ifs
  · exact respects_done _ _
  · dsimp only
    split
    · exact respects_done _ _
    next unit parsed =>
      refine respects_atomically fun first second shifted => ?_
      obtain ⟨⟨version, cache, rfl⟩, cached⟩ := shifted
      have external : (first.recached version cache).externalPreds = first.externalPreds := rfl
      have units : (first.recached version cache).ruleUnits = first.ruleUnits := rfl
      simp only [addPolicyBody, external, units]
      rcases buildProgram mangle _ _ _ with err | program
      · exact ⟨rfl, ⟨version, cache, rfl⟩, cached⟩
      · exact ⟨rfl, .of_dropped rfl rfl⟩

theorem respects_reloadFromSource :
    (reloadFromSource mangle ctx source).Respects (Shifted mangle) := by
  intro first second shifted
  obtain ⟨⟨version, cache, rfl⟩, cached⟩ := shifted
  have program : reloadProgram mangle source (first.recached version cache).persistentUnits
      (first.recached version cache).persistentSources
      ((first.recached version cache).externalPreds.map (·.1)) =
      reloadProgram mangle source first.persistentUnits first.persistentSources
        (first.externalPreds.map (·.1)) := rfl
  have evaluation : ∀ program, evaluate mangle ctx (first.recached version cache) program
      (factSnapshotOf (first.recached version cache)).merged =
      evaluate mangle ctx first program (factSnapshotOf first).merged := fun _ => rfl
  rw [exec_reloadFromSource, exec_reloadFromSource, program]
  simp only [evaluation]
  split_ifs
  · exact ⟨rfl, ⟨version, cache, rfl⟩, cached⟩
  · rcases reloadProgram mangle source _ _ _ with err | ⟨units, program⟩
    · exact ⟨rfl, ⟨version, cache, rfl⟩, cached⟩
    · dsimp only
      rcases evaluate mangle ctx first program _ with ⟨evaluated, _ | err⟩
      · exact ⟨rfl, .of_dropped rfl rfl⟩
      · exact ⟨rfl, ⟨version, cache, rfl⟩, cached⟩

theorem respects_load (path : String) (resolved : Except GoError (List SourceFile)) :
    (load mangle ctx path resolved).Respects (Shifted mangle) := by
  unfold load
  split_ifs
  · exact respects_done _ _
  · split
    · exact respects_done _ _
    · split
      · exact respects_done _ _
      · refine respects_atomically fun first second shifted => ?_
        obtain ⟨⟨version, cache, rfl⟩, cached⟩ := shifted
        exact ⟨rfl, .of_dropped rfl rfl⟩

/-! ## Queries -/

theorem respects_buildEvalOptions :
    (buildEvalOptionsLockedSnapshot : RuntimeM Key EvalOptions).Respects (Shifted mangle) := by
  intro first second shifted
  obtain ⟨version, cache, rfl⟩ := shifted.recached
  have active : (first.recached version cache).program = first.program := rfl
  have external : (first.recached version cache).externalPreds = first.externalPreds := rfl
  simp only [buildEvalOptionsLockedSnapshot, Process.bind_eq, Process.atomically_bind,
    Process.exec_step, active, external]
  cases first.program with
  | some program => exact ⟨rfl, shifted⟩
  | none => cases first.externalPreds <;> exact ⟨rfl, shifted⟩

variable [DecidableEq Key] (injective : mangle.KeysInjective)

include injective

omit [DecidableEq Key] in
theorem requestKey_inj (runtime : MangleRuntime Key) {facts others : List Datalog.Atom} :
    requestKey mangle runtime facts = requestKey mangle runtime others ↔ facts = others :=
  ⟨fun same => (injective _ _ _ _ _ _ same).2.2, fun same => same ▸ rfl⟩

theorem lookup_filedAs (runtime : MangleRuntime Key) (entries : List (List Datalog.Atom × Store))
    (facts : List Datalog.Atom) :
    (filedAs mangle runtime entries).lookup (requestKey mangle runtime facts) =
      entries.lookup facts := by
  induction entries with
  | nil => rfl
  | cons entry rest ih =>
    have sameTest : (requestKey mangle runtime facts == requestKey mangle runtime entry.1) =
        (facts == entry.1) := by
      rw [Bool.eq_iff_iff, beq_iff_eq, beq_iff_eq, requestKey_inj injective]
    rw [filedAs] at ih
    rw [filedAs, List.map_cons, List.lookup_cons, sameTest, ih, List.lookup_cons]

theorem insertEntry_filedAs (runtime : MangleRuntime Key)
    (entries : List (List Datalog.Atom × Store)) (facts : List Datalog.Atom) (store : Store) :
    insertEntry (requestKey mangle runtime facts) store (filedAs mangle runtime entries) =
      filedAs mangle runtime (insertEntry facts store entries) := by
  simp only [insertEntry, filedAs, List.map_cons, List.length_map]
  congr 1
  split_ifs
  · rfl
  · rw [List.filter_map]
    congr 1
    refine List.filter_congr fun entry _ => ?_
    simp only [Function.comp_apply, ne_eq, requestKey_inj injective]

variable {facts : List Datalog.Atom} {options : EvalOptions}

theorem Shifted.evaluateMiss (shifted : Shifted mangle first second)
    (allocated : first.idbCache.isSome) (otherAllocated : second.idbCache.isSome)
    (program : Program) (base : Store) :
    let result := (evaluateMiss mangle ctx facts options program base
      (some (requestKey mangle first facts))).exec first
    let other := (evaluateMiss mangle ctx facts options program base
      (some (requestKey mangle second facts))).exec second
    result.1 = other.1 ∧ Shifted mangle result.2 other.2 := by
  have sameTimeout : second.evalTimeout = first.evalTimeout := by
    obtain ⟨version, cache, rfl⟩ := shifted.recached
    rfl
  simp only [exec_evaluateMiss, sameTimeout, allocated, otherAllocated, if_true]
  cases ctx.err .workingStore with
  | some err => exact ⟨rfl, shifted⟩
  | none =>
    rcases evalStratifiedWithContext mangle ctx program (base.addAll facts) options
      first.evalTimeout with ⟨evaluated, _ | err⟩
    · refine ⟨rfl, ?_, fun cacheable => ?_⟩
      · obtain ⟨version, cache, rfl⟩ := shifted.recached
        exact ⟨version, _, rfl⟩
      · obtain ⟨entries, filed, otherFiled⟩ := shifted.cached cacheable
        obtain ⟨cache, firstCache⟩ := Option.isSome_iff_exists.mp allocated
        obtain ⟨other, secondCache⟩ := Option.isSome_iff_exists.mp otherAllocated
        rw [firstCache, Option.getD_some] at filed
        rw [secondCache, Option.getD_some] at otherFiled
        refine ⟨insertEntry facts evaluated entries, ?_, ?_⟩
        · simp only [firstCache, Option.map_some, Option.getD_some, filed]
          exact insertEntry_filedAs injective first entries facts evaluated
        · simp only [secondCache, Option.map_some, Option.getD_some, otherFiled]
          exact insertEntry_filedAs injective second entries facts evaluated
    · exact ⟨rfl, shifted⟩

omit injective in
omit [DecidableEq Key] in
theorem Shifted.allocated (shifted : Shifted mangle first second) :
    Shifted mangle first.allocated second.allocated := by
  obtain ⟨⟨version, cache, rfl⟩, cached⟩ := shifted
  exact ⟨⟨version, _, rfl⟩, cached⟩

theorem respects_evaluatedWorkingStore :
    (evaluatedWorkingStore mangle ctx facts options).Respects (Shifted mangle) := by
  intro first second shifted
  rw [exec_evaluatedWorkingStore, exec_evaluatedWorkingStore]
  obtain ⟨version, cache, same⟩ := shifted.recached
  have sameActive : second.program = first.program := by rw [same]; rfl
  have sameCacheable : second.cacheable = first.cacheable := by rw [same]; rfl
  have sameBase : second.baseFactStore = first.baseFactStore := by rw [same]; rfl
  have sameTimeout : second.evalTimeout = first.evalTimeout := by rw [same]; rfl
  cases active : first.program with
  | none =>
    rw [storeSnapshotBody_inactive active, storeSnapshotBody_inactive (sameActive.trans active)]
    exact ⟨rfl, shifted⟩
  | some program =>
    have otherActive := sameActive.trans active
    cases cacheable : first.cacheable with
    | false =>
      rw [storeSnapshotBody_uncacheable cacheable active,
        storeSnapshotBody_uncacheable (sameCacheable.trans cacheable) otherActive]
      simp only [exec_evaluateMiss, sameBase, sameTimeout]
      cases ctx.err .workingStore with
      | some err => exact ⟨rfl, shifted⟩
      | none =>
        rcases evalStratifiedWithContext mangle ctx program _ options first.evalTimeout with
          ⟨evaluated, _ | err⟩ <;> exact ⟨rfl, shifted⟩
    | true =>
      have otherCacheable := sameCacheable.trans cacheable
      obtain ⟨entries, filed, otherFiled⟩ := shifted.cached cacheable
      have lookup := lookup_filedAs injective first entries facts
      have otherLookup := lookup_filedAs injective second entries facts
      rw [← filed] at lookup
      rw [← otherFiled] at otherLookup
      cases found : entries.lookup facts with
      | some store =>
        rw [storeSnapshotBody_hit cacheable active (lookup.trans found),
          storeSnapshotBody_hit otherCacheable otherActive (otherLookup.trans found)]
        exact ⟨rfl, shifted.allocated⟩
      | none =>
        rw [storeSnapshotBody_miss cacheable active (lookup.trans found), storeSnapshotBody_miss
          otherCacheable otherActive (otherLookup.trans found), sameBase]
        exact shifted.allocated.evaluateMiss injective rfl rfl program _

theorem respects_executeQuery (query : String) :
    (executeQuery mangle ctx facts query).Respects (Shifted mangle) := by
  unfold executeQuery
  split
  · exact respects_done _ _
  · refine .bind (respects_evaluatedWorkingStore injective) fun answered => ?_
    cases answered <;> exact respects_done _ _

theorem respects_queryWithSolutions (query : String) :
    (queryWithSolutions mangle ctx facts query).Respects (Shifted mangle) := by
  unfold queryWithSolutions
  split
  · exact respects_done _ _
  · refine .bind respects_buildEvalOptions fun options => .bind ?_ fun limit =>
      .bind (respects_evaluatedWorkingStore injective) fun answered => ?_
    · refine respects_atomically fun first second shifted => ?_
      obtain ⟨version, cache, rfl⟩ := shifted.recached
      exact ⟨rfl, shifted⟩
    · cases answered <;> exact respects_done _ _

/-! ## Sequences of calls -/

theorem respects_call (call : RuntimeCall) : (call.process mangle).Respects (Shifted mangle) := by
  cases call with
  | loadFacts ctx facts =>
    exact .bind (respects_atomically fun _ _ shifted => shifted.loadFactsBody facts)
      fun _ => respects_done _ _
  | addPolicy ctx source persistent =>
    exact .bind (respects_addPolicy source persistent) fun _ => respects_done _ _
  | load ctx path resolved => exact .bind (respects_load path resolved) fun _ => respects_done _ _
  | reloadFromSource ctx source =>
    exact .bind (respects_reloadFromSource source) fun _ => respects_done _ _
  | withMaxCreatedFacts limit =>
    refine .bind (respects_atomically fun first second shifted => ?_) fun _ => respects_done _ _
    obtain ⟨⟨version, cache, rfl⟩, cached⟩ := shifted
    exact ⟨rfl, ⟨version, cache, rfl⟩, cached⟩
  | executeQuery ctx facts query =>
    exact .bind (respects_executeQuery injective query) fun _ => respects_done _ _
  | queryWithSolutions ctx facts query =>
    exact .bind (respects_queryWithSolutions injective query) fun _ => respects_done _ _

theorem callResults_shifted (shifted : Shifted mangle first second) (calls : List RuntimeCall) :
    callResults mangle calls first = callResults mangle calls second := by
  induction calls generalizing first second with
  | nil => rfl
  | cons call rest ih =>
    obtain ⟨same, after⟩ := respects_call injective call first second shifted
    rw [callResults, callResults, same, ih after]

end Recached

/-! ## Caches after calls -/

section Filed

variable {Key : Type} (mangle : Mangle Key)

/-- Every cached store is filed under a request about the current program and base facts. -/
def Filed (runtime : MangleRuntime Key) : Prop :=
  ∀ entry ∈ runtime.idbCache.getD [], ∃ facts, entry.1 = requestKey mangle runtime facts

variable {mangle} {runtime : MangleRuntime Key} {ctx : Context} {program : Program}
  {facts : List Datalog.Atom}

theorem filed_of_uncached (uncached : runtime.idbCache.getD [] = []) : Filed mangle runtime := by
  intro entry member
  rw [uncached] at member
  cases member

theorem Filed.loadFactsBody (filed : Filed mangle runtime) (texts : List String) :
    Filed mangle (loadFactsBody mangle ctx texts runtime).2 := by
  unfold Engine.loadFactsBody
  dsimp only
  split
  · exact filed
  · exact filed
  · exact filed_of_uncached rfl

theorem keeps_filed_addPolicy (persistent : Bool) :
    (addPolicy mangle ctx source persistent).Keeps (Filed mangle) := by
  unfold addPolicy
  split_ifs
  · exact keeps_done _ _
  · dsimp only
    split
    · exact keeps_done _ _
    · refine keeps_atomically fun runtime filed => ?_
      unfold addPolicyBody
      dsimp only
      split
      · exact filed
      · exact filed_of_uncached rfl

theorem keeps_filed_load (path : String) (resolved : Except GoError (List SourceFile)) :
    (load mangle ctx path resolved).Keeps (Filed mangle) := by
  unfold load
  split_ifs
  · exact keeps_done _ _
  · split
    · exact keeps_done _ _
    · split
      · exact keeps_done _ _
      · exact keeps_atomically fun _ _ => filed_of_uncached rfl

theorem keeps_filed_reloadFromSource :
    (reloadFromSource mangle ctx source).Keeps (Filed mangle) := by
  intro runtime filed
  rw [exec_reloadFromSource]
  split_ifs
  · exact filed
  · split
    · exact filed
    · split
      · exact filed
      · exact filed_of_uncached rfl

variable [DecidableEq Key] {options : EvalOptions}

theorem Filed.evaluateMiss (filed : Filed mangle runtime) (base : Store) :
    Filed mangle ((evaluateMiss mangle ctx facts options program base
      (some (requestKey mangle runtime facts))).exec runtime).2 := by
  rw [exec_evaluateMiss]
  split
  · exact filed
  · split
    · exact filed
    next evaluated _ =>
      intro entry member
      cases cache : runtime.idbCache with
      | none => simp [cache] at member
      | some entries =>
        simp only [cache, Option.map_some, Option.getD_some] at member
        rcases mem_insertEntry member with rfl | earlier
        · exact ⟨facts, rfl⟩
        · exact filed entry (by simpa [cache] using earlier)

theorem keeps_filed_evaluatedWorkingStore :
    (evaluatedWorkingStore mangle ctx facts options).Keeps (Filed mangle) := by
  intro runtime filed
  rw [exec_evaluatedWorkingStore]
  have allocated : Filed mangle runtime.allocated := filed
  cases active : runtime.program with
  | none =>
    rw [storeSnapshotBody_inactive active]
    exact filed
  | some program =>
    cases cacheable : runtime.cacheable with
    | false =>
      rw [storeSnapshotBody_uncacheable cacheable active]
      dsimp only
      rw [evaluateMiss_uncached]
      exact filed
    | true =>
      cases found : (runtime.idbCache.getD []).lookup (requestKey mangle runtime facts) with
      | some store =>
        rw [storeSnapshotBody_hit cacheable active found]
        exact allocated
      | none =>
        rw [storeSnapshotBody_miss cacheable active found]
        exact allocated.evaluateMiss _

theorem keeps_filed_call (call : RuntimeCall) : (call.process mangle).Keeps (Filed mangle) := by
  cases call with
  | loadFacts ctx texts =>
    exact .bind (keeps_atomically fun _ filed => filed.loadFactsBody texts) fun _ => keeps_done _ _
  | addPolicy ctx source persistent =>
    exact .bind (keeps_filed_addPolicy source persistent) fun _ => keeps_done _ _
  | load ctx path resolved =>
    exact .bind (keeps_filed_load path resolved) fun _ => keeps_done _ _
  | reloadFromSource ctx source =>
    exact .bind (keeps_filed_reloadFromSource source) fun _ => keeps_done _ _
  | withMaxCreatedFacts limit =>
    exact .bind (keeps_atomically fun _ filed => filed) fun _ => keeps_done _ _
  | executeQuery ctx facts query =>
    exact .bind (keeps_executeQuery keeps_filed_evaluatedWorkingStore query) fun _ => keeps_done _ _
  | queryWithSolutions ctx facts query =>
    exact .bind (keeps_queryWithSolutions (fun _ => keeps_filed_evaluatedWorkingStore) query)
      fun _ => keeps_done _ _

theorem filed_afterCalls (filed : Filed mangle runtime) (calls : List RuntimeCall) :
    Filed mangle (afterCalls mangle runtime calls) := by
  induction calls generalizing runtime with
  | nil => exact filed
  | cons call rest ih =>
    exact ih (keeps_filed_call call runtime filed)

end Filed

end Manglekit.Engine

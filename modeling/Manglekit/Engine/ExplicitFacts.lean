import Manglekit.Engine.CacheTransparency
import Manglekit.Engine.LostUpdates

/-!
# Explicitly loaded facts

Facts that were loaded with success stay: through added and replaced policies, whether
these calls succeed or fail, and whatever the programs derive.  `Retains` is what one
call after another preserves.  Cached stores are part of it, since a query may read one.
-/

namespace Manglekit.Engine

open Core Datalog Atomic Process

section Calls

variable {Key : Type} [DecidableEq Key] (mangle : Mangle Key)

/-- All calls but the one that replaces the facts by those of files. -/
def RuntimeCall.keepsFacts : RuntimeCall → Bool
  | .load .. => false
  | _ => true

def afterCalls (start : MangleRuntime Key) (calls : List RuntimeCall) : MangleRuntime Key :=
  calls.foldl (fun runtime call => ((call.process mangle).exec runtime).2) start

end Calls

section Retained

variable {Key : Type} {mangle : Mangle Key} {runtime : MangleRuntime Key}
  {loaded : Set Datalog.Atom} {ctx : Context}

/-- The loaded facts are explicit, the explicit facts are base facts, and every cached
store holds the loaded ones.  Before there is a program, nothing is cached. -/
structure Retains (loaded : Set Datalog.Atom) (runtime : MangleRuntime Key) : Prop where
  loaded_subset : loaded ⊆ runtime.explicitFactStore.toSet
  explicit_subset : runtime.explicitFactStore.toSet ⊆ runtime.baseFactStore.toSet
  cached : ∀ entry ∈ runtime.idbCache.getD [], loaded ⊆ entry.2.toSet
  idle : runtime.program = none → runtime.idbCache.getD [] = []

theorem Retains.base (retains : Retains loaded runtime) : loaded ⊆ runtime.baseFactStore.toSet :=
  retains.loaded_subset.trans retains.explicit_subset

theorem retains_new (fresh : runtime.New) : Retains ∅ runtime where
  loaded_subset := Set.empty_subset _
  explicit_subset := by
    rw [← fresh]
    exact Set.Subset.refl _
  cached _ _ := Set.empty_subset _
  idle _ := by
    rw [← fresh]
    rfl

theorem Retains.dropped {after : MangleRuntime Key}
    (explicit : loaded ⊆ after.explicitFactStore.toSet)
    (subset : after.explicitFactStore.toSet ⊆ after.baseFactStore.toSet)
    (uncached : after.idbCache.getD [] = []) : Retains loaded after where
  loaded_subset := explicit
  explicit_subset := subset
  cached entry member := by
    rw [uncached] at member
    cases member
  idle _ := uncached

/-! ## Facts -/

theorem addFacts_subset (facts : List String) {stores : Store × Store}
    (subset : stores.2.toSet ⊆ stores.1.toSet) :
    (addFacts mangle facts stores).1.2.toSet ⊆ (addFacts mangle facts stores).1.1.toSet := by
  induction facts generalizing stores with
  | nil => exact subset
  | cons text rest ih =>
    simp only [addFacts]
    split
    · exact subset
    · apply ih
      intro atom member
      exact Store.mem_add.mpr ((Store.mem_add.mp member).imp_left (subset ·))

theorem explicit_subset_loadFactsBody (adds : mangle.OnlyAdds) (facts : List String)
    (subset : runtime.explicitFactStore.toSet ⊆ runtime.baseFactStore.toSet) :
    (loadFactsBody mangle ctx facts runtime).2.explicitFactStore.toSet ⊆
      (loadFactsBody mangle ctx facts runtime).2.baseFactStore.toSet := by
  intro atom member
  rw [Store.mem_toSet, explicit_loadFactsBody] at member
  exact mem_loadFactsBody adds (addFacts_subset facts subset member)

variable (mangle ctx runtime) in
theorem cache_loadFactsBody (facts : List String) :
    (loadFactsBody mangle ctx facts runtime).2.program = runtime.program ∧
      ((loadFactsBody mangle ctx facts runtime).2.idbCache = none ∨
        ((loadFactsBody mangle ctx facts runtime).2.idbCache = runtime.idbCache ∧
          ((loadFactsBody mangle ctx facts runtime).1 = none → runtime.program = none))) := by
  unfold loadFactsBody
  rcases addFacts mangle facts (runtime.baseFactStore, runtime.explicitFactStore) with
    ⟨stores, failure⟩
  cases failure with
  | some err => exact ⟨rfl, .inr ⟨rfl, fun success => by cases success⟩⟩
  | none =>
    cases active : runtime.program with
    | none => exact ⟨rfl, .inr ⟨rfl, fun _ => rfl⟩⟩
    | some program => exact ⟨rfl, .inl rfl⟩

section

variable (adds : mangle.OnlyAdds) (retains : Retains loaded runtime)

include adds retains

theorem Retains.loadFactsBody
    (facts : List String) : Retains loaded (loadFactsBody mangle ctx facts runtime).2 := by
  obtain ⟨program, cache⟩ := cache_loadFactsBody mangle runtime ctx facts
  refine ⟨fun atom member => ?_, explicit_subset_loadFactsBody adds facts retains.explicit_subset,
    ?_, ?_⟩
  · rw [explicit_loadFactsBody]
    exact (mem_addFacts mangle facts _).2 atom (retains.loaded_subset member)
  · rcases cache with dropped | ⟨same, _⟩
    · simp [dropped]
    · rw [same]
      exact retains.cached
  · intro inactive
    rcases cache with dropped | ⟨same, _⟩
    · simp [dropped]
    · rw [same]
      exact retains.idle (program ▸ inactive)

theorem Retains.loadFactsBody_of_success {facts : List String} {atoms : List Datalog.Atom}
    (parsed : Parsed mangle facts atoms)
    (success : (Engine.loadFactsBody mangle ctx facts runtime).1 = none) :
    Retains (loaded ∪ {atom | atom ∈ atoms}) (Engine.loadFactsBody mangle ctx facts runtime).2 := by
  obtain ⟨_, cache⟩ := cache_loadFactsBody mangle runtime ctx facts
  refine .dropped ?_ (explicit_subset_loadFactsBody adds facts retains.explicit_subset) ?_
  · rw [explicit_loadFactsBody, addFacts_parsed parsed]
    rintro atom (earlier | now)
    · exact Store.mem_addAll.mpr (.inl (retains.loaded_subset earlier))
    · exact Store.mem_addAll.mpr (.inr now)
  · rcases cache with dropped | ⟨same, inactive⟩
    · simp [dropped]
    · rw [same]
      exact retains.idle (inactive success)

end

/-! ## Policies -/

theorem keeps_addPolicy (adds : mangle.OnlyAdds) (source : String) (persistent : Bool) :
    (addPolicy mangle ctx source persistent).Keeps (Retains loaded) := by
  unfold addPolicy
  split_ifs
  · exact keeps_done _ _
  · dsimp only
    split
    · exact keeps_done _ _
    · refine keeps_atomically fun runtime retains => ?_
      unfold addPolicyBody
      dsimp only
      split
      · exact retains
      · refine .dropped retains.loaded_subset (fun atom member => ?_) rfl
        exact mem_evaluate adds (retains.explicit_subset member)

/-- A reload drops what the old program derives, but no explicit fact. -/
theorem keeps_reloadFromSource (adds : mangle.OnlyAdds) (source : String) :
    (reloadFromSource mangle ctx source).Keeps (Retains loaded) := by
  intro runtime retains
  rw [exec_reloadFromSource]
  split_ifs
  · exact retains
  · split
    · exact retains
    · split
      · exact retains
      next evaluated evaluation =>
        refine .dropped retains.loaded_subset (fun atom member => ?_) rfl
        have kept : atom ∈ (factSnapshotOf runtime).merged :=
          mem_merged.mpr ⟨retains.explicit_subset member, .inr member⟩
        have result : evaluated = (evaluate mangle ctx runtime _ _).1 :=
          (congrArg Prod.fst evaluation).symm
        exact Store.mem_toSet.mpr (result ▸ mem_evaluate adds kept)

/-! ## Queries -/

theorem mem_evalStratified (adds : mangle.OnlyAdds) {program : Program} {store : Store}
    {options : EvalOptions} {timeout : Nat} {atom : Datalog.Atom} (member : atom ∈ store) :
    atom ∈ (evalStratifiedWithContext mangle ctx program store options timeout).1 := by
  unfold evalStratifiedWithContext
  split
  · exact member
  · exact adds _ _ _ _ _ _ member

theorem Retains.allocated (retains : Retains loaded runtime) : Retains loaded runtime.allocated :=
  ⟨retains.loaded_subset, retains.explicit_subset, retains.cached, retains.idle⟩

variable [DecidableEq Key] {request : List Datalog.Atom} {options : EvalOptions}

section

variable (adds : mangle.OnlyAdds) (retains : Retains loaded runtime)

include adds retains

theorem Retains.evaluateMiss
    {program : Program} (active : runtime.program = some program) (key : Option Key) :
    Retains loaded
        ((evaluateMiss mangle ctx request options program runtime.baseFactStore key).exec
          runtime).2 ∧
      ∀ store,
        ((evaluateMiss mangle ctx request options program runtime.baseFactStore key).exec
          runtime).1 = .ok (.ok store) → loaded ⊆ store.toSet := by
  have visible : ∀ evaluated, evalStratifiedWithContext mangle ctx program
      (runtime.baseFactStore.addAll request) options runtime.evalTimeout = (evaluated, none) →
      loaded ⊆ evaluated.toSet := by
    intro evaluated evaluation atom member
    have result : evaluated = (evalStratifiedWithContext mangle ctx program
      (runtime.baseFactStore.addAll request) options runtime.evalTimeout).1 := by rw [evaluation]
    rw [Store.mem_toSet, result]
    exact mem_evalStratified adds (Store.mem_addAll.mpr (.inl (retains.base member)))
  refine ⟨?_, fun store answered => visible store (evaluation_of_miss answered)⟩
  rw [exec_evaluateMiss]
  split
  · exact retains
  · split
    · exact retains
    next evaluated evaluation =>
      cases key with
      | none => exact retains
      | some key =>
        refine ⟨retains.loaded_subset, retains.explicit_subset, ?_, ?_⟩
        · cases cache : runtime.idbCache with
          | none => simp
          | some entries =>
            intro entry member
            rcases mem_insertEntry member with rfl | earlier
            · exact visible evaluated evaluation
            · refine retains.cached entry ?_
              rw [cache]
              exact earlier
        · intro inactive
          rw [active] at inactive
          cases inactive

theorem Retains.evaluatedWorkingStore :
    Retains loaded ((evaluatedWorkingStore mangle ctx request options).exec runtime).2 ∧
      ∀ store, Visible mangle runtime ctx request options store → loaded ⊆ store.toSet := by
  unfold Visible
  rw [exec_evaluatedWorkingStore]
  cases active : runtime.program with
  | none => exact ⟨by simpa [storeSnapshotBody, active] using retains, by
      simp [storeSnapshotBody, active]⟩
  | some program =>
    cases cacheable : runtime.cacheable with
    | false =>
      rw [storeSnapshotBody_uncacheable cacheable active]
      exact retains.evaluateMiss adds active none
    | true =>
      cases found : (runtime.idbCache.getD []).lookup (requestKey mangle runtime request) with
      | some store =>
        rw [storeSnapshotBody_hit cacheable active found]
        refine ⟨retains.allocated, ?_⟩
        rintro _ ⟨⟩
        exact retains.cached _ (mem_of_lookup found)
      | none =>
        rw [storeSnapshotBody_miss cacheable active found]
        exact retains.allocated.evaluateMiss adds active _

end

variable {invariant : MangleRuntime Key → Prop}

theorem keeps_executeQuery
    (kept : (evaluatedWorkingStore mangle ctx request {}).Keeps invariant) (query : String) :
    (executeQuery mangle ctx request query).Keeps invariant := by
  unfold executeQuery
  split
  · exact keeps_done _ _
  · refine .bind kept fun answered => ?_
    cases answered <;> exact keeps_done _ _

omit [DecidableEq Key] in
theorem keeps_buildEvalOptions (invariant : MangleRuntime Key → Prop) :
    (buildEvalOptionsLockedSnapshot : RuntimeM Key EvalOptions).Keeps invariant := by
  unfold buildEvalOptionsLockedSnapshot
  refine .bind (keeps_atomically fun _ holds => holds) fun program =>
    .bind (keeps_atomically fun _ holds => holds) fun settings => ?_
  cases program with
  | some program => exact keeps_done _ _
  | none =>
    dsimp only
    split_ifs
    · exact keeps_done _ _
    · exact keeps_abort _ _

theorem keeps_queryWithSolutions
    (kept : ∀ options, (evaluatedWorkingStore mangle ctx request options).Keeps invariant)
    (query : String) : (queryWithSolutions mangle ctx request query).Keeps invariant := by
  unfold queryWithSolutions
  split
  · exact keeps_done _ _
  · refine .bind (keeps_buildEvalOptions _) fun options =>
      .bind (keeps_atomically fun _ holds => holds) fun limit => .bind (kept _) fun answered => ?_
    cases answered <;> exact keeps_done _ _

theorem keeps_evaluatedWorkingStore (adds : mangle.OnlyAdds) :
    (evaluatedWorkingStore mangle ctx request options).Keeps (Retains loaded) :=
  fun _ retains => (retains.evaluatedWorkingStore adds).1

/-! ## Sequences of calls -/

theorem keeps_call (adds : mangle.OnlyAdds) {call : RuntimeCall}
    (keeps : call.keepsFacts = true) : (call.process mangle).Keeps (Retains loaded) := by
  cases call with
  | loadFacts ctx facts =>
    exact .bind (keeps_atomically fun _ retains => retains.loadFactsBody adds facts)
      fun _ => keeps_done _ _
  | addPolicy ctx source persistent =>
    exact .bind (keeps_addPolicy adds source persistent) fun _ => keeps_done _ _
  | load ctx path resolved => cases keeps
  | reloadFromSource ctx source =>
    exact .bind (keeps_reloadFromSource adds source) fun _ => keeps_done _ _
  | withMaxCreatedFacts limit =>
    refine .bind (keeps_atomically fun runtime retains => ?_) fun _ => keeps_done _ _
    exact ⟨retains.loaded_subset, retains.explicit_subset, retains.cached, retains.idle⟩
  | executeQuery ctx request query =>
    exact .bind (keeps_executeQuery (keeps_evaluatedWorkingStore adds) query)
      fun _ => keeps_done _ _
  | queryWithSolutions ctx request query =>
    exact .bind (keeps_queryWithSolutions (fun _ => keeps_evaluatedWorkingStore adds) query)
      fun _ => keeps_done _ _

theorem retains_afterCalls (adds : mangle.OnlyAdds) (retains : Retains loaded runtime)
    {calls : List RuntimeCall} (kept : ∀ call ∈ calls, call.keepsFacts = true) :
    Retains loaded (afterCalls mangle runtime calls) := by
  induction calls generalizing runtime with
  | nil => exact retains
  | cons call rest ih =>
    obtain ⟨keeps, later⟩ := List.forall_mem_cons.mp kept
    exact ih (keeps_call adds keeps runtime retains) later

/-- After any calls, succeeding or failing, the explicit facts are base facts, and every
query reads all facts of every load of facts that succeeded. -/
theorem loaded_facts_survive (adds : mangle.OnlyAdds) {start : MangleRuntime Key}
    (fresh : start.New) {calls : List RuntimeCall}
    (kept : ∀ call ∈ calls, call.keepsFacts = true) :
    (afterCalls mangle start calls).explicitFactStore.toSet ⊆
        (afterCalls mangle start calls).baseFactStore.toSet ∧
      ∀ before ctx facts later, calls = before ++ .loadFacts ctx facts :: later →
        (((RuntimeCall.loadFacts ctx facts).process mangle).exec
          (afterCalls mangle start before)).1 = .ok (.updated none) →
        ∀ text ∈ facts, ∃ atom, mangle.parseAtom text = .ok atom ∧
          ∀ queryCtx request options store,
            Visible mangle (afterCalls mangle start calls) queryCtx request options store →
              atom ∈ store := by
  refine ⟨(retains_afterCalls adds (retains_new fresh) kept).explicit_subset, ?_⟩
  rintro before ctx facts later rfl success text listed
  obtain ⟨keptBefore, keptLater⟩ := List.forall_mem_append.mp kept
  have reached := retains_afterCalls adds (retains_new fresh) keptBefore
  have succeeded : (loadFactsBody mangle ctx facts (afterCalls mangle start before)).1 = none :=
    CallResult.updated.inj (Except.ok.inj success)
  obtain ⟨atoms, parsed⟩ := parsed_of_loadFactsBody succeeded
  obtain ⟨atom, member, parses⟩ := parsed.exists_of_mem listed
  have loadedNow := reached.loadFactsBody_of_success adds parsed succeeded
  have final := retains_afterCalls adds loadedNow (List.forall_mem_cons.mp keptLater).2
  have split : afterCalls mangle start (before ++ .loadFacts ctx facts :: later) =
      afterCalls mangle
        (loadFactsBody mangle ctx facts (afterCalls mangle start before)).2 later := by
    rw [afterCalls, List.foldl_append]
    rfl
  refine ⟨atom, parses, fun queryCtx request options store visible => ?_⟩
  rw [split] at visible
  exact (final.evaluatedWorkingStore adds).2 store visible (.inr member)

end Retained

/-! ## A fact of a predicate that a policy derives -/

/-- The facts are loaded, a policy derives their predicate, a query is asked, another
reload does not parse, and a last one replaces the policy. -/
def survivingCalls : List RuntimeCall :=
  [.loadFacts {} ["p(\"a\")"], .reloadFromSource {} "p(\"b\") :- q(\"b\").",
    .executeQuery {} [] "p(\"a\")", .reloadFromSource {} "p(", .addPolicy {} "q(\"b\")." false,
    .reloadFromSource {} "r(\"c\")."]

theorem loadedFact_survives :
    ∃ store, Visible Reference.mangle (afterCalls Reference.mangle {} survivingCalls) {} [] {}
      store ∧ ∃ atom ∈ store, Reference.mangle.parseAtom "p(\"a\")" = .ok atom := by
  have answered : (((evaluatedWorkingStore Reference.mangle {} [] {}).exec
      (afterCalls Reference.mangle {} survivingCalls)).1.toOption.bind Except.toOption).isSome := by
    decide +kernel
  have loads : ((RuntimeCall.process Reference.mangle (.loadFacts {} ["p(\"a\")"])).exec
      (afterCalls Reference.mangle {} [])).1 = .ok (.updated none) := by
    rfl
  rcases answer : ((evaluatedWorkingStore Reference.mangle {} [] {}).exec
      (afterCalls Reference.mangle {} survivingCalls)).1 with fault | (err | store)
  · rw [answer] at answered
    cases answered
  · rw [answer] at answered
    cases answered
  · have kept : ∀ call ∈ survivingCalls, call.keepsFacts = true := by decide
    have survive := loaded_facts_survive reference_onlyAdds MangleRuntime.New.default kept
    obtain ⟨atom, parses, seen⟩ := survive.2 [] {} ["p(\"a\")"] _ rfl loads "p(\"a\")" (by simp)
    exact ⟨store, answer, atom, seen _ _ _ _ answer, parses⟩

end Manglekit.Engine

import Manglekit.Engine.GroundQueries
import Manglekit.Engine.Recaching

/-!
# Updates that fail

Loading facts and adding a policy change the state as they go.  An error in the middle
leaves what was done before it: the facts in front of a malformed one, and the program
and the units of a policy whose evaluation fails.
-/

namespace Manglekit.Engine

open Core Datalog Atomic Process

/-! ## Incremental updates -/

inductive IncrementalUpdate where
  | loadFacts (ctx : Context) (facts : List String)
  | addPolicy (ctx : Context) (source : String) (persistent : Bool)

section Updates

variable {Key : Type} [DecidableEq Key] (mangle : Mangle Key)

def IncrementalUpdate.process : IncrementalUpdate → RuntimeM Key (Option GoError)
  | .loadFacts ctx facts => Engine.loadFacts mangle ctx facts
  | .addPolicy ctx source persistent => Engine.addPolicy mangle ctx source persistent

/-- The program with its units, the facts and the persistent units are the same, and no
later calls tell the states apart. -/
structure Unchanged (before after : MangleRuntime Key) : Prop where
  program : after.program = before.program
  ruleUnits : after.ruleUnits = before.ruleUnits
  base : after.baseFactStore = before.baseFactStore
  explicit : after.explicitFactStore = before.explicitFactStore
  persistentUnits : after.persistentUnits = before.persistentUnits
  persistentSources : after.persistentSources = before.persistentSources
  later : ∀ calls, callResults mangle calls after = callResults mangle calls before

def IncrementalUpdate.FailsCleanly (runtime : MangleRuntime Key) (update : IncrementalUpdate) :
    Prop :=
  ∀ err, ((update.process mangle).exec runtime).1 = .ok (some err) →
    Unchanged mangle runtime ((update.process mangle).exec runtime).2

omit [DecidableEq Key] in
/-- The facts in front of the first text that does not parse. -/
def leadingFacts : List String → List Datalog.Atom
  | [] => []
  | text :: rest =>
    match mangle.parseAtom text with
    | .error _ => []
    | .ok atom => atom :: leadingFacts rest

omit [DecidableEq Key] in
def Malformed (facts : List String) : Prop :=
  ∃ text ∈ facts, ∃ err, mangle.parseAtom text = .error err

omit [DecidableEq Key] in
/-- An update that fails leaves no trace.  Facts in front of a malformed one were there
before; an evaluation that fails leaves the base facts as they were, after facts that were
loaded before, and there is no cached store that could be missed; and a policy that can be
combined with the others also evaluates. -/
def IncrementalUpdate.Traceless (runtime : MangleRuntime Key) : IncrementalUpdate → Prop
  | .loadFacts ctx facts =>
    (Malformed mangle facts → ∀ atom ∈ leadingFacts mangle facts,
      atom ∈ runtime.baseFactStore ∧ atom ∈ runtime.explicitFactStore) ∧
    (¬ Malformed mangle facts → ∀ program, runtime.program = some program →
      (evaluate mangle ctx runtime program
        (runtime.baseFactStore.addAll (leadingFacts mangle facts))).2 ≠ none →
      (∀ atom ∈ leadingFacts mangle facts, atom ∈ runtime.explicitFactStore) ∧
        (evaluate mangle ctx runtime program
          (runtime.baseFactStore.addAll (leadingFacts mangle facts))).1 =
            runtime.baseFactStore ∧
        (runtime.cacheable = true → runtime.idbCache.getD [] = []))
  | .addPolicy ctx source _ =>
    ∀ unit program, source ≠ "" → mangle.parseUnit (cleanSource source.toList) = .ok unit →
      buildProgram mangle (runtime.externalPreds.map (·.1)) (runtime.ruleUnits ++ [unit])
        "combined program" = .ok program →
      (evaluate mangle ctx runtime program runtime.baseFactStore).2 = none

variable {mangle}

omit [DecidableEq Key] in
variable (mangle) in
theorem addFacts_stores (facts : List String) (stores : Store × Store) :
    (addFacts mangle facts stores).1 =
      (stores.1.addAll (leadingFacts mangle facts),
        stores.2.addAll (leadingFacts mangle facts)) := by
  induction facts generalizing stores with
  | nil => rfl
  | cons text rest ih =>
    simp only [addFacts, leadingFacts]
    cases mangle.parseAtom text with
    | error err => rfl
    | ok atom => exact ih _

omit [DecidableEq Key] in
variable (mangle) in
theorem addFacts_fails_iff (facts : List String) (stores : Store × Store) :
    (addFacts mangle facts stores).2 ≠ none ↔ Malformed mangle facts := by
  induction facts generalizing stores with
  | nil => simp [addFacts, Malformed]
  | cons text rest ih =>
    simp only [addFacts, Malformed, List.mem_cons, exists_eq_or_imp]
    cases parsed : mangle.parseAtom text with
    | error err => simp
    | ok atom => simpa [Malformed] using ih _

/-- Adding facts changes a store unless it holds them. -/
theorem addAll_eq_self_iff {store : Store} {atoms : List Datalog.Atom} :
    store.addAll atoms = store ↔ ∀ atom ∈ atoms, atom ∈ store := by
  constructor
  · intro same atom member
    rw [← same]
    exact Store.mem_addAll.mpr (.inr member)
  · intro held
    induction atoms with
    | nil => rfl
    | cons atom rest ih =>
      obtain ⟨present, others⟩ := List.forall_mem_cons.mp held
      have unfolded : store.addAll (atom :: rest) = (store.add atom).addAll rest := rfl
      have same : store.add atom = store := dif_pos present
      rw [unfolded, same, ih others]

/-! ### Telling states apart -/

def cancelledAfterLookup (err : GoError) : Context where
  err place := if place = .workingStore then some err else none

variable {runtime : MangleRuntime Key} {program : Program} {facts : List Datalog.Atom}
  {query : String} {err : GoError}

section

variable (cacheable : runtime.cacheable = true) (active : runtime.program = some program)

include cacheable active

theorem callResults_hit {store : Store}
    (found : (runtime.idbCache.getD []).lookup (requestKey mangle runtime facts) = some store) :
    callResults mangle [.executeQuery (cancelledAfterLookup err) facts query] runtime =
      [.ok (.answer (holdsIn mangle.parseAtom store query))] := by
  have answered : (executeQuery mangle (cancelledAfterLookup err) facts query).exec runtime =
      (.ok (holdsIn mangle.parseAtom store query), runtime.allocated) := by
    rw [exec_executeQuery rfl, Process.bind_eq, exec_bind, exec_evaluatedWorkingStore,
      storeSnapshotBody_hit cacheable active found]
    rfl
  simp only [callResults, RuntimeCall.process, Process.bind_eq, exec_bind, answered]
  rfl

theorem callResults_miss
    (missing : (runtime.idbCache.getD []).lookup (requestKey mangle runtime facts) = none) :
    callResults mangle [.executeQuery (cancelledAfterLookup err) facts query] runtime =
      [.ok (.answer (.error err))] := by
  have answered : (executeQuery mangle (cancelledAfterLookup err) facts query).exec runtime =
      (.ok (.error err), runtime.allocated) := by
    rw [exec_executeQuery rfl, Process.bind_eq, exec_bind, exec_evaluatedWorkingStore,
      storeSnapshotBody_miss cacheable active missing]
    simp only [exec_evaluateMiss, cancelledAfterLookup, if_true]
    rfl
  simp only [callResults, RuntimeCall.process, Process.bind_eq, exec_bind, answered]
  rfl

end

theorem uncached_of_callResults {after : MangleRuntime Key} (filed : Filed mangle runtime)
    (cacheable : runtime.cacheable = true) (active : runtime.program = some program)
    (afterCacheable : after.cacheable = true) (afterActive : after.program = some program)
    (dropped : after.idbCache = none)
    (same : ∀ calls, callResults mangle calls after = callResults mangle calls runtime) :
    runtime.idbCache.getD [] = [] := by
  by_contra nonempty
  obtain ⟨entry, member⟩ := List.exists_mem_of_ne_nil _ nonempty
  obtain ⟨facts, keyed⟩ := filed entry member
  have missing : (after.idbCache.getD []).lookup (requestKey mangle after facts) = none := by
    simp [dropped]
  cases found : (runtime.idbCache.getD []).lookup (requestKey mangle runtime facts) with
  | none =>
    have differs := List.lookup_eq_none_iff.mp found entry member
    simp [keyed] at differs
  | some store =>
    -- Whatever the cached store answers, it is not both of two errors.
    have answers : ∀ err, holdsIn mangle.parseAtom store "" = .error err := by
      intro err
      have told := same [.executeQuery (cancelledAfterLookup err) facts ""]
      rw [callResults_miss afterCacheable afterActive missing,
        callResults_hit cacheable active found] at told
      simpa using told.symm
    have one := (answers (.text "a")).symm.trans (answers (.text "b"))
    simp at one

/-! ### Loading facts -/

variable {ctx : Context} {texts : List String}

omit [DecidableEq Key] in
variable (mangle runtime ctx texts) in
theorem loadFactsBody_cases :
    (Malformed mangle texts ∧ ∃ err, loadFactsBody mangle ctx texts runtime = (some err,
      { runtime with
        baseFactStore := runtime.baseFactStore.addAll (leadingFacts mangle texts)
        explicitFactStore := runtime.explicitFactStore.addAll (leadingFacts mangle texts) })) ∨
    (¬ Malformed mangle texts ∧ runtime.program = none ∧
      (loadFactsBody mangle ctx texts runtime).1 = none) ∨
    (¬ Malformed mangle texts ∧ ∃ program, runtime.program = some program ∧
      loadFactsBody mangle ctx texts runtime =
        ((evaluate mangle ctx runtime program
            (runtime.baseFactStore.addAll (leadingFacts mangle texts))).2.map
              (.wrap "failed to evaluate program with new facts"),
          { runtime with
            baseFactStore := (evaluate mangle ctx runtime program
              (runtime.baseFactStore.addAll (leadingFacts mangle texts))).1
            explicitFactStore := runtime.explicitFactStore.addAll (leadingFacts mangle texts)
            baseVersion := runtime.baseVersion + 1
            idbCache := none })) := by
  have stores := addFacts_stores mangle texts (runtime.baseFactStore, runtime.explicitFactStore)
  have fails := addFacts_fails_iff mangle texts (runtime.baseFactStore, runtime.explicitFactStore)
  unfold loadFactsBody
  generalize addFacts mangle texts (runtime.baseFactStore, runtime.explicitFactStore) = result
    at stores fails ⊢
  obtain ⟨added, failure⟩ := result
  cases stores
  cases failure with
  | some err => exact .inl ⟨fails.mp (by simp), err, rfl⟩
  | none =>
    have wellFormed : ¬ Malformed mangle texts := fun malformed => fails.mpr malformed rfl
    cases active : runtime.program with
    | none => exact .inr (.inl ⟨wellFormed, rfl, rfl⟩)
    | some program => exact .inr (.inr ⟨wellFormed, program, rfl, rfl⟩)

theorem loadFacts_clean_iff (injective : mangle.KeysInjective) (filed : Filed mangle runtime) :
    (IncrementalUpdate.loadFacts ctx texts).FailsCleanly mangle runtime ↔
      (IncrementalUpdate.loadFacts ctx texts).Traceless mangle runtime := by
  have executed : ((IncrementalUpdate.loadFacts ctx texts).process mangle).exec runtime =
      (.ok (loadFactsBody mangle ctx texts runtime).1,
        (loadFactsBody mangle ctx texts runtime).2) := rfl
  unfold IncrementalUpdate.FailsCleanly
  rw [executed]
  rcases loadFactsBody_cases mangle runtime ctx texts with ⟨malformed, err, body⟩ |
    ⟨wellFormed, inactive, succeeded⟩ | ⟨wellFormed, program, active, body⟩
  · rw [body]
    constructor
    · intro clean
      have unchanged := clean err rfl
      refine ⟨fun _ atom member => ?_, fun wellFormed => absurd malformed wellFormed⟩
      exact ⟨addAll_eq_self_iff.mp unchanged.base atom member,
        addAll_eq_self_iff.mp unchanged.explicit atom member⟩
    · rintro ⟨known, -⟩ _ -
      have base := addAll_eq_self_iff.mpr fun atom member => (known malformed atom member).1
      have explicit := addAll_eq_self_iff.mpr fun atom member => (known malformed atom member).2
      rw [base, explicit]
      exact ⟨rfl, rfl, rfl, rfl, rfl, rfl, fun _ => rfl⟩
  · refine iff_of_true (fun err failed => ?_) ⟨fun malformed => absurd malformed wellFormed,
      fun _ program active => ?_⟩
    · rw [succeeded] at failed
      cases failed
    · rw [inactive] at active
      cases active
  · rw [body]
    constructor
    · intro clean
      refine ⟨fun malformed => absurd malformed wellFormed, fun _ current sameActive failed => ?_⟩
      cases active.symm.trans sameActive
      obtain ⟨err, failure⟩ := Option.ne_none_iff_exists'.mp failed
      have unchanged := clean (.wrap "failed to evaluate program with new facts" err)
        (by rw [failure]; rfl)
      refine ⟨addAll_eq_self_iff.mp unchanged.explicit, unchanged.base, fun cacheable => ?_⟩
      refine uncached_of_callResults filed cacheable active ?_ ?_ ?_ unchanged.later
      · exact cacheable
      · exact active
      · rfl
    · rintro ⟨-, traceless⟩ err failed
      have evaluationFailed : (evaluate mangle ctx runtime program
          (runtime.baseFactStore.addAll (leadingFacts mangle texts))).2 ≠ none := by
        intro succeeded
        rw [succeeded] at failed
        cases failed
      obtain ⟨known, base, uncached⟩ := traceless wellFormed program active evaluationFailed
      rw [base, addAll_eq_self_iff.mpr known]
      refine ⟨rfl, rfl, rfl, rfl, rfl, rfl, fun calls => ?_⟩
      refine (callResults_shifted injective ?_ calls).symm
      exact ⟨⟨_, _, rfl⟩, fun cacheable => ⟨[], uncached cacheable, rfl⟩⟩

/-! ### Adding a policy -/

theorem addPolicy_clean_iff {source : String} {persistent : Bool} :
    (IncrementalUpdate.addPolicy ctx source persistent).FailsCleanly mangle runtime ↔
      (IncrementalUpdate.addPolicy ctx source persistent).Traceless mangle runtime := by
  unfold IncrementalUpdate.FailsCleanly IncrementalUpdate.Traceless
  simp only [IncrementalUpdate.process, addPolicy]
  split_ifs with empty
  · simp [empty]
  · cases parsed : mangle.parseUnit (cleanSource source.toList) with
    | error err =>
      refine iff_of_true (fun _ _ => ⟨rfl, rfl, rfl, rfl, rfl, rfl, fun _ => rfl⟩) ?_
      simp
    | ok unit =>
      simp only [exec_atomically, addPolicyBody]
      cases built : buildProgram mangle (runtime.externalPreds.map (·.1))
          (runtime.ruleUnits ++ [unit]) "combined program" with
      | error err =>
        refine iff_of_true (fun _ _ => ⟨rfl, rfl, rfl, rfl, rfl, rfl, fun _ => rfl⟩) ?_
        rintro other program - sameUnit builds
        cases sameUnit
        rw [built] at builds
        cases builds
      | ok program =>
        constructor
        · rintro clean other current - sameUnit builds
          cases sameUnit
          cases built.symm.trans builds
          by_contra failed
          obtain ⟨err, failure⟩ := Option.ne_none_iff_exists'.mp failed
          have unchanged := clean (.wrap "failed to evaluate combined program" err)
            (congrArg (fun ended => Except.ok (Option.map _ ended)) failure)
          exact absurd unchanged.ruleUnits (by simp)
        · intro evaluates err failed
          have succeeded := evaluates unit program empty rfl built
          have ended : Option.map (GoError.wrap "failed to evaluate combined program")
              (evaluate mangle ctx runtime program runtime.baseFactStore).2 = some err :=
            Except.ok.inj failed
          rw [succeeded] at ended
          cases ended

/-- A failed update changes nothing exactly if it leaves no trace. -/
theorem failed_update_clean_iff (injective : mangle.KeysInjective)
    (filed : Filed mangle runtime) (update : IncrementalUpdate) :
    update.FailsCleanly mangle runtime ↔ update.Traceless mangle runtime := by
  cases update with
  | loadFacts ctx facts => exact loadFacts_clean_iff injective filed
  | addPolicy ctx source persistent => exact addPolicy_clean_iff

end Updates

/-! ## Updates with and without a trace -/

/-- The last text is no fact. -/
def malformedUpdate : IncrementalUpdate := .loadFacts {} ["p(\"a\")", "?"]

def malformedError : GoError := .wrap "failed to parse fact '?'" (.text "syntax error")

/-- The first fact of the update is loaded already, and a query has cached a store. -/
def loadedState : MangleRuntime Reference.Key :=
  afterCalls Reference.mangle {} [.loadFacts {} ["p(\"a\")"],
    .reloadFromSource {} "q(X) :- p(X).", .executeQuery {} [] "q(\"a\")"]

theorem loadedFact_fails_cleanly :
    ((malformedUpdate.process Reference.mangle).exec loadedState).1 =
        .ok (some malformedError) ∧
      malformedUpdate.FailsCleanly Reference.mangle loadedState := by
  have filed : Filed Reference.mangle loadedState := filed_afterCalls (filed_of_uncached rfl) _
  refine ⟨by rfl, (failed_update_clean_iff reference_keysInjective filed _).mpr
    ⟨fun _ => by decide +kernel, fun wellFormed => absurd ?_ wellFormed⟩⟩
  exact ⟨"?", by simp, .text "syntax error", by decide +kernel⟩

def limitedState : MangleRuntime Reference.Key :=
  afterCalls Reference.mangle {} [.loadFacts {} ["p(\"a\")"], .withMaxCreatedFacts 1]

def twoRulePolicy : IncrementalUpdate := .addPolicy {} "q(X) :- p(X). r(X) :- p(X)." false

def limitError : GoError :=
  .wrap "failed to evaluate combined program" (.text "fact size limit reached")

/-- The fact in front of the malformed one stays, and so does a policy that could not be
evaluated. -/
theorem failed_updates_leave_traces :
    ¬ malformedUpdate.FailsCleanly Reference.mangle {} ∧
      ¬ twoRulePolicy.FailsCleanly Reference.mangle limitedState := by
  constructor
  · intro clean
    have unchanged := clean malformedError (by rfl)
    exact absurd (congrArg (·.facts.length) unchanged.base) (by decide +kernel)
  · intro clean
    have unchanged := clean limitError (by rfl)
    exact absurd (congrArg Option.isSome unchanged.program) (by decide +kernel)

end Manglekit.Engine

import Manglekit.Engine.Runtime
import Manglekit.Stratified.PerfectModel

/-!
# Histories of updates

The facts and the policy of a runtime are updated by loading facts, adding
rules and reloading the policy.  A history is a sequence of such calls that all
succeed, each performed alone.

`Updated` says what one successful update does.  Everything that holds after a
history is derived from it, step by step.
-/

namespace Manglekit.Engine

open Core Datalog

inductive PolicyUpdate where
  | loadFacts (ctx : Context) (facts : List String)
  | addPolicy (ctx : Context) (source : String) (persistent : Bool)
  | reload (ctx : Context) (source : String)

section Histories

variable {Key : Type} (mangle : Mangle Key)

def PolicyUpdate.process : PolicyUpdate → RuntimeM Key (Option GoError)
  | .loadFacts ctx facts => Engine.loadFacts mangle ctx facts
  | .addPolicy ctx source persistent => Engine.addPolicy mangle ctx source persistent
  | .reload ctx source => reloadFromSource mangle ctx source

def PolicyUpdate.perform (update : PolicyUpdate) (runtime : MangleRuntime Key) :
    Option (MangleRuntime Key) :=
  match (update.process mangle).exec runtime with
  | (.ok none, after) => some after
  | _ => none

def performAll (runtime : MangleRuntime Key) (history : List PolicyUpdate) :
    Option (MangleRuntime Key) :=
  history.foldlM (fun reached update => update.perform mangle reached) runtime

variable {history : List PolicyUpdate}

theorem performAll_concat {runtime after : MangleRuntime Key} {update : PolicyUpdate} :
    performAll mangle runtime (history ++ [update]) = some after ↔
      ∃ reached, performAll mangle runtime history = some reached ∧
        update.perform mangle reached = some after := by
  simp [performAll, List.foldlM_append, Option.bind_eq_some_iff]

/-! ## One update -/

abbrev Parsed (facts : List String) (atoms : List Datalog.Atom) : Prop :=
  List.Forall₂ (fun text atom => mangle.parseAtom text = .ok atom) facts atoms

variable {facts : List String}

theorem addFacts_success {stores after : Store × Store}
    (success : addFacts mangle facts stores = (after, none)) :
    ∃ atoms, Parsed mangle facts atoms ∧
      after = (stores.1.addAll atoms, stores.2.addAll atoms) := by
  induction facts generalizing stores with
  | nil =>
    cases success
    exact ⟨[], .nil, rfl⟩
  | cons text rest ih =>
    simp only [addFacts] at success
    split at success
    · simp at success
    next atom parsed =>
      obtain ⟨atoms, parsedRest, rfl⟩ := ih success
      exact ⟨atom :: atoms, .cons parsed parsedRest, rfl⟩

inductive Updated (runtime : MangleRuntime Key) : PolicyUpdate → MangleRuntime Key → Prop where
  | factsStored {ctx facts atoms} (parsed : Parsed mangle facts atoms)
      (idle : runtime.program = none) :
      Updated runtime (.loadFacts ctx facts)
        { runtime with
          baseFactStore := runtime.baseFactStore.addAll atoms
          explicitFactStore := runtime.explicitFactStore.addAll atoms }
  | factsEvaluated {ctx facts atoms program evaluated} (parsed : Parsed mangle facts atoms)
      (active : runtime.program = some program)
      (evaluation : evaluate mangle ctx runtime program (runtime.baseFactStore.addAll atoms) =
        (evaluated, none)) :
      Updated runtime (.loadFacts ctx facts)
        { runtime with
          baseFactStore := evaluated
          explicitFactStore := runtime.explicitFactStore.addAll atoms
          baseVersion := runtime.baseVersion + 1
          idbCache := none }
  | nothingAdded {ctx persistent} : Updated runtime (.addPolicy ctx "" persistent) runtime
  | policyAdded {ctx source persistent unit program evaluated} (nonempty : source ≠ "")
      (parsed : mangle.parseUnit (cleanSource source.toList) = .ok unit)
      (built : buildProgram mangle (runtime.externalPreds.map (·.1)) (runtime.ruleUnits ++ [unit])
        "combined program" = .ok program)
      (evaluation : evaluate mangle ctx runtime program runtime.baseFactStore =
        (evaluated, none)) :
      Updated runtime (.addPolicy ctx source persistent)
        { runtime with
          ruleUnits := runtime.ruleUnits ++ [unit]
          persistentUnits :=
            if persistent then runtime.persistentUnits ++ [unit] else runtime.persistentUnits
          persistentSources :=
            if persistent then runtime.persistentSources ++ [cleanSource source.toList]
            else runtime.persistentSources
          program := some program
          programVersion := runtime.programVersion + 1
          idbCache := none
          baseFactStore := evaluated }
  | reloaded {ctx source units program evaluated} (nonempty : source ≠ "")
      (built : reloadProgram mangle source runtime.persistentUnits runtime.persistentSources
        (runtime.externalPreds.map (·.1)) = .ok (units, program))
      (evaluation : evaluate mangle ctx runtime program (factSnapshotOf runtime).merged =
        (evaluated, none)) :
      Updated runtime (.reload ctx source)
        (swapBody units program runtime.explicitFactStore evaluated runtime)

variable {mangle} {runtime after : MangleRuntime Key}

theorem PolicyUpdate.exec_of_perform {update : PolicyUpdate}
    (success : update.perform mangle runtime = some after) :
    (update.process mangle).exec runtime = (.ok none, after) := by
  simp only [perform] at success
  split at success
  next ended =>
    rw [ended, Option.some.inj success]
  · cases success

theorem updated_loadFacts {ctx : Context}
    (success : (loadFacts mangle ctx facts).exec runtime = (.ok none, after)) :
    Updated mangle runtime (.loadFacts ctx facts) after := by
  simp only [loadFacts, Atomic.Process.exec_atomically, loadFactsBody] at success
  cases added : addFacts mangle facts (runtime.baseFactStore, runtime.explicitFactStore) with
  | mk stores failure =>
    cases failure with
    | some err => simp [added] at success
    | none =>
      obtain ⟨atoms, parsed, rfl⟩ := addFacts_success mangle added
      cases active : runtime.program with
      | none =>
        simp only [added, active, Prod.mk.injEq, true_and] at success
        exact success ▸ active ▸ .factsStored parsed active
      | some program =>
        simp only [added, active, Prod.mk.injEq, Except.ok.injEq, Option.map_eq_none_iff] at success
        obtain ⟨finished, rfl⟩ := success
        exact active ▸ .factsEvaluated parsed active (Prod.ext rfl finished)

variable {source : String}

theorem updated_addPolicy {ctx : Context} {persistent : Bool}
    (success : (addPolicy mangle ctx source persistent).exec runtime = (.ok none, after)) :
    Updated mangle runtime (.addPolicy ctx source persistent) after := by
  by_cases nonempty : source = ""
  · subst nonempty
    cases success
    exact .nothingAdded
  · simp only [addPolicy, if_neg nonempty] at success
    split at success
    · cases success
    next unit parsed =>
      simp only [Atomic.Process.exec_atomically, addPolicyBody] at success
      split at success
      · cases success
      next program built =>
        simp only [Prod.mk.injEq, Except.ok.injEq, Option.map_eq_none_iff] at success
        obtain ⟨finished, rfl⟩ := success
        exact .policyAdded nonempty parsed built (Prod.ext rfl finished)

/-- A reload that runs alone fails without an effect, or swaps everything in. -/
theorem exec_reloadFromSource {ctx : Context} :
    (reloadFromSource mangle ctx source).exec runtime =
      if source = "" then (.ok (some (.text "source cannot be empty")), runtime)
      else
        match reloadProgram mangle source runtime.persistentUnits runtime.persistentSources
            (runtime.externalPreds.map (·.1)) with
        | .error err => (.ok (some err), runtime)
        | .ok (units, program) =>
          match evaluate mangle ctx runtime program (factSnapshotOf runtime).merged with
          | (_, some err) => (.ok (some (.wrap "failed to evaluate program" err)), runtime)
          | (evaluated, none) =>
            (.ok none, swapBody units program runtime.explicitFactStore evaluated runtime) := by
  by_cases nonempty : source = ""
  · simp [reloadFromSource, nonempty]
  · simp only [reloadFromSource, if_neg nonempty, Atomic.Process.bind_eq,
      Atomic.Process.atomically_bind, Atomic.Process.exec_step, reloadBuild]
    generalize reloadProgram mangle source _ _ _ = built
    rcases built with err | ⟨units, program⟩
    · rfl
    · simp only [reloadFacts, Atomic.Process.bind_eq, Atomic.Process.atomically_bind,
        Atomic.Process.exec_step, reloadEvaluate]
      rcases evaluate mangle ctx runtime program (factSnapshotOf runtime).merged with
        ⟨evaluated, failure⟩
      cases failure <;> rfl

theorem updated_reload {ctx : Context}
    (success : (reloadFromSource mangle ctx source).exec runtime = (.ok none, after)) :
    Updated mangle runtime (.reload ctx source) after := by
  rw [exec_reloadFromSource] at success
  split_ifs at success with nonempty
  · cases success
  · split at success
    · cases success
    next units program built =>
      split at success
      · cases success
      next evaluated evaluation =>
        cases success
        exact .reloaded nonempty built evaluation

theorem updated_of_perform {update : PolicyUpdate}
    (success : update.perform mangle runtime = some after) :
    Updated mangle runtime update after := by
  have ended := PolicyUpdate.exec_of_perform success
  cases update with
  | loadFacts ctx facts => exact updated_loadFacts ended
  | addPolicy ctx source persistent => exact updated_addPolicy ended
  | reload ctx source => exact updated_reload ended

/-! ## Evaluation -/

/-- Successful evaluations compute perfect models; the meaning of a program may
depend on the callbacks and the temporal facts it is evaluated with. -/
def Mangle.EvaluatesTo (mangle : Mangle Key)
    (meaning : Program → EvalOptions → Stratified.Program Datalog.Atom) : Prop :=
  ∀ program options ctx timeout store result,
    mangle.eval program options ctx timeout store = (result, none) →
      result.toSet = (meaning program options).perfect store.toSet

def MangleRuntime.evalOptions (runtime : MangleRuntime Key) (program : Program) : EvalOptions :=
  (runtime.buildEvalOptionsFor program.info).withLimit runtime.maxCreatedFacts

section Evaluation

variable {meaning : Program → EvalOptions → Stratified.Program Datalog.Atom}
  (perfect : mangle.EvaluatesTo meaning) {ctx : Context} {program : Program}
  {store result : Store}

include perfect

theorem evalStratified_perfect {options : EvalOptions} {timeout : Nat}
    (evaluation : evalStratifiedWithContext mangle ctx program store options timeout =
      (result, none)) :
    result.toSet = (meaning program options).perfect store.toSet := by
  simp only [evalStratifiedWithContext] at evaluation
  split at evaluation
  · cases evaluation
  · exact perfect _ _ _ _ _ _ evaluation

section

variable (evaluation : evaluate mangle ctx runtime program store = (result, none))

include evaluation

theorem evaluate_perfect :
    result.toSet = (meaning program (runtime.evalOptions program)).perfect store.toSet :=
  evalStratified_perfect perfect evaluation

theorem mem_of_evaluate {atom : Datalog.Atom} (member : atom ∈ store) : atom ∈ result := by
  rw [← Store.mem_toSet, evaluate_perfect perfect evaluation]
  exact Stratified.Program.subset_perfect _ _ member

end

end Evaluation

/-! ## What a history records -/

/-- The part of the state that no update touches. -/
def MangleRuntime.settings (runtime : MangleRuntime Key) : MangleRuntime Key :=
  { runtime with
    program := none
    baseFactStore := .empty
    explicitFactStore := .empty
    ruleUnits := []
    persistentUnits := []
    persistentSources := []
    idbCache := none
    baseVersion := 0
    programVersion := 0 }

/-- A runtime that has been created and configured, but not yet updated. -/
def MangleRuntime.New (runtime : MangleRuntime Key) : Prop := runtime.settings = runtime

theorem MangleRuntime.New.default : ({} : MangleRuntime Key).New := rfl

theorem evalOptions_congr {other : MangleRuntime Key} (same : runtime.settings = other.settings)
    (program : Program) : runtime.evalOptions program = other.evalOptions program := by
  have unfolded : ∀ state : MangleRuntime Key,
      state.evalOptions program = state.settings.evalOptions program := fun _ => rfl
  rw [unfolded runtime, unfolded other, same]

variable (mangle) in
def Loaded (history : List PolicyUpdate) : Set Datalog.Atom :=
  {atom | ∃ ctx facts, PolicyUpdate.loadFacts ctx facts ∈ history ∧
    ∃ text ∈ facts, mangle.parseAtom text = .ok atom}

variable (mangle) in
/-- The unit that a successful update adds to the persistent ones, with its text. -/
def PolicyUpdate.persistentUnit : PolicyUpdate → Option (SourceUnit × List Char)
  | .addPolicy _ source true =>
    if source = "" then none
    else (mangle.parseUnit (cleanSource source.toList)).toOption.map
      (·, cleanSource source.toList)
  | _ => none

def Built (mangle : Mangle Key) (runtime : MangleRuntime Key) : Prop :=
  ∀ program, runtime.program = some program →
    ∃ names what, buildProgram mangle names runtime.ruleUnits what = .ok program

structure Records (mangle : Mangle Key) (start : MangleRuntime Key)
    (history : List PolicyUpdate) (runtime : MangleRuntime Key) : Prop where
  settings : runtime.settings = start.settings
  uncached : runtime.idbCache = none
  explicit : runtime.explicitFactStore.toSet = Loaded mangle history
  explicit_subset : runtime.explicitFactStore.toSet ⊆ runtime.baseFactStore.toSet
  persistentUnits : runtime.persistentUnits =
    (history.filterMap (PolicyUpdate.persistentUnit mangle)).map Prod.fst
  persistentSources : runtime.persistentSources =
    (history.filterMap (PolicyUpdate.persistentUnit mangle)).map Prod.snd
  built : Built mangle runtime

theorem loaded_append (history more : List PolicyUpdate) :
    Loaded mangle (history ++ more) = Loaded mangle history ∪ Loaded mangle more := by
  ext atom
  simp only [Loaded, List.mem_append, Set.mem_ofPred_eq, Set.mem_union, or_and_right, exists_or]

variable {atoms : List Datalog.Atom}

section

variable (parsed : Parsed mangle facts atoms)

include parsed

theorem Parsed.mem_iff (atom : Datalog.Atom) :
    atom ∈ atoms ↔ ∃ text ∈ facts, mangle.parseAtom text = .ok atom := by
  induction parsed with
  | nil => simp
  | @cons text head facts atoms parsed _ ih =>
    simp [ih, parsed, eq_comm]

theorem Parsed.exists_of_mem {text : String} (listed : text ∈ facts) :
    ∃ atom ∈ atoms, mangle.parseAtom text = .ok atom := by
  induction parsed with
  | nil => cases listed
  | cons parses _ ih =>
    rcases List.mem_cons.mp listed with rfl | later
    · exact ⟨_, List.mem_cons_self, parses⟩
    · obtain ⟨atom, member, parses⟩ := ih later
      exact ⟨atom, List.mem_cons_of_mem _ member, parses⟩

theorem loaded_loadFacts {ctx : Context} :
    Loaded mangle [.loadFacts ctx facts] = {atom | atom ∈ atoms} := by
  ext atom
  simp [Loaded, parsed.mem_iff]

end

theorem loaded_addPolicy {ctx : Context} {persistent : Bool} :
    Loaded mangle [.addPolicy ctx source persistent] = ∅ := by
  simp [Loaded]

theorem loaded_reload {ctx : Context} : Loaded mangle [.reload ctx source] = ∅ := by
  simp [Loaded]

theorem toSet_addAll (store : Store) (atoms : List Datalog.Atom) :
    (store.addAll atoms).toSet = store.toSet ∪ {atom | atom ∈ atoms} := by
  ext atom
  simp

variable {start : MangleRuntime Key}

theorem records_new (fresh : start.New) :
    Records mangle start [] start where
  settings := rfl
  uncached := by rw [← fresh]; rfl
  explicit := by
    rw [← fresh]
    simp [MangleRuntime.settings, Loaded, Store.toSet]
  explicit_subset := by
    rw [← fresh]
    exact Set.Subset.refl _
  persistentUnits := by rw [← fresh]; rfl
  persistentSources := by rw [← fresh]; rfl
  built := by
    intro program active
    rw [← fresh] at active
    cases active

def MangleRuntime.idbPredicates (runtime : MangleRuntime Key) : List PredicateSym :=
  (runtime.program.map (·.info.idbPredicates)).getD []

theorem mem_merged {atom : Datalog.Atom} :
    atom ∈ (factSnapshotOf runtime).merged ↔ atom ∈ runtime.baseFactStore ∧
      (atom.predicate ∉ runtime.idbPredicates ∨ atom ∈ runtime.explicitFactStore) := by
  cases active : runtime.program with
  | none => simp [factSnapshotOf, filterBaseFacts, MangleRuntime.idbPredicates, active]
  | some program =>
    simp [factSnapshotOf, filterBaseFacts, MangleRuntime.idbPredicates, active, Store.contains]

theorem buildProgram_of_reload {persistentUnits units : List SourceUnit}
    {persistentSources : List (List Char)} {names : List String} {program : Program}
    (built : reloadProgram mangle source persistentUnits persistentSources names =
      .ok (units, program)) :
    (∃ unit, units = unit :: persistentUnits) ∧
      buildProgram mangle names units "program" = .ok program := by
  simp only [reloadProgram] at built
  split at built
  · cases built
  next unit parsed =>
    split at built
    · cases built
    next program analyzed =>
      cases built
      exact ⟨⟨unit, rfl⟩, analyzed⟩

section Steps

variable {update : PolicyUpdate} (updated : Updated mangle runtime update after)

include updated

theorem Updated.settings_eq : after.settings = runtime.settings := by
  cases updated <;> rfl

theorem Updated.uncached (uncached : runtime.idbCache = none) : after.idbCache = none := by
  cases updated with
  | factsStored | nothingAdded => exact uncached
  | factsEvaluated | policyAdded | reloaded => rfl

theorem Updated.explicit_eq :
    after.explicitFactStore.toSet = runtime.explicitFactStore.toSet ∪ Loaded mangle [update] := by
  cases updated with
  | factsStored parsed | factsEvaluated parsed => rw [loaded_loadFacts parsed, toSet_addAll]
  | nothingAdded | policyAdded => rw [loaded_addPolicy, Set.union_empty]
  | reloaded => rw [loaded_reload, Set.union_empty]; rfl

theorem Updated.explicit_subset
    {meaning : Program → EvalOptions → Stratified.Program Datalog.Atom}
    (perfect : mangle.EvaluatesTo meaning)
    (subset : runtime.explicitFactStore.toSet ⊆ runtime.baseFactStore.toSet) :
    after.explicitFactStore.toSet ⊆ after.baseFactStore.toSet := by
  intro atom member
  cases updated with
  | factsStored parsed =>
    exact Store.mem_addAll.mpr ((Store.mem_addAll.mp member).imp_left (subset ·))
  | factsEvaluated parsed active evaluation =>
    apply mem_of_evaluate perfect evaluation
    exact Store.mem_addAll.mpr ((Store.mem_addAll.mp member).imp_left (subset ·))
  | nothingAdded => exact subset member
  | policyAdded _ _ _ evaluation => exact mem_of_evaluate perfect evaluation (subset member)
  | reloaded _ _ evaluation =>
    apply mem_of_evaluate perfect evaluation
    exact mem_merged.mpr ⟨subset member, .inr member⟩

theorem Updated.persistent_eq :
    after.persistentUnits = runtime.persistentUnits ++
        (update.persistentUnit mangle).toList.map Prod.fst ∧
      after.persistentSources = runtime.persistentSources ++
        (update.persistentUnit mangle).toList.map Prod.snd := by
  cases updated with
  | factsStored | factsEvaluated | reloaded => simp [PolicyUpdate.persistentUnit, swapBody]
  | @nothingAdded _ persistent => cases persistent <;> simp [PolicyUpdate.persistentUnit]
  | @policyAdded _ _ persistent _ _ _ nonempty parsed =>
    cases persistent <;> simp [PolicyUpdate.persistentUnit, nonempty, parsed, Except.toOption]

theorem Updated.built (built : Built mangle runtime) : Built mangle after := by
  cases updated with
  | factsStored | factsEvaluated | nothingAdded => exact built
  | policyAdded _ _ analyzed =>
    rintro _ ⟨⟩
    exact ⟨_, _, analyzed⟩
  | reloaded _ reloaded =>
    rintro _ ⟨⟩
    exact ⟨_, _, (buildProgram_of_reload reloaded).2⟩

end Steps

theorem records_of_performAll {meaning : Program → EvalOptions → Stratified.Program Datalog.Atom}
    (perfect : mangle.EvaluatesTo meaning) (fresh : start.New)
    (reached : performAll mangle start history = some runtime) :
    Records mangle start history runtime := by
  induction history using List.reverseRecOn generalizing runtime with
  | nil =>
    cases reached
    exact records_new fresh
  | append_singleton earlier update ih =>
    obtain ⟨before, reachedBefore, performed⟩ := (performAll_concat mangle).mp reached
    have records := ih reachedBefore
    have updated := updated_of_perform performed
    refine ⟨?_, updated.uncached records.uncached, ?_,
      updated.explicit_subset perfect records.explicit_subset, ?_, ?_,
      updated.built records.built⟩
    · rw [updated.settings_eq, records.settings]
    · rw [updated.explicit_eq, records.explicit, loaded_append]
    · rw [updated.persistent_eq.1, records.persistentUnits, List.filterMap_append,
        List.map_append, List.filterMap_cons]
      cases update.persistentUnit mangle <;> rfl
    · rw [updated.persistent_eq.2, records.persistentSources, List.filterMap_append,
        List.map_append, List.filterMap_cons]
      cases update.persistentUnit mangle <;> rfl

end Histories

end Manglekit.Engine

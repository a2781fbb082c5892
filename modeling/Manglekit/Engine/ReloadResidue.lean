import Manglekit.Engine.VisibleFacts

/-!
# What a reload leaves behind

A reload replaces the policy and keeps the base facts, except those that the old
program may have derived.  The outcome is compared with a runtime that was only
given the persistent units and the loaded facts before the same reload.

Derived facts never survive a reload.  What can survive are fact clauses of
policies that are no longer there.
-/

namespace Manglekit.Engine

open Core Datalog

variable {program : Program}

section Residue

variable {Key : Type}

def RuleFor (units : List SourceUnit) (predicate : PredicateSym) : Prop :=
  ∃ unit ∈ units, ∃ clause ∈ unit.clauses,
    clause.isFact = false ∧ clause.head.predicate = predicate

def StatedIn (units : List SourceUnit) (atom : Datalog.Atom) : Prop :=
  ∃ unit ∈ units, atom ∈ unit.facts

/-- The programs that the engine builds: their intensional predicates are those of
the rules, and their models consist of the input, the fact clauses and heads of
rules. -/
structure Mangle.DerivesBy (mangle : Mangle Key)
    (meaning : Program → EvalOptions → Stratified.Program Datalog.Atom) : Prop where
  idb_iff : ∀ {names units what program}, buildProgram mangle names units what = .ok program →
    ∀ predicate, predicate ∈ program.info.idbPredicates ↔ RuleFor units predicate
  mem_of_stated : ∀ {names units what program}, buildProgram mangle names units what = .ok program →
    ∀ options facts atom, StatedIn units atom → atom ∈ (meaning program options).perfect facts
  origin : ∀ {names units what program}, buildProgram mangle names units what = .ok program →
    ∀ options facts, ∀ atom ∈ (meaning program options).perfect facts,
      atom ∈ facts ∨ StatedIn units atom ∨ RuleFor units atom.predicate

variable {mangle : Mangle Key}
  {meaning : Program → EvalOptions → Stratified.Program Datalog.Atom}
  {runtime after : MangleRuntime Key} {update : PolicyUpdate}

/-! ## Where base facts come from -/

/-- Every base fact was loaded, has a predicate that the program derives, or was
stated in a policy. -/
def Accounted (stated : Datalog.Atom → Prop) (runtime : MangleRuntime Key) : Prop :=
  ∀ atom ∈ runtime.baseFactStore, atom ∈ runtime.explicitFactStore ∨
    atom.predicate ∈ runtime.idbPredicates ∨ stated atom

theorem idbPredicates_of_active (active : runtime.program = some program) :
    runtime.idbPredicates = program.info.idbPredicates := by
  simp [MangleRuntime.idbPredicates, active]

section Accounting

variable (perfect : mangle.EvaluatesTo meaning) (derives : mangle.DerivesBy meaning)
  {stated statedAfter : Datalog.Atom → Prop}

include derives

theorem accounted_of_model {options : EvalOptions} {input : Set Datalog.Atom}
    (built : Built mangle after) (active : after.program = some program)
    (model : after.baseFactStore.toSet = (meaning program options).perfect input)
    (current : ∀ atom, StatedIn after.ruleUnits atom → statedAfter atom)
    (accounted : ∀ atom ∈ input, atom ∈ after.explicitFactStore ∨
      atom.predicate ∈ after.idbPredicates ∨ statedAfter atom) : Accounted statedAfter after := by
  obtain ⟨names, what, analyzed⟩ := built program active
  intro atom member
  rw [← Store.mem_toSet, model] at member
  rcases derives.origin analyzed _ _ atom member with given | stated | derived
  · exact accounted atom given
  · exact .inr (.inr (current atom stated))
  · apply Or.inr
    apply Or.inl
    rw [idbPredicates_of_active active]
    exact (derives.idb_iff analyzed _).mpr derived

theorem idbPredicates_append {unit : SourceUnit} {names : List String} {what : String}
    (built : Built mangle runtime)
    (analyzed : buildProgram mangle names (runtime.ruleUnits ++ [unit]) what = .ok program)
    {predicate : PredicateSym} (derived : predicate ∈ runtime.idbPredicates) :
    predicate ∈ program.info.idbPredicates := by
  cases active : runtime.program with
  | none => simp [MangleRuntime.idbPredicates, active] at derived
  | some old =>
    obtain ⟨_, _, oldAnalyzed⟩ := built old active
    rw [idbPredicates_of_active active] at derived
    obtain ⟨found, member, rule⟩ := (derives.idb_iff oldAnalyzed _).mp derived
    exact (derives.idb_iff analyzed _).mpr ⟨found, List.mem_append_left _ member, rule⟩

omit derives in
theorem Accounted.of_addAll {atoms : List Datalog.Atom} (accounted : Accounted stated runtime)
    (kept : ∀ atom, stated atom → statedAfter atom) :
    ∀ atom ∈ runtime.baseFactStore.addAll atoms,
      atom ∈ runtime.explicitFactStore.addAll atoms ∨
        atom.predicate ∈ runtime.idbPredicates ∨ statedAfter atom := by
  intro atom member
  rcases Store.mem_addAll.mp member with earlier | added
  · rcases accounted atom earlier with explicit | derived | stated
    · exact .inl (Store.mem_addAll.mpr (.inl explicit))
    · exact .inr (.inl derived)
    · exact .inr (.inr (kept atom stated))
  · exact .inl (Store.mem_addAll.mpr (.inr added))

include perfect

theorem Updated.accounted (updated : Updated mangle runtime update after)
    (built : Built mangle runtime) (accounted : Accounted stated runtime)
    (kept : ∀ atom, stated atom → statedAfter atom)
    (current : ∀ atom, StatedIn after.ruleUnits atom → statedAfter atom) :
    Accounted statedAfter after := by
  have builtAfter : Built mangle after := updated.built built
  cases updated with
  | factsStored parsed idle => exact accounted.of_addAll kept
  | factsEvaluated parsed active evaluation =>
    apply accounted_of_model derives builtAfter active (evaluate_perfect perfect evaluation) current
    exact accounted.of_addAll kept
  | nothingAdded =>
    intro atom member
    exact (accounted atom member).imp_right (Or.imp_right (kept atom))
  | policyAdded nonempty parsed analyzed evaluation =>
    apply accounted_of_model derives builtAfter rfl (evaluate_perfect perfect evaluation) current
    intro atom member
    refine (accounted atom member).imp_right (Or.imp ?_ (kept atom))
    exact idbPredicates_append derives built analyzed
  | reloaded nonempty reloaded evaluation =>
    apply accounted_of_model derives builtAfter rfl (evaluate_perfect perfect evaluation) current
    intro atom member
    obtain ⟨inBase, surviving⟩ := mem_merged.mp member
    rcases accounted atom inBase with explicit | derived | stated
    · exact .inl explicit
    · exact .inl (surviving.resolve_left (absurd derived ·))
    · exact .inr (.inr (kept atom stated))

end Accounting

/-! ## What survives -/

/-- The facts that a reload keeps although nobody loaded them. -/
def Leftover (runtime : MangleRuntime Key) (atom : Datalog.Atom) : Prop :=
  atom ∈ runtime.baseFactStore ∧ atom ∉ runtime.explicitFactStore ∧
    atom.predicate ∉ runtime.idbPredicates

instance (runtime : MangleRuntime Key) (atom : Datalog.Atom) : Decidable (Leftover runtime atom) :=
  inferInstanceAs (Decidable (_ ∧ _ ∧ _))

theorem toSet_merged (subset : runtime.explicitFactStore.toSet ⊆ runtime.baseFactStore.toSet) :
    (factSnapshotOf runtime).merged.toSet =
      runtime.explicitFactStore.toSet ∪ {atom | Leftover runtime atom} := by
  ext atom
  simp only [Store.mem_toSet, mem_merged, Set.mem_union, Set.mem_ofPred_eq, Leftover]
  constructor
  · rintro ⟨inBase, surviving⟩
    by_cases explicit : atom ∈ runtime.explicitFactStore
    · exact .inl explicit
    · exact .inr ⟨inBase, explicit, surviving.resolve_right explicit⟩
  · rintro (explicit | ⟨inBase, _, surviving⟩)
    · exact ⟨subset explicit, .inr explicit⟩
    · exact ⟨inBase, .inl surviving⟩

section Runs

variable (perfect : mangle.EvaluatesTo meaning) (derives : mangle.DerivesBy meaning)
  {start : MangleRuntime Key} (fresh : start.New)

include perfect derives fresh

end Runs

/-! ## Comparison with a fresh runtime -/

def PolicyUpdate.Given : PolicyUpdate → Prop
  | .loadFacts _ _ => True
  | .addPolicy _ _ persistent => persistent = true
  | .reload _ _ => False

theorem Updated.given (updated : Updated mangle runtime update after) (given : update.Given)
    (units : runtime.ruleUnits = runtime.persistentUnits) :
    after.ruleUnits = after.persistentUnits ∧
      ∀ atom, StatedIn runtime.ruleUnits atom → StatedIn after.ruleUnits atom := by
  cases updated with
  | factsStored | factsEvaluated | nothingAdded => exact ⟨units, fun _ stated => stated⟩
  | policyAdded =>
    cases given
    refine ⟨?_, ?_⟩
    · simp only [units, if_true]
    · rintro atom ⟨unit, member, stated⟩
      exact ⟨unit, List.mem_append_left _ member, stated⟩
  | reloaded => cases given

structure Reloaded (mangle : Mangle Key)
    (meaning : Program → EvalOptions → Stratified.Program Datalog.Atom) (source : String)
    (runtime after : MangleRuntime Key) (program : Program) : Prop where
  active : after.program = some program
  settings : after.settings = runtime.settings
  uncached : after.idbCache = none
  built : ∃ units, reloadProgram mangle source runtime.persistentUnits runtime.persistentSources
    (runtime.externalPreds.map (·.1)) = .ok (units, program)
  base : after.baseFactStore.toSet = (meaning program (runtime.evalOptions program)).perfect
    (factSnapshotOf runtime).merged.toSet

variable {source : String} {ctx : Context}

theorem reloaded_of_perform (perfect : mangle.EvaluatesTo meaning)
    (performed : (PolicyUpdate.reload ctx source).perform mangle runtime = some after) :
    ∃ program, Reloaded mangle meaning source runtime after program := by
  cases updated_of_perform performed with
  | reloaded nonempty built evaluation =>
    exact ⟨_, rfl, rfl, rfl, ⟨_, built⟩, evaluate_perfect perfect evaluation⟩

section Comparison

variable [DecidableEq Key] (perfect : mangle.EvaluatesTo meaning)
  (derives : mangle.DerivesBy meaning) {start : MangleRuntime Key} (new : start.New)
  {history given : List PolicyUpdate} (only : ∀ update ∈ given, update.Given)
  {fresh freshAfter : MangleRuntime Key}

omit [DecidableEq Key] in
include perfect derives new only in
theorem accounted_of_given (reached : performAll mangle start given = some fresh) :
    fresh.ruleUnits = fresh.persistentUnits ∧ Accounted (StatedIn fresh.ruleUnits) fresh := by
  induction given using List.reverseRecOn generalizing fresh with
  | nil =>
    cases reached
    rw [← new]
    exact ⟨rfl, fun atom member => absurd member (Store.not_mem_empty atom)⟩
  | append_singleton earlier update ih =>
    obtain ⟨before, reachedBefore, performed⟩ := (performAll_concat mangle).mp reached
    obtain ⟨units, accounted⟩ := ih
      (fun update member => only update (List.mem_append_left _ member)) reachedBefore
    have records := records_of_performAll perfect new reachedBefore
    have updated := updated_of_perform performed
    obtain ⟨unitsAfter, grows⟩ := updated.given (only update (by simp)) units
    exact ⟨unitsAfter,
      updated.accounted perfect derives records.built accounted grows fun _ stated => stated⟩

omit [DecidableEq Key] in
include perfect derives new only in
/-- In the fresh runtime a reload starts from the loaded facts alone: what is left
over of the persistent units is stated by the new program as well. -/
theorem fresh_base (reached : performAll mangle start given = some fresh)
    {program : Program} (reloaded : Reloaded mangle meaning source fresh freshAfter program) :
    freshAfter.baseFactStore.toSet = (meaning program (fresh.evalOptions program)).perfect
      fresh.explicitFactStore.toSet := by
  have records := records_of_performAll perfect new reached
  obtain ⟨units, accounted⟩ := accounted_of_given perfect derives new only reached
  rw [reloaded.base, toSet_merged records.explicit_subset]
  apply Stratified.Program.perfect_union_of_subset
  rintro atom ⟨inBase, notLoaded, notDerived⟩
  obtain ⟨unit, member, stated⟩ :=
    ((accounted atom inBase).resolve_left notLoaded).resolve_left notDerived
  obtain ⟨_, built⟩ := reloaded.built
  obtain ⟨⟨_, rfl⟩, analyzed⟩ := buildProgram_of_reload built
  apply derives.mem_of_stated analyzed
  exact ⟨unit, List.mem_cons_of_mem _ (units ▸ member), stated⟩

def SameAnswers (mangle : Mangle Key) (first second : MangleRuntime Key) : Prop :=
  ∀ ctx facts options store other, Visible mangle first ctx facts options store →
    Visible mangle second ctx facts options other → store.toSet = other.toSet

include perfect in
theorem visible_reloaded {program : Program}
    (reloaded : Reloaded mangle meaning source runtime after program)
    {facts : List Datalog.Atom} {options : EvalOptions} {store : Store}
    (visible : Visible mangle after ctx facts options store) :
    store.toSet = (meaning program options).perfect
      (after.baseFactStore.toSet ∪ {atom | atom ∈ facts}) := by
  obtain ⟨current, active, evaluation⟩ := visible_uncached reloaded.uncached visible
  cases reloaded.active.symm.trans active
  rw [evalStratified_perfect perfect evaluation, toSet_addAll]

include perfect in
/-- A query without request facts shows the base facts themselves. -/
theorem visible_base {program : Program}
    (reloaded : Reloaded mangle meaning source runtime after program)
    {store : Store} (visible : Visible mangle after ctx [] (after.evalOptions program) store) :
    store.toSet = after.baseFactStore.toSet := by
  rw [visible_reloaded perfect reloaded visible]
  simp only [List.not_mem_nil, Set.ofPred_false, Set.union_empty]
  rw [evalOptions_congr reloaded.settings, reloaded.base]
  exact Stratified.Program.perfect_perfect _

omit [DecidableEq Key] in
theorem program_eq {program freshProgram : Program}
    (reloaded : Reloaded mangle meaning source runtime after program)
    (freshReloaded : Reloaded mangle meaning source fresh freshAfter freshProgram)
    (settings : fresh.settings = runtime.settings)
    (units : fresh.persistentUnits = runtime.persistentUnits)
    (sources : fresh.persistentSources = runtime.persistentSources) :
    freshProgram = program := by
  have names : fresh.settings.externalPreds = runtime.settings.externalPreds := by rw [settings]
  change fresh.externalPreds = runtime.externalPreds at names
  obtain ⟨_, built⟩ := reloaded.built
  obtain ⟨_, freshBuilt⟩ := freshReloaded.built
  rw [units, sources, names, built] at freshBuilt
  cases freshBuilt
  rfl

end Comparison

end Residue

/-! ## A fact clause that outlives its policy -/

theorem reference_derivesBy :
    Reference.mangle.DerivesBy fun program _ => Reference.meaning program where
  idb_iff := by
    intro names units what program built predicate
    rw [(Reference.buildProgram_spec built).1]
    simp only [Reference.infoOf, List.mem_map, List.mem_filter, List.mem_flatMap,
      Bool.not_eq_true', RuleFor]
    constructor
    · rintro ⟨clause, ⟨⟨unit, member, occurs⟩, rule⟩, head⟩
      exact ⟨unit, member, clause, occurs, rule, head⟩
    · rintro ⟨unit, member, clause, occurs, rule, head⟩
      exact ⟨clause, ⟨⟨unit, member, occurs⟩, rule⟩, head⟩
  mem_of_stated := by
    rintro names units what program built options facts atom ⟨unit, member, stated⟩
    obtain ⟨info, stratified, safe⟩ := Reference.buildProgram_spec built
    have clause : ⟨atom, []⟩ ∈ Reference.programClauses (Reference.infoOf units) := by
      apply List.mem_append_left
      exact List.mem_map_of_mem (List.mem_flatMap.mpr ⟨unit, member, stated⟩)
    simp only [Reference.meaning, info]
    exact mem_perfect_of_fact stratified clause (safe _ clause)
  origin := by
    intro names units what program built options facts atom member
    obtain ⟨info, stratified, safe⟩ := Reference.buildProgram_spec built
    simp only [Reference.meaning, info] at member
    refine (origin_of_mem_perfect member).imp_right ?_
    rintro ⟨clause, occurs, valuation, rfl⟩
    rcases List.mem_append.mp occurs with initial | rule
    · apply Or.inl
      obtain ⟨fact, stated, rfl⟩ := List.mem_map.mp initial
      obtain ⟨unit, inUnits, inUnit⟩ := List.mem_flatMap.mp stated
      have closed : fact.ground valuation = fact :=
        Atom.ground_of_no_vars (fun symbol found => absurd (safe _ occurs symbol found) (by simp)) _
      exact ⟨unit, inUnits, by simpa [closed] using inUnit⟩
    · apply Or.inr
      obtain ⟨source, found, rfl⟩ := List.mem_map.mp rule
      obtain ⟨inClauses, notFact⟩ := List.mem_filter.mp found
      obtain ⟨unit, inUnits, inUnit⟩ := List.mem_flatMap.mp inClauses
      exact ⟨unit, inUnits, source, inUnit, by simpa using notFact, by simp⟩

/-- The answer to a query without request facts after a history. -/
def answerAfter (history : List PolicyUpdate) (query : String) : Option Bool := do
  let runtime ← performAll Reference.mangle {} history
  match ((executeQuery Reference.mangle {} [] query).exec runtime).1 with
  | .ok (.ok answer) => some answer
  | _ => none

/-- A reload after a history, and after the updates that a fresh runtime is given. -/
structure Comparison where
  runtime : MangleRuntime Reference.Key
  fresh : MangleRuntime Reference.Key
  after : MangleRuntime Reference.Key
  freshAfter : MangleRuntime Reference.Key

def reloadBoth (history given : List PolicyUpdate) (source : String) : Option Comparison := do
  let runtime ← performAll Reference.mangle {} history
  let fresh ← performAll Reference.mangle {} given
  let after ← (PolicyUpdate.reload {} source).perform Reference.mangle runtime
  let freshAfter ← (PolicyUpdate.reload {} source).perform Reference.mangle fresh
  return { runtime, fresh, after, freshAfter }

def Comparison.clean (compared : Comparison) : Bool :=
  match compared.after.program with
  | none => false
  | some program =>
    match ((evaluatedWorkingStore Reference.mangle {} []
          (compared.after.evalOptions program)).exec compared.after).1,
        ((evaluatedWorkingStore Reference.mangle {} []
          (compared.after.evalOptions program)).exec compared.freshAfter).1 with
    | .ok (.ok _), .ok (.ok _) =>
      compared.runtime.baseFactStore.facts.all fun atom =>
        !decide (Leftover compared.runtime atom)
    | _, _ => false

end Manglekit.Engine

import Manglekit.Engine.History
import Manglekit.Engine.Reference

/-!
# Updates beside a reload

A reload snapshots the persistent units and the facts, evaluates without a lock,
and swaps the result in.  While it runs, other threads load facts and add
persistent units, each in one section.

An update survives unless it falls between a snapshot that should have seen it and
the swap.
-/

namespace Manglekit.Engine

open Core Datalog Atomic

inductive SideUpdate where
  | loadFacts (ctx : Context) (facts : List String)
  | addPersistentPolicy (ctx : Context) (source : String)

section Updates

variable {Key : Type} (mangle : Mangle Key) {Other : Type}

def SideUpdate.process : SideUpdate → RuntimeM Key (Option GoError)
  | .loadFacts ctx facts => Engine.loadFacts mangle ctx facts
  | .addPersistentPolicy ctx source => Engine.addPolicy mangle ctx source true

def reloadPool (start : MangleRuntime Key) (ctx : Context) (source : String)
    (updates : Other → SideUpdate) :
    Pool (Option Other) (MangleRuntime Key) Section Panic (Option GoError) where
  state := start
  threads
    | none => reloadFromSource mangle ctx source
    | some other => (updates other).process mangle

/-- Evaluations only add facts to the store they are given, even if they fail. -/
def Mangle.OnlyAdds : Prop :=
  ∀ program options ctx timeout store, ∀ atom ∈ store,
    atom ∈ (mangle.eval program options ctx timeout store).1

variable {mangle} {ctx : Context} {runtime : MangleRuntime Key}

theorem mem_evaluate (adds : mangle.OnlyAdds)
    {program : Program} {store : Store} {atom : Datalog.Atom} (member : atom ∈ store) :
    atom ∈ (evaluate mangle ctx runtime program store).1 := by
  unfold evaluate evalStratifiedWithContext
  split
  · exact member
  · exact adds _ _ _ _ _ _ member

/-! ## What events say about updates -/

variable {past : List (Option Other × Section)} {event : Option Other × Section}

variable (mangle) in
def loadedBy (past : List (Option Other × Section)) : Set Datalog.Atom :=
  {atom | ∃ thread facts invalidates atoms, (thread, .loadFacts facts invalidates) ∈ past ∧
    Parsed mangle facts atoms ∧ atom ∈ atoms}

def addedBy (past : List (Option Other × Section)) : Set SourceUnit :=
  {unit | ∃ thread, (thread, .addPolicy unit true true) ∈ past}

theorem loadedBy_append (first second : List (Option Other × Section)) :
    loadedBy mangle (first ++ second) = loadedBy mangle first ∪ loadedBy mangle second := by
  ext atom
  simp only [loadedBy, List.mem_append, or_and_right, exists_or, Set.mem_ofPred_eq, Set.mem_union]

theorem addedBy_append (first second : List (Option Other × Section)) :
    addedBy (first ++ second) = addedBy first ∪ addedBy second := by
  ext unit
  simp only [addedBy, List.mem_append, exists_or, Set.mem_ofPred_eq, Set.mem_union]

def Section.loadsFacts : Section → Bool
  | .loadFacts _ _ => true
  | _ => false

def Section.addsPolicy : Section → Bool
  | .addPolicy _ _ _ => true
  | _ => false

def NoFacts (events : List (Option Other × Section)) : Prop :=
  ∀ event ∈ events, event.2.loadsFacts = false

def NoPolicies (events : List (Option Other × Section)) : Prop :=
  ∀ event ∈ events, event.2.addsPolicy = false

instance (events : List (Option Other × Section)) : Decidable (NoFacts events) :=
  inferInstanceAs (Decidable (∀ event ∈ events, event.2.loadsFacts = false))

instance (events : List (Option Other × Section)) : Decidable (NoPolicies events) :=
  inferInstanceAs (Decidable (∀ event ∈ events, event.2.addsPolicy = false))

variable {events : List (Option Other × Section)}

theorem NoFacts.loadedBy_eq (none : NoFacts events) : loadedBy mangle events = ∅ := by
  ext atom
  simp only [loadedBy, Set.mem_ofPred_eq, Set.mem_empty_iff_false, iff_false]
  rintro ⟨thread, facts, invalidates, atoms, member, _⟩
  cases none _ member

theorem NoPolicies.addedBy_eq (none : NoPolicies events) : addedBy events = ∅ := by
  ext unit
  simp only [addedBy, Set.mem_ofPred_eq, Set.mem_empty_iff_false, iff_false]
  rintro ⟨thread, member⟩
  cases none _ member

/-- No update falls between a snapshot of the reload that misses it and the swap. -/
structure UpdatesApart (trace : List (Option Other × Section)) : Prop where
  facts : ∀ earlier between later,
    trace = earlier ++ (none, .factSnapshot) :: (between ++ (none, .swap) :: later) →
      NoFacts between
  policies : ∀ earlier between later,
    trace = earlier ++ (none, .persistentSnapshot) :: (between ++ (none, .swap) :: later) →
      NoPolicies between

theorem UpdatesApart.of_concat (apart : UpdatesApart (past ++ [event])) : UpdatesApart past where
  facts := by
    rintro earlier between later rfl
    exact apart.facts earlier between (later ++ [event]) (by simp)
  policies := by
    rintro earlier between later rfl
    exact apart.policies earlier between (later ++ [event]) (by simp)

theorem updatesApart_of_before {updates reload : List (Option Other × Section)}
    (others : ∀ event ∈ updates, event.1 ≠ none) (noFacts : NoFacts reload)
    (noPolicies : NoPolicies reload) : UpdatesApart (updates ++ reload) := by
  -- The snapshot is an event of the reload, and so is everything after it.
  have within : ∀ {earlier later : List (Option Other × Section)} {snapshot : Section},
      updates ++ reload = earlier ++ (none, snapshot) :: later →
        ∀ event ∈ later, event ∈ reload := by
    intro earlier later snapshot split event member
    rcases List.append_eq_append_iff.mp split with ⟨rest, rfl, rfl⟩ | ⟨rest, rfl, tail⟩
    · simp [member]
    · cases rest with
      | nil =>
        rw [List.nil_append] at tail
        exact tail ▸ List.mem_cons_of_mem _ member
      | cons head rest =>
        cases tail
        exact absurd rfl (others (none, snapshot) (by simp))
  constructor
  · intro earlier between later split event member
    exact noFacts event (within split event (by simp [member]))
  · intro earlier between later split event member
    exact noPolicies event (within split event (by simp [member]))

/-! ## One update -/

variable {before after : MangleRuntime Key}

/-- What the section of an update does: nothing is lost, and what it announces is
there afterwards. -/
structure AddStep (mangle : Mangle Key) (before : MangleRuntime Key) (event : Section)
    (after : MangleRuntime Key) : Prop where
  base : ∀ atom ∈ before.baseFactStore, atom ∈ after.baseFactStore
  explicit : ∀ atom ∈ before.explicitFactStore, atom ∈ after.explicitFactStore
  ruleUnits : ∀ unit ∈ before.ruleUnits, unit ∈ after.ruleUnits
  persistentUnits : ∀ unit ∈ before.persistentUnits, unit ∈ after.persistentUnits
  built : Built mangle before → Built mangle after
  loaded : ∀ facts invalidates atoms, event = .loadFacts facts invalidates →
    Parsed mangle facts atoms → ∀ atom ∈ atoms,
      atom ∈ after.baseFactStore ∧ atom ∈ after.explicitFactStore
  added : ∀ unit, event = .addPolicy unit true true →
    unit ∈ after.ruleUnits ∧ unit ∈ after.persistentUnits

def SideUpdate.Recorded (mangle : Mangle Key) (thread : Option Other)
    (past : List (Option Other × Section)) : SideUpdate → Prop
  | .loadFacts _ facts =>
    (∃ invalidates, (thread, .loadFacts facts invalidates) ∈ past) ∧
      ∃ atoms, Parsed mangle facts atoms
  | .addPersistentPolicy _ source => source ≠ "" →
      ∃ unit, mangle.parseUnit (cleanSource source.toList) = .ok unit ∧
        (thread, .addPolicy unit true true) ∈ past

variable {facts : List String}

theorem addFacts_parsed {atoms : List Datalog.Atom}
    (parsed : Parsed mangle facts atoms) (stores : Store × Store) :
    addFacts mangle facts stores = ((stores.1.addAll atoms, stores.2.addAll atoms), none) := by
  induction parsed generalizing stores with
  | nil => rfl
  | @cons text atom facts atoms parsed _ ih =>
    simp only [addFacts, parsed, ih]
    rfl

variable (mangle) in
theorem mem_addFacts (facts : List String) (stores : Store × Store) :
    (∀ atom ∈ stores.1, atom ∈ (addFacts mangle facts stores).1.1) ∧
      ∀ atom ∈ stores.2, atom ∈ (addFacts mangle facts stores).1.2 := by
  induction facts generalizing stores with
  | nil => exact ⟨fun _ member => member, fun _ member => member⟩
  | cons text rest ih =>
    simp only [addFacts]
    split
    · exact ⟨fun _ member => member, fun _ member => member⟩
    next atom _ =>
      obtain ⟨base, explicit⟩ := ih (stores.1.add atom, stores.2.add atom)
      exact ⟨fun fact member => base fact (Store.mem_add.mpr (.inl member)),
        fun fact member => explicit fact (Store.mem_add.mpr (.inl member))⟩

theorem mem_loadFactsBody (adds : mangle.OnlyAdds) {atom : Datalog.Atom} (member : atom ∈
      (addFacts mangle facts (before.baseFactStore, before.explicitFactStore)).1.1) :
    atom ∈ (loadFactsBody mangle ctx facts before).2.baseFactStore := by
  unfold loadFactsBody
  rcases added : addFacts mangle facts (before.baseFactStore, before.explicitFactStore) with
    ⟨stores, failure⟩
  rw [added] at member
  cases failure with
  | some err => exact member
  | none =>
    cases before.program with
    | none => exact member
    | some program => exact mem_evaluate adds member

theorem explicit_loadFactsBody :
    (loadFactsBody mangle ctx facts before).2.explicitFactStore =
      (addFacts mangle facts (before.baseFactStore, before.explicitFactStore)).1.2 := by
  unfold loadFactsBody
  rcases addFacts mangle facts (before.baseFactStore, before.explicitFactStore) with
    ⟨stores, failure⟩
  cases failure with
  | some err => rfl
  | none => cases before.program <;> rfl

theorem addStep_loadFacts (adds : mangle.OnlyAdds) (ctx : Context) (facts : List String)
    (invalidates : Bool) :
    AddStep mangle before (.loadFacts facts invalidates)
      (loadFactsBody mangle ctx facts before).2 := by
  have untouched : (loadFactsBody mangle ctx facts before).2.ruleUnits = before.ruleUnits ∧
      (loadFactsBody mangle ctx facts before).2.persistentUnits = before.persistentUnits ∧
      (loadFactsBody mangle ctx facts before).2.program = before.program := by
    unfold loadFactsBody
    rcases addFacts mangle facts (before.baseFactStore, before.explicitFactStore) with
      ⟨stores, failure⟩
    cases failure with
    | some err => exact ⟨rfl, rfl, rfl⟩
    | none => cases before.program <;> exact ⟨rfl, rfl, rfl⟩
  obtain ⟨units, persistent, program⟩ := untouched
  have kept := mem_addFacts mangle facts (before.baseFactStore, before.explicitFactStore)
  refine ⟨?_, ?_, ?_, ?_, ?_, ?_, nofun⟩
  · exact fun atom member => mem_loadFactsBody adds (kept.1 atom member)
  · intro atom member
    rw [explicit_loadFactsBody]
    exact kept.2 atom member
  · exact fun unit member => units ▸ member
  · exact fun unit member => persistent ▸ member
  · intro built current active
    rw [units]
    exact built current (program ▸ active)
  · rintro _ _ atoms ⟨⟩ parsed atom member
    have added := addFacts_parsed parsed (before.baseFactStore, before.explicitFactStore)
    refine ⟨mem_loadFactsBody adds ?_, ?_⟩
    · rw [added]
      exact Store.mem_addAll.mpr (.inr member)
    · rw [explicit_loadFactsBody, added]
      exact Store.mem_addAll.mpr (.inr member)

theorem addStep_addPolicy (adds : mangle.OnlyAdds) (ctx : Context) (unit : SourceUnit)
    (cleaned : List Char) :
    AddStep mangle before
      (.addPolicy unit true (buildProgram mangle (before.externalPreds.map (·.1))
        (before.ruleUnits ++ [unit]) "combined program").isOk)
      (addPolicyBody mangle ctx unit cleaned true before).2 := by
  simp only [addPolicyBody]
  rcases built : buildProgram mangle (before.externalPreds.map (·.1)) (before.ruleUnits ++ [unit])
    "combined program" with err | program
  · refine ⟨fun _ member => member, fun _ member => member, fun _ member => member,
      fun _ member => member, id, ?_, ?_⟩
    · intro facts invalidates atoms loads
      cases loads
    · intro added adding
      cases adding
  · refine ⟨fun _ member => mem_evaluate adds member, fun _ member => member,
      fun _ member => List.mem_append_left _ member,
      fun _ member => List.mem_append_left _ member, ?_, ?_, ?_⟩
    · rintro _ _ ⟨⟩
      exact ⟨_, _, built⟩
    · intro facts invalidates atoms loads
      cases loads
    · rintro _ ⟨⟩
      exact ⟨by simp, by simp⟩

theorem parsed_of_loadFactsBody (success : (loadFactsBody mangle ctx facts before).1 = none) :
    ∃ atoms, Parsed mangle facts atoms := by
  unfold loadFactsBody at success
  rcases added : addFacts mangle facts (before.baseFactStore, before.explicitFactStore) with
    ⟨stores, failure⟩
  rw [added] at success
  cases failure with
  | some err => cases success
  | none =>
    obtain ⟨atoms, parsed, _⟩ := addFacts_success mangle added
    exact ⟨atoms, parsed⟩

theorem built_of_addPolicyBody {unit : SourceUnit} {cleaned : List Char} {persistent : Bool}
    (success : (addPolicyBody mangle ctx unit cleaned persistent before).1 = none) :
    (buildProgram mangle (before.externalPreds.map (·.1)) (before.ruleUnits ++ [unit])
      "combined program").isOk = true := by
  simp only [addPolicyBody] at success
  split at success
  · cases success
  next built =>
    rw [built]
    rfl

variable {source : String}

theorem addPolicy_of_parsed {persistent : Bool} {unit : SourceUnit} (nonempty : source ≠ "")
    (parsed : mangle.parseUnit (cleanSource source.toList) = .ok unit) :
    addPolicy mangle ctx source persistent =
      .atomically
        (fun runtime => .addPolicy unit persistent
          (buildProgram mangle (runtime.externalPreds.map (·.1)) (runtime.ruleUnits ++ [unit])
            "combined program").isOk)
        (addPolicyBody mangle ctx unit (cleanSource source.toList) persistent) := by
  simp only [addPolicy, if_neg nonempty, parsed]

theorem SideUpdate.process_cases (adds : mangle.OnlyAdds) (update : SideUpdate)
    (thread : Option Other) :
    (∃ result, update.process mangle = .done result ∧
        (result = none → ∀ past, update.Recorded mangle thread past)) ∨
      ∃ event body, update.process mangle = .atomically event body ∧
        ∀ state, AddStep mangle state (event state) (body state).2 ∧
          ((body state).1 = none → ∀ past, (thread, event state) ∈ past →
            update.Recorded mangle thread past) := by
  cases update with
  | loadFacts ctx facts =>
    refine .inr ⟨_, _, rfl, fun state => ⟨addStep_loadFacts adds ctx facts _, ?_⟩⟩
    intro success past member
    exact ⟨⟨_, member⟩, parsed_of_loadFactsBody success⟩
  | addPersistentPolicy ctx source =>
    by_cases empty : source = ""
    · refine .inl ⟨none, by simp [process, addPolicy, empty], fun _ past nonempty => ?_⟩
      exact absurd empty nonempty
    · cases parsed : mangle.parseUnit (cleanSource source.toList) with
      | error err =>
        refine .inl ⟨some (.wrap "failed to parse source" err), ?_, ?_⟩
        · simp [process, addPolicy, empty, parsed]
        · intro success
          cases success
      | ok unit =>
        refine .inr ⟨_, _, addPolicy_of_parsed empty parsed, fun state =>
          ⟨addStep_addPolicy adds ctx unit _, ?_⟩⟩
        intro success past member _
        rw [built_of_addPolicyBody success] at member
        exact ⟨unit, parsed, member⟩

/-! ## The reload -/

/-- The units hold whatever was added before the snapshot. -/
def UnitsSaved (past : List (Option Other × Section)) (units : List SourceUnit) : Prop :=
  ∃ earlier between, past = earlier ++ (none, .persistentSnapshot) :: between ∧
    ∀ unit ∈ addedBy earlier, unit ∈ units

/-- The stores hold whatever was loaded before the snapshot. -/
def FactsSaved (mangle : Mangle Key) (past : List (Option Other × Section))
    (explicit base : Store) : Prop :=
  ∃ earlier between, past = earlier ++ (none, .factSnapshot) :: between ∧
    ∀ atom ∈ loadedBy mangle earlier, atom ∈ base ∧ atom ∈ explicit

variable {units : List SourceUnit}

theorem UnitsSaved.concat (saved : UnitsSaved past units)
    (event : Option Other × Section) : UnitsSaved (past ++ [event]) units := by
  obtain ⟨earlier, between, rfl, included⟩ := saved
  exact ⟨earlier, between ++ [event], by simp, included⟩

theorem FactsSaved.concat {explicit base : Store} (saved : FactsSaved mangle past explicit base)
    (event : Option Other × Section) : FactsSaved mangle (past ++ [event]) explicit base := by
  obtain ⟨earlier, between, rfl, included⟩ := saved
  exact ⟨earlier, between ++ [event], by simp, included⟩

theorem UnitsSaved.complete (saved : UnitsSaved past units)
    (apart : UpdatesApart (past ++ [(none, .swap)])) : ∀ unit ∈ addedBy past, unit ∈ units := by
  obtain ⟨earlier, between, rfl, included⟩ := saved
  have nothing := apart.policies earlier between [] (by simp)
  have between_eq : addedBy ((none, Section.persistentSnapshot) :: between) = ∅ :=
    NoPolicies.addedBy_eq (List.forall_mem_cons.mpr ⟨rfl, nothing⟩)
  rw [addedBy_append, between_eq, Set.union_empty]
  exact included

theorem FactsSaved.complete {explicit base : Store} (saved : FactsSaved mangle past explicit base)
    (apart : UpdatesApart (past ++ [(none, .swap)])) :
    ∀ atom ∈ loadedBy mangle past, atom ∈ base ∧ atom ∈ explicit := by
  obtain ⟨earlier, between, rfl, included⟩ := saved
  have nothing := apart.facts earlier between [] (by simp)
  have between_eq : loadedBy mangle ((none, Section.factSnapshot) :: between) = ∅ :=
    NoFacts.loadedBy_eq (List.forall_mem_cons.mpr ⟨rfl, nothing⟩)
  rw [loadedBy_append, between_eq, Set.union_empty]
  exact included

inductive ReloadStage (mangle : Mangle Key) (ctx : Context) (source : String)
    (past : List (Option Other × Section)) : RuntimeM Key (Option GoError) → Prop where
  | start : ReloadStage mangle ctx source past (reloadFromSource mangle ctx source)
  | build {units sources} (saved : UnitsSaved past units) :
      ReloadStage mangle ctx source past (reloadBuild mangle ctx source units sources)
  | facts {units program names what} (saved : UnitsSaved past units)
      (built : buildProgram mangle names units what = .ok program) :
      ReloadStage mangle ctx source past (reloadFacts mangle ctx units program)
  | evaluate {units program names what kept} (saved : UnitsSaved past units)
      (built : buildProgram mangle names units what = .ok program)
      (savedFacts : FactsSaved mangle past kept.explicit kept.merged) :
      ReloadStage mangle ctx source past (reloadEvaluate mangle ctx units program kept)
  | swap {units program names what explicit evaluated} (saved : UnitsSaved past units)
      (built : buildProgram mangle names units what = .ok program)
      (savedFacts : FactsSaved mangle past explicit evaluated) :
      ReloadStage mangle ctx source past (reloadSwap units program explicit evaluated)
  | finished {result} : ReloadStage mangle ctx source past (.done result)

variable {process : RuntimeM Key (Option GoError)}

theorem ReloadStage.concat (stage : ReloadStage mangle ctx source past process)
    (event : Option Other × Section) :
    ReloadStage mangle ctx source (past ++ [event]) process := by
  cases stage with
  | start => exact .start
  | build saved => exact .build (saved.concat event)
  | facts saved built => exact .facts (saved.concat event) built
  | evaluate saved built savedFacts =>
    exact .evaluate (saved.concat event) built (savedFacts.concat event)
  | swap saved built savedFacts => exact .swap (saved.concat event) built (savedFacts.concat event)
  | finished => exact .finished

structure Preserved (mangle : Mangle Key) (runtime : MangleRuntime Key)
    (past : List (Option Other × Section)) : Prop where
  facts : ∀ atom ∈ loadedBy mangle past,
    atom ∈ runtime.baseFactStore ∧ atom ∈ runtime.explicitFactStore
  units : ∀ unit ∈ addedBy past, unit ∈ runtime.ruleUnits
  persistent : ∀ unit ∈ addedBy past, unit ∈ runtime.persistentUnits
  built : Built mangle runtime

variable {thread : Option Other}

theorem Preserved.addStep {event : Section}
    (preserved : Preserved mangle before past) (step : AddStep mangle before event after) :
    Preserved mangle after (past ++ [(thread, event)]) := by
  refine ⟨?_, ?_, ?_, step.built preserved.built⟩
  · intro atom member
    rw [loadedBy_append] at member
    rcases member with earlier | ⟨_, facts, invalidates, atoms, here, parsed, member⟩
    · obtain ⟨base, explicit⟩ := preserved.facts atom earlier
      exact ⟨step.base atom base, step.explicit atom explicit⟩
    · cases List.mem_singleton.mp here
      exact step.loaded facts invalidates atoms rfl parsed atom member
  · intro unit member
    rw [addedBy_append] at member
    rcases member with earlier | ⟨_, here⟩
    · exact step.ruleUnits unit (preserved.units unit earlier)
    · cases List.mem_singleton.mp here
      exact (step.added unit rfl).1
  · intro unit member
    rw [addedBy_append] at member
    rcases member with earlier | ⟨_, here⟩
    · exact step.persistentUnits unit (preserved.persistent unit earlier)
    · cases List.mem_singleton.mp here
      exact (step.added unit rfl).2

theorem addStep_refl {event : Section} (notFacts : event.loadsFacts = false)
    (notPolicy : event.addsPolicy = false) : AddStep mangle before event before := by
  refine ⟨fun _ member => member, fun _ member => member, fun _ member => member,
    fun _ member => member, id, ?_, ?_⟩
  · rintro _ _ _ rfl
    cases notFacts
  · rintro _ rfl
    cases notPolicy

theorem Preserved.swap {program : Program} {explicit evaluated : Store}
    {names : List String} {what : String} (preserved : Preserved mangle before past)
    (saved : UnitsSaved past units) (built : buildProgram mangle names units what = .ok program)
    (savedFacts : FactsSaved mangle past explicit evaluated)
    (apart : UpdatesApart (past ++ [(none, .swap)])) :
    Preserved mangle (swapBody units program explicit evaluated before)
      (past ++ [(none, .swap)]) := by
  have noFacts : loadedBy mangle [((none : Option Other), Section.swap)] = ∅ := by
    simp [loadedBy]
  have noUnits : addedBy [((none : Option Other), Section.swap)] = ∅ := by
    simp [addedBy]
  refine ⟨?_, ?_, ?_, ?_⟩
  · rw [loadedBy_append, noFacts, Set.union_empty]
    exact savedFacts.complete apart
  · rw [addedBy_append, noUnits, Set.union_empty]
    exact saved.complete apart
  · rw [addedBy_append, noUnits, Set.union_empty]
    exact preserved.persistent
  · rintro _ ⟨⟩
    exact ⟨names, what, built⟩

theorem ReloadStage.step (adds : mangle.OnlyAdds)
    {event : MangleRuntime Key → Section} {update : MangleRuntime Key → MangleRuntime Key}
    {next : MangleRuntime Key → RuntimeM Key (Option GoError)}
    (stage : ReloadStage mangle ctx source past (.step event update next))
    (preserved : Preserved mangle before past)
    (apart : UpdatesApart (past ++ [(none, event before)])) :
    Preserved mangle (update before) (past ++ [(none, event before)]) ∧
      ReloadStage mangle ctx source (past ++ [(none, event before)]) (next before) := by
  generalize pending : Process.step event update next = process at stage
  cases stage with
  | start =>
    by_cases empty : source = ""
    · simp [reloadFromSource, empty] at pending
    · simp only [reloadFromSource, if_neg empty, Process.bind_eq,
        Process.atomically_bind] at pending
      cases pending
      exact ⟨preserved.addStep (addStep_refl rfl rfl), .build ⟨past, [], rfl, preserved.persistent⟩⟩
  | build saved =>
    simp only [reloadBuild, Process.bind_eq, Process.atomically_bind] at pending
    cases pending
    refine ⟨preserved.addStep (addStep_refl rfl rfl), ?_⟩
    dsimp only
    split
    · exact .finished
    next reloaded =>
      obtain ⟨⟨unit, rfl⟩, built⟩ := buildProgram_of_reload reloaded
      obtain ⟨earlier, between, split, included⟩ := saved.concat _
      refine .facts ⟨earlier, between, split, fun unit member => ?_⟩ built
      exact List.mem_cons_of_mem _ (included unit member)
  | facts saved built =>
    simp only [reloadFacts, Process.bind_eq, Process.atomically_bind] at pending
    cases pending
    refine ⟨preserved.addStep (addStep_refl rfl rfl),
      .evaluate (saved.concat _) built ⟨past, [], rfl, fun atom member => ?_⟩⟩
    obtain ⟨base, explicit⟩ := preserved.facts atom member
    exact ⟨mem_merged.mpr ⟨base, .inr explicit⟩, explicit⟩
  | @evaluate units program _ _ kept saved built savedFacts =>
    simp only [reloadEvaluate, Process.bind_eq, Process.atomically_bind] at pending
    cases pending
    refine ⟨preserved.addStep (addStep_refl rfl rfl), ?_⟩
    dsimp only
    split
    · exact .finished
    next evaluated evaluation =>
      obtain ⟨earlier, between, split, included⟩ := savedFacts.concat _
      refine .swap (saved.concat _) built ⟨earlier, between, split, fun atom member => ?_⟩
      obtain ⟨merged, explicit⟩ := included atom member
      have grown : atom ∈ (Engine.evaluate mangle ctx before program kept.merged).1 :=
        mem_evaluate adds merged
      rw [evaluation] at grown
      exact ⟨grown, explicit⟩
  | swap saved built savedFacts =>
    simp only [reloadSwap, Process.atomically] at pending
    cases pending
    exact ⟨preserved.swap saved built savedFacts apart, .finished⟩
  | finished => cases pending

/-! ## Runs -/

/-- An update has not run yet, or its success is on record. -/
inductive OtherStage (mangle : Mangle Key) (update : SideUpdate) (thread : Option Other)
    (past : List (Option Other × Section)) : RuntimeM Key (Option GoError) → Prop where
  | waiting : OtherStage mangle update thread past (update.process mangle)
  | finished {result} (recorded : result = none → update.Recorded mangle thread past) :
      OtherStage mangle update thread past (.done result)

variable {update : SideUpdate}

theorem SideUpdate.Recorded.concat
    (recorded : update.Recorded mangle thread past) (event : Option Other × Section) :
    update.Recorded mangle thread (past ++ [event]) := by
  cases update with
  | loadFacts ctx facts =>
    obtain ⟨⟨invalidates, member⟩, parsed⟩ := recorded
    exact ⟨⟨invalidates, List.mem_append_left _ member⟩, parsed⟩
  | addPersistentPolicy ctx source =>
    intro nonempty
    obtain ⟨unit, parsed, member⟩ := recorded nonempty
    exact ⟨unit, parsed, List.mem_append_left _ member⟩

theorem OtherStage.concat
    (stage : OtherStage mangle update thread past process) (event : Option Other × Section) :
    OtherStage mangle update thread (past ++ [event]) process := by
  cases stage with
  | waiting => exact .waiting
  | finished recorded => exact .finished fun success => (recorded success).concat event

theorem OtherStage.step (adds : mangle.OnlyAdds) {sideUpdate : SideUpdate}
    {event : MangleRuntime Key → Section} {update : MangleRuntime Key → MangleRuntime Key}
    {next : MangleRuntime Key → RuntimeM Key (Option GoError)}
    (stage : OtherStage mangle sideUpdate thread past (.step event update next))
    (before : MangleRuntime Key) :
    AddStep mangle before (event before) (update before) ∧
      OtherStage mangle sideUpdate thread (past ++ [(thread, event before)]) (next before) := by
  generalize pending : Process.step event update next = process at stage
  cases stage with
  | waiting =>
    rcases sideUpdate.process_cases adds thread with
      ⟨result, finished, _⟩ | ⟨_, body, atomic, spec⟩
    · rw [finished] at pending
      cases pending
    · rw [atomic, Process.atomically] at pending
      cases pending
      refine ⟨(spec before).1, .finished fun success => ?_⟩
      exact (spec before).2 success _ (by simp)
  | finished => cases pending

theorem OtherStage.recorded (adds : mangle.OnlyAdds)
    (stage : OtherStage mangle update thread past (.done none)) :
    update.Recorded mangle thread past := by
  generalize ended : (Process.done none : RuntimeM Key (Option GoError)) = process at stage
  cases stage with
  | waiting =>
    rcases update.process_cases adds thread with ⟨result, finished, recorded⟩ | ⟨_, _, atomic, _⟩
    · rw [finished] at ended
      cases ended
      exact recorded rfl past
    · rw [atomic] at ended
      cases ended
  | finished recorded =>
    cases ended
    exact recorded rfl

structure RaceInvariant (mangle : Mangle Key) (ctx : Context) (source : String)
    (updates : Other → SideUpdate)
    (pool : Pool (Option Other) (MangleRuntime Key) Section Panic (Option GoError))
    (past : List (Option Other × Section)) : Prop where
  preserved : Preserved mangle pool.state past
  reload : ReloadStage mangle ctx source past (pool.threads none)
  others : ∀ other, OtherStage mangle (updates other) (some other) past (pool.threads (some other))

variable [DecidableEq Other]

theorem RaceInvariant.advance (adds : mangle.OnlyAdds) {updates : Other → SideUpdate}
    {pool : Pool (Option Other) (MangleRuntime Key) Section Panic (Option GoError)}
    (holds : RaceInvariant mangle ctx source updates pool past) (moved : Option Other)
    (apart : UpdatesApart (past ++ pool.emitted moved)) :
    RaceInvariant mangle ctx source updates (pool.advance moved) (past ++ pool.emitted moved) := by
  rcases pool.advance_cases moved with
    ⟨unchanged, silent⟩ | ⟨event, update, next, pending, advanced, emitted⟩
  · rw [unchanged, silent, List.append_nil]
    exact holds
  · rw [emitted] at apart ⊢
    rw [advanced]
    cases moved with
    | none =>
      have stage := holds.reload
      rw [pending] at stage
      obtain ⟨preserved, reload⟩ := stage.step adds holds.preserved apart
      refine ⟨preserved, ?_, fun other => ?_⟩
      · simpa using reload
      · simpa using (holds.others other).concat _
    | some other =>
      have stage := holds.others other
      rw [pending] at stage
      obtain ⟨step, finished⟩ := stage.step adds pool.state
      refine ⟨holds.preserved.addStep step, ?_, fun third => ?_⟩
      · simpa using holds.reload.concat _
      · by_cases same : third = other
        · subst same
          simpa using finished
        · simpa [same] using (holds.others third).concat _

theorem raceInvariant_run (adds : mangle.OnlyAdds) {start : MangleRuntime Key}
    (built : Built mangle start) (ctx : Context) (source : String) (updates : Other → SideUpdate)
    (schedule : List (Option Other))
    (apart : UpdatesApart ((reloadPool mangle start ctx source updates).trace schedule)) :
    RaceInvariant mangle ctx source updates
      ((reloadPool mangle start ctx source updates).run schedule)
      ((reloadPool mangle start ctx source updates).trace schedule) := by
  revert apart
  apply Pool.run_induction (reloadPool mangle start ctx source updates)
    (motive := fun pool past => UpdatesApart past →
      RaceInvariant mangle ctx source updates pool past)
  · intro _
    refine ⟨⟨?_, ?_, ?_, built⟩, .start, fun other => .waiting⟩
    · simp [loadedBy]
    · simp [addedBy]
    · simp [addedBy]
  · intro pool past moved holds apart
    have before : UpdatesApart past := by
      rcases pool.advance_cases moved with ⟨_, silent⟩ | ⟨_, _, _, _, _, emitted⟩
      · rwa [silent, List.append_nil] at apart
      · rw [emitted] at apart
        exact apart.of_concat
    exact (holds before).advance adds moved apart

def SideUpdate.Survives (mangle : Mangle Key) (runtime : MangleRuntime Key) : SideUpdate → Prop
  | .loadFacts _ facts => ∀ text ∈ facts, ∃ atom, mangle.parseAtom text = .ok atom ∧
      atom ∈ runtime.baseFactStore ∧ atom ∈ runtime.explicitFactStore
  | .addPersistentPolicy _ source => source ≠ "" →
      ∃ unit, mangle.parseUnit (cleanSource source.toList) = .ok unit ∧
        unit ∈ runtime.ruleUnits ∧ unit ∈ runtime.persistentUnits

omit [DecidableEq Other] in
theorem Preserved.survives (preserved : Preserved mangle runtime past)
    (recorded : update.Recorded mangle thread past) : update.Survives mangle runtime := by
  cases update with
  | loadFacts ctx facts =>
    obtain ⟨⟨invalidates, member⟩, atoms, parsed⟩ := recorded
    intro text listed
    obtain ⟨atom, inAtoms, parses⟩ := parsed.exists_of_mem listed
    exact ⟨atom, parses, preserved.facts atom
      ⟨thread, facts, invalidates, atoms, member, parsed, inAtoms⟩⟩
  | addPersistentPolicy ctx source =>
    intro nonempty
    obtain ⟨unit, parsed, member⟩ := recorded nonempty
    exact ⟨unit, parsed, preserved.units unit ⟨thread, member⟩,
      preserved.persistent unit ⟨thread, member⟩⟩

end Updates

/-! ## Two updates that are lost -/

theorem reference_onlyAdds : Reference.mangle.OnlyAdds := by
  intro program options ctx timeout store atom member
  change atom ∈ (Reference.eval program options ctx timeout store).1
  have evaluated : ∀ result, Datalog.evaluate (Reference.programClauses program.info) 8 store =
      some result → atom ∈ result := by
    intro result found
    rw [← Store.mem_toSet, Datalog.evaluate_perfect found]
    exact Stratified.Program.subset_perfect _ _ member
  unfold Reference.eval
  split
  · exact member
  next result found =>
    split
    · exact evaluated result found
    · split
      · exact member
      · exact evaluated result found

inductive Bystander where
  | facts
  | builtin
  deriving DecidableEq

def Bystander.update : Bystander → SideUpdate
  | .facts => .loadFacts {} ["p(\"b\")"]
  | .builtin => .addPersistentPolicy {} "q(X) :- p(X)."

def bystanders :
    Pool (Option Bystander) (MangleRuntime Reference.Key) Section Panic (Option GoError) :=
  reloadPool Reference.mangle {} {} "r(\"a\")." Bystander.update

/-- Every thread has returned without an error. -/
def allReturned
    (pool : Pool (Option Bystander) (MangleRuntime Reference.Key) Section Panic (Option GoError)) :
    Bool :=
  [none, some .facts, some .builtin].all fun thread =>
    (pool.threads thread).result?.any Option.isNone

/-- The unit is added after the first snapshot, the facts after the second one. -/
def lostSchedule : List (Option Bystander) :=
  [none, some .builtin, none, none, some .facts, none, none]

theorem allReturned_spec
    {pool : Pool (Option Bystander) (MangleRuntime Reference.Key) Section Panic (Option GoError)}
    (returned : allReturned pool = true) (thread : Option Bystander) :
    pool.threads thread = .done none := by
  have listed : thread ∈ [none, some Bystander.facts, some .builtin] := by
    rcases thread with _ | _ | _ <;> simp
  have ended := List.all_eq_true.mp returned thread listed
  obtain ⟨result, found, success⟩ := (Option.any_eq_true _ _).mp ended
  rw [Process.result?_eq_some.mp found, Option.isNone_iff_eq_none.mp success]

end Manglekit.Engine

import Manglekit.Engine.Reference

/-!
# Insertions into the cache map

A query allocates the map of the cache in one section and writes to it in a later
one.  Updates drop the map.  Which sections allocate and drop it is read off their
events, so the events of a run decide whether an insertion finds a map.
-/

namespace Manglekit.Engine

open Core Atomic

def Section.invalidates : Section → Bool
  | .loadFacts _ invalidates => invalidates
  | .addPolicy _ _ invalidates => invalidates
  | .swap | .load => true
  | _ => false

def Section.allocates : Section → Bool
  | .storeSnapshot cacheable => cacheable
  | _ => false

structure MapStep {Key : Type} (before : MangleRuntime Key) (event : Section)
    (after : MangleRuntime Key) : Prop where
  kept : after.idbCache.isSome =
    (!event.invalidates && (before.idbCache.isSome || event.allocates))
  inserted : ∀ allocated, event = .cacheInsert allocated → allocated = before.idbCache.isSome

section Sections

variable {Key : Type} {Result : Type}

theorem every_untouched {Other : Type} {event : MangleRuntime Key → Section}
    {body : MangleRuntime Key → Result × MangleRuntime Key} {next : Result → RuntimeM Key Other}
    (same : ∀ runtime, (body runtime).2.idbCache = runtime.idbCache)
    (plain : ∀ runtime, (event runtime).invalidates = false ∧
      (event runtime).allocates = false ∧ ∀ allocated, event runtime ≠ .cacheInsert allocated)
    (continues : ∀ result, (next result).Every MapStep) :
    (Process.atomically event body >>= next).Every MapStep := by
  refine Process.Every.bind (Process.every_atomically fun runtime => ?_) continues
  obtain ⟨keeps, allocatesNot, insertsNot⟩ := plain runtime
  refine ⟨?_, fun allocated inserts => absurd inserts (insertsNot allocated)⟩
  rw [same, keeps, allocatesNot]
  simp

variable (mangle : Mangle Key) (ctx : Context)

theorem every_loadFacts (facts : List String) : (loadFacts mangle ctx facts).Every MapStep := by
  apply Process.every_atomically
  intro runtime
  refine ⟨?_, nofun⟩
  rcases added : addFacts mangle facts (runtime.baseFactStore, runtime.explicitFactStore) with
    ⟨stores, failure⟩
  cases failure with
  | some err => simp [loadFactsBody, added, Section.invalidates, Section.allocates]
  | none =>
    cases active : runtime.program with
    | none | some program =>
      simp [loadFactsBody, added, active, Section.invalidates, Section.allocates,
        MangleRuntime.ready]

theorem every_addPolicy (source : String) (persistent : Bool) :
    (addPolicy mangle ctx source persistent).Every MapStep := by
  simp only [addPolicy]
  split
  · trivial
  · split
    · trivial
    next unit parsed =>
      apply Process.every_atomically
      intro runtime
      refine ⟨?_, nofun⟩
      simp only [addPolicyBody]
      generalize buildProgram mangle _ _ _ = built
      cases built <;> simp [Section.invalidates, Section.allocates, Except.isOk, Except.toBool]

theorem every_load (path : String) (resolved : Except GoError (List SourceFile)) :
    (load mangle ctx path resolved).Every MapStep := by
  unfold load
  split
  · trivial
  · split
    · trivial
    · split
      · trivial
      · apply Process.every_atomically
        exact fun runtime => ⟨rfl, nofun⟩

theorem every_reloadFromSource (source : String) :
    (reloadFromSource mangle ctx source).Every MapStep := by
  unfold reloadFromSource
  split
  · trivial
  · refine every_untouched (fun _ => rfl) (fun _ => ⟨rfl, rfl, nofun⟩) fun persistent => ?_
    refine every_untouched (fun _ => rfl) (fun _ => ⟨rfl, rfl, nofun⟩) fun names => ?_
    split
    · trivial
    · refine every_untouched (fun _ => rfl) (fun _ => ⟨rfl, rfl, nofun⟩) fun kept => ?_
      refine every_untouched (fun _ => rfl) (fun _ => ⟨rfl, rfl, nofun⟩) fun settings => ?_
      split
      · trivial
      · apply Process.every_atomically
        exact fun runtime => ⟨rfl, nofun⟩

variable [DecidableEq Key] (facts : List Datalog.Atom)

theorem every_storeSnapshot : (storeSnapshot mangle facts).Every MapStep := by
  apply Process.every_atomically
  intro runtime
  refine ⟨?_, nofun⟩
  cases active : runtime.program with
  | none =>
    simp [storeSnapshotBody, active, Section.invalidates, Section.allocates, MangleRuntime.ready]
  | some program =>
    simp only [storeSnapshotBody, active, Section.invalidates, Section.allocates,
      MangleRuntime.ready]
    split
    next cacheable =>
      split <;> simp [cacheable]
    next bypassing => simp [bypassing]

theorem every_cacheInsert (key : Key) (store : Datalog.Store) :
    (cacheInsert key store : RuntimeM Key Unit).Every MapStep := by
  apply Process.Every.bind
  · apply Process.every_atomically
    intro runtime
    refine ⟨by simp [Section.invalidates, Section.allocates], ?_⟩
    rintro allocated ⟨⟩
    rfl
  · intro allocated
    split <;> trivial

theorem every_evaluatedWorkingStore (options : EvalOptions) :
    (evaluatedWorkingStore mangle ctx facts options).Every MapStep := by
  apply Process.Every.bind (every_storeSnapshot mangle facts)
  intro snapshot
  cases snapshot with
  | notReady | hit => trivial
  | miss program base key =>
    simp only [evaluateMiss]
    split
    · trivial
    · refine every_untouched (fun _ => rfl) (fun _ => ⟨rfl, rfl, nofun⟩) fun timeout => ?_
      split
      · trivial
      · cases key with
        | none => trivial
        | some key =>
          apply Process.Every.bind (every_cacheInsert key _)
          exact fun _ => trivial

theorem every_executeQuery (query : String) :
    (executeQuery mangle ctx facts query).Every MapStep := by
  unfold executeQuery
  split
  · trivial
  · apply Process.Every.bind (every_evaluatedWorkingStore mangle ctx facts {})
    intro answered
    cases answered <;> trivial

theorem every_queryWithSolutions (query : String) :
    (queryWithSolutions mangle ctx facts query).Every MapStep := by
  unfold queryWithSolutions
  split
  · trivial
  · apply Process.Every.bind
    · refine every_untouched (fun _ => rfl) (fun _ => ⟨rfl, rfl, nofun⟩) fun program => ?_
      refine every_untouched (fun _ => rfl) (fun _ => ⟨rfl, rfl, nofun⟩) fun settings => ?_
      cases program with
      | some program => trivial
      | none =>
        dsimp only
        split <;> trivial
    · intro options
      refine every_untouched (fun _ => rfl) (fun _ => ⟨rfl, rfl, nofun⟩) fun limit => ?_
      apply Process.Every.bind (every_evaluatedWorkingStore mangle ctx facts _)
      intro answered
      cases answered <;> trivial

theorem every_call (call : RuntimeCall) : (call.process mangle).Every MapStep := by
  cases call with
  | loadFacts ctx facts =>
    exact (every_loadFacts mangle ctx facts).bind fun _ => trivial
  | addPolicy ctx source persistent =>
    exact (every_addPolicy mangle ctx source persistent).bind fun _ => trivial
  | load ctx path resolved =>
    exact (every_load mangle ctx path resolved).bind fun _ => trivial
  | reloadFromSource ctx source =>
    exact (every_reloadFromSource mangle ctx source).bind fun _ => trivial
  | withMaxCreatedFacts limit =>
    exact every_untouched (fun _ => rfl) (fun _ => ⟨rfl, rfl, nofun⟩) fun _ => trivial
  | executeQuery ctx facts query =>
    exact (every_executeQuery mangle ctx facts query).bind fun _ => trivial
  | queryWithSolutions ctx facts query =>
    exact (every_queryWithSolutions mangle ctx facts query).bind fun _ => trivial

end Sections

/-! ## The map along a trace -/

section Traces

variable {Thread : Type}

def mapAllocated (initially : Bool) (past : List (Thread × Section)) : Bool :=
  past.foldl (fun allocated event =>
    !event.2.invalidates && (allocated || event.2.allocates)) initially

@[simp]
theorem mapAllocated_concat (initially : Bool) (past : List (Thread × Section))
    (event : Thread × Section) :
    mapAllocated initially (past ++ [event]) =
      (!event.2.invalidates && (mapAllocated initially past || event.2.allocates)) := by
  simp [mapAllocated]

/-- The map was allocated by some event, or at the start, and not dropped since. -/
def MapKept (initially : Bool) (past : List (Thread × Section)) : Prop :=
  (initially = true ∧ ∀ event ∈ past, event.2.invalidates = false) ∨
    ∃ earlier lookup later, past = earlier ++ lookup :: later ∧ lookup.2.allocates = true ∧
      ∀ event ∈ later, event.2.invalidates = false

theorem not_allocates_of_invalidates {event : Section} (invalidates : event.invalidates = true) :
    event.allocates = false := by
  cases event <;> first | rfl | cases invalidates

theorem concat_eq_split {α : Type} {past earlier later : List α} {last found : α}
    (split : past ++ [last] = earlier ++ found :: later) :
    (later = [] ∧ past = earlier ∧ last = found) ∨
      ∃ rest, later = rest ++ [last] ∧ past = earlier ++ found :: rest := by
  rcases List.eq_nil_or_concat later with rfl | ⟨rest, final, rfl⟩
  · obtain ⟨same, equal⟩ := List.append_inj' split rfl
    exact .inl ⟨rfl, same, List.singleton_inj.mp equal⟩
  · rw [List.concat_eq_append, ← List.cons_append, ← List.append_assoc] at split
    obtain ⟨same, equal⟩ := List.append_inj' split rfl
    refine .inr ⟨rest, ?_, same⟩
    rw [List.concat_eq_append, List.singleton_inj.mp equal]

theorem mapAllocated_iff {initially : Bool} {past : List (Thread × Section)} :
    mapAllocated initially past = true ↔ MapKept initially past := by
  induction past using List.reverseRecOn with
  | nil => simp [mapAllocated, MapKept]
  | append_singleton past event ih =>
    rw [mapAllocated_concat, Bool.and_eq_true, Bool.or_eq_true, ih, Bool.not_eq_true']
    constructor
    · rintro ⟨keeps, (⟨start, none⟩ | ⟨earlier, lookup, later, rfl, allocates, none⟩) | allocates⟩
      · refine .inl ⟨start, fun other member => ?_⟩
        rcases List.mem_append.mp member with inPast | isLast
        · exact none other inPast
        · exact List.mem_singleton.mp isLast ▸ keeps
      · refine .inr ⟨earlier, lookup, later ++ [event], by simp, allocates, ?_⟩
        intro other member
        rcases List.mem_append.mp member with inLater | isLast
        · exact none other inLater
        · exact List.mem_singleton.mp isLast ▸ keeps
      · exact .inr ⟨past, event, [], rfl, allocates, by simp⟩
    · rintro (⟨start, none⟩ | ⟨earlier, lookup, later, split, allocates, none⟩)
      · refine ⟨none event (by simp), .inl (.inl ⟨start, fun other member => ?_⟩)⟩
        exact none other (List.mem_append_left _ member)
      · rcases concat_eq_split split with ⟨rfl, rfl, rfl⟩ | ⟨rest, rfl, rfl⟩
        · refine ⟨?_, .inr allocates⟩
          by_contra drops
          simp [not_allocates_of_invalidates (Bool.of_not_eq_false drops)] at allocates
        · refine ⟨none event (by simp), .inl (.inr ⟨earlier, lookup, rest, rfl, allocates, ?_⟩)⟩
          exact fun other member => none other (List.mem_append_left _ member)

end Traces

/-! ## Interleaved calls -/

section Interleaving

variable {Key : Type} [DecidableEq Key] (mangle : Mangle Key) {Thread : Type} [DecidableEq Thread]

def callPool (start : MangleRuntime Key) (calls : Thread → RuntimeCall) :
    Pool Thread (MangleRuntime Key) Section Panic CallResult where
  state := start
  threads thread := (calls thread).process mangle

/-- The events tell whether the map is allocated, now and at every insertion. -/
structure MapTracked (initially : Bool) (runtime : MangleRuntime Key)
    (past : List (Thread × Section)) : Prop where
  current : runtime.idbCache.isSome = mapAllocated initially past
  inserted : ∀ before thread allocated after,
    past = before ++ (thread, .cacheInsert allocated) :: after →
      allocated = mapAllocated initially before

omit [DecidableEq Key] [DecidableEq Thread] in
theorem MapTracked.step {initially : Bool} {runtime after : MangleRuntime Key}
    {past : List (Thread × Section)} {thread : Thread} {event : Section}
    (tracked : MapTracked initially runtime past) (step : MapStep runtime event after) :
    MapTracked initially after (past ++ [(thread, event)]) where
  current := by
    rw [mapAllocated_concat, ← tracked.current]
    exact step.kept
  inserted := by
    intro before inserter allocated later split
    rcases concat_eq_split split with ⟨_, rfl, isInsertion⟩ | ⟨rest, _, inPast⟩
    · cases isInsertion
      rw [← tracked.current]
      exact step.inserted allocated rfl
    · exact tracked.inserted _ _ _ _ inPast

theorem mapTracked_run (start : MangleRuntime Key) (calls : Thread → RuntimeCall)
    (schedule : List Thread) :
    MapTracked start.idbCache.isSome ((callPool mangle start calls).run schedule).state
      ((callPool mangle start calls).trace schedule) := by
  apply Pool.trace_invariant (callPool mangle start calls)
    (fun thread => every_call mangle (calls thread))
  · exact ⟨rfl, by simp⟩
  · intro runtime past thread event after step tracked
    exact tracked.step step

/-- No insertion of a run writes into a dropped map, exactly if since the last
invalidation before every insertion some query looked the cache up. -/
theorem insertions_allocated_iff (start : MangleRuntime Key) (calls : Thread → RuntimeCall)
    (schedule : List Thread) :
    (∀ thread, (thread, Section.cacheInsert false) ∉
        (callPool mangle start calls).trace schedule) ↔
      ∀ before thread allocated after,
        (callPool mangle start calls).trace schedule =
          before ++ (thread, .cacheInsert allocated) :: after →
        MapKept start.idbCache.isSome before := by
  have tracked := mapTracked_run mangle start calls schedule
  constructor
  · intro safe before thread allocated after occurs
    rw [← mapAllocated_iff, ← tracked.inserted _ _ _ _ occurs]
    by_contra dropped
    rw [Bool.not_eq_true] at dropped
    subst dropped
    exact safe thread (occurs ▸ by simp)
  · intro kept thread member
    obtain ⟨before, after, occurs⟩ := List.append_of_mem member
    have allocated := mapAllocated_iff.mpr (kept _ _ _ _ occurs)
    rw [← tracked.inserted _ _ _ _ occurs] at allocated
    cases allocated

end Interleaving

/-! ## An update between the two sections of a query -/

inductive Racer where
  | policy
  | query
  | facts
  deriving DecidableEq

def Racer.call : Racer → RuntimeCall
  | .policy => .reloadFromSource {} "p(\"a\")."
  | .query => .executeQuery {} [] "p(\"a\")"
  | .facts => .loadFacts {} ["p(\"b\")"]

/-- After the five sections of the reload, the facts are loaded between the lookup
and the insertion of the query. -/
def Racer.schedule : List Racer :=
  [.policy, .policy, .policy, .policy, .policy, .query, .query, .facts, .query]

/-- The insertion finds no map, and the query panics. -/
theorem racingInsertion_unallocated :
    (.query, Section.cacheInsert false) ∈
        (callPool Reference.mangle {} Racer.call).trace Racer.schedule ∧
      ((callPool Reference.mangle {} Racer.call).run Racer.schedule).threads .query matches
        .abort .nilMapWrite := by
  decide +kernel

end Manglekit.Engine

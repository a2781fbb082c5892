import Mathlib
import Manglekit.Engine.Gate
import Manglekit.Traversal.WalkedValues

/-!
# Facts about a value graph

`Flatten` walks through maps, slices and arrays, gives every container that it meets a node id
and emits a fact for every entry.  A pointer is followed once in the whole walk, maps and slices
are not remembered at all.
-/

namespace Manglekit.Engine.Flattener

open Traversal (Shape Entry Record Walk IsEntry IsContainer)

/-! ## Values -/

/-- The texts of floats and of the values of other kinds are those that `fmt` prints. -/
inductive Primitive where
  | string (text : String)
  | bool (value : Bool)
  | int (value : Int)
  | uint (value : Nat)
  | float (text : String)
  | other (text : String)
  deriving DecidableEq, Repr

/-- What stands at an address.  An interface is not told from the value that it holds, and
`null` is a nil pointer or a nil interface; a nil map or slice is an empty one.  Map keys are
given as `fmt` prints them. -/
inductive Node (Ref : Type) where
  | null
  | primitive (value : Primitive)
  | pointer (target : Ref)
  | map (entries : List (String × Ref))
  | list (elements : List Ref)
  deriving DecidableEq, Repr

/-- The orders in which the entries of a map are visited.  They may differ from one visit to
the next; the visits are told apart by the counter. -/
structure MapRange (Ref : Type) where
  order : Nat → List ((String × Ref) × Nat) → List ((String × Ref) × Nat)
  perm : ∀ time entries, (order time entries).Perm entries

inductive JsonFact where
  | link (parent key child : String)
  | str (node key value : String)
  | bool (node key : String) (value : Bool)
  | num (node key number : String)
  deriving DecidableEq, Repr

def JsonFact.text : JsonFact → String
  | .link parent key child =>
    "json_link(\"" ++ parent ++ "\", \"" ++ key ++ "\", \"" ++ child ++ "\")"
  | .str node key value => "json_str(\"" ++ node ++ "\", \"" ++ key ++ "\", \"" ++ value ++ "\")"
  | .bool node key value =>
    "json_bool(\"" ++ node ++ "\", \"" ++ key ++ "\", \"" ++ (if value then "true" else "false")
      ++ "\")"
  | .num node key number => "json_num(\"" ++ node ++ "\", \"" ++ key ++ "\", " ++ number ++ ")"

/-! ## The walk of the source -/

structure State (Ref : Type) where
  facts : List JsonFact
  counter : Nat
  visited : List Ref

def addPrimitiveReflect (nodeID key : String) : Primitive → JsonFact
  | .string text => .str (escapeString nodeID) key (escapeString text)
  | .bool value => .bool (escapeString nodeID) key value
  | .int value => .num (escapeString nodeID) key (toString value)
  | .uint value => .num (escapeString nodeID) key (toString value)
  | .float text => .num (escapeString nodeID) key text
  | .other text => .str (escapeString nodeID) key (escapeString text)

def childID (number : Nat) : String := "node_" ++ toString number

section Source

variable {Ref : Type} (graph : Ref → Node Ref)

/-- The loop that unwraps `effVal`. -/
def effVal : Nat → Ref → Option Ref
  | 0, _ => none
  | depth + 1, value =>
    match graph value with
    | .pointer target => effVal depth target
    | _ => some value

variable [DecidableEq Ref]

/-- The loop that dereferences a value: a nil or visited pointer ends the call. -/
def dereference : Nat → Ref → List Ref → Option (Option Ref × List Ref)
  | 0, _, _ => none
  | depth + 1, value, visited =>
    match graph value with
    | .null => some (none, visited)
    | .pointer target =>
      if target ∈ visited then some (none, visited)
      else dereference depth target (target :: visited)
    | _ => some (some value, visited)

section Children

variable (unwrapped : Ref → Option Ref) (recurse : String → Ref → State Ref → Option (State Ref))

def flattenChild (nodeID key : String) (child : Ref) (state : State Ref) : Option (State Ref) := do
  let value ← unwrapped child
  match graph value with
  | .map _ | .list _ =>
    let counter := state.counter + 1
    recurse (childID counter) child
      { state with
        counter := counter
        facts := state.facts ++ [.link (escapeString nodeID) key (childID counter)] }
  | .primitive value =>
    some { state with facts := state.facts ++ [addPrimitiveReflect nodeID key value] }
  | _ => some state

def flattenChildren (nodeID : String) : List (String × Ref) → State Ref → Option (State Ref)
  | [], state => some state
  | (key, child) :: rest, state => do
    let state ← flattenChild graph unwrapped recurse nodeID key child state
    flattenChildren nodeID rest state

end Children

/-- The children of a container with their keys, in the order of a visit. -/
def children (range : MapRange Ref) (time : Nat) : Node Ref → List (String × Ref)
  | .map entries => (range.order time entries.zipIdx).map fun entry =>
    (escapeString entry.1.1, entry.1.2)
  | .list elements => elements.zipIdx.map fun element => (toString element.2, element.1)
  | _ => []

/-- `none` is a call that has not returned. -/
def flattenRecursive (range : MapRange Ref) :
    Nat → String → Ref → State Ref → Option (State Ref)
  | 0, _, _, _ => none
  | depth + 1, nodeID, value, state => do
    let (reached, visited) ← dereference graph (depth + 1) value state.visited
    match reached with
    | none => some { state with visited := visited }
    | some value =>
      flattenChildren graph (effVal graph (depth + 1)) (flattenRecursive range depth) nodeID
        (children range state.counter (graph value)) { state with visited := visited }

/-- It never returns an error. -/
def flatten (range : MapRange Ref) (depth : Nat) (rootID : String) (input : Ref) :
    Option (List JsonFact) :=
  match graph input with
  | .null => some []
  | _ => (flattenRecursive graph range depth rootID input ⟨[], 0, []⟩).map State.facts

end Source

/-! ## The walk it makes -/

section Simulation

variable {Ref : Type} (graph : Ref → Node Ref) (range : MapRange Ref) (rootID : String)

def shape (value : Ref) : Shape String Ref :=
  match graph value with
  | .null => .blank
  | .primitive _ => .leaf
  | .pointer target => .pointer target
  | .map entries => .container (entries.map fun entry => (escapeString entry.1, entry.2))
  | .list elements =>
    .container (elements.zipIdx.map fun element => (toString element.2, element.1))

def visit (time : Nat) (container : Ref) : List ((String × Ref) × Nat) :=
  match graph container with
  | .map entries => (range.order time entries.zipIdx).map
      (Prod.map (fun entry => (escapeString entry.1, entry.2)) id)
  | .list elements => (elements.zipIdx.map fun element => (toString element.2, element.1)).zipIdx
  | _ => []

theorem visits : Traversal.Visits (shape graph) (visit graph range) := by
  intro time container children shaped
  cases stored : graph container with
  | map entries =>
    simp only [shape, stored, Shape.container.injEq] at shaped
    rw [← shaped, List.zipIdx_map, visit, stored]
    exact (range.perm time entries.zipIdx).map _
  | list elements =>
    simp only [shape, stored, Shape.container.injEq] at shaped
    rw [← shaped, visit, stored]
  | _ => simp [shape, stored] at shaped

def nodeID (number : Nat) : String := if number = 0 then rootID else childID number

def entryFact (nodeID childID : String) (key : String) (value : Ref) : JsonFact :=
  match graph value with
  | .primitive value => addPrimitiveReflect nodeID key value
  | _ => .link (escapeString nodeID) key childID

def recordFact (record : Record String Ref) : JsonFact :=
  entryFact graph (nodeID rootID record.parent) (nodeID rootID (record.number.getD 0)) record.label
    record.value

def stateOf (walk : Walk String Ref) : State Ref :=
  ⟨walk.log.map (recordFact graph rootID), walk.count, walk.marks.map Prod.fst⟩

theorem effVal_eq_unwrap (depth : Nat) (value : Ref) :
    effVal graph depth value = Traversal.unwrap (shape graph) depth value := by
  induction depth generalizing value with
  | zero => rfl
  | succ depth ih =>
    rw [effVal, Traversal.unwrap]
    cases stored : graph value <;> simp [shape, stored, ih]

variable [DecidableEq Ref]

theorem dereference_eq_follow (path : Traversal.Path) (depth : Nat) (value : Ref)
    (marks : List (Ref × Traversal.Path)) :
    dereference graph depth value (marks.map Prod.fst) =
      (Traversal.follow (shape graph) path depth value marks).map
        (Prod.map id (List.map Prod.fst)) := by
  induction depth generalizing value marks with
  | zero => rfl
  | succ depth ih =>
    rw [dereference, Traversal.follow]
    cases stored : graph value with
    | pointer target =>
      simp only [shape, stored]
      split
      · rfl
      · exact ih target ((target, path) :: marks)
    | _ => simp [shape, stored]

@[simp]
theorem nodeID_succ (number : Nat) : nodeID rootID (number + 1) = childID (number + 1) := rfl

section Children

variable (unwrapped : Ref → Option Ref) {recurse : String → Ref → State Ref → Option (State Ref)}
  {walkOn : Traversal.Path → Ref → Walk String Ref → Option (Walk String Ref)}
  (simulated : ∀ path value walk,
    recurse (nodeID rootID walk.count) value (stateOf graph rootID walk) =
      (walkOn path value walk).map (stateOf graph rootID))

include simulated

omit [DecidableEq Ref] in
theorem flattenChild_eq (path : Traversal.Path) (number : Nat) (position : (String × Ref) × Nat)
    (walk : Walk String Ref) :
    flattenChild graph unwrapped recurse (nodeID rootID number) position.1.1 position.1.2
        (stateOf graph rootID walk) =
      (Traversal.walkChild (shape graph) unwrapped walkOn path number position walk).map
        (stateOf graph rootID) := by
  obtain ⟨⟨key, child⟩, index⟩ := position
  rw [flattenChild, Traversal.walkChild]
  cases unwrapped child with
  | none => rfl
  | some value =>
    have later := simulated (path ++ [index]) child
      (walk.addContainer number ⟨path, index, key, value⟩)
    cases stored : graph value with
    | null | pointer target => simp [shape, stored]
    | primitive text =>
      simp [shape, stored, stateOf, Walk.addLeaf, recordFact, entryFact]
    | map entries | list elements =>
      simp only [shape, stored, Option.bind_eq_bind, Option.bind_some, ← later]
      simp [stateOf, Walk.addContainer, recordFact, entryFact, stored]

omit [DecidableEq Ref] in
theorem flattenChildren_eq (path : Traversal.Path) (number : Nat)
    (positions : List ((String × Ref) × Nat)) (walk : Walk String Ref) :
    flattenChildren graph unwrapped recurse (nodeID rootID number) (positions.map Prod.fst)
        (stateOf graph rootID walk) =
      (Traversal.walkChildren (shape graph) unwrapped walkOn path number positions walk).map
        (stateOf graph rootID) := by
  induction positions generalizing walk with
  | nil => rfl
  | cons position rest ih =>
    rw [List.map_cons, flattenChildren, Traversal.walkChildren,
      flattenChild_eq graph rootID unwrapped simulated path number position walk]
    cases Traversal.walkChild (shape graph) unwrapped walkOn path number position walk with
    | none => rfl
    | some middle => exact ih middle

end Children

omit [DecidableEq Ref] in
theorem children_eq_visit (value : Ref) (time : Nat) :
    children range time (graph value) = (visit graph range time value).map Prod.fst := by
  cases stored : graph value with
  | map entries => simp [children, visit, stored, Function.comp_def]
  | list elements | _ => simp [children, visit, stored]

theorem flattenRecursive_eq_walkFrom (depth : Nat) (path : Traversal.Path) (value : Ref)
    (walk : Walk String Ref) :
    flattenRecursive graph range depth (nodeID rootID walk.count) value
        (stateOf graph rootID walk) =
      (Traversal.walkFrom (shape graph) (visit graph range) depth path value walk).map
        (stateOf graph rootID) := by
  induction depth generalizing path value walk with
  | zero => rfl
  | succ depth ih =>
    have visited : (stateOf graph rootID walk).visited = walk.marks.map Prod.fst := rfl
    rw [flattenRecursive, Traversal.walkFrom, visited,
      dereference_eq_follow graph path (depth + 1) value walk.marks]
    rcases Traversal.follow (shape graph) path (depth + 1) value walk.marks with
      _ | ⟨_ | final, marks⟩
    · rfl
    · rfl
    · have walked := flattenChildren_eq graph rootID (effVal graph (depth + 1))
        ih path walk.count (visit graph range walk.count final)
        ({ walk with marks := marks }.enter path final)
      rw [funext (effVal_eq_unwrap graph (depth + 1)), ← children_eq_visit] at walked
      simp only [Option.map_some, Option.bind_eq_bind, Option.bind_some, Prod.map_apply, id_eq,
        funext (effVal_eq_unwrap graph (depth + 1))]
      refine walked.trans ?_
      -- a value that is not a container has no children
      cases stored : graph final with
      | map entries | list elements => simp [shape, stored]
      | _ => simp [shape, visit, stored, Traversal.walkChildren, stateOf, Walk.enter]

def Emits (input : Ref) (facts : List JsonFact) : Prop :=
  ∃ depth, flatten graph range depth rootID input = some facts

theorem emits_iff {input : Ref} {facts : List JsonFact} :
    Emits graph range rootID input facts ↔
      ∃ depth walk, Traversal.walkFrom (shape graph) (visit graph range) depth [] input
        (Walk.start String Ref) = some walk ∧ facts = walk.log.map (recordFact graph rootID) := by
  have simulated := fun depth => flattenRecursive_eq_walkFrom graph range rootID depth [] input
    (Walk.start String Ref)
  constructor
  · rintro ⟨depth, emitted⟩
    cases stored : graph input with
    | null =>
      rw [flatten, stored] at emitted
      cases emitted
      exact ⟨1, Walk.start String Ref, by simp [Traversal.walkFrom, Traversal.follow, shape,
        stored], rfl⟩
    | _ =>
      simp only [flatten, stored] at emitted
      obtain ⟨state, ended, rfl⟩ := Option.map_eq_some_iff.mp emitted
      obtain ⟨walk, walked, rfl⟩ := Option.map_eq_some_iff.mp ((simulated depth).symm.trans ended)
      exact ⟨depth, walk, walked, rfl⟩
  · rintro ⟨depth, walk, walked, rfl⟩
    refine ⟨depth, ?_⟩
    have ended := simulated depth
    rw [walked, Option.map_some] at ended
    cases stored : graph input with
    | null =>
      cases depth with
      | zero => cases walked
      | succ depth =>
        simp only [Traversal.walkFrom, Traversal.follow, shape, stored] at walked
        cases walked
        simp [flatten, stored, Walk.start]
    | _ =>
      simp only [flatten, stored]
      exact (congrArg (Option.map State.facts) ended)

end Simulation

/-! ## Complete facts -/

section Completeness

variable {Ref : Type} (graph : Ref → Node Ref) (range : MapRange Ref) (rootID : String)
  (input : Ref)

def ContainerAt (path : Traversal.Path) : Prop :=
  ∃ value container, Traversal.At (shape graph) input path value ∧
    Traversal.Unwraps (shape graph) value container ∧ IsContainer (shape graph) container

/-- The facts are one for every entry of every container occurrence: its value, or the link to
its node.  Every container occurrence has an id of its own. -/
def Complete (facts : List JsonFact) : Prop :=
  ∃ ids : Traversal.Path → String, ids [] = rootID ∧
    (∀ first second, ContainerAt graph input first → ContainerAt graph input second →
      ids first = ids second → first = second) ∧
    ∃ entries : List (Entry String Ref), entries.Nodup ∧
      (∀ entry, entry ∈ entries ↔ IsEntry (shape graph) input entry) ∧
      facts = entries.map fun entry =>
        entryFact graph (ids entry.path) (ids entry.below) entry.label entry.value

noncomputable def containerCount : Nat :=
  Set.ncard {entry | IsEntry (shape graph) input entry ∧ IsContainer (shape graph) entry.value}

def Holds (value held : Ref) : Prop :=
  match graph value with
  | .pointer target => held = target
  | .map entries => ∃ key, (key, held) ∈ entries
  | .list elements => held ∈ elements
  | _ => False

def Acyclic : Prop :=
  ∀ value, Relation.ReflTransGen (Holds graph) input value →
    ¬ Relation.TransGen (Holds graph) value value

variable {graph rootID input}

theorem childID_injective {number other : Nat} (same : childID number = childID other) :
    number = other := by
  have texts := congrArg String.toList same
  simp only [childID, String.toList_append, List.append_cancel_left_eq] at texts
  exact Nat.repr_injective (String.toList_injective texts)

theorem nodeID_injOn {count number other : Nat}
    (fresh : ∀ number, 1 ≤ number → number ≤ count → rootID ≠ childID number)
    (bounded : number ≠ 0 → number ≤ count) (otherBounded : other ≠ 0 → other ≤ count)
    (same : nodeID rootID number = nodeID rootID other) : number = other := by
  cases number with
  | zero =>
    cases other with
    | zero => rfl
    | succ other => exact absurd same (fresh (other + 1) (by omega) (otherBounded (by omega)))
  | succ number =>
    cases other with
    | zero => exact absurd same.symm (fresh (number + 1) (by omega) (bounded (by omega)))
    | succ other => exact childID_injective same

theorem ContainerAt.root {path : Traversal.Path} (there : ContainerAt graph input path) :
    ContainerAt graph input [] := by
  obtain ⟨value, container, stands, unwraps, isContainer⟩ := there
  induction stands generalizing container with
  | root => exact ⟨input, container, .root, unwraps, isContainer⟩
  | child _ holderUnwraps childAt ih =>
    exact ih _ holderUnwraps ⟨_, childAt.choose_spec.1⟩

theorem containerAt_below {entry : Entry String Ref} (isEntry : IsEntry (shape graph) input entry)
    (isContainer : IsContainer (shape graph) entry.value) :
    ContainerAt graph input entry.below := by
  obtain ⟨value, container, child, stands, unwraps, childAt, childUnwraps⟩ := isEntry.stands
  exact ⟨child, entry.value, .child stands unwraps childAt, childUnwraps, isContainer⟩

theorem not_isContainer_of_primitive {value : Ref} {primitive : Primitive}
    (stored : graph value = .primitive primitive) : ¬ IsContainer (shape graph) value := by
  rintro ⟨children, shaped⟩
  simp [shape, stored] at shaped

theorem entryFact_of_isContainer {value : Ref} (isContainer : IsContainer (shape graph) value)
    (nodeID childID key : String) :
    entryFact graph nodeID childID key value = .link (escapeString nodeID) key childID := by
  rw [entryFact]
  split
  next primitive stored => exact absurd isContainer (not_isContainer_of_primitive stored)
  · rfl

theorem of_entryFact_eq_link {value : Ref} {nodeID childID key parent label child : String}
    (visible : Traversal.Visible (shape graph) value)
    (same : entryFact graph nodeID childID key value = .link parent label child) :
    IsContainer (shape graph) value ∧ childID = child := by
  rcases visible with leaf | isContainer
  · cases stored : graph value with
    | primitive primitive =>
      rw [entryFact, stored] at same
      cases primitive <;> cases same
    | _ => simp [shape, stored] at leaf
  · rw [entryFact_of_isContainer isContainer] at same
    cases same
    exact ⟨isContainer, rfl⟩

section Ended

variable [DecidableEq Ref] {range} {depth : Nat} {walk : Walk String Ref}
  (ended : Traversal.walkFrom (shape graph) (visit graph range) depth [] input
    (Walk.start String Ref) = some walk)

include ended

theorem tidy_of_ended : Traversal.Tidy (shape graph) input walk :=
  Traversal.tidy_of_ended (visits graph range) ended

theorem entries_nodup : (walk.log.map Record.toEntry).Nodup := by
  refine List.Nodup.of_map Entry.below ?_
  rw [List.map_map]
  exact (tidy_of_ended ended).places

theorem containerCount_eq_of_covers
    (covers : ∀ entry, IsEntry (shape graph) input entry →
      ∃ record ∈ walk.log, record.toEntry = entry) : containerCount graph input = walk.count := by
  have tidy := tidy_of_ended ended
  let numbered := (walk.log.filter fun record => record.number.isSome).map Record.toEntry
  have same : {entry | IsEntry (shape graph) input entry ∧
      IsContainer (shape graph) entry.value} = {entry | entry ∈ numbered} := by
    ext entry
    simp only [numbered, Set.mem_ofPred_eq, List.mem_map, List.mem_filter]
    constructor
    · rintro ⟨isEntry, isContainer⟩
      obtain ⟨record, logged, rfl⟩ := covers entry isEntry
      exact ⟨record, ⟨logged, (tidy.logged record logged).2.1.mpr isContainer⟩, rfl⟩
    · rintro ⟨record, ⟨logged, isNumbered⟩, rfl⟩
      obtain ⟨isEntry, number, -⟩ := tidy.logged record logged
      exact ⟨isEntry, number.mp isNumbered⟩
  have entries : (walk.log.map Record.toEntry).Nodup := entries_nodup ended
  have once : numbered.Nodup := entries.sublist (List.filter_sublist.map Record.toEntry)
  have counted : numbered.length = walk.count := by
    rw [List.length_map, ← List.countP_eq_length_filter, ← List.length_filterMap_eq_countP,
      tidy.numbers, List.length_range']
  classical
  rw [containerCount, same, ← counted, ← List.toFinset_card_of_nodup once, ← Set.ncard_coe_finset,
    List.coe_toFinset]

section

variable (complete : Complete graph rootID input (walk.log.map (recordFact graph rootID)))

include complete

theorem covers_of_complete :
    ∀ entry, IsEntry (shape graph) input entry → ∃ record ∈ walk.log, record.toEntry = entry := by
  obtain ⟨ids, -, -, entries, -, all, same⟩ := complete
  have within : walk.log.map Record.toEntry ⊆ entries := by
    intro entry member
    obtain ⟨record, logged, rfl⟩ := List.mem_map.mp member
    exact (all _).mpr ((tidy_of_ended ended).logged record logged).1
  have lengths : entries.length = (walk.log.map Record.toEntry).length := by
    simpa using (congrArg List.length same).symm
  have everything := (List.subperm_of_subset (entries_nodup ended) within).perm_of_length_le
    lengths.le
  intro entry isEntry
  exact List.mem_map.mp (everything.mem_iff.mpr ((all entry).mpr isEntry))

theorem rootID_ne_of_complete
    {number : Nat} (positive : 1 ≤ number) (counted : number ≤ walk.count) :
    rootID ≠ childID number := by
  have tidy := tidy_of_ended ended
  obtain ⟨ids, rootNamed, apart, entries, -, all, same⟩ := complete
  have numbered : number ∈ walk.log.filterMap (·.number) := by
    rw [tidy.numbers, List.mem_range'_1]
    omega
  obtain ⟨record, logged, isNumber⟩ := List.mem_filterMap.mp numbered
  obtain ⟨-, container, -⟩ := tidy.logged record logged
  have fact : recordFact graph rootID record = .link
      (escapeString (nodeID rootID record.parent)) record.label (childID number) := by
    rw [recordFact, entryFact_of_isContainer (container.mp (by simp [isNumber])), isNumber]
    simp [nodeID, show number ≠ 0 by omega]
  obtain ⟨entry, member, linked⟩ := List.mem_map.mp
    (same ▸ List.mem_map_of_mem logged : recordFact graph rootID record ∈ _)
  have isEntry := (all entry).mp member
  obtain ⟨isContainer, named⟩ := of_entryFact_eq_link isEntry.visible (linked.trans fact)
  have there := containerAt_below isEntry isContainer
  intro collides
  have rooted := apart entry.below [] there there.root (by rw [named, rootNamed, collides])
  simp [Entry.below] at rooted

end

theorem complete_of_covers
    (covers : ∀ entry, IsEntry (shape graph) input entry →
      ∃ record ∈ walk.log, record.toEntry = entry)
    (fresh : ∀ number, 1 ≤ number → number ≤ walk.count → rootID ≠ childID number) :
    Complete graph rootID input (walk.log.map (recordFact graph rootID)) := by
  have tidy := tidy_of_ended ended
  have named : ∀ path, ∃ id, ∀ number, (path, number) ∈ walk.numbered →
      id = nodeID rootID number := by
    intro path
    by_cases known : ∃ number, (path, number) ∈ walk.numbered
    · obtain ⟨number, member⟩ := known
      exact ⟨nodeID rootID number, fun other otherMember => by
        rw [(tidy.numbered_inj member otherMember).mp rfl]⟩
    · exact ⟨rootID, fun number member => absurd ⟨number, member⟩ known⟩
  choose ids names using named
  have rootMember : ([], 0) ∈ walk.numbered := List.mem_cons_self
  have numberedAt : ∀ path, ContainerAt graph input path →
      ∃ number, (path, number) ∈ walk.numbered ∧ (number ≠ 0 → number ≤ walk.count) := by
    rintro path ⟨value, container, stands, unwraps, isContainer⟩
    cases stands with
    | root => exact ⟨0, rootMember, by simp⟩
    | @child path holder outer value index label stands holderUnwraps childAt =>
      obtain ⟨record, logged, same⟩ := covers ⟨path, index, label, container⟩
        ⟨⟨holder, outer, value, stands, holderUnwraps, childAt, unwraps⟩, .inr isContainer⟩
      obtain ⟨-, numbers, -⟩ := tidy.logged record logged
      obtain ⟨number, isNumber⟩ := Option.isSome_iff_exists.mp (numbers.mpr (same ▸ isContainer))
      have counted : number ∈ walk.log.filterMap (·.number) :=
        List.mem_filterMap.mpr ⟨record, logged, isNumber⟩
      rw [tidy.numbers, List.mem_range'_1] at counted
      exact ⟨number, Walk.mem_numbered_iff.mpr (.inr ⟨record, logged,
        congrArg Entry.below same, isNumber⟩), by omega⟩
  refine ⟨ids, names [] 0 rootMember, fun first second firstAt secondAt same => ?_,
    walk.log.map Record.toEntry, entries_nodup ended,
    fun entry => ⟨fun member => ?_, fun isEntry => ?_⟩, ?_⟩
  · obtain ⟨number, member, bounded⟩ := numberedAt first firstAt
    obtain ⟨other, otherMember, otherBounded⟩ := numberedAt second secondAt
    rw [names first number member, names second other otherMember] at same
    exact (tidy.numbered_inj member otherMember).mpr (nodeID_injOn fresh bounded otherBounded same)
  · obtain ⟨record, logged, rfl⟩ := List.mem_map.mp member
    exact (tidy.logged record logged).1
  · exact List.mem_map.mpr (covers entry isEntry)
  · rw [List.map_map]
    refine List.map_congr_left fun record logged => ?_
    obtain ⟨isEntry, container, -, parent⟩ := tidy.logged record logged
    rw [Function.comp_apply, recordFact, names record.path record.parent parent]
    cases isNumber : record.number with
    | none =>
      rcases isEntry.visible with leaf | isContainer
      · cases stored : graph record.value with
        | primitive primitive => simp [entryFact, stored]
        | _ => simp [shape, stored] at leaf
      · simp [isNumber] at container
        exact absurd isContainer container
    | some number =>
      have below : (record.below, number) ∈ walk.numbered :=
        Walk.mem_numbered_iff.mpr (.inr ⟨record, logged, rfl, isNumber⟩)
      rw [names record.below number below, Option.getD_some]

theorem complete_iff :
    Complete graph rootID input (walk.log.map (recordFact graph rootID)) ↔
      Traversal.Unshared (shape graph) input ∧
        ∀ number, 1 ≤ number → number ≤ containerCount graph input → rootID ≠ childID number := by
  have covered := Traversal.covers_iff_unshared (visits graph range) ended
  constructor
  · intro complete
    have covers := covers_of_complete ended complete
    refine ⟨covered.mp covers, fun number positive counted => ?_⟩
    rw [containerCount_eq_of_covers ended covers] at counted
    exact rootID_ne_of_complete ended complete positive counted
  · rintro ⟨unshared, fresh⟩
    have covers := covered.mpr unshared
    rw [containerCount_eq_of_covers ended covers] at fresh
    exact complete_of_covers ended covers fresh

end Ended

/-- The walk ends where no container holds itself without a pointer in between and the pointers
of every entry lead to something.  For an acyclic value it is complete where no pointer to a
container with content stands at two places and the id of the root is not that of a node. -/
theorem flatten_complete_iff [Finite Ref] [DecidableEq Ref] (graph : Ref → Node Ref)
    (range : MapRange Ref) (rootID : String) (input : Ref) :
    ((∃ facts, Emits graph range rootID input facts) ∧
      (Acyclic graph input → ∀ facts, Emits graph range rootID input facts →
        Complete graph rootID input facts)) ↔
      Traversal.Grounded (shape graph) input ∧
        (Acyclic graph input → Traversal.Unshared (shape graph) input ∧
          ∀ number, 1 ≤ number → number ≤ containerCount graph input →
            rootID ≠ childID number) := by
  have returns : (∃ facts, Emits graph range rootID input facts) ↔
      Traversal.Grounded (shape graph) input := by
    rw [← Traversal.exists_walk_iff_grounded (visits graph range)]
    constructor
    · rintro ⟨facts, emits⟩
      obtain ⟨depth, walk, ended, -⟩ := (emits_iff graph range rootID).mp emits
      exact ⟨depth, walk, ended⟩
    · rintro ⟨depth, walk, ended⟩
      exact ⟨_, (emits_iff graph range rootID).mpr ⟨depth, walk, ended, rfl⟩⟩
  rw [← returns]
  refine and_congr_right fun returned => imp_congr_right fun _ => ?_
  obtain ⟨facts, emits⟩ := returned
  constructor
  · intro complete
    obtain ⟨depth, walk, ended, same⟩ := (emits_iff graph range rootID).mp emits
    exact (complete_iff ended).mp (same ▸ complete facts emits)
  · intro condition other otherEmits
    obtain ⟨depth, walk, ended, rfl⟩ := (emits_iff graph range rootID).mp otherEmits
    exact (complete_iff ended).mpr condition

end Completeness

section Examples

def MapRange.stored (Ref : Type) : MapRange Ref := ⟨fun _ entries => entries, fun _ _ => .refl _⟩

theorem lt_of_transGen_direct {size : Nat} {graph : Fin size → Node (Fin size)}
    (ordered : ∀ container index label child,
      Traversal.ChildAt (shape graph) container index label child → container < child)
    {inner outer : Fin size}
    (inside : Relation.TransGen (Traversal.Direct (shape graph)) inner outer) :
    outer < inner := by
  induction inside with
  | single step =>
    obtain ⟨-, index, label, childAt⟩ := step
    exact ordered _ _ _ _ childAt
  | tail _ step ih =>
    obtain ⟨-, index, label, childAt⟩ := step
    exact (ordered _ _ _ _ childAt).trans ih

def profile : Fin 4 → Node (Fin 4)
  | 0 => .pointer 1
  | 1 => .map [("age", 3), ("tags", 2)]
  | 2 => .list [3]
  | 3 => .primitive (.int 7)

theorem profile_childAt {container child : Fin 4} {index : Nat} {label : String}
    (childAt : Traversal.ChildAt (shape profile) container index label child) :
    container < child ∧ child ≠ 0 ∧ ∀ target, shape profile child ≠ .pointer target := by
  obtain ⟨children, shaped, found⟩ := childAt
  have member := List.mem_of_getElem? found
  fin_cases container <;> simp [shape, profile] at shaped <;> subst shaped <;> simp at member
  · rcases member with ⟨-, rfl⟩ | ⟨-, rfl⟩ <;> simp [shape, profile]
  · obtain ⟨-, rfl⟩ := member
    simp [shape, profile]

theorem profile_grounded : Traversal.Grounded (shape profile) 0 where
  unnested := by
    intro container _ cycle
    exact lt_irrefl _ (lt_of_transGen_direct
      (fun _ _ _ _ childAt => (profile_childAt childAt).1) cycle)
  unwraps := by
    intro container index label child _ childAt
    exact ⟨child, .self (profile_childAt childAt).2.2⟩

theorem profile_unshared : Traversal.Unshared (shape profile) 0 := by
  -- the only pointer is the root
  have rooted : ∀ path value target, Traversal.At (shape profile) 0 path value →
      Traversal.Passes (shape profile) value target → path = [] := by
    intro path value target stands passes
    cases stands with
    | root => rfl
    | child _ _ childAt =>
      exact absurd passes (Traversal.not_passes_of_last (profile_childAt childAt).2.2 target)
  intro target container _ _ first second firstValue secondValue firstAt secondAt firstPasses
    secondPasses
  rw [rooted first firstValue target firstAt firstPasses,
    rooted second secondValue target secondAt secondPasses]

theorem profile_complete :
    (∃ facts, Emits profile (.stored _) "user" 0 facts) ∧
      (Acyclic profile 0 → ∀ facts, Emits profile (.stored _) "user" 0 facts →
        Complete profile "user" 0 facts) := by
  refine (flatten_complete_iff profile (.stored _) "user" 0).mpr
    ⟨profile_grounded, fun _ => ⟨profile_unshared, fun number _ _ same => ?_⟩⟩
  have first := congrArg (fun id => id.toList.head?) same
  simp [childID] at first

def ownElement : Fin 1 → Node (Fin 1)
  | 0 => .list [0]

def sharedMap : Fin 5 → Node (Fin 5)
  | 0 => .list [1, 2]
  | 1 => .pointer 3
  | 2 => .pointer 3
  | 3 => .map [("a", 4)]
  | 4 => .primitive (.int 1)

theorem sharedMap_acyclic : Acyclic sharedMap 0 := by
  have ordered : ∀ value held, Holds sharedMap value held → value < held := by
    intro value held holds
    fin_cases value <;> simp [Holds, sharedMap] at holds
    · rcases holds with rfl | rfl <;> decide
    · subst holds; decide
    · subst holds; decide
    · subst holds; decide
  intro value _ cycle
  have less : ∀ inner outer, Relation.TransGen (Holds sharedMap) inner outer → inner < outer := by
    intro inner outer reached
    induction reached with
    | single step => exact ordered _ _ step
    | tail _ step ih => exact ih.trans (ordered _ _ step)
  exact lt_irrefl _ (less value value cycle)

theorem sharedMap_not_unshared : ¬ Traversal.Unshared (shape sharedMap) 0 := by
  intro unshared
  have self (value : Fin 5) (last : ∀ target, shape sharedMap value ≠ .pointer target) :=
    Traversal.Unwraps.self last
  have elementAt (index : Nat) (element : Fin 5)
      (stored : [(toString 0, (1 : Fin 5)), (toString 1, 2)][index]? =
        some (toString index, element)) :
      Traversal.At (shape sharedMap) 0 [index] element :=
    .child .root (self 0 (by simp [shape, sharedMap])) ⟨_, rfl, stored⟩
  have same := unshared 3 3 (self 3 (by simp [shape, sharedMap]))
    ⟨0, "a", 4, 4, ⟨_, rfl, rfl⟩, self 4 (by simp [shape, sharedMap]), .inl rfl⟩
    [0] [1] 1 2 (elementAt 0 1 rfl) (elementAt 1 2 rfl) ⟨1, .refl, rfl⟩ ⟨2, .refl, rfl⟩
  simp at same

theorem sharedMap_incomplete :
    (∀ facts, ¬ Emits ownElement (.stored _) "root" 0 facts) ∧ Acyclic sharedMap 0 ∧
      Emits sharedMap (.stored _) "root" 0
        [.link "root" "0" "node_1", .num "node_1" "a" "1", .link "root" "1" "node_2"] ∧
      ¬ Complete sharedMap "root" 0
        [.link "root" "0" "node_1", .num "node_1" "a" "1", .link "root" "1" "node_2"] := by
  have emits : Emits sharedMap (.stored _) "root" 0
      [.link "root" "0" "node_1", .num "node_1" "a" "1", .link "root" "1" "node_2"] :=
    ⟨4, by decide +kernel⟩
  refine ⟨fun facts emitted => ?_, sharedMap_acyclic, emits, fun complete => ?_⟩
  · obtain ⟨depth, walk, ended, -⟩ := (emits_iff _ _ _).mp emitted
    have grounded := Traversal.grounded_of_ended (visits ownElement (.stored _)) ended
    refine grounded.unnested 0 ⟨[], 0, .root, .self (by simp [shape, ownElement])⟩ (.single ?_)
    exact ⟨⟨_, rfl⟩, 0, "0", _, rfl, rfl⟩
  · obtain ⟨depth, walk, ended, same⟩ := (emits_iff _ _ _).mp emits
    exact sharedMap_not_unshared ((complete_iff ended).mp (same ▸ complete)).1

end Examples

end Manglekit.Engine.Flattener

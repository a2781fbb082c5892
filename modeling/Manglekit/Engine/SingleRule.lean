import Manglekit.Core.Types
import Manglekit.Datalog.Parser
import Mathlib.Data.Set.Basic

/-!
# Evaluating a single rule

An evaluator turns the leaves of a struct into atoms, evaluates one rule over them, and asks
for the head of the rule at the id of the struct.  Unsigned integers are cast to signed ones
on the way, pointers are followed once, and the query is put together as a text in which the
id stands as it is.
-/

namespace Manglekit.Engine.SingleRule

open Manglekit.Core (GoError)
open Datalog

/-! ## Entities -/

structure EntityField where
  name : String
  exported : Bool := true
  tag : String := ""
  deriving DecidableEq, Repr

/-- Integers of all widths are read as ones of 64 bits, floats and map keys are given by their
texts.  `nil` is an interface without content; `iface` is one with content, as it is found
behind a pointer. -/
inductive Entity where
  | nil
  | string (text : String)
  | bool (value : Bool)
  | int (value : Int64)
  | uint (value : UInt64)
  | uintptr (value : UInt64)
  | float (text : String)
  | struct (fields : List (EntityField × Entity))
  | map (entries : List (String × Entity))
  | list (elements : List Entity)
  | nilPointer
  | pointer (target : Entity)
  | iface (content : Entity)

/-- Values that a pointer is not followed to. -/
def Entity.isIndirect : Entity → Bool
  | .nilPointer | .pointer _ | .iface _ => true
  | _ => false

abbrev Conversion := List Atom × Option GoError

/-- `errors.Join`. -/
def joined (errs : List GoError) : Option GoError :=
  if errs = [] then none
  else some (.text ("\n".intercalate (errs.map GoError.error)))

def labelled (label : String) : Option GoError → List GoError
  | none => []
  | some err => [.wrap ("field " ++ label) err]

def noFacts : GoError := .text "no valid facts could be extracted from entity"

section Conversion

variable (toLower : String → String) (entityID : String)

def leafAtom (path : String) (value : Constant) : Atom :=
  ⟨path, [.const (.string entityID), .const value]⟩

def fieldTag (path : String) (field : EntityField) : String :=
  let tag := if field.tag = "" then toLower field.name else field.tag
  if path ≠ "" then path ++ "_" ++ tag else tag

def EntityField.skipped (field : EntityField) : Bool := !field.exported || field.tag = "-"

mutual

def structToFactsRecursive (path : String) : Entity → Conversion
  | .nil => ([], none)
  | .string text => ([leafAtom entityID path (.string text)], none)
  | .bool value => ([leafAtom entityID path (.string (if value then "true" else "false"))], none)
  | .int value => ([leafAtom entityID path (.number value.toInt)], none)
  | .uint value => ([leafAtom entityID path (.number value.toInt64.toInt)], none)
  | .uintptr _ => ([], none)
  | .float text => ([leafAtom entityID path (.string text)], none)
  | .struct fields =>
    let (atoms, errs) := fieldsToFacts path fields
    if atoms = [] then ([], some noFacts) else (atoms, joined errs)
  | .map entries =>
    let (atoms, errs) := entriesToFacts path entries
    (atoms, joined errs)
  | .list elements =>
    let (atoms, errs) := elementsToFacts path 0 elements
    (atoms, joined errs)
  | .nilPointer => ([], some (.text "entity cannot be nil"))
  | .pointer target =>
    if target.isIndirect then ([], none) else structToFactsRecursive path target
  | .iface content => structToFactsRecursive path content

def fieldsToFacts (path : String) : List (EntityField × Entity) → List Atom × List GoError
  | [] => ([], [])
  | (field, value) :: rest =>
    let (others, errs) := fieldsToFacts path rest
    if field.skipped then (others, errs)
    else
      let tag := fieldTag toLower path field
      let (atoms, err) := structToFactsRecursive tag value
      (atoms ++ others, labelled tag err ++ errs)

def entriesToFacts (path : String) : List (String × Entity) → List Atom × List GoError
  | [] => ([], [])
  | (key, value) :: rest =>
    let (others, errs) := entriesToFacts path rest
    let predicate := path ++ "_" ++ key
    let (atoms, err) := structToFactsRecursive predicate value
    (atoms ++ others, labelled predicate err ++ errs)

def elementsToFacts (path : String) (index : Nat) : List Entity → List Atom × List GoError
  | [] => ([], [])
  | element :: rest =>
    let (others, errs) := elementsToFacts path (index + 1) rest
    let label := path ++ "_" ++ toString index
    let (atoms, err) := structToFactsRecursive label element
    (atoms ++ others, labelled label err ++ errs)

end

def structToFacts (fields : List (EntityField × Entity)) : Except GoError (List Atom) :=
  match structToFactsRecursive toLower entityID "" (.struct fields) with
  | (_, some err) => .error err
  | ([], none) => .error noFacts
  | (atoms, none) => .ok atoms

end Conversion

/-! ## Evaluation -/

/-- The rules that the language can express, with the parts of the language's implementation
that are used here. -/
structure Language where
  Rule : Type
  Program : Type
  head : Rule → PredicateSym
  analyze : Rule → List PredicateSym → Except GoError Program
  evalProgram : Program → List Atom → Except GoError (List Atom)
  parseAtom : String → Except GoError Atom

section Evaluation

variable (language : Language) (toLower : String → String)

def queryText (ruleHead entityID : String) : String := ruleHead ++ "(\"" ++ entityID ++ "\")"

def evaluate (rule : language.Rule) (entityID : String) (fields : List (EntityField × Entity)) :
    Except GoError Bool := do
  let facts ← (structToFacts toLower entityID fields).mapError
    (.wrap "failed to convert entity to facts")
  let program ← (language.analyze rule (facts.map Atom.predicate)).mapError
    (.wrap "failed to analyze program")
  let store ← (language.evalProgram program facts).mapError
    (.wrap "failed to evaluate program")
  let query ← (language.parseAtom (queryText (language.head rule).symbol entityID)).mapError
    (.wrap "failed to parse query")
  return store.contains query

end Evaluation

/-! ## Leaves -/

/-- A scalar of the entity: the name of its fact, its value, and the value that it is given
with, if it is. -/
structure Leaf where
  name : String
  value : Constant
  shown : Option Constant
  deriving DecidableEq, Repr

def Leaf.plain (name : String) (value : Constant) : Leaf := ⟨name, value, some value⟩

def Leaf.hidden (leaf : Leaf) : Leaf := { leaf with shown := none }

section Leaves

variable (toLower : String → String)

mutual

/-- All scalars behind exported fields, through every pointer. -/
def leaves (path : String) : Entity → List Leaf
  | .nil | .nilPointer => []
  | .string text => [.plain path (.string text)]
  | .bool value => [.plain path (.string (if value then "true" else "false"))]
  | .int value => [.plain path (.number value.toInt)]
  | .uint value => [⟨path, .number value.toNat, some (.number value.toInt64.toInt)⟩]
  | .uintptr value => [⟨path, .number value.toNat, none⟩]
  | .float text => [.plain path (.string text)]
  | .struct fields => fieldLeaves path fields
  | .map entries => entryLeaves path entries
  | .list elements => elementLeaves path 0 elements
  | .pointer target =>
    if target.isIndirect then (leaves path target).map Leaf.hidden else leaves path target
  | .iface content => leaves path content

def fieldLeaves (path : String) : List (EntityField × Entity) → List Leaf
  | [] => []
  | (field, value) :: rest =>
    if field.skipped then fieldLeaves path rest
    else leaves (fieldTag toLower path field) value ++ fieldLeaves path rest

def entryLeaves (path : String) : List (String × Entity) → List Leaf
  | [] => []
  | (key, value) :: rest => leaves (path ++ "_" ++ key) value ++ entryLeaves path rest

def elementLeaves (path : String) (index : Nat) : List Entity → List Leaf
  | [] => []
  | element :: rest =>
    leaves (path ++ "_" ++ toString index) element ++ elementLeaves path (index + 1) rest

end

end Leaves

/-! ## What rules mean -/

def Bounded : Constant → Prop
  | .number number => ∃ word : Int64, word.toInt = number
  | _ => True

def idAtom (symbol entityID : String) : Atom := ⟨symbol, [.const (.string entityID)]⟩

def Language.Runs (language : Language) (rule : language.Rule) (facts : List Atom) : Prop :=
  ∃ program store, language.analyze rule (facts.map Atom.predicate) = .ok program ∧
    language.evalProgram program facts = .ok store

/-- The meaning of the rules, and what is known of the language: evaluation gives what the
rule derives, and this depends on the predicates that the rule mentions; these have to be
known.  Among the rules are facts `p("id").`, rules `p(X) :- p(X).` that add nothing, and
rules `p(X) :- q(X, Y), Y != c, ...` with constants of 64 bits.  How a query is read after its
predicate does not depend on the predicate. -/
structure Semantics (language : Language) where
  derives : language.Rule → Set Atom → Atom → Prop
  mentions : language.Rule → PredicateSym → Prop
  isName : String → Prop
  readArgs : String → Except GoError (List Term)
  evaluates : ∀ rule facts program store,
    language.analyze rule (facts.map Atom.predicate) = .ok program →
    language.evalProgram program facts = .ok store →
    ∀ atom, atom ∈ store ↔ derives rule {fact | fact ∈ facts} atom
  derived : ∀ rule facts atom, derives rule facts atom →
    atom ∈ facts ∨ atom.predicate = language.head rule
  depends : ∀ rule first second,
    (∀ atom : Atom, mentions rule atom.predicate → (atom ∈ first ↔ atom ∈ second)) →
    ∀ atom, atom.predicate = language.head rule →
      (derives rule first atom ↔ derives rule second atom)
  known : ∀ rule predicates program, language.analyze rule predicates = .ok program →
    ∀ predicate, mentions rule predicate → predicate = language.head rule ∨ predicate ∈ predicates
  headName : ∀ rule, isName (language.head rule).symbol
  mentionedName : ∀ rule predicate, mentions rule predicate → isName predicate.symbol
  query : ∀ symbol entityID, isName symbol →
    language.parseAtom (queryText symbol entityID) = (readArgs entityID).map (⟨symbol, ·⟩)
  someName : ∃ symbol, isName symbol
  factRule : ∀ symbol entityID, isName symbol → ∃ rule, language.head rule = ⟨symbol, 1⟩ ∧
    (∀ facts, (∀ fact ∈ facts, fact.args.length = 2) → language.Runs rule facts) ∧
    ∀ facts atom, derives rule facts atom ↔ atom ∈ facts ∨ atom = idAtom symbol entityID
  idleRule : ∀ symbol, isName symbol → ∃ rule, language.head rule = ⟨symbol, 1⟩ ∧
    (∀ facts, (∀ fact ∈ facts, fact.args.length = 2) → language.Runs rule facts) ∧
    ∀ facts atom, derives rule facts atom ↔ atom ∈ facts
  excludingRule : ∀ symbol name (constants : List Constant), isName symbol → isName name →
    (∀ constant ∈ constants, Bounded constant) →
    ∃ rule, language.head rule = ⟨symbol, 1⟩ ∧
      (∀ facts, (∀ fact ∈ facts, fact.args.length = 2) → ⟨name, 2⟩ ∈ facts.map Atom.predicate →
        language.Runs rule facts) ∧
      ∀ facts atom, derives rule facts atom ↔ atom ∈ facts ∨ ∃ entity second,
        (⟨name, [entity, .const second]⟩ : Atom) ∈ facts ∧ second ∉ constants ∧
          atom = ⟨symbol, [entity]⟩

def leafAtoms (entityID : String) (list : List Leaf) : Set Atom :=
  {atom | ∃ leaf ∈ list, atom = leafAtom entityID leaf.name leaf.value}

/-- A match is reported exactly if the rule derives its head for the id from the values of
the leaves. -/
def Faithful {language : Language} (semantics : Semantics language) (toLower : String → String)
    (rule : language.Rule) (entityID : String) (fields : List (EntityField × Entity)) : Prop :=
  ∀ matched, evaluate language toLower rule entityID fields = .ok matched →
    (matched = true ↔ semantics.derives rule (leafAtoms entityID (fieldLeaves toLower "" fields))
      (idAtom (language.head rule).symbol entityID))

/-- Wherever a rule can ask for leaves of a name, the value of each of them is shown. -/
def ShownRightly (isName : String → Prop) (list : List Leaf) : Prop :=
  ∀ leaf ∈ list, isName leaf.name → (∃ other ∈ list, other.name = leaf.name ∧ other.shown ≠ none) →
    ∃ twin ∈ list, twin.name = leaf.name ∧ twin.shown = some leaf.value

/-! ## The atoms of the leaves -/

def Leaf.atom (entityID : String) (leaf : Leaf) : Option Atom :=
  leaf.shown.map (leafAtom entityID leaf.name)

section Atoms

variable (toLower : String → String) (entityID : String)

mutual

theorem structToFactsRecursive_fst (path : String) (entity : Entity) :
    (structToFactsRecursive toLower entityID path entity).1 =
      (leaves toLower path entity).filterMap (Leaf.atom entityID) := by
  cases entity with
  | nil => rfl
  | string text => rfl
  | bool value => rfl
  | int value => rfl
  | uint value => rfl
  | uintptr value => rfl
  | float text => rfl
  | struct fields =>
    rw [structToFactsRecursive, leaves, ← fieldsToFacts_fst path fields]
    simp only
    split
    next none => exact none.symm
    · rfl
  | map entries => rw [structToFactsRecursive, leaves, ← entriesToFacts_fst path entries]
  | list elements => rw [structToFactsRecursive, leaves, ← elementsToFacts_fst path 0 elements]
  | nilPointer => rfl
  | pointer target =>
    rw [structToFactsRecursive, leaves]
    split
    · simp [List.filterMap_map, Function.comp_def, Leaf.atom, Leaf.hidden]
    · exact structToFactsRecursive_fst path target
  | iface content =>
    rw [structToFactsRecursive, leaves]
    exact structToFactsRecursive_fst path content

theorem fieldsToFacts_fst (path : String) (fields : List (EntityField × Entity)) :
    (fieldsToFacts toLower entityID path fields).1 =
      (fieldLeaves toLower path fields).filterMap (Leaf.atom entityID) := by
  cases fields with
  | nil => rfl
  | cons first rest =>
    obtain ⟨field, value⟩ := first
    rw [fieldsToFacts, fieldLeaves]
    have others := fieldsToFacts_fst path rest
    have here := structToFactsRecursive_fst (fieldTag toLower path field) value
    by_cases skipped : field.skipped = true
    · simpa only [skipped, if_true] using others
    · simp only [skipped, Bool.false_eq_true, if_false, List.filterMap_append]
      rw [← others, ← here]

theorem entriesToFacts_fst (path : String) (entries : List (String × Entity)) :
    (entriesToFacts toLower entityID path entries).1 =
      (entryLeaves toLower path entries).filterMap (Leaf.atom entityID) := by
  cases entries with
  | nil => rfl
  | cons first rest =>
    obtain ⟨key, value⟩ := first
    rw [entriesToFacts, entryLeaves, List.filterMap_append, ← entriesToFacts_fst path rest,
      ← structToFactsRecursive_fst (path ++ "_" ++ key) value]

theorem elementsToFacts_fst (path : String) (index : Nat) (elements : List Entity) :
    (elementsToFacts toLower entityID path index elements).1 =
      (elementLeaves toLower path index elements).filterMap (Leaf.atom entityID) := by
  cases elements with
  | nil => rfl
  | cons element rest =>
    rw [elementsToFacts, elementLeaves, List.filterMap_append,
      ← elementsToFacts_fst path (index + 1) rest,
      ← structToFactsRecursive_fst (path ++ "_" ++ toString index) element]

end

variable {toLower entityID}

theorem structToFacts_eq_ok {fields : List (EntityField × Entity)} {facts : List Atom}
    (converted : structToFacts toLower entityID fields = .ok facts) :
    facts = (fieldLeaves toLower "" fields).filterMap (Leaf.atom entityID) := by
  have atoms := structToFactsRecursive_fst toLower entityID "" (.struct fields)
  rw [leaves] at atoms
  unfold structToFacts at converted
  split at converted
  · cases converted
  · cases converted
  next whole =>
    cases converted
    rw [← atoms, whole]

end Atoms

/-! ## Values that are shown -/

/-- A leaf is shown with its value, unless that is too large for a number. -/
structure Leaf.Regular (leaf : Leaf) : Prop where
  bounded : ∀ shown, leaf.shown = some shown → Bounded shown
  exact : ∀ shown, leaf.shown = some shown → Bounded leaf.value → shown = leaf.value

theorem Leaf.regular_hidden (leaf : Leaf) : leaf.hidden.Regular := by
  constructor <;> simp [Leaf.hidden]

theorem Leaf.regular_plain (name : String) {value : Constant} (bounded : Bounded value) :
    (Leaf.plain name value).Regular := by
  constructor
  · rintro shown same
    cases same
    exact bounded
  · rintro shown same -
    cases same
    rfl

theorem toInt_toInt64 (value : UInt64) (small : ∃ word : Int64, word.toInt = value.toNat) :
    value.toInt64.toInt = value.toNat := by
  obtain ⟨word, same⟩ := small
  have bound := word.toInt_lt
  change value.toBitVec.toInt = value.toNat
  rw [BitVec.toInt_eq_toNat_of_lt]
  · rfl
  · change 2 * value.toNat < 2 ^ 64
    omega

section Regular

variable (toLower : String → String)

mutual

theorem leaves_regular (path : String) (entity : Entity) :
    ∀ leaf ∈ leaves toLower path entity, leaf.Regular := by
  intro leaf member
  cases entity with
  | nil => cases member
  | nilPointer => cases member
  | string text | bool value | float text =>
    rw [leaves, List.mem_singleton] at member
    exact member ▸ Leaf.regular_plain path trivial
  | int value =>
    rw [leaves, List.mem_singleton] at member
    exact member ▸ Leaf.regular_plain path ⟨value, rfl⟩
  | uint value =>
    rw [leaves, List.mem_singleton] at member
    subst member
    constructor
    · rintro shown same
      cases same
      exact ⟨value.toInt64, rfl⟩
    · rintro shown same small
      cases same
      rw [toInt_toInt64 value small]
  | uintptr value =>
    rw [leaves, List.mem_singleton] at member
    subst member
    constructor <;> simp
  | struct fields => exact fieldLeaves_regular path fields leaf member
  | map entries => exact entryLeaves_regular path entries leaf member
  | list elements => exact elementLeaves_regular path 0 elements leaf member
  | pointer target =>
    rw [leaves] at member
    split at member
    · obtain ⟨inner, -, rfl⟩ := List.mem_map.mp member
      exact inner.regular_hidden
    · exact leaves_regular path target leaf member
  | iface content => exact leaves_regular path content leaf member

theorem fieldLeaves_regular (path : String) (fields : List (EntityField × Entity)) :
    ∀ leaf ∈ fieldLeaves toLower path fields, leaf.Regular := by
  intro leaf member
  cases fields with
  | nil => cases member
  | cons first rest =>
    obtain ⟨field, value⟩ := first
    rw [fieldLeaves] at member
    split at member
    · exact fieldLeaves_regular path rest leaf member
    · rcases List.mem_append.mp member with here | later
      · exact leaves_regular _ value leaf here
      · exact fieldLeaves_regular path rest leaf later

theorem entryLeaves_regular (path : String) (entries : List (String × Entity)) :
    ∀ leaf ∈ entryLeaves toLower path entries, leaf.Regular := by
  intro leaf member
  cases entries with
  | nil => cases member
  | cons first rest =>
    obtain ⟨key, value⟩ := first
    rw [entryLeaves] at member
    rcases List.mem_append.mp member with here | later
    · exact leaves_regular _ value leaf here
    · exact entryLeaves_regular path rest leaf later

theorem elementLeaves_regular (path : String) (index : Nat) (elements : List Entity) :
    ∀ leaf ∈ elementLeaves toLower path index elements, leaf.Regular := by
  intro leaf member
  cases elements with
  | nil => cases member
  | cons element rest =>
    rw [elementLeaves] at member
    rcases List.mem_append.mp member with here | later
    · exact leaves_regular _ element leaf here
    · exact elementLeaves_regular path (index + 1) rest leaf later

end

end Regular

/-! ## Faithfulness -/

variable {atom : Atom} {rule : SmallRule}

section Facts

variable {entityID : String} {list : List Leaf}

def shownAtoms (entityID : String) (list : List Leaf) : List Atom :=
  list.filterMap (Leaf.atom entityID)

theorem mem_shownAtoms :
    atom ∈ shownAtoms entityID list ↔ ∃ leaf ∈ list, ∃ shown, leaf.shown = some shown ∧
      atom = leafAtom entityID leaf.name shown := by
  simp only [shownAtoms, Leaf.atom, List.mem_filterMap, Option.map_eq_some_iff, @eq_comm Atom atom]

theorem binary_shownAtoms : ∀ fact ∈ shownAtoms entityID list, fact.args.length = 2 := by
  intro fact member
  obtain ⟨leaf, -, shown, -, rfl⟩ := mem_shownAtoms.mp member
  rfl

theorem predicate_mem_shownAtoms {name : String} :
    (⟨name, 2⟩ : PredicateSym) ∈ (shownAtoms entityID list).map Atom.predicate ↔
      ∃ leaf ∈ list, leaf.name = name ∧ leaf.shown ≠ none := by
  simp only [List.mem_map, mem_shownAtoms]
  constructor
  · rintro ⟨atom, ⟨leaf, member, shown, given, rfl⟩, same⟩
    cases same
    exact ⟨leaf, member, rfl, by simp [given]⟩
  · rintro ⟨leaf, member, rfl, given⟩
    obtain ⟨shown, given⟩ := Option.ne_none_iff_exists'.mp given
    exact ⟨_, ⟨leaf, member, shown, given, rfl⟩, rfl⟩

theorem idAtom_not_mem_shownAtoms (symbol : String) :
    idAtom symbol entityID ∉ shownAtoms entityID list := by
  intro member
  have binary := binary_shownAtoms _ member
  cases binary

theorem idAtom_not_mem_leafAtoms (symbol : String) :
    idAtom symbol entityID ∉ leafAtoms entityID list := by
  rintro ⟨leaf, -, same⟩
  cases same

def shownFor (name : String) (list : List Leaf) : List Constant :=
  list.filterMap fun leaf => if leaf.name = name then leaf.shown else none

theorem mem_shownFor {name : String} {value : Constant} :
    value ∈ shownFor name list ↔ ∃ leaf ∈ list, leaf.name = name ∧ leaf.shown = some value := by
  simp only [shownFor, List.mem_filterMap, Option.ite_none_right_eq_some]

theorem mem_shownAtoms_iff_leafAtoms {isName : String → Prop} (rightly : ShownRightly isName list)
    (regular : ∀ leaf ∈ list, leaf.Regular) (named : isName atom.symbol)
    (there : ∃ leaf ∈ list, leaf.name = atom.symbol ∧ leaf.shown ≠ none) :
    atom ∈ shownAtoms entityID list ↔ atom ∈ leafAtoms entityID list := by
  rw [mem_shownAtoms]
  constructor
  · rintro ⟨leaf, member, shown, given, rfl⟩
    obtain ⟨twin, twinMember, -, twinShown⟩ := rightly leaf member named there
    have bounded := (regular twin twinMember).bounded _ twinShown
    have same := (regular leaf member).exact shown given bounded
    exact ⟨leaf, member, by rw [same]⟩
  · rintro ⟨leaf, member, rfl⟩
    obtain ⟨twin, twinMember, twinName, twinShown⟩ := rightly leaf member named there
    exact ⟨twin, twinMember, leaf.value, twinShown, by rw [twinName]⟩

end Facts

section Main

variable {language : Language} (semantics : Semantics language) {toLower : String → String}
  {entityID : String} {fields : List (EntityField × Entity)} {facts : List Atom}
  {args : List Term}

section

variable (converted : structToFacts toLower entityID fields = .ok facts)
  (read : semantics.readArgs entityID = .ok args)

include converted read

theorem evaluate_eq_ok_iff (rule : language.Rule) (matched : Bool) :
    evaluate language toLower rule entityID fields = .ok matched ↔
      ∃ program store, language.analyze rule (facts.map Atom.predicate) = .ok program ∧
        language.evalProgram program facts = .ok store ∧
        matched = store.contains ⟨(language.head rule).symbol, args⟩ := by
  have query := semantics.query _ entityID (semantics.headName rule)
  rw [read] at query
  rw [evaluate, converted, query]
  cases analyzed : language.analyze rule (facts.map Atom.predicate) with
  | error err => simp [Except.mapError, bind, Except.bind, analyzed]
  | ok program =>
    cases evaluated : language.evalProgram program facts with
    | error err => simp [Except.mapError, bind, Except.bind, analyzed, evaluated]
    | ok store =>
      simp [Except.mapError, bind, Except.bind, analyzed, evaluated, Except.map, pure,
        Except.pure, eq_comm]

theorem matched_iff_derives {rule : language.Rule} {matched : Bool}
    (evaluated : evaluate language toLower rule entityID fields = .ok matched) :
    matched = true ↔
      semantics.derives rule {fact | fact ∈ facts} ⟨(language.head rule).symbol, args⟩ := by
  obtain ⟨program, store, analyzed, ran, rfl⟩ :=
    (evaluate_eq_ok_iff semantics converted read rule matched).mp evaluated
  rw [List.contains_iff_mem]
  exact semantics.evaluates rule facts program store analyzed ran _

theorem derives_iff_of_faithful {rule : language.Rule}
    (runs : language.Runs rule facts) (faithful : Faithful semantics toLower rule entityID fields) :
    semantics.derives rule {fact | fact ∈ facts} ⟨(language.head rule).symbol, args⟩ ↔
      semantics.derives rule (leafAtoms entityID (fieldLeaves toLower "" fields))
        (idAtom (language.head rule).symbol entityID) := by
  obtain ⟨program, store, analyzed, ran⟩ := runs
  have evaluated := (evaluate_eq_ok_iff semantics converted read rule _).mpr
    ⟨program, store, analyzed, ran, rfl⟩
  rw [← matched_iff_derives semantics converted read evaluated]
  exact faithful _ evaluated

section

variable (faithful : ∀ rule, Faithful semantics toLower rule entityID fields)

include faithful

theorem args_eq_of_faithful : args = [.const (.string entityID)] := by
  have shown := structToFacts_eq_ok converted
  have binary : ∀ fact ∈ facts, fact.args.length = 2 := shown ▸ binary_shownAtoms
  obtain ⟨symbol, named⟩ := semantics.someName
  -- a fact for the id is derived, so the query finds something
  obtain ⟨stated, statedHead, statedRuns, statedDerives⟩ := semantics.factRule symbol entityID named
  have found := derives_iff_of_faithful semantics converted read (statedRuns facts binary)
    (faithful stated)
  rw [statedDerives, statedDerives, statedHead] at found
  -- what it finds is not among the facts, since the idle rule derives nothing for the id
  obtain ⟨idle, idleHead, idleRuns, idleDerives⟩ := semantics.idleRule symbol named
  have nothing := derives_iff_of_faithful semantics converted read (idleRuns facts binary)
    (faithful idle)
  rw [idleDerives, idleDerives, idleHead] at nothing
  rcases found.mpr (.inr rfl) with among | same
  · exact absurd (nothing.mp among) (idAtom_not_mem_leafAtoms symbol)
  · exact congrArg Atom.args same

theorem shownRightly_of_faithful :
    ShownRightly semantics.isName (fieldLeaves toLower "" fields) := by
  have shown : facts = shownAtoms entityID (fieldLeaves toLower "" fields) :=
    structToFacts_eq_ok converted
  have sameArgs := args_eq_of_faithful semantics converted read faithful
  intro leaf member named there
  by_contra missing
  -- a rule that leaves out all values shown for the name derives its head from the leaves only
  have bounded : ∀ constant ∈ shownFor leaf.name (fieldLeaves toLower "" fields),
      Bounded constant := by
    intro constant listed
    obtain ⟨other, otherMember, -, given⟩ := mem_shownFor.mp listed
    exact (fieldLeaves_regular toLower "" fields other otherMember).bounded _ given
  obtain ⟨symbol, symbolNamed⟩ := semantics.someName
  obtain ⟨rule, head, runs, derives⟩ :=
    semantics.excludingRule symbol leaf.name _ symbolNamed named bounded
  have known : (⟨leaf.name, 2⟩ : PredicateSym) ∈ facts.map Atom.predicate :=
    shown ▸ predicate_mem_shownAtoms.mpr there
  have agree := derives_iff_of_faithful semantics converted read
    (runs facts (shown ▸ binary_shownAtoms) known) (faithful rule)
  rw [derives, derives, head, sameArgs] at agree
  rcases agree.mpr (.inr ⟨.const (.string entityID), leaf.value, ⟨leaf, member, rfl⟩,
    fun listed => missing (mem_shownFor.mp listed), rfl⟩)
    with among | ⟨entity, second, fact, free, -⟩
  · exact idAtom_not_mem_shownAtoms symbol (shown ▸ among)
  · obtain ⟨other, otherMember, value, given, same⟩ := mem_shownAtoms.mp (shown ▸ fact)
    simp only [leafAtom, Atom.mk.injEq, List.cons.injEq, Term.const.injEq] at same
    obtain ⟨name, -, rfl, -⟩ := same
    exact free (mem_shownFor.mpr ⟨other, otherMember, name.symm, given⟩)

end

end

/-- Given the atoms and a query that can be read, all rules are evaluated faithfully exactly
if the quoted id reads as the id, and the values of all leaves that rules can ask for are
shown. -/
theorem evaluate_faithful_iff (converted : structToFacts toLower entityID fields = .ok facts)
    (read : semantics.readArgs entityID = .ok args) :
    (∀ rule, Faithful semantics toLower rule entityID fields) ↔
      args = [.const (.string entityID)] ∧
        ShownRightly semantics.isName (fieldLeaves toLower "" fields) := by
  constructor
  · intro faithful
    exact ⟨args_eq_of_faithful semantics converted read faithful,
      shownRightly_of_faithful semantics converted read faithful⟩
  · rintro ⟨rfl, rightly⟩ rule matched evaluated
    have shown : facts = shownAtoms entityID (fieldLeaves toLower "" fields) :=
      structToFacts_eq_ok converted
    rw [matched_iff_derives semantics converted read evaluated]
    by_cases unary : language.head rule = ⟨(language.head rule).symbol, 1⟩
    · refine semantics.depends rule _ _ (fun atom mentioned => ?_) _ unary.symm
      obtain ⟨program, store, analyzed, -, -⟩ :=
        (evaluate_eq_ok_iff semantics converted read rule matched).mp evaluated
      have named := semantics.mentionedName rule _ mentioned
      subst shown
      rcases semantics.known rule _ program analyzed _ mentioned with isHead | among
      · rw [unary] at isHead
        have single : atom.args.length = 1 := congrArg PredicateSym.arity isHead
        refine iff_of_false (fun fact => ?_) (fun ofLeaf => ?_)
        · rw [binary_shownAtoms atom fact] at single
          cases single
        · obtain ⟨leaf, -, rfl⟩ := ofLeaf
          cases single
      · obtain ⟨fact, isFact, samePredicate⟩ := List.mem_map.mp among
        have two : atom.predicate = ⟨atom.symbol, 2⟩ := by
          rw [← samePredicate, Atom.predicate, binary_shownAtoms fact isFact]
          exact congrArg (PredicateSym.mk · 2) (congrArg PredicateSym.symbol samePredicate)
        rw [two] at among
        exact mem_shownAtoms_iff_leafAtoms rightly (fieldLeaves_regular toLower "" fields) named
          (predicate_mem_shownAtoms.mp among)
    · -- no atom with a single argument is derived
      refine iff_of_false (fun derived => ?_) (fun derived => ?_)
      · rcases semantics.derived rule _ _ derived with among | isHead
        · exact idAtom_not_mem_shownAtoms _ (shown ▸ among)
        · exact unary isHead.symm
      · rcases semantics.derived rule _ _ derived with among | isHead
        · exact idAtom_not_mem_leafAtoms _ among
        · exact unary isHead.symm

end Main

/-! ## A small language -/

inductive SmallRule where
  | fact (symbol entityID : String)
  | idle (symbol : String)
  | excluding (symbol name : String) (constants : List Constant)

namespace SmallRule

def head : SmallRule → PredicateSym
  | .fact symbol _ | .idle symbol | .excluding symbol _ _ => ⟨symbol, 1⟩

def analyze (rule : SmallRule) (known : List PredicateSym) : Except GoError SmallRule :=
  match rule with
  | .excluding _ name _ =>
    if ⟨name, 2⟩ ∈ known then .ok rule else .error (.text ("unknown predicate " ++ name))
  | _ => .ok rule

def consequence (symbol name : String) (constants : List Constant) : Atom → Option Atom
  | ⟨found, [entity, .const second]⟩ =>
    if found = name ∧ second ∉ constants then some ⟨symbol, [entity]⟩ else none
  | _ => none

def evalProgram (rule : SmallRule) (facts : List Atom) : Except GoError (List Atom) :=
  match rule with
  | .fact symbol entityID => .ok (facts ++ [idAtom symbol entityID])
  | .idle _ => .ok facts
  | .excluding symbol name constants =>
    .ok (facts ++ facts.filterMap (consequence symbol name constants))

def readArguments (text : List Char) : Except GoError (List Term) :=
  match (tokens text).bind Datalog.readArgs with
  | some (args, []) => .ok args
  | _ => .error (.text "syntax error")

def parseAtom (text : String) : Except GoError Atom :=
  (readArguments ((text.toList.dropWhile (· ≠ '(')).drop 1)).map
    (⟨String.ofList (text.toList.takeWhile (· ≠ '(')), ·⟩)

def IsName (symbol : String) : Prop := '(' ∉ symbol.toList

def Named : SmallRule → Prop
  | .fact symbol _ | .idle symbol => IsName symbol
  | .excluding symbol name _ => IsName symbol ∧ IsName name

def language : Language where
  Rule := {rule : SmallRule // rule.Named}
  Program := SmallRule
  head rule := rule.1.head
  analyze rule := rule.1.analyze
  evalProgram := evalProgram
  parseAtom := parseAtom

def derives (rule : SmallRule) (facts : Set Atom) (atom : Atom) : Prop :=
  match rule with
  | .fact symbol entityID => atom ∈ facts ∨ atom = idAtom symbol entityID
  | .idle _ => atom ∈ facts
  | .excluding symbol name constants => atom ∈ facts ∨ ∃ entity second,
      (⟨name, [entity, .const second]⟩ : Atom) ∈ facts ∧ second ∉ constants ∧
        atom = ⟨symbol, [entity]⟩

def mentions (rule : SmallRule) (predicate : PredicateSym) : Prop :=
  match rule with
  | .excluding symbol name _ => predicate = ⟨symbol, 1⟩ ∨ predicate = ⟨name, 2⟩
  | rule => predicate = rule.head

theorem consequence_eq_some {symbol name : String} {constants : List Constant} {fact : Atom} :
    consequence symbol name constants fact = some atom ↔ ∃ entity second,
      fact = ⟨name, [entity, .const second]⟩ ∧ second ∉ constants ∧ atom = ⟨symbol, [entity]⟩ := by
  unfold consequence
  split
  next found entity second =>
    rw [Option.ite_none_right_eq_some]
    constructor
    · rintro ⟨⟨rfl, free⟩, same⟩
      cases same
      exact ⟨entity, second, rfl, free, rfl⟩
    · rintro ⟨other, value, same, free, rfl⟩
      cases same
      exact ⟨⟨rfl, free⟩, rfl⟩
  next other =>
    simp only [reduceCtorEq, false_iff]
    rintro ⟨entity, second, rfl, -⟩
    exact other name entity second rfl

theorem evaluates (rule program : SmallRule) (facts store : List Atom)
    (predicates : List PredicateSym) (analyzed : rule.analyze predicates = .ok program)
    (evaluated : program.evalProgram facts = .ok store) (atom : Atom) :
    atom ∈ store ↔ rule.derives {fact | fact ∈ facts} atom := by
  have same : program = rule := by
    cases rule <;> grind [analyze]
  subst same
  cases program with
  | fact symbol entityID =>
    cases evaluated
    simp [derives]
  | idle symbol =>
    cases evaluated
    rfl
  | excluding symbol name constants =>
    cases evaluated
    simp only [derives, List.mem_append, List.mem_filterMap, consequence_eq_some, Set.mem_ofPred_eq]
    grind

theorem derived {facts : Set Atom} (derives : rule.derives facts atom) :
    atom ∈ facts ∨ atom.predicate = rule.head := by
  cases rule with
  | fact symbol entityID => exact Or.imp_right (congrArg Atom.predicate) derives
  | idle symbol => exact .inl derives
  | excluding symbol name constants =>
    rcases derives with among | ⟨entity, second, -, -, rfl⟩
    · exact .inl among
    · exact .inr rfl

theorem derives_congr {first second : Set Atom}
    (agree : ∀ atom : Atom, rule.mentions atom.predicate → (atom ∈ first ↔ atom ∈ second))
    (isHead : atom.predicate = rule.head) : rule.derives first atom ↔ rule.derives second atom := by
  cases rule with
  | fact symbol entityID => exact or_congr_left (agree atom isHead)
  | idle symbol => exact agree atom isHead
  | excluding symbol name constants =>
    refine or_congr (agree atom (.inl isHead)) (exists₂_congr fun entity value => ?_)
    exact and_congr_left fun _ => agree ⟨name, [entity, .const value]⟩ (.inr rfl)

variable {predicate : PredicateSym}

theorem known {program : SmallRule} {predicates : List PredicateSym}
    (analyzed : rule.analyze predicates = .ok program)
    (mentioned : rule.mentions predicate) : predicate = rule.head ∨ predicate ∈ predicates := by
  cases rule with
  | fact symbol entityID | idle symbol => exact .inl mentioned
  | excluding symbol name constants =>
    refine mentioned.imp_right fun same => ?_
    subst same
    by_contra unknown
    have failed := (if_neg unknown).symm.trans analyzed
    cases failed

theorem Named.mentioned (named : rule.Named)
    (mentioned : rule.mentions predicate) : IsName predicate.symbol := by
  cases rule with
  | fact symbol entityID | idle symbol => exact mentioned ▸ named
  | excluding symbol name constants =>
    rcases mentioned with rfl | rfl
    · exact named.1
    · exact named.2

theorem Named.head (named : rule.Named) : IsName rule.head.symbol := by
  cases rule with
  | fact symbol entityID => exact named
  | idle symbol => exact named
  | excluding symbol name constants => exact named.1

theorem parseAtom_queryText {symbol : String} (named : IsName symbol) (entityID : String) :
    parseAtom (queryText symbol entityID) =
      (readArguments ("\"" ++ entityID ++ "\")").toList).map (⟨symbol, ·⟩) := by
  have visible : ∀ char ∈ symbol.toList, char ≠ '(' := fun char member same => named (same ▸ member)
  have split : (queryText symbol entityID).toList =
      symbol.toList ++ '(' :: ("\"" ++ entityID ++ "\")").toList := by
    simp [queryText]
  rw [parseAtom, split, List.takeWhile_append_of_pos (by simpa using visible),
    List.dropWhile_append_of_pos (by simpa using visible)]
  simp

def semantics : Semantics language where
  derives rule := rule.1.derives
  mentions rule := rule.1.mentions
  isName := IsName
  readArgs entityID := readArguments ("\"" ++ entityID ++ "\")").toList
  evaluates rule facts program store := evaluates rule.1 program facts store _
  derived _ _ _ := derived
  depends _ _ _ agree _ := derives_congr agree
  known _ _ _ analyzed _ := known analyzed
  headName rule := rule.2.head
  mentionedName rule _ := rule.2.mentioned
  query _ entityID named := parseAtom_queryText named entityID
  someName := ⟨"deny", by simp [IsName]⟩
  factRule symbol entityID named :=
    ⟨⟨.fact symbol entityID, named⟩, rfl, fun facts _ => ⟨_, _, rfl, rfl⟩, fun _ _ => Iff.rfl⟩
  idleRule symbol named :=
    ⟨⟨.idle symbol, named⟩, rfl, fun facts _ => ⟨_, _, rfl, rfl⟩, fun _ _ => Iff.rfl⟩
  excludingRule symbol name constants named nameNamed _ :=
    ⟨⟨.excluding symbol name constants, named, nameNamed⟩, rfl,
      fun facts _ known => ⟨_, _, if_pos known, rfl⟩, fun _ _ => Iff.rfl⟩

end SmallRule

def transaction (balance : UInt64) : List (EntityField × Entity) :=
  [({ name := "Amount", tag := "amount" }, .int 1500),
   ({ name := "Region", tag := "region" }, .string "US"),
   ({ name := "Balance", tag := "balance" }, .pointer (.uint balance))]

/-- With a small balance every rule of the small language is evaluated faithfully. -/
theorem transaction_faithful :
    structToFacts id "tx-1" (transaction 7) =
        .ok (shownAtoms "tx-1" (fieldLeaves id "" (transaction 7))) ∧
      ∀ rule, Faithful SmallRule.semantics id rule "tx-1" (transaction 7) := by
  have converted : structToFacts id "tx-1" (transaction 7) =
      .ok (shownAtoms "tx-1" (fieldLeaves id "" (transaction 7))) := by decide +kernel
  have read : SmallRule.semantics.readArgs "tx-1" = .ok [.const (.string "tx-1")] := by
    decide +kernel
  have shown : ∀ leaf ∈ fieldLeaves id "" (transaction 7), leaf.shown = some leaf.value := by
    decide +kernel
  refine ⟨converted, (evaluate_faithful_iff SmallRule.semantics converted read).mpr ⟨rfl, ?_⟩⟩
  exact fun leaf member _ _ => ⟨leaf, member, rfl, shown leaf member⟩

/-- A balance of `2 ^ 64 - 1` is not `-1`, but the rule for such balances does not match. -/
theorem large_balance_unfaithful :
    ¬ Faithful SmallRule.semantics id
      ⟨.excluding "deny" "balance" [.number (-1)], by simp [SmallRule.Named, SmallRule.IsName]⟩
      "tx-1" (transaction 18446744073709551615) := by
  intro faithful
  have unmatched := faithful false (by decide +kernel)
  simp only [Bool.false_eq_true, false_iff] at unmatched
  refine unmatched (.inr ⟨.const (.string "tx-1"), .number 18446744073709551615, ?_,
    by decide, rfl⟩)
  exact ⟨⟨"balance", .number 18446744073709551615, some (.number (-1))⟩, by decide +kernel, rfl⟩

end Manglekit.Engine.SingleRule

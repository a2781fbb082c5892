import Manglekit.Engine.AtomContent
import Manglekit.Traversal.OrderedCalls
import Mathlib.Data.Set.Finite.List

/-!
# Structs from facts

A struct is filled from the facts about its id, and a field whose type is a struct from the
facts about the id that it links to.  The links are followed without looking back, so links
that lead in a circle are followed forever, unless a value that cannot be converted ends the
reconstruction first.
-/

namespace Manglekit.Engine

open Core

/-! ## Types and values -/

inductive ScalarKind where
  | string | bool
  | int | int8 | int16 | int32 | int64
  | uint | uint8 | uint16 | uint32 | uint64
  | float32 | float64
  deriving DecidableEq, Repr

def ScalarKind.name : ScalarKind → String
  | .string => "string" | .bool => "bool"
  | .int => "int" | .int8 => "int8" | .int16 => "int16" | .int32 => "int32" | .int64 => "int64"
  | .uint => "uint" | .uint8 => "uint8" | .uint16 => "uint16" | .uint32 => "uint32"
  | .uint64 => "uint64"
  | .float32 => "float32" | .float64 => "float64"

/-- A struct type is given by its name, so that it may refer to itself.  The other kinds
(maps, interfaces, arrays, ...) are never set. -/
inductive GoType (Name : Type) where
  | scalar (kind : ScalarKind)
  | struct (name : Name)
  | pointer (element : GoType Name)
  | slice (element : GoType Name)
  | other (kind : String)

structure StructField (Name : Type) where
  name : String
  exported : Bool := true
  tag : String := ""
  type : GoType Name

/-- `unset` is a field of a kind that is not converted. -/
inductive Hydrated where
  | string (text : String)
  | int (value : Int)
  | uint (value : Nat)
  | float (text : String)
  | bool (value : Bool)
  | unset
  | struct (fields : List (String × Hydrated))
  | pointer (target : Hydrated)
  | slice (elements : List Hydrated)

structure Conversions where
  toLower : String → String
  parseInt : String → Except GoError Int
  parseUint : String → Except GoError Nat
  parseFloat : String → Except GoError String
  parseBool : String → Except GoError Bool

namespace GoType

variable {Name : Type}

def kind : GoType Name → String
  | .scalar kind => kind.name
  | .struct _ => "struct"
  | .pointer _ => "ptr"
  | .slice _ => "slice"
  | .other kind => kind

/-- The struct that is filled for a value of the type: `isStructOrPtr`. -/
def structName : GoType Name → Option Name
  | .struct name => some name
  | .pointer (.struct name) => some name
  | _ => none

def pointed : GoType Name → GoType Name
  | .pointer element => element
  | type => type

def holding (type : GoType Name) (value : Hydrated) : Hydrated :=
  match type with
  | .pointer _ => .pointer value
  | _ => value

end GoType

/-! ## The index -/

structure FactEntry where
  subject : String
  key : String
  value : String
  deriving DecidableEq, Repr

def factEntry (fact : String) : Option FactEntry :=
  match parseAtomContent fact with
  | .error _ => none
  | .ok (pred, args) =>
    if pred ∈ ["json_str", "json_num", "json_bool", "json_link", "triple"] then
      match args with
      | subject :: key :: value :: _ => some ⟨subject, key, value⟩
      | _ => none
    else
      match args with
      | [subject, value] => some ⟨subject, pred, value⟩
      | _ => none

def buildFactIndex (facts : List String) : List FactEntry := facts.filterMap factEntry

def valuesOf (index : List FactEntry) (id key : String) : List String :=
  index.filterMap fun entry =>
    if entry.subject = id ∧ entry.key = key then some entry.value else none

/-! ## Hydration -/

/-- `none` is a reconstruction that has not ended. -/
abbrev Hydration := ExceptT GoError Option

section Source

variable {Name : Type} (conversions : Conversions) (index : List FactEntry)

def trimQuotes (text : String) : String :=
  let front := text.toList.dropWhile (· = '"')
  String.ofList (front.reverse.dropWhile (· = '"')).reverse

def setPrimitive (type : GoType Name) (raw : String) : Except GoError Hydrated :=
  let text := trimQuotes raw
  let signed (bits : Nat) := (conversions.parseInt text).map fun value =>
    Hydrated.int (value.bmod (2 ^ bits))
  let unsigned (bits : Nat) := (conversions.parseUint text).map fun value =>
    Hydrated.uint (value % 2 ^ bits)
  match type with
  | .scalar .string => .ok (.string text)
  | .scalar .int | .scalar .int64 => signed 64
  | .scalar .int8 => signed 8
  | .scalar .int16 => signed 16
  | .scalar .int32 => signed 32
  | .scalar .uint | .scalar .uint64 => unsigned 64
  | .scalar .uint8 => unsigned 8
  | .scalar .uint16 => unsigned 16
  | .scalar .uint32 => unsigned 32
  | .scalar .float32 | .scalar .float64 => (conversions.parseFloat text).map .float
  | .scalar .bool => (conversions.parseBool text).map .bool
  | _ => .ok .unset

/-- The values found for a field; fields that are skipped have none. -/
def fieldValues (id : String) (field : StructField Name) : List String :=
  if !field.exported || field.tag = "-" then []
  else valuesOf index id (if field.tag = "" then conversions.toLower field.name else field.tag)

variable (recurse : Name → String → Hydration Hydrated)

def hydrateValue (field : StructField Name) (type : GoType Name) (raw : String) :
    Hydration Hydrated :=
  match type.structName with
  | some name => type.holding <$> recurse name raw
  | none =>
    match setPrimitive conversions type raw with
    | .ok value => pure value
    | .error err => throw (.wrap ("field " ++ field.name) err)

def hydrateElements (field : StructField Name) (element : GoType Name) :
    List String → Hydration (List Hydrated)
  | [] => pure []
  | raw :: rest => do
    let first ← hydrateValue conversions recurse field element raw
    let others ← hydrateElements field element rest
    return first :: others

/-- A slice takes all values, everything else the first one. -/
def hydrateField (field : StructField Name) (first : String) (others : List String) :
    Hydration Hydrated :=
  match field.type with
  | .slice element =>
    .slice <$> hydrateElements conversions recurse field element (first :: others)
  | type => hydrateValue conversions recurse field type first

def hydrateFields (id : String) : List (StructField Name) → Hydration (List (String × Hydrated))
  | [] => pure []
  | field :: rest =>
    match fieldValues conversions index id field with
    | [] => hydrateFields id rest
    | first :: others => do
      let value ← hydrateField conversions recurse field first others
      let fields ← hydrateFields id rest
      return (field.name, value) :: fields

variable (types : Name → List (StructField Name))

def hydrateStruct : Nat → Name → String → Hydration Hydrated
  | 0, _, _ => (none : Option (Except GoError Hydrated))
  | depth + 1, name, id =>
    .struct <$> hydrateFields conversions index (hydrateStruct depth) id (types name)

def hydrate (depth : Nat) (type : GoType Name) (id : String) : Hydration Hydrated :=
  match type.structName with
  | some name => type.holding <$> hydrateStruct conversions index types depth name id
  | none => throw (.text ("target must be a struct, got " ++ type.pointed.kind))

/-- `FromFacts` for the type. -/
def fromFacts (depth : Nat) (type : GoType Name) (rootID : String) (facts : List String) :
    Option (Except GoError Hydrated) :=
  hydrate conversions (buildFactIndex facts) types depth type rootID

end Source

/-! ## Links -/

section Links

variable {Name : Type} (conversions : Conversions) (index : List FactEntry)
  (types : Name → List (StructField Name))

abbrev Target (Name : Type) := Name × String

def valueTask (type : GoType Name) (raw : String) : Traversal.Task (Target Name) :=
  match type.structName with
  | some name => .call (name, raw)
  | none => .attempt (setPrimitive conversions type raw).isOk

/-- What is done for a field, in order. -/
def fieldTasks (id : String) (field : StructField Name) : List (Traversal.Task (Target Name)) :=
  match fieldValues conversions index id field with
  | [] => []
  | first :: others =>
    match field.type with
    | .slice element => (first :: others).map (valueTask conversions element)
    | type => [valueTask conversions type first]

def targetTasks (target : Target Name) : List (Traversal.Task (Target Name)) :=
  (types target.1).flatMap (fieldTasks conversions index target.2)

/-- Hydration of the first target goes on to the second: a field of it links there, and
before that link all values can be converted and all linked targets can be filled, since
nothing they lead to is unconvertible or leads back. -/
def Follows : Target Name → Target Name → Prop :=
  Traversal.Takes (targetTasks conversions index types)

end Links

/-! ## Ending -/

def outcome {Result : Type} (hydration : Hydration Result) : Option Bool :=
  Option.map Except.isOk hydration.run

section Outcome

variable {Result Next : Type}

@[simp]
theorem outcome_pure (result : Result) : outcome (pure result) = some true := rfl

@[simp]
theorem outcome_throw (err : GoError) : outcome (throw err : Hydration Result) = some false := rfl

@[simp]
theorem outcome_map (wrap : Result → Next) (hydration : Hydration Result) :
    outcome (wrap <$> hydration) = outcome hydration := by
  rcases hydration with _ | _ | _ <;> rfl

theorem outcome_bind {hydration : Hydration Result} {next : Result → Hydration Next}
    {rest : Option Bool} (continues : ∀ result, outcome (next result) = rest) :
    outcome (hydration >>= next) = Traversal.andThen (outcome hydration) rest := by
  rcases hydration with _ | _ | result
  · rfl
  · rfl
  · exact continues result

theorem returns_iff_outcome (hydration : Hydration Result) :
    (∃ result, hydration.run = some result) ↔ ∃ ended, outcome hydration = some ended := by
  rcases hydration with _ | result <;> simp [outcome, ExceptT.run]

end Outcome

section Refinement

variable {Name : Type} {conversions : Conversions} {index : List FactEntry}
  {types : Name → List (StructField Name)} {recurse : Name → String → Hydration Hydrated}

theorem outcome_hydrateValue (field : StructField Name) (type : GoType Name) (raw : String) :
    outcome (hydrateValue conversions recurse field type raw) =
      Traversal.runTasks (fun target => outcome (recurse target.1 target.2))
        [valueTask conversions type raw] := by
  unfold hydrateValue valueTask
  cases type.structName with
  | some name =>
    rw [outcome_map]
    rcases ended : outcome (recurse name raw) with _ | _ | _ <;> simp [Traversal.runTasks, ended]
  | none =>
    rcases setPrimitive conversions type raw with err | value <;>
      simp [Traversal.runTasks, Except.isOk, Except.toBool]

theorem outcome_hydrateElements (field : StructField Name) (element : GoType Name)
    (raws : List String) :
    outcome (hydrateElements conversions recurse field element raws) =
      Traversal.runTasks (fun target => outcome (recurse target.1 target.2))
        (raws.map (valueTask conversions element)) := by
  induction raws with
  | nil => rfl
  | cons raw rest ih =>
    have others (first : Hydrated) :
        outcome (do
          let others ← hydrateElements conversions recurse field element rest
          return first :: others) =
        outcome (hydrateElements conversions recurse field element rest) :=
      outcome_map (first :: ·) _
    rw [hydrateElements, outcome_bind others, outcome_hydrateValue, ih,
      List.map_cons, ← Traversal.runTasks_append_eq, List.singleton_append]

theorem outcome_hydrateField (id : String) (field : StructField Name) {first : String}
    {others : List String} (found : fieldValues conversions index id field = first :: others) :
    outcome (hydrateField conversions recurse field first others) =
      Traversal.runTasks (fun target => outcome (recurse target.1 target.2))
        (fieldTasks conversions index id field) := by
  unfold hydrateField fieldTasks
  rw [found]
  cases field.type with
  | slice element => exact (outcome_map _ _).trans (outcome_hydrateElements field element _)
  | scalar kind | struct name | pointer element
  | other kind => exact outcome_hydrateValue field _ first

theorem outcome_hydrateFields (id : String) (fields : List (StructField Name)) :
    outcome (hydrateFields conversions index recurse id fields) =
      Traversal.runTasks (fun target => outcome (recurse target.1 target.2))
        (fields.flatMap (fieldTasks conversions index id)) := by
  induction fields with
  | nil => rfl
  | cons field rest ih =>
    rw [hydrateFields, List.flatMap_cons]
    split
    next missing => simpa [fieldTasks, missing] using ih
    next first others found =>
      have fields (value : Hydrated) :
          outcome (do
            let fields ← hydrateFields conversions index recurse id rest
            return (field.name, value) :: fields) =
          outcome (hydrateFields conversions index recurse id rest) :=
        outcome_map ((field.name, value) :: ·) _
      rw [outcome_bind fields, outcome_hydrateField id field found, ih,
        Traversal.runTasks_append_eq]

theorem outcome_hydrateStruct (depth : Nat) (target : Target Name) :
    outcome (hydrateStruct conversions index types depth target.1 target.2) =
      Traversal.run (targetTasks conversions index types) depth target := by
  induction depth generalizing target with
  | zero => rfl
  | succ depth ih =>
    rw [hydrateStruct, outcome_map, outcome_hydrateFields, Traversal.run]
    simp only [ih]
    rfl

end Refinement

section Finiteness

variable {Name : Type} {conversions : Conversions} {index : List FactEntry}
  {types : Name → List (StructField Name)}

theorem mem_values_of_links {target next : Target Name}
    (links : Traversal.Links (targetTasks conversions index types) target next) :
    next.2 ∈ index.map FactEntry.value := by
  obtain ⟨field, -, calls⟩ := List.mem_flatMap.mp links
  -- a call is on one of the values of the field
  have ofValue {type : GoType Name} {raw : String}
      (called : Traversal.Task.call next = valueTask conversions type raw) : next.2 = raw := by
    unfold valueTask at called
    split at called
    · cases called
      rfl
    · cases called
  have found : next.2 ∈ fieldValues conversions index target.2 field := by
    unfold fieldTasks at calls
    split at calls
    · cases calls
    next first others values =>
      rw [values]
      split at calls
      · obtain ⟨raw, member, called⟩ := List.mem_map.mp calls
        rw [ofValue called.symm]
        exact member
      · rw [ofValue (List.mem_singleton.mp calls)]
        exact List.mem_cons_self
  unfold fieldValues at found
  split at found
  · cases found
  · obtain ⟨entry, member, value⟩ := List.mem_filterMap.mp found
    rw [Option.ite_none_right_eq_some] at value
    exact List.mem_map.mpr ⟨entry, member, Option.some.inj value.2⟩

theorem finite_met [Finite Name] (root : Target Name) :
    {met | Relation.ReflTransGen (Traversal.Links (targetTasks conversions index types)) root met
      }.Finite := by
  have ids : {id | id ∈ index.map FactEntry.value}.Finite := List.finite_toSet _
  refine ((Set.finite_univ.prod ids).insert root).subset fun met reached => ?_
  rcases Relation.ReflTransGen.cases_tail reached with rfl | ⟨before, -, links⟩
  · exact Set.mem_insert _ _
  · exact Set.mem_insert_of_mem _ ⟨trivial, mem_values_of_links links⟩

end Finiteness

/-- The reconstruction ends exactly if hydration never follows links from a target back to
that target. -/
theorem fromFacts_returns_iff {Name : Type} [Finite Name] (conversions : Conversions)
    (types : Name → List (StructField Name)) (type : GoType Name) (rootID : String)
    (facts : List String) :
    (∃ depth result, fromFacts conversions types depth type rootID facts = some result) ↔
      ∀ name, type.structName = some name →
        ∀ met, Relation.ReflTransGen (Follows conversions (buildFactIndex facts) types)
            (name, rootID) met →
          ¬ Relation.TransGen (Follows conversions (buildFactIndex facts) types) met met := by
  unfold fromFacts hydrate
  cases type.structName with
  | none =>
    refine ⟨fun _ name isStruct => (Option.some_ne_none name isStruct.symm).elim, fun _ => ?_⟩
    exact ⟨0, .error (.text ("target must be a struct, got " ++ type.pointed.kind)), rfl⟩
  | some name =>
    have ended (depth : Nat) :
        (∃ result, type.holding <$>
            hydrateStruct conversions (buildFactIndex facts) types depth name rootID =
              some result) ↔
          ∃ outcome, Traversal.run (targetTasks conversions (buildFactIndex facts) types) depth
            (name, rootID) = some outcome := by
      rw [← outcome_hydrateStruct, ← outcome_map type.holding]
      exact returns_iff_outcome _
    simp only [ended, Option.some.injEq, forall_eq']
    exact Traversal.returns_iff (finite_met (name, rootID))

/-! ## A chain of managers -/

/-- Integers, floats and Booleans are not needed here. -/
def plainConversions : Conversions where
  toLower text := String.ofList (text.toList.map Char.toLower)
  parseInt _ := .error (.text "invalid syntax")
  parseUint _ := .error (.text "invalid syntax")
  parseFloat _ := .error (.text "invalid syntax")
  parseBool _ := .error (.text "invalid syntax")

def personFields (_ : Unit) : List (StructField Unit) :=
  [{ name := "Name", type := .scalar .string },
   { name := "Manager", tag := "manager", type := .pointer (.struct ()) }]

def managerFacts (manager : String) : List String :=
  ["json_str(\"a\", \"name\", \"Ada\")", "json_link(\"a\", \"manager\", \"" ++ manager ++ "\")"]

/-- Another manager: the person is read, and nothing leads back. -/
theorem manager_returns :
    (fromFacts plainConversions personFields 2 (.struct ()) "a" (managerFacts "b")).isSome = true ∧
      ∀ met, Relation.ReflTransGen (Follows plainConversions (buildFactIndex (managerFacts "b"))
          personFields) ((), "a") met →
        ¬ Relation.TransGen (Follows plainConversions (buildFactIndex (managerFacts "b"))
          personFields) met met := by
  have ended : (fromFacts plainConversions personFields 2 (.struct ()) "a"
      (managerFacts "b")).isSome = true := by decide +kernel
  obtain ⟨result, returned⟩ := Option.isSome_iff_exists.mp ended
  exact ⟨ended, (fromFacts_returns_iff plainConversions personFields (.struct ()) "a"
    (managerFacts "b")).mp ⟨2, result, returned⟩ () rfl⟩

/-- A person who is their own manager is read forever. -/
theorem own_manager_forever : ¬ ∃ depth result,
    fromFacts plainConversions personFields depth (.struct ()) "a" (managerFacts "a") =
      some result := by
  rintro ⟨depth, result, returned⟩
  have self : Follows plainConversions (buildFactIndex (managerFacts "a")) personFields
      ((), "a") ((), "a") := by
    refine ⟨[.attempt true], [], ?_, by simp [Traversal.Task.Sound]⟩
    decide +kernel
  have waits := Traversal.run_eq_none_of_cycle .refl (.single self) depth
  rw [← outcome_hydrateStruct] at waits
  obtain ⟨ended, outcome⟩ := (returns_iff_outcome (hydrate plainConversions
    (buildFactIndex (managerFacts "a")) personFields depth (.struct ()) "a")).mp ⟨result, returned⟩
  rw [hydrate, GoType.structName, outcome_map, waits] at outcome
  cases outcome

end Manglekit.Engine

import Manglekit.Engine.Gate

/-!
# From payloads to fact texts

`toFacts` walks a value by reflection and names the facts after the fields on the
way; `flatten` turns maps and slices into the edges of a graph.  A payload is a
finite tree here, so only pointers are compared with those met before.
-/

namespace Manglekit.Engine

open Core

/-- The lower-case form of a name, and the facts of the program's own records
(envelopes and trails) with their random and clock data. -/
structure Reflector where
  toLower : String → String
  recordFacts : (id path : String) → (args : List String) → Value → List String

def quoted (text : String) : String := "\"" ++ escapeString text ++ "\""

/-- `text` is the last argument as it stands in the fact. -/
def generatePrimitiveFact (id path : String) (args : List String) (text : String) : String :=
  (if path = "" then "value" else path) ++ "(" ++ quoted id
    ++ String.join (args.map fun arg => ", " ++ quoted arg) ++ ", " ++ text ++ ")"

/-! ## Struct fields -/

section Fields

variable (toLower : String → String) (field : FieldType)

def ignoredField : Bool :=
  !field.exported || field.mangle = "-" || field.json = "-"
    || ['-', ','].isPrefixOf field.json.toList

/-- The tag for facts, else the first part of the one for JSON, else the name. -/
def fieldName : String :=
  let jsonName := String.ofList (field.json.toList.takeWhile (· ≠ ','))
  if field.mangle ≠ "" then field.mangle
  else if jsonName ≠ "" then jsonName
  else toLower field.name

/-- Embedded fields without tags do not show in the path. -/
def fieldPath (path : String) : String :=
  if field.anonymous && field.mangle = "" && field.json = "" then path
  else if path = "" then fieldName toLower field
  else path ++ "_" ++ fieldName toLower field

end Fields

/-! ## Reflection -/

section Reflection

variable (reflector : Reflector) (id : String)

mutual

/-- A pointer is followed once; what it points to is printed if it is a pointer
again. -/
def toFactsRecursive (path : String) (args visited : List String) : Value → List String
  | .nil => []
  | .bool value => [generatePrimitiveFact id path args (quoted (toString value))]
  | .int value => [generatePrimitiveFact id path args (toString value)]
  | .uint value => [generatePrimitiveFact id path args (toString value)]
  | .float _ wide => [generatePrimitiveFact id path args wide]
  | .string value => [generatePrimitiveFact id path args (quoted value)]
  | .slice elements | .array elements => elementFacts path args visited 0 elements
  | .map entries => entryFacts path args visited entries
  | .struct fields => fieldFacts path args visited fields
  | .pointer address target =>
    if visited.contains address then []
    else
      match target with
      | .nil | .pointer .. => [generatePrimitiveFact id path args (quoted target.sprint)]
      | _ => toFactsRecursive path args (address :: visited) target
  | .stringer text (.string _) => [generatePrimitiveFact id path args (quoted text)]
  | .stringer _ value => toFactsRecursive path args visited value
  | .trail audit => reflector.recordFacts id path args (.trail audit)
  | .envelope text payload metadata securityLabels facts contentType =>
    reflector.recordFacts id path args
      (.envelope text payload metadata securityLabels facts contentType)

def elementFacts (path : String) (args visited : List String) (index : Nat) :
    List Value → List String
  | [] => []
  | element :: rest =>
    toFactsRecursive path (args ++ [toString index]) visited element
      ++ elementFacts path args visited (index + 1) rest

def entryFacts (path : String) (args visited : List String) :
    List (Value × Value) → List String
  | [] => []
  | (key, value) :: rest =>
    toFactsRecursive path (args ++ [key.sprint]) visited value
      ++ entryFacts path args visited rest

def fieldFacts (path : String) (args visited : List String) :
    List (FieldType × Value) → List String
  | [] => []
  | (field, value) :: rest =>
    (if ignoredField field then []
      else toFactsRecursive (fieldPath reflector.toLower field path) args visited value)
      ++ fieldFacts path args visited rest

end

/-- The walk never fails. -/
def toFacts (input : Value) : Except GoError (List String) :=
  .ok (toFactsRecursive reflector id "" [] [] input)

end Reflection

/-! ## Dynamic structures -/

def dereferenced : Value → Value
  | .pointer _ target => dereferenced target
  | .stringer _ (.pointer _ target) => dereferenced target
  | value => value

def isComplexKind (value : Value) : Bool :=
  match value.underlying with
  | .map _ | .slice _ | .array _ => true
  | _ => false

def leafText : Value → String
  | .trail audit => String.ofList (audit.format.toList.drop 1)
  | value => value.sprint

/-- The fact of a leaf; `key` has been escaped by the caller. -/
def addPrimitiveReflect (nodeID key : String) (value : Value) : List String :=
  let fact := fun (predicate last : String) =>
    predicate ++ "(" ++ quoted nodeID ++ ", \"" ++ key ++ "\", " ++ last ++ ")"
  match value.underlying with
  | .nil => []
  | .string text => [fact "json_str" (quoted text)]
  | .bool flag => [fact "json_bool" ("\"" ++ toString flag ++ "\"")]
  | .int number => [fact "json_num" (toString number)]
  | .uint number => [fact "json_num" (toString number)]
  | .float _ wide => [fact "json_num" wide]
  | _ => [fact "json_str" (quoted (leafText value))]

/-- What the walk has collected: the facts, the number of nodes, and the pointers
it went through, which are not forgotten on the way back. -/
structure FlattenState where
  facts : List String := []
  counter : Nat := 0
  visited : List String := []

def FlattenState.add (state : FlattenState) (facts : List String) : FlattenState :=
  { state with facts := state.facts ++ facts }

def FlattenState.link (state : FlattenState) (nodeID key : String) : FlattenState :=
  { state with
    counter := state.counter + 1
    facts := state.facts ++ ["json_link(" ++ quoted nodeID ++ ", \"" ++ key ++ "\", \"node_"
      ++ toString (state.counter + 1) ++ "\")"] }

mutual

def flattenRecursive (nodeID : String) (state : FlattenState) : Value → FlattenState
  | .pointer address target =>
    if state.visited.contains address then state
    else flattenRecursive nodeID { state with visited := address :: state.visited } target
  | .stringer _ value => flattenRecursive nodeID state value
  | .map entries => flattenEntries nodeID state entries
  | .slice elements | .array elements => flattenElements nodeID 0 state elements
  | _ => state

def flattenEntries (nodeID : String) (state : FlattenState) :
    List (Value × Value) → FlattenState
  | [] => state
  | (key, value) :: rest =>
    let safeKey := escapeString key.sprint
    let next :=
      if isComplexKind (dereferenced value) then
        let linked := state.link nodeID safeKey
        flattenRecursive ("node_" ++ toString linked.counter) linked value
      else state.add (addPrimitiveReflect nodeID safeKey (dereferenced value))
    flattenEntries nodeID next rest

def flattenElements (nodeID : String) (index : Nat) (state : FlattenState) :
    List Value → FlattenState
  | [] => state
  | value :: rest =>
    let next :=
      if isComplexKind (dereferenced value) then
        let linked := state.link nodeID (toString index)
        flattenRecursive ("node_" ++ toString linked.counter) linked value
      else state.add (addPrimitiveReflect nodeID (toString index) (dereferenced value))
    flattenElements nodeID (index + 1) next rest

end

def flatten (rootID : String) (input : Value) : Except GoError (List String) :=
  .ok (flattenRecursive rootID {} input).facts

def reflectingHost (host : Host) (reflector : Reflector) : Host :=
  { host with toFacts := toFacts reflector, flatten := flatten }

end Manglekit.Engine

import Manglekit.Core.Types

/-!
# Values and envelopes

Payloads and metadata values are Go values of any type.  The model keeps what
the program observes of them: the kind that reflection reports, the fields of a
struct with their tags, and the text `fmt` prints.
-/

namespace Manglekit.Core

structure Quad where
  subject : String
  predicate : String
  object : String
  graph : String
  deriving DecidableEq, Repr

structure Atom where
  predicate : String
  subject : String
  object : String
  deriving DecidableEq, Repr

structure ViolationRule where
  ruleID : String
  description : String
  severity : Nat
  deriving DecidableEq, Repr

/-- What reflection reports of a struct field: its name, its `mangle` and `json`
tags, and whether it is exported and embedded. -/
structure FieldType where
  mangle : String
  exported : Bool
  name : String := ""
  json : String := ""
  anonymous : Bool := false
  deriving DecidableEq, Repr

/-- A Go value behind an interface.  Floats, addresses and the values whose type
has a `String` or `Error` method carry their text, and the entries of a map
stand in the order `fmt` sorts them into.  A float also carries the text it has
as a `float64`, which is another one for most values of type `float32`. -/
inductive Value where
  | nil
  | bool (value : Bool)
  | int (value : Int)
  | uint (value : Nat)
  | float (text wide : String)
  | string (value : String)
  | slice (elements : List Value)
  | array (elements : List Value)
  | map (entries : List (Value × Value))
  | struct (fields : List (FieldType × Value))
  | pointer (address : String) (target : Value)
  | stringer (text : String) (underlying : Value)
  | trail (trail : AuditTrail)
  | envelope (text : String) (payload : Value) (metadata : List (String × Value))
      (securityLabels facts : List String) (contentType : ContentType)

namespace Value

/-- The elements of a slice or an array; `none` for any other kind. -/
def elements? : Value → Option (List Value)
  | .slice elements | .array elements => some elements
  | .stringer _ value => value.elements?
  | _ => none

/-- The value as reflection sees it, without its methods. -/
def underlying : Value → Value
  | .stringer _ value => value.underlying
  | value => value

def string? : Value → Option String
  | .string value => some value
  | _ => none

end Value

def RuleInference.format (rule : RuleInference) : String :=
  "\x7b" ++ " ".intercalate
    [rule.ruleName, rule.tier, rule.definition, rule.sourceFile, "map[]", rule.predicate] ++ "\x7d"

def AuditTrail.format (trail : AuditTrail) : String :=
  "&\x7b" ++ " ".intercalate
    ["[" ++ " ".intercalate (trail.matchedRules.map RuleInference.format) ++ "]",
      trail.timestamp, trail.engineID, trail.query, toString trail.factCount,
      toString trail.matchedCount, toString trail.latencyMs] ++ "\x7d"

namespace Value

mutual

/-- The text of `%v`.  Below the top level a pointer prints as its address. -/
def format (nested : Bool) : Value → String
  | .nil => "<nil>"
  | .bool value => toString value
  | .int value => toString value
  | .uint value => toString value
  | .float text _ => text
  | .string value => value
  | .slice elements | .array elements => "[" ++ " ".intercalate (formatElements elements) ++ "]"
  | .map entries => "map[" ++ " ".intercalate (formatEntries entries) ++ "]"
  | .struct fields => "\x7b" ++ " ".intercalate (formatFields fields) ++ "\x7d"
  | .pointer address target =>
    if nested then address else
      match target with
      | .slice elements | .array elements =>
        "&[" ++ " ".intercalate (formatElements elements) ++ "]"
      | .map entries => "&map[" ++ " ".intercalate (formatEntries entries) ++ "]"
      | .struct fields => "&\x7b" ++ " ".intercalate (formatFields fields) ++ "\x7d"
      | _ => address
  | .stringer text _ => text
  | .trail audit => audit.format
  | .envelope text .. => text

def formatElements : List Value → List String
  | [] => []
  | element :: rest => element.format true :: formatElements rest

def formatEntries : List (Value × Value) → List String
  | [] => []
  | (key, value) :: rest => (key.format true ++ ":" ++ value.format true) :: formatEntries rest

def formatFields : List (FieldType × Value) → List String
  | [] => []
  | (_, value) :: rest => value.format true :: formatFields rest

end

/-- `fmt.Sprint` of a single operand, which is also `fmt.Sprintf("%v", _)`. -/
def sprint (value : Value) : String := value.format false

end Value

abbrev Metadata := StringMap Value

/-- Identifiers are random.  All that is ever read of one is whether it is set. -/
structure Envelope where
  payload : Value := .nil
  metadata : Metadata := ∅
  securityLabels : List String := []
  facts : List String := []
  contentType : ContentType := .unset
  contextFacts : List Quad := []
  violations : List ViolationRule := []
  identified : Bool := false

def newEnvelope (payload : Value) : Envelope :=
  { payload, contentType := .struct, identified := true }

namespace Envelope

def setMeta (env : Envelope) (key : String) (value : Value) : Envelope :=
  { env with metadata := env.metadata.insert key value }

def getMeta (env : Envelope) (key : String) : String :=
  ((env.metadata.lookup key).map Value.sprint).getD ""

def setFeedback (env : Envelope) (msg : String) : Envelope := env.setMeta keyFeedback (.string msg)

def getFeedback (env : Envelope) : String := env.getMeta keyFeedback

/-- Whether the metadata has exactly this string under the key.  A missing value is
not the empty string. -/
def hasText (env : Envelope) (key text : String) : Bool :=
  decide ((env.metadata.lookup key).bind Value.string? = some text)

end Envelope

/-- A type assertion to the envelope type.  A caller's envelope has no context
facts and no violations yet. -/
def Value.envelope? : Value → Option Envelope
  | .envelope _ payload metadata securityLabels facts contentType =>
    some
      { payload
        metadata := (metadata.map fun entry => ⟨entry.1, entry.2⟩).toAList
        securityLabels
        facts
        contentType }
  | _ => none

/-- An envelope as a value; `text` is what `fmt` prints for it. -/
def Envelope.toValue (env : Envelope) (text : String) : Value :=
  .envelope text env.payload (env.metadata.entries.map fun entry => (entry.1, entry.2))
    env.securityLabels env.facts env.contentType

theorem envelope?_toValue (env : Envelope) (text : String) :
    ∃ metadata : Metadata, (env.toValue text).envelope? = some
        { payload := env.payload
          metadata
          securityLabels := env.securityLabels
          facts := env.facts
          contentType := env.contentType } ∧
      ∀ key, metadata.lookup key = env.metadata.lookup key := by
  refine ⟨_, rfl, fun key => ?_⟩
  rw [AList.lookup_to_alist, List.map_map]
  exact congrArg (List.dlookup key) (List.map_id env.metadata.entries)

structure Decision where
  outcome : Outcome
  reasons : List String := []
  metaMap : StringMap String := ∅
  auditTrail : Option AuditTrail := none

structure ActionMetadata where
  name : String := ""
  inputContentType : ContentType := .unset
  deriving DecidableEq, Repr

structure PreCheckContext where
  actionName : String
  metadata : Metadata
  labels : List String
  facts : List String
  entityID : String

inductive CheckPoint where
  | step (index : Nat)
  | backoff (retryCount : Nat)
  | query
  | workingStore
  | evaluation
  deriving DecidableEq, Repr

/-- A context says at which places it is found cancelled, and carries the values
that were put into it. -/
structure Context where
  err : CheckPoint → Option GoError := fun _ => none
  preCheck : Option PreCheckContext := none
  contextFacts : StringMap String := ∅

def Context.withPreCheck (ctx : Context) (preCheck : PreCheckContext) : Context :=
  { ctx with preCheck := some preCheck }

end Manglekit.Core

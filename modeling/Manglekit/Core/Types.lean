import Mathlib.Data.List.AList

/-!
# The shared vocabulary

Tiers, errors, audit trails, the values that travel as payload or metadata, and
the envelope that carries them.
-/

namespace Manglekit

/-- A Go map with string keys, in the order one iteration visits it. -/
abbrev StringMap (V : Type) := AList fun _ : String => V

namespace StringMap

variable {V W : Type}

/-- Assign every entry of `source` in turn, as a range loop over it does. -/
def assignWith (target : StringMap V) (convert : W → V) (source : StringMap W) : StringMap V :=
  source.entries.foldl (fun map entry => map.insert entry.1 (convert entry.2)) target

def assignAll (target source : StringMap V) : StringMap V := target.assignWith id source

/-- Assign only the entries whose key is new. -/
def assignMissing (target source : StringMap V) : StringMap V :=
  source.entries.foldl
    (fun map entry => if (map.lookup entry.1).isSome then map else map.insert entry.1 entry.2)
    target

theorem lookup_insert_if (map : StringMap V) (key other : String) (value : V) :
    (map.insert key value).lookup other = if other = key then some value else map.lookup other := by
  split
  case isTrue same => rw [same, AList.lookup_insert]
  case isFalse ne => rw [AList.lookup_insert_ne ne]

theorem lookup_erase_if (map : StringMap V) (key other : String) :
    (map.erase key).lookup other = if other = key then none else map.lookup other := by
  split
  case isTrue same => rw [same, AList.lookup_erase]
  case isFalse ne => rw [AList.lookup_erase_ne ne]

theorem dlookup_tail_eq_none {key : String} {value : W} {rest : List (Sigma fun _ : String => W)}
    (distinct : (⟨key, value⟩ :: rest : List (Sigma fun _ : String => W)).NodupKeys) :
    rest.dlookup key = none :=
  List.dlookup_eq_none.mpr (List.nodupKeys_cons.mp distinct).1

theorem lookup_assignWith (target : StringMap V) (convert : W → V) (source : StringMap W)
    (key : String) :
    (target.assignWith convert source).lookup key =
      ((source.lookup key).map convert).or (target.lookup key) := by
  obtain ⟨entries, distinct⟩ := source
  change (entries.foldl (fun map entry => map.insert entry.1 (convert entry.2)) target).lookup key =
    ((entries.dlookup key).map convert).or (target.lookup key)
  induction entries generalizing target with
  | nil => rfl
  | cons entry rest ih =>
    obtain ⟨assigned, value⟩ := entry
    rw [List.foldl_cons, ih _ (List.nodupKeys_cons.mp distinct).2]
    by_cases same : key = assigned
    · subst same
      simp [dlookup_tail_eq_none distinct]
    · rw [AList.lookup_insert_ne same, List.dlookup_cons_ne _ _ same]

theorem lookup_assignMissing (target source : StringMap V) (key : String) :
    (target.assignMissing source).lookup key = (target.lookup key).or (source.lookup key) := by
  obtain ⟨entries, distinct⟩ := source
  change (entries.foldl
    (fun map entry => if (map.lookup entry.1).isSome then map else map.insert entry.1 entry.2)
    target).lookup key = (target.lookup key).or (entries.dlookup key)
  induction entries generalizing target with
  | nil => simp
  | cons entry rest ih =>
    obtain ⟨assigned, value⟩ := entry
    rw [List.foldl_cons, ih _ (List.nodupKeys_cons.mp distinct).2]
    by_cases same : key = assigned
    · subst same
      rw [dlookup_tail_eq_none distinct, List.dlookup_cons_eq]
      cases present : target.lookup key <;> simp [present]
    · rw [List.dlookup_cons_ne _ _ same]
      split
      · rfl
      · rw [AList.lookup_insert_ne same]

end StringMap

namespace Core

/-- The character classes of identifiers: `[A-Za-z_]` and `[A-Za-z0-9_]`. -/
def isIdentStart (char : Char) : Bool := char.isAlpha || char = '_'

def isIdentPart (char : Char) : Bool := char.isAlphanum || char = '_'

def entityInput : String := "Req"

def entityOutput : String := "Output"

def predHalt : String := "halt"

def predViolation : String := "violation_msg"

def predRetry : String := "retry"

def predRoute : String := "route"

abbrev Tier := String

def tierT0Axiom : Tier := "T0"

def tierT1Governance : Tier := "T1"

def tierT2Playbook : Tier := "T2"

def tierT3User : Tier := "T3"

def tierUnknown : Tier := "Unknown"

inductive Outcome where
  | proceed
  | halt
  | retry
  | route
  deriving DecidableEq, Repr

def Outcome.text : Outcome → String
  | .proceed => "PROCEED"
  | .halt => "HALT"
  | .retry => "RETRY"
  | .route => "ROUTE"

/-! The metadata keys of the control plane. -/

def keyDecision : String := "manglekit.decision"

def keyFeedback : String := "manglekit.feedback"

def keyPrevFeedback : String := "prev_feedback"

def keyNextStep : String := "manglekit.next_step"

def keyHistory : String := "manglekit_history"

def keyContext : String := "manglekit.context"

inductive ContentType where
  | struct
  | json
  | unset
  deriving DecidableEq, Repr

structure AlignmentError where
  message : String := ""
  ruleID : String := ""
  actionName : String := ""
  matchedRule : String := ""
  tier : Tier := ""
  deriving DecidableEq, Repr

def AlignmentError.error (error : AlignmentError) : String :=
  "[INTERVENTION]"
    ++ (if error.ruleID = "" then "" else " [" ++ error.ruleID ++ "]")
    ++ (if error.actionName = "" then "" else
        " (action: " ++ error.actionName
          ++ (if error.tier = "" then "" else ", tier: " ++ error.tier) ++ ")")
    ++ ": " ++ error.message

structure PolicyViolationError where
  tier : String
  ruleID : String
  violation : String
  suggestion : String
  actionName : String := ""
  matchedRule : String := ""
  deriving DecidableEq, Repr

def PolicyViolationError.error (error : PolicyViolationError) : String :=
  "policy violation: blocked at tier " ++ error.tier ++ " (rule: " ++ error.ruleID ++ ")"
    ++ (if error.actionName = "" then "" else " (action: " ++ error.actionName ++ ")")
    ++ (if error.violation = "" then "" else ": " ++ error.violation)
    ++ (if error.matchedRule = "" then "" else " [matched: " ++ error.matchedRule ++ "]")
    ++ (if error.suggestion = "" then "" else " (suggestion: " ++ error.suggestion ++ ")")

/-- The error chains that occur here.  `wrap` is `fmt.Errorf` with a trailing
`%w`; `text` is an error without a chain. -/
inductive GoError where
  | alignment (error : AlignmentError)
  | input (error : GoError)
  | policyViolation (error : PolicyViolationError)
  | supervisor (reason : GoError)
  | wrap (message : String) (error : GoError)
  | text (message : String)
  deriving DecidableEq, Repr

namespace GoError

def error : GoError → String
  | .alignment error => error.error
  | .input error => "input validation error: " ++ error.error
  | .policyViolation error => error.error
  | .supervisor reason => "supervisor failure: " ++ reason.error
  | .wrap message error => message ++ ": " ++ error.error
  | .text message => message

/-- `errors.As` for an alignment error.  The structured errors unwrap to their
sentinel and not to the error they carry, so the search ends at them. -/
def asAlignment : GoError → Option AlignmentError
  | .alignment error => some error
  | .wrap _ error => error.asAlignment
  | .input _ | .policyViolation _ | .supervisor _ | .text _ => none

def isInputError : GoError → Bool
  | .input _ => true
  | .wrap _ error => error.isInputError
  | .alignment _ | .policyViolation _ | .supervisor _ | .text _ => false

end GoError

inductive Panic where
  | unexportedField
  | nilMapWrite
  | nilDereference
  | sliceBounds
  deriving DecidableEq, Repr

structure RuleInference where
  ruleName : String
  tier : Tier
  definition : String
  sourceFile : String
  predicate : String
  deriving DecidableEq, Repr

structure AuditTrail where
  matchedRules : List RuleInference
  timestamp : String
  engineID : String
  query : String
  factCount : Nat := 0
  matchedCount : Nat := 0
  latencyMs : Nat := 0
  deriving DecidableEq, Repr

/-- `timestamp` is the clock's reading, as it prints. -/
def newAuditTrail (timestamp engineID query : String) : AuditTrail :=
  ⟨[], timestamp, engineID, query, 0, 0, 0⟩

def AuditTrail.addRule (trail : AuditTrail)
    (ruleName definition sourceFile predicate : String) (tier : Tier) : AuditTrail :=
  { trail with
    matchedRules :=
      trail.matchedRules ++ [⟨ruleName, tier, definition, sourceFile, predicate⟩] }

end Core

end Manglekit

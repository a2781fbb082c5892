import Manglekit.Core.Types
import Manglekit.Errors.Tree

/-!
# Errors by identity, by method and by type

The sentinels are recognised by identity, the structured errors by their `Is` methods, and
both keep being recognised under any number of wrapping layers.  Only the structured errors
can be extracted by type.
-/

namespace Manglekit.Core

inductive Sentinel where
  | alignment
  | systemError
  | inputValidation
  | policyViolation
  | supervisorFailure
  deriving DecidableEq, Repr

def Sentinel.error : Sentinel → String
  | .alignment => "alignment error"
  | .systemError => "system error"
  | .inputValidation => "input validation error"
  | .policyViolation => "policy violation"
  | .supervisorFailure => "supervisor failure"

/-- An error value apart from what it unwraps to.  The last three are known by their text. -/
inductive ErrorValue where
  | sentinel (sentinel : Sentinel)
  | alignment (error : AlignmentError)
  | policyViolation (error : PolicyViolationError)
  | input (message : String)
  | supervisor (message : String)
  | other (message : String)
  deriving DecidableEq, Repr

abbrev ErrorTree := Errors.Tree ErrorValue

namespace ErrorValue

def error : ErrorValue → String
  | .sentinel which => which.error
  | .alignment error => error.error
  | .policyViolation error => error.error
  | .input message | .supervisor message | .other message => message

/-- The sentinel for which the `Is` method of the value answers. -/
def isMethod : ErrorValue → Option Sentinel
  | .alignment _ => some .alignment
  | .policyViolation _ => some .policyViolation
  | .input _ => some .inputValidation
  | .supervisor _ => some .supervisorFailure
  | .sentinel _ | .other _ => none

def recognises (target : Sentinel) (value : ErrorValue) : Bool :=
  value = .sentinel target || value.isMethod = some target

def alignment? : ErrorValue → Option AlignmentError
  | .alignment error => some error
  | _ => none

theorem recognises_of_alignment {value : ErrorValue} (asserted : value.alignment?.isSome = true) :
    value.recognises .alignment = true := by
  cases value <;> first | rfl | cases asserted

end ErrorValue

namespace ErrorTree

/-- `errors.Is` for a sentinel. -/
def errorsIs (tree : ErrorTree) (target : Sentinel) : Bool :=
  tree.is (ErrorValue.recognises target)

/-- `errors.As` for an alignment error. -/
def asAlignment (tree : ErrorTree) : Option AlignmentError := tree.as ErrorValue.alignment?

def isAlignmentError (tree : ErrorTree) : Bool := tree.errorsIs .alignment

def isPolicyViolationError (tree : ErrorTree) : Bool :=
  tree.errorsIs .policyViolation || tree.errorsIs .alignment

def error : ErrorTree → String
  | .node value _ => value.error

theorem isAlignmentError_of_asAlignment {tree : ErrorTree} {alignErr : AlignmentError}
    (found : tree.asAlignment = some alignErr) : tree.isAlignmentError = true :=
  Errors.Tree.is_of_as (fun _ => ErrorValue.recognises_of_alignment)
    (Option.isSome_iff_exists.mpr ⟨alignErr, found⟩)

end ErrorTree

def Sentinel.tree (sentinel : Sentinel) : ErrorTree := .node (.sentinel sentinel) []

def GoError.tree : GoError → ErrorTree
  | .alignment error => .node (.alignment error) [Sentinel.alignment.tree]
  | .input error =>
    .node (.input ("input validation error: " ++ error.error)) [Sentinel.inputValidation.tree]
  | .policyViolation error => .node (.policyViolation error) [Sentinel.policyViolation.tree]
  | .supervisor reason =>
    .node (.supervisor ("supervisor failure: " ++ reason.error))
      [Sentinel.supervisorFailure.tree]
  | .wrap message error => .node (.other (message ++ ": " ++ error.error)) [error.tree]
  | .text message => .node (.other message) []

end Manglekit.Core

import Manglekit.Core.ErrorValues
import Manglekit.Sdk.GateParity

/-!
# The HTTP handler

The handler executes the envelope that is posted to it and maps the result to a reply.  It
asks whether an error is an alignment error by identity, and then extracts one by type.  A
policy violation of the supervisor is neither.
-/

namespace Manglekit.Serve

open Core Sdk Supervisor

structure Request where
  method : String
  body : Option Envelope

inductive Body where
  | text (message : String)
  | violation (reasons : List String) (ruleID : String)
  | result (envelope : Envelope)

structure Reply where
  status : Nat
  body : Body

/-- The response mapping.  Without an alignment error to extract, reading its message is a
nil dereference. -/
def respond : Except ErrorTree Envelope → Except Panic Reply
  | .error err =>
    if err.isAlignmentError then
      match err.asAlignment with
      | none => .error .nilDereference
      | some alignErr => .ok ⟨403, .violation [alignErr.message] alignErr.ruleID⟩
    else .ok ⟨500, .text ("Internal Server Error: " ++ err.error)⟩
  | .ok result =>
    if result.hasText keyDecision Outcome.halt.text then .ok ⟨403, .result result⟩
    else .ok ⟨200, .result result⟩

section Handler

variable {m : Type → Type} [Monad m] [MonadExceptOf Panic m]

/-- The handler for a client's `Execute`. -/
def createHandler (execute : Envelope → m (Except ErrorTree Envelope)) (request : Request) :
    m Reply :=
  if request.method ≠ "POST" then return ⟨405, .text "Method not allowed"⟩
  else
    match request.body with
    | none => return ⟨400, .text "Invalid JSON body"⟩
    | some envelope => do
      let result ← execute { envelope with identified := true }
      orPanic (respond result)

def serve (client : Client m) (ctx : Context) (request : Request) : m Reply :=
  createHandler (fun envelope => do
    return (← Sdk.execute client ctx envelope []).mapError GoError.tree) request

end Handler

theorem createHandler_post {execute : Envelope → Except Panic (Except ErrorTree Envelope)}
    {envelope : Envelope} {result : Except ErrorTree Envelope}
    (executed : execute { envelope with identified := true } = .ok result) :
    createHandler execute ⟨"POST", some envelope⟩ = respond result := by
  unfold createHandler
  simp only [ne_eq, not_true_eq_false, if_false, executed]
  change orPanic (respond result) = respond result
  cases respond result <;> rfl

theorem respond_forbidden_iff {err : ErrorTree} :
    (∃ body, respond (.error err) = .ok ⟨403, body⟩) ↔ err.asAlignment.isSome = true := by
  cases found : err.asAlignment with
  | some alignErr =>
    simp [respond, ErrorTree.isAlignmentError_of_asAlignment found, found]
  | none =>
    simp only [respond, found]
    split_ifs <;> simp

/-- A policy denial is answered with 403, and without a panic, exactly if there is an
alignment error somewhere in the tree of the error. -/
theorem denial_forbidden_iff (execute : Envelope → Except Panic (Except ErrorTree Envelope))
    {envelope : Envelope} {err : ErrorTree}
    (failed : execute { envelope with identified := true } = .ok (.error err)) :
    (err.isPolicyViolationError = true →
        ∃ body, createHandler execute ⟨"POST", some envelope⟩ = .ok ⟨403, body⟩) ↔
      (err.isPolicyViolationError = true → ∃ alignErr, .alignment alignErr ∈ err.values) := by
  refine imp_congr_right fun _ => ?_
  rw [createHandler_post failed, respond_forbidden_iff, ErrorTree.asAlignment,
    Errors.Tree.as_isSome_iff]
  constructor
  · rintro ⟨value, member, asserted⟩
    cases value with
    | alignment alignErr => exact ⟨alignErr, member⟩
    | _ => cases asserted
  · rintro ⟨alignErr, member⟩
    exact ⟨_, member, rfl⟩

/-- A denial of the gate, as a caller may have wrapped it. -/
def wrappedAlignment : ErrorTree :=
  (GoError.wrap "step 1" (.alignment { message := "no", ruleID := "r1" })).tree

def failingWith (err : ErrorTree) (_ : Envelope) : Except Panic (Except ErrorTree Envelope) :=
  .ok (.error err)

theorem wrappedAlignment_forbidden :
    wrappedAlignment.isPolicyViolationError = true ∧
      ∃ body, createHandler (failingWith wrappedAlignment) ⟨"POST", some {}⟩ =
        .ok ⟨403, body⟩ := by
  have recognised : wrappedAlignment.isPolicyViolationError = true := by decide
  refine ⟨recognised, (denial_forbidden_iff (failingWith _) rfl).mpr (fun _ => ?_) recognised⟩
  exact ⟨{ message := "no", ruleID := "r1" }, by decide⟩

/-- Everything posted is routed to `send`, and `send` is denied. -/
def deniedPolicy : List Datalog.Clause :=
  [⟨Engine.Reference.stringAtom "halt" ["Req", "closed", "T1"],
      [.atom (Engine.Reference.stringAtom "action_operation" ["Req", "send"])]⟩,
    ⟨Engine.Reference.stringAtom "route" ["send"],
      [.atom (Engine.Reference.stringAtom "meta" ["entry", "yes"])]⟩]

def entryRequest : Envelope := { metadata := AList.singleton "entry" (.string "yes") }

def executeError (client : Client Recorded) (request : Envelope) : Option GoError :=
  match ((Sdk.execute client {} { request with identified := true } []).run.run []).1 with
  | .ok (.error err) => some err
  | _ => none

/-- A denial of the supervised action is answered with 500, and the bare sentinel makes the
handler panic. -/
theorem denial_unforbidden :
    (executeError (clientOf (sendUnder deniedPolicy)) entryRequest).map
        (·.tree.isPolicyViolationError) = some true ∧
      ((serve (clientOf (sendUnder deniedPolicy)) {} ⟨"POST", some entryRequest⟩).run.run
        []).1.toOption.map (·.status) = some 500 ∧
      Sentinel.alignment.tree.isPolicyViolationError = true ∧
      createHandler (failingWith Sentinel.alignment.tree) ⟨"POST", some {}⟩ =
        .error .nilDereference :=
  ⟨by decide +kernel, by decide +kernel, by decide, rfl⟩

end Manglekit.Serve

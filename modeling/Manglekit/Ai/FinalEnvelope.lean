import Manglekit.Ai.StreamProtocol

/-!
# The exposed envelope over many streams

The field `final` is written when a text passes its check, and never cleared.  After a
sequence of streams it holds the response of the last stream that passed, whatever has come
since.
-/

namespace Manglekit.Ai

open Core Engine Transition

/-- A call of `Stream`, with the chunks that its consumer takes. -/
structure StreamCall where
  ctx : Context
  input : Envelope
  listens : List StreamChunk → Bool

namespace StreamingSupervisedAction

variable (action : StreamingSupervisedAction)

/-- What a call that is run to its end writes to `final`. -/
def published (call : StreamCall) : Option Envelope :=
  match action.stream call.listens call.ctx call.input with
  | .error _ => none
  | .ok run => run.final

/-- The field `final` after a call that is run to its end. -/
def afterStream (final : Option Envelope) (call : StreamCall) : Option Envelope :=
  (action.published call).or final

/-- `FinalEnvelope` after a sequence of calls on a new action. -/
def finalEnvelope (calls : List StreamCall) : Option Envelope :=
  calls.foldl action.afterStream none

variable {action}

/-- The stream is opened, comes to its end, and its whole text passes with this response. -/
def Passes (action : StreamingSupervisedAction) (call : StreamCall) (response : Envelope) : Prop :=
  ∃ text, action.Produces call.listens call.ctx call.input text .stream ∧
    action.gate.reflect call.ctx action.metadata (action.output text) = .ok response

theorem published_eq_some_iff {call : StreamCall} {response : Envelope} :
    action.published call = some response ↔ action.Passes call response := by
  unfold published Passes Produces stream
  cases prompted : action.promptFrom call.input with
  | error err => simp
  | ok prompt =>
    cases assessed : action.gate.assess call.ctx action.metadata call.input with
    | some err => simp
    | none =>
      cases opened : action.generator.stream call.ctx prompt with
      | error err => simp [opened]
      | ok source =>
        simp only [pump, Except.ok.injEq, true_and]
        rcases forwarded : forward call.listens source [] "" with ⟨emitted, _ | text⟩
        · simp [opened, forwarded]
        · cases verdict : action.gate.reflect call.ctx action.metadata (action.output text) with
          | error err | ok validated => simp [opened, forwarded, verdict]

theorem finalEnvelope_concat (calls : List StreamCall) (call : StreamCall) :
    action.finalEnvelope (calls ++ [call]) =
      (action.published call).or (action.finalEnvelope calls) := by
  simp [finalEnvelope, afterStream]

theorem finalEnvelope_eq_none_iff {calls : List StreamCall} :
    action.finalEnvelope calls = none ↔
      ∀ call ∈ calls, ∀ response, ¬ action.Passes call response := by
  induction calls using List.reverseRecOn with
  | nil => simp [finalEnvelope]
  | append_singleton calls call ih =>
    rw [finalEnvelope_concat, Option.or_eq_none_iff, ih]
    simp only [Option.eq_none_iff_forall_ne_some, ne_eq, published_eq_some_iff]
    constructor
    · rintro ⟨last, earlier⟩ other member
      rcases List.mem_append.mp member with inEarlier | isLast
      · exact earlier other inEarlier
      · rw [List.mem_singleton.mp isLast]
        exact last
    · intro never
      exact ⟨never call (by simp), fun other member => never other (by simp [member])⟩

end StreamingSupervisedAction

/-- After any sequence of calls, `FinalEnvelope` returns the response of the last call or
nothing, exactly if the last call passed or no call ever did. -/
theorem finalEnvelope_fresh_iff (action : StreamingSupervisedAction) (calls : List StreamCall) :
    (∀ envelope, action.finalEnvelope calls = some envelope →
        ∃ call, calls.getLast? = some call ∧ action.Passes call envelope) ↔
      (∃ call response, calls.getLast? = some call ∧ action.Passes call response) ∨
        ∀ call ∈ calls, ∀ response, ¬ action.Passes call response := by
  constructor
  · intro fresh
    cases held : action.finalEnvelope calls with
    | none => exact Or.inr (StreamingSupervisedAction.finalEnvelope_eq_none_iff.mp held)
    | some envelope =>
      obtain ⟨call, last, passes⟩ := fresh envelope held
      exact Or.inl ⟨call, envelope, last, passes⟩
  · rintro (⟨call, response, last, passes⟩ | never) envelope held
    · obtain ⟨earlier, rfl⟩ := List.getLast?_eq_some_iff.mp last
      have published := StreamingSupervisedAction.published_eq_some_iff.mpr passes
      rw [StreamingSupervisedAction.finalEnvelope_concat, published, Option.some_or] at held
      cases held
      exact ⟨call, last, passes⟩
    · rw [StreamingSupervisedAction.finalEnvelope_eq_none_iff.mpr never] at held
      cases held

def choosyChat : StreamingSupervisedAction :=
  { openChat with
    gate := { openChat.gate with
      assess := fun _ _ input =>
        if input.payload.string? = some "no" then some (.text "refused") else none } }

def asking (prompt : String) : StreamCall :=
  ⟨{}, { payload := .string prompt }, fun _ => true⟩

/-- The answer to the first prompt is still exposed when the second has been denied. -/
theorem denied_stream_exposes_stale :
    choosyChat.finalEnvelope [asking "yes", asking "no"] = some (choosyChat.output "yes") ∧
      ∀ response, ¬ choosyChat.Passes (asking "no") response := by
  refine ⟨rfl, fun response passes => ?_⟩
  have silent : choosyChat.published (asking "no") = none := rfl
  rw [StreamingSupervisedAction.published_eq_some_iff.mpr passes] at silent
  cases silent

end Manglekit.Ai

import Manglekit.Supervisor.PayloadView
import Manglekit.Supervisor.QueryErrors

/-!
# Supervised streaming

A streaming action asks the gate itself: about the prompt before it generates, and about
the whole text once it is generated.  Chunks are forwarded in between.  Whatever error
the gate returns is a denial, whereas the supervised wrapper lets advisory halts pass.
-/

namespace Manglekit.Ai

open Core Engine Supervisor

/-! ## The streaming action -/

structure StreamChunk where
  text : String := ""
  err : Option GoError := none
  deriving DecidableEq

structure TextGenerator where
  complete : Context → String → Except GoError String
  stream : Context → String → Except GoError (List StreamChunk)

structure StreamingGate where
  assess : Context → ActionMetadata → Envelope → Option GoError
  reflect : Context → ActionMetadata → Envelope → Except GoError Envelope

def engineGate (engine : PolicyEngine Id) : StreamingGate where
  assess := assess engine
  reflect := reflect engine

/-- The verbs `%q`, `%s` and `%T` of `fmt`. -/
structure Verbs where
  quote : String → String
  plain : Value → String
  typeName : Value → String

structure StreamingSupervisedAction where
  name : String
  generator : TextGenerator
  gate : StreamingGate
  verbs : Verbs

namespace StreamingSupervisedAction

variable (action : StreamingSupervisedAction)

def metadata : ActionMetadata := { name := action.name }

def promptFrom (input : Envelope) : Except GoError String :=
  match input.payload.string? with
  | none => .error (.text ("system error: invalid input type, expected string but got "
      ++ action.verbs.typeName input.payload))
  | some prompt =>
    match input.metadata.lookup keyFeedback with
    | none => .ok prompt
    | some feedback =>
      if feedback.string? = some "" then .ok prompt
      else .ok (prompt ++ "\n\n[SYSTEM WARNING]: Your previous attempt failed. Reason: '"
        ++ action.verbs.plain feedback ++ "'. Please correct your output to satisfy this rule.")

def preCheckDenied : String :=
  "streaming action " ++ action.verbs.quote action.name ++ " pre-check denied"

def postCheckDenied : String :=
  "streaming action " ++ action.verbs.quote action.name ++ " post-check denied"

def output (text : String) : Envelope :=
  ((newEnvelope (.string text)).setMeta "model_type" (.string "llm")).setMeta "action_name"
    (.string action.name)

def execute (ctx : Context) (input : Envelope) : Except GoError Envelope :=
  match action.promptFrom input with
  | .error err => .error err
  | .ok prompt =>
    match action.gate.assess ctx action.metadata input with
    | some err => .error (.wrap action.preCheckDenied err)
    | none =>
      match action.generator.complete ctx prompt with
      | .error err => .error (.wrap "llm generation failed" err)
      | .ok text =>
        match action.gate.reflect ctx action.metadata (action.output text) with
        | .error err => .error (.wrap action.postCheckDenied err)
        | .ok validated => .ok validated

end StreamingSupervisedAction

section Forwarding

-- Whether the consumer takes the next chunk before the context is done, after the
-- chunks it has taken.
variable (listens : List StreamChunk → Bool)

def emit (emitted : List StreamChunk) (chunk : StreamChunk) : List StreamChunk × Bool :=
  if listens emitted then (emitted ++ [chunk], true) else (emitted, false)

/-- Forward the chunks.  The assembled text is there if the stream came to its end. -/
def forward : List StreamChunk → List StreamChunk → String → List StreamChunk × Option String
  | [], emitted, assembled => (emitted, some assembled)
  | chunk :: rest, emitted, assembled =>
    match chunk.err with
    | some err => ((emit listens emitted { err }).1, none)
    | none =>
      match emit listens emitted chunk with
      | (emitted, true) => forward rest emitted (assembled ++ chunk.text)
      | (emitted, false) => (emitted, none)

end Forwarding

/-- What has come of an open stream: the chunks that the consumer took, and the envelope
that is exposed in the end. -/
structure StreamRun where
  emitted : List StreamChunk
  final : Option Envelope

namespace StreamingSupervisedAction

variable (action : StreamingSupervisedAction) (listens : List StreamChunk → Bool)

def pump (ctx : Context) (source : List StreamChunk) : StreamRun :=
  match forward listens source [] "" with
  | (emitted, none) => ⟨emitted, none⟩
  | (emitted, some text) =>
    match action.gate.reflect ctx action.metadata (action.output text) with
    | .error err => ⟨(emit listens emitted { err := some (.wrap action.postCheckDenied err) }).1,
        none⟩
    | .ok validated => ⟨emitted, some validated⟩

def stream (ctx : Context) (input : Envelope) : Except GoError StreamRun :=
  match action.promptFrom input with
  | .error err => .error err
  | .ok prompt =>
    match action.gate.assess ctx action.metadata input with
    | some err => .error (.wrap action.preCheckDenied err)
    | none =>
      match action.generator.stream ctx prompt with
      | .error err => .error (.wrap "llm stream failed to open" err)
      | .ok source => .ok (action.pump listens ctx source)

/-! ## Denials -/

inductive Entry where
  | execute
  | stream

def DeniesInput (ctx : Context) (input : Envelope) : Entry → Prop
  | .execute => ∃ err, action.execute ctx input = .error (.wrap action.preCheckDenied err)
  | .stream => ∃ err, action.stream listens ctx input = .error (.wrap action.preCheckDenied err)

def Produces (ctx : Context) (input : Envelope) (text : String) : Entry → Prop
  | .execute => ∃ prompt, action.promptFrom input = .ok prompt ∧
      action.gate.assess ctx action.metadata input = none ∧
      action.generator.complete ctx prompt = .ok text
  | .stream => ∃ prompt source, action.promptFrom input = .ok prompt ∧
      action.gate.assess ctx action.metadata input = none ∧
      action.generator.stream ctx prompt = .ok source ∧
      (forward listens source [] "").2 = some text

/-- The text is withheld in the end: in an error, or without a final envelope. -/
def DeniesOutput (ctx : Context) (input : Envelope) : Entry → Prop
  | .execute => ∃ err, action.execute ctx input = .error (.wrap action.postCheckDenied err)
  | .stream => ∃ run, action.stream listens ctx input = .ok run ∧ run.final = none

theorem append_ne_append (start : String) {first second : String}
    (lengths : first.length ≠ second.length) : start ++ first ≠ start ++ second := by
  intro same
  have total := congrArg String.length same
  rw [String.length_append, String.length_append] at total
  omega

theorem preCheckDenied_ne_postCheckDenied : action.preCheckDenied ≠ action.postCheckDenied :=
  append_ne_append ("streaming action " ++ action.verbs.quote action.name) (by decide +kernel)

theorem ne_preCheckDenied {message : String} (first : message.toList.head? = some 'l') :
    message ≠ action.preCheckDenied := by
  rintro rfl
  unfold preCheckDenied at first
  rw [String.toList_append, String.toList_append] at first
  simp at first

variable {action listens}

theorem deniesInput_iff {ctx : Context} {input : Envelope} {prompt : String}
    (prompted : action.promptFrom input = .ok prompt) (entry : Entry) :
    action.DeniesInput listens ctx input entry ↔
      action.gate.assess ctx action.metadata input ≠ none := by
  cases entry with
  | execute =>
    simp only [DeniesInput, execute, prompted]
    cases assessed : action.gate.assess ctx action.metadata input with
    | some err => simp
    | none =>
      cases action.generator.complete ctx prompt with
      | error err =>
        have differ : "llm generation failed" ≠ action.preCheckDenied :=
          action.ne_preCheckDenied (by simp)
        simp [differ]
      | ok text =>
        dsimp only
        cases action.gate.reflect ctx action.metadata (action.output text) with
        | error err => simp [action.preCheckDenied_ne_postCheckDenied.symm]
        | ok validated => simp
  | stream =>
    simp only [DeniesInput, stream, prompted]
    cases assessed : action.gate.assess ctx action.metadata input with
    | some err => simp
    | none =>
      cases action.generator.stream ctx prompt with
      | error err =>
        have differ : "llm stream failed to open" ≠ action.preCheckDenied :=
          action.ne_preCheckDenied (by simp)
        simp [differ]
      | ok source => simp

theorem deniesOutput_iff {ctx : Context} {input : Envelope} {text : String} {entry : Entry}
    (produces : action.Produces listens ctx input text entry) :
    action.DeniesOutput listens ctx input entry ↔
      ∃ err, action.gate.reflect ctx action.metadata (action.output text) = .error err := by
  cases entry with
  | execute =>
    obtain ⟨prompt, prompted, assessed, completed⟩ := produces
    simp only [DeniesOutput, execute, prompted, assessed, completed]
    cases action.gate.reflect ctx action.metadata (action.output text) <;> simp
  | stream =>
    obtain ⟨prompt, source, prompted, assessed, opened, completed⟩ := produces
    obtain ⟨emitted, ended⟩ : ∃ emitted, forward listens source [] "" = (emitted, some text) :=
      ⟨_, Prod.ext rfl completed⟩
    simp only [DeniesOutput, stream, prompted, assessed, opened, pump, ended]
    cases action.gate.reflect ctx action.metadata (action.output text) <;> simp

end StreamingSupervisedAction

end Manglekit.Ai

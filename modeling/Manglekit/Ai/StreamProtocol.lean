import Manglekit.Ai.Stream
import Manglekit.Transition.Machine

/-!
# The goroutine and its consumer

The goroutine behind an open stream and the consumer meet on an unbuffered channel, and the
context may be cancelled at any time.  At every moment the rest of the sequential `pump`,
from where the goroutine stands, ends as the whole of it does, so that a run can only end as
`pump` says.
-/

namespace Manglekit.Ai

open Core Engine Transition

inductive Goroutine where
  /-- In `range source`. -/
  | receiving (rest : List StreamChunk) (assembled : String)
  /-- In `emit` of a chunk of the source. -/
  | sending (chunk : StreamChunk) (rest : List StreamChunk) (assembled : String)
  /-- In `emit` of the terminal error. -/
  | failing (chunk : StreamChunk)
  | reflecting (assembled : String)
  | publishing (validated : Envelope)
  /-- Before the deferred close. -/
  | returning (published : Option Envelope)
  | closed (published : Option Envelope)

/-- The consumer asks for the next chunk when it is done with the last one. -/
inductive Consumer where
  | busy
  | waiting
  | finished
  deriving DecidableEq

/-- An open stream, with the field `final` of its action. -/
structure OpenStream where
  goroutine : Goroutine
  consumer : Consumer
  received : List StreamChunk
  cancelled : Bool
  final : Option Envelope

inductive StreamMove where
  | receive
  | exchange
  | giveUp
  | reflect
  | publish
  | close
  | await
  | finish
  | cancel
  deriving DecidableEq

/-- A stream as `Stream` returns it. -/
def OpenStream.opened (source : List StreamChunk) (final : Option Envelope) : OpenStream :=
  ⟨.receiving source "", .busy, [], false, final⟩

variable {moves : List StreamMove} {source : List StreamChunk}

namespace StreamingSupervisedAction

variable (action : StreamingSupervisedAction) (ctx : Context)

def streamStep (state : OpenStream) (move : StreamMove) : Option OpenStream :=
  match move, state.goroutine, state.consumer with
  | .receive, .receiving [] assembled, _ =>
    some { state with goroutine := .reflecting assembled }
  | .receive, .receiving (chunk :: rest) assembled, _ =>
    match chunk.err with
    | some err => some { state with goroutine := .failing { err } }
    | none => some { state with goroutine := .sending chunk rest (assembled ++ chunk.text) }
  | .exchange, .sending chunk rest assembled, .waiting =>
    some { state with
      goroutine := .receiving rest assembled, consumer := .busy
      received := state.received ++ [chunk] }
  | .exchange, .failing chunk, .waiting =>
    some { state with
      goroutine := .returning none, consumer := .busy, received := state.received ++ [chunk] }
  | .giveUp, .sending _ _ _, _ | .giveUp, .failing _, _ =>
    if state.cancelled then some { state with goroutine := .returning none } else none
  | .reflect, .reflecting assembled, _ =>
    match action.gate.reflect ctx action.metadata (action.output assembled) with
    | .error err =>
      some { state with
        goroutine := .failing { err := some (.wrap action.postCheckDenied err) } }
    | .ok validated => some { state with goroutine := .publishing validated }
  | .publish, .publishing validated, _ =>
    some { state with goroutine := .returning (some validated), final := some validated }
  | .close, .returning published, _ => some { state with goroutine := .closed published }
  | .await, _, .busy => some { state with consumer := .waiting }
  | .finish, .closed _, .waiting => some { state with consumer := .finished }
  | .cancel, _, _ => if state.cancelled then none else some { state with cancelled := true }
  | _, _, _ => none

def streaming : Machine OpenStream StreamMove where
  step := action.streamStep ctx

inductive StreamStep (state : OpenStream) : StreamMove → OpenStream → Prop where
  | sourceClosed {assembled} (receiving : state.goroutine = .receiving [] assembled) :
      StreamStep state .receive { state with goroutine := .reflecting assembled }
  | sourceFailed {chunk rest assembled err}
      (receiving : state.goroutine = .receiving (chunk :: rest) assembled)
      (failed : chunk.err = some err) :
      StreamStep state .receive { state with goroutine := .failing { err := some err } }
  | sourceChunk {chunk rest assembled}
      (receiving : state.goroutine = .receiving (chunk :: rest) assembled)
      (clean : chunk.err = none) :
      StreamStep state .receive
        { state with goroutine := .sending chunk rest (assembled ++ chunk.text) }
  | send {chunk rest assembled} (sending : state.goroutine = .sending chunk rest assembled)
      (waiting : state.consumer = .waiting) :
      StreamStep state .exchange { state with
        goroutine := .receiving rest assembled, consumer := .busy
        received := state.received ++ [chunk] }
  | sendError {chunk} (failing : state.goroutine = .failing chunk)
      (waiting : state.consumer = .waiting) :
      StreamStep state .exchange { state with
        goroutine := .returning none, consumer := .busy, received := state.received ++ [chunk] }
  | dropChunk {chunk rest assembled} (sending : state.goroutine = .sending chunk rest assembled)
      (cancelled : state.cancelled = true) :
      StreamStep state .giveUp { state with goroutine := .returning none }
  | dropError {chunk} (failing : state.goroutine = .failing chunk)
      (cancelled : state.cancelled = true) :
      StreamStep state .giveUp { state with goroutine := .returning none }
  | deny {assembled err} (reflecting : state.goroutine = .reflecting assembled)
      (denied : action.gate.reflect ctx action.metadata (action.output assembled) = .error err) :
      StreamStep state .reflect { state with
        goroutine := .failing { err := some (.wrap action.postCheckDenied err) } }
  | pass {assembled validated} (reflecting : state.goroutine = .reflecting assembled)
      (passed : action.gate.reflect ctx action.metadata (action.output assembled) =
        .ok validated) :
      StreamStep state .reflect { state with goroutine := .publishing validated }
  | publish {validated} (publishing : state.goroutine = .publishing validated) :
      StreamStep state .publish
        { state with goroutine := .returning (some validated), final := some validated }
  | close {published} (returning : state.goroutine = .returning published) :
      StreamStep state .close { state with goroutine := .closed published }
  | await (busy : state.consumer = .busy) :
      StreamStep state .await { state with consumer := .waiting }
  | finish {published} (closed : state.goroutine = .closed published)
      (waiting : state.consumer = .waiting) :
      StreamStep state .finish { state with consumer := .finished }
  | cancel (uncancelled : state.cancelled = false) :
      StreamStep state .cancel { state with cancelled := true }

variable {action ctx} {state after : OpenStream} {move : StreamMove}

theorem streamStep_cases (stepped : (action.streaming ctx).step state move = some after) :
    action.StreamStep ctx state move after := by
  simp only [streaming, streamStep] at stepped
  split at stepped
  · cases stepped
    exact .sourceClosed ‹_›
  · split at stepped <;> cases stepped
    · exact .sourceFailed ‹_› ‹_›
    · exact .sourceChunk ‹_› ‹_›
  · cases stepped
    exact .send ‹_› ‹_›
  · cases stepped
    exact .sendError ‹_› ‹_›
  · split_ifs at stepped with cancelled
    cases stepped
    exact .dropChunk ‹_› cancelled
  · split_ifs at stepped with cancelled
    cases stepped
    exact .dropError ‹_› cancelled
  · split at stepped <;> cases stepped
    · exact .deny ‹_› ‹_›
    · exact .pass ‹_› ‹_›
  · cases stepped
    exact .publish ‹_›
  · cases stepped
    exact .close ‹_›
  · cases stepped
    exact .await ‹_›
  · cases stepped
    exact .finish ‹_› ‹_›
  · split_ifs at stepped with cancelled
    cases stepped
    exact .cancel (eq_false_of_ne_true cancelled)
  · cases stepped

/-! ## The sequential rest -/

variable (action ctx) (listens : List StreamChunk → Bool)

/-- The part of `pump` that follows the source. -/
def conclude (forwarded : List StreamChunk × Option String) : StreamRun :=
  match forwarded with
  | (emitted, none) => ⟨emitted, none⟩
  | (emitted, some text) =>
    match action.gate.reflect ctx action.metadata (action.output text) with
    | .error err => ⟨(emit listens emitted { err := some (.wrap action.postCheckDenied err) }).1,
        none⟩
    | .ok validated => ⟨emitted, some validated⟩

/-- What `pump` comes to from where the goroutine stands. -/
def rest (state : OpenStream) : StreamRun :=
  match state.goroutine with
  | .receiving source assembled =>
    action.conclude ctx listens (forward listens source state.received assembled)
  | .sending chunk source assembled =>
    match emit listens state.received chunk with
    | (emitted, true) => action.conclude ctx listens (forward listens source emitted assembled)
    | (emitted, false) => ⟨emitted, none⟩
  | .failing chunk => ⟨(emit listens state.received chunk).1, none⟩
  | .reflecting assembled => action.conclude ctx listens (state.received, some assembled)
  | .publishing validated => ⟨state.received, some validated⟩
  | .returning published | .closed published => ⟨state.received, published⟩

variable {action ctx listens}

def Hears (listens : List StreamChunk → Bool) (state : OpenStream) (move : StreamMove) : Prop :=
  (move = .exchange → listens state.received = true) ∧
    (move = .giveUp → listens state.received = false)

theorem rest_step (hears : Hears listens state move)
    (stepped : (action.streaming ctx).step state move = some after) :
    action.rest ctx listens after = action.rest ctx listens state := by
  cases streamStep_cases stepped with
  | sourceClosed receiving => simp only [rest, receiving, forward]
  | sourceFailed receiving failed => simp only [rest, receiving, forward, failed, conclude]
  | sourceChunk receiving clean =>
    simp only [rest, receiving, forward, clean]
    cases emit listens state.received _ with
    | mk emitted sent => cases sent <;> rfl
  | send sending _ => simp only [rest, sending, emit, hears.1 rfl, if_true]
  | sendError failing _ => simp only [rest, failing, emit, hears.1 rfl, if_true]
  | dropChunk sending _ => simp [rest, sending, emit, hears.2 rfl]
  | dropError failing _ => simp [rest, failing, emit, hears.2 rfl]
  | deny reflecting denied => simp only [rest, reflecting, conclude, denied]
  | pass reflecting passed => simp only [rest, reflecting, conclude, passed]
  | publish publishing => simp only [rest, publishing]
  | close returning => simp only [rest, returning]
  | await _ => rfl
  | finish _ _ => rfl
  | cancel _ => rfl

/-- The field holds what this stream has published, or else what it held before. -/
def Holds (before : Option Envelope) (state : OpenStream) : Prop :=
  state.final =
    match state.goroutine with
    | .returning published | .closed published => published.or before
    | _ => before

theorem Holds.step {before : Option Envelope} (holds : Holds before state)
    (stepped : (action.streaming ctx).step state move = some after) : Holds before after := by
  unfold Holds at holds ⊢
  cases streamStep_cases stepped with
  | sourceClosed receiving | sourceFailed receiving _
  | sourceChunk receiving _ => simpa only [receiving] using holds
  | send sending _ => simpa only [sending] using holds
  | sendError failing _ => simpa only [failing, Option.none_or] using holds
  | dropChunk sending _ => simpa only [sending, Option.none_or] using holds
  | dropError failing _ => simpa only [failing, Option.none_or] using holds
  | deny reflecting _ | pass reflecting _ => simpa only [reflecting] using holds
  | publish _ => rfl
  | close returning => simpa only [returning] using holds
  | await _ => exact holds
  | finish closed _ => simpa only [closed] using holds
  | cancel _ => exact holds

/-! ## Whole runs -/

theorem received_exchange
    (stepped : (action.streaming ctx).step state .exchange = some after) :
    ∃ chunk, after.received = state.received ++ [chunk] := by
  cases streamStep_cases stepped with
  | send _ _ => exact ⟨_, rfl⟩
  | sendError _ _ => exact ⟨_, rfl⟩

section

variable (stepped : (action.streaming ctx).step state move = some after)

include stepped

theorem received_step (notExchange : move ≠ .exchange) : after.received = state.received := by
  cases streamStep_cases stepped <;> first | rfl | exact absurd rfl notExchange

theorem received_length_le :
    state.received.length ≤ after.received.length := by
  by_cases exchange : move = .exchange
  · subst exchange
    obtain ⟨chunk, extended⟩ := received_exchange stepped
    simp [extended]
  · rw [received_step stepped exchange]

end

/-- The goroutine has nothing left to do but to close the channel. -/
def IsOver (state : OpenStream) : Prop :=
  ∃ published, state.goroutine = .returning published ∨ state.goroutine = .closed published

theorem isOver_giveUp (stepped : (action.streaming ctx).step state .giveUp = some after) :
    IsOver after := by
  cases streamStep_cases stepped <;> exact ⟨none, Or.inl rfl⟩

theorem IsOver.step (ended : IsOver state)
    (stepped : (action.streaming ctx).step state move = some after) :
    IsOver after ∧ after.received = state.received := by
  obtain ⟨published, returning | closed⟩ := ended
  · cases streamStep_cases stepped with
    | close _ => exact ⟨⟨_, Or.inr rfl⟩, rfl⟩
    | await _ | cancel _ => exact ⟨⟨_, Or.inl returning⟩, rfl⟩
    | _ => simp_all
  · cases streamStep_cases stepped with
    | await _ | finish _ _ | cancel _ => exact ⟨⟨_, Or.inr closed⟩, rfl⟩
    | _ => simp_all

section

variable (reached : (action.streaming ctx).run state moves = some after)

include reached

theorem received_of_over (ended : IsOver state) : after.received = state.received := by
  have kept := Machine.run_invariant
    (fun later => IsOver later ∧ later.received = state.received) ?_ reached ⟨ended, rfl⟩
  · exact kept.2
  · rintro _ _ _ stepped ⟨ended, same⟩
    obtain ⟨endedNext, sameNext⟩ := ended.step stepped
    exact ⟨endedNext, sameNext.trans same⟩

theorem received_le :
    state.received.length ≤ after.received.length :=
  Machine.run_invariant (fun later => state.received.length ≤ later.received.length)
    (fun _ _ _ stepped shorter => shorter.trans (received_length_le stepped)) reached
    (Nat.le_refl _)

end

def takes (count : Nat) (emitted : List StreamChunk) : Bool := emitted.length < count

/-- A run goes as `pump` goes for a consumer that takes as many chunks as this one has taken
in the end. -/
theorem rest_of_run (reached : (action.streaming ctx).run state moves = some after) :
    action.rest ctx (takes after.received.length) after =
      action.rest ctx (takes after.received.length) state := by
  induction moves generalizing state with
  | nil =>
    cases reached
    rfl
  | cons move remaining ih =>
    obtain ⟨next, stepped, continued⟩ := (Machine.run_cons _).mp reached
    rw [ih continued]
    refine rest_step ⟨?_, ?_⟩ stepped
    · rintro rfl
      obtain ⟨chunk, extended⟩ := received_exchange stepped
      have longer := received_le continued
      simp only [extended, List.length_append, List.length_singleton] at longer
      exact decide_eq_true (by omega)
    · rintro rfl
      -- Nothing is taken after the goroutine has given up.
      have last := received_of_over continued (isOver_giveUp stepped)
      rw [received_step stepped (by decide)] at last
      simp [takes, last]

theorem rest_of_uncancelled (uncancelled : StreamMove.cancel ∉ moves)
    (reached : (action.streaming ctx).run state moves = some after)
    (notYet : state.cancelled = false) :
    action.rest ctx (fun _ => true) after = action.rest ctx (fun _ => true) state := by
  induction moves generalizing state with
  | nil =>
    cases reached
    rfl
  | cons move remaining ih =>
    obtain ⟨next, stepped, continued⟩ := (Machine.run_cons _).mp reached
    have noCancel : move ≠ .cancel := fun same => uncancelled (same ▸ List.mem_cons_self)
    have nextNotYet : next.cancelled = false := by
      cases streamStep_cases stepped <;> first | exact notYet | exact absurd rfl noCancel
    have noGiveUp : move ≠ .giveUp := by
      rintro rfl
      cases streamStep_cases stepped <;> simp_all
    rw [ih (fun later => uncancelled (List.mem_cons_of_mem _ later)) continued nextNotYet]
    exact rest_step ⟨fun _ => rfl, fun giveUp => absurd giveUp noGiveUp⟩ stepped

/-- A closed stream has gone as `pump` says, and the field holds what it published, or else
what it held before. -/
theorem closed_eq_pump {before published : Option Envelope}
    (reached : (action.streaming ctx).run (.opened source before) moves = some state)
    (closed : state.goroutine = .closed published) :
    action.pump (takes state.received.length) ctx source = ⟨state.received, published⟩ ∧
      state.final = published.or before := by
  constructor
  · have whole := rest_of_run reached
    simp only [rest, closed] at whole
    exact whole.symm
  · have holds : Holds before state :=
      Machine.run_invariant (Holds before) (fun _ _ _ stepped holds => holds.step stepped)
        reached rfl
    simpa only [Holds, closed] using holds

/-! ## Progress -/

def remaining (state : OpenStream) : Nat :=
  (match state.goroutine with
    | .receiving rest _ => 3 * rest.length + 5
    | .sending _ rest _ => 3 * rest.length + 7
    | .reflecting _ => 4
    | .failing _ => 3
    | .publishing _ => 2
    | .returning _ => 1
    | .closed _ => 0) +
  (match state.consumer with
    | .busy => 2
    | .waiting => 1
    | .finished => 0) +
  if state.cancelled then 0 else 1

theorem remaining_step (stepped : (action.streaming ctx).step state move = some after) :
    remaining after < remaining state := by
  unfold remaining
  cases streamStep_cases stepped <;> simp_all
  -- Left is the source's error, which ends the stream whatever chunks are behind it.
  omega

theorem length_add_remaining_le (reached : (action.streaming ctx).run state moves = some after) :
    moves.length + remaining after ≤ remaining state := by
  induction moves generalizing state with
  | nil =>
    cases reached
    simp
  | cons move rest ih =>
    obtain ⟨next, stepped, continued⟩ := (Machine.run_cons _).mp reached
    have bounded := ih continued
    have decreases := remaining_step stepped
    simp only [List.length_cons]
    omega

/-- The consumer has not seen the channel closed before it was. -/
def InOrder (state : OpenStream) : Prop :=
  state.consumer = .finished → ∃ published, state.goroutine = .closed published

theorem InOrder.step (inOrder : InOrder state)
    (stepped : (action.streaming ctx).step state move = some after) : InOrder after := by
  unfold InOrder at inOrder ⊢
  cases streamStep_cases stepped <;> simp_all

theorem exists_move (unfinished : state.consumer ≠ .finished) :
    ∃ move, move ≠ .cancel ∧ ((action.streaming ctx).step state move).isSome = true := by
  rcases state with ⟨goroutine, consumer, received, cancelled, final⟩
  cases consumer with
  | busy => exact ⟨.await, by decide, by cases goroutine <;> rfl⟩
  | finished => exact absurd rfl unfinished
  | waiting =>
    cases goroutine with
    | receiving rest assembled =>
      refine ⟨.receive, by decide, ?_⟩
      cases rest with
      | nil => rfl
      | cons chunk rest =>
        simp only [streaming, streamStep]
        cases chunk.err <;> rfl
    | sending chunk rest assembled | failing chunk => exact ⟨.exchange, by decide, rfl⟩
    | reflecting assembled =>
      refine ⟨.reflect, by decide, ?_⟩
      simp only [streaming, streamStep]
      cases action.gate.reflect ctx action.metadata (action.output assembled) <;> rfl
    | publishing validated => exact ⟨.publish, by decide, rfl⟩
    | returning published => exact ⟨.close, by decide, rfl⟩
    | closed published => exact ⟨.finish, by decide, rfl⟩

/-! ## What the consumer receives -/

/-- The error with which the source fails. -/
def sourceError (source : List StreamChunk) : Option GoError := source.findSome? (·.err)

/-- The chunks before the source fails. -/
def cleanChunks (source : List StreamChunk) : List StreamChunk :=
  source.takeWhile (·.err.isNone)

def fullText (source : List StreamChunk) : String := String.join (source.map (·.text))

theorem forward_listening (source emitted : List StreamChunk) (assembled : String) :
    forward (fun _ => true) source emitted assembled =
      match sourceError source with
      | some err => (emitted ++ cleanChunks source ++ [{ err := some err }], none)
      | none => (emitted ++ source, some (assembled ++ fullText source)) := by
  induction source generalizing emitted assembled with
  | nil => simp [forward, sourceError, fullText]
  | cons chunk rest ih =>
    cases failed : chunk.err with
    | some err => simp [forward, sourceError, cleanChunks, failed, emit]
    | none =>
      have same : sourceError (chunk :: rest) = sourceError rest := by
        simp [sourceError, failed]
      rw [same]
      simp only [forward, failed, emit, if_true, ih]
      cases sourceError rest with
      | some err => simp [cleanChunks, failed]
      | none => simp [fullText, String.join_cons, String.append_assoc]

/-- The consumer has received all it is to receive, and the action exposes what passed. -/
structure Delivered (action : StreamingSupervisedAction) (ctx : Context)
    (source : List StreamChunk) (state : OpenStream) : Prop where
  failed : ∀ err, sourceError source = some err →
    state.received = cleanChunks source ++ [{ err := some err }]
  denied : sourceError source = none → ∀ err,
    action.gate.reflect ctx action.metadata (action.output (fullText source)) = .error err →
    state.received = source ++ [{ err := some (.wrap action.postCheckDenied err) }]
  passed : sourceError source = none → ∀ validated,
    action.gate.reflect ctx action.metadata (action.output (fullText source)) = .ok validated →
    state.received = source ∧ state.final = some validated

theorem delivered_of_closed {before published : Option Envelope}
    (uncancelled : StreamMove.cancel ∉ moves)
    (reached : (action.streaming ctx).run (.opened source before) moves = some state)
    (closed : state.goroutine = .closed published) : Delivered action ctx source state := by
  have whole := rest_of_uncancelled uncancelled reached rfl
  have held := (closed_eq_pump reached closed).2
  simp only [rest, closed, OpenStream.opened, forward_listening] at whole
  constructor
  · intro err failed
    simp only [failed, conclude, StreamRun.mk.injEq, List.nil_append] at whole
    exact whole.1
  · intro clean err denied
    simp only [clean, conclude, String.empty_append, List.nil_append, denied, emit, if_true,
      StreamRun.mk.injEq] at whole
    exact whole.1
  · intro clean validated passed
    simp only [clean, conclude, String.empty_append, List.nil_append, passed,
      StreamRun.mk.injEq] at whole
    rw [held, whole.2]
    exact ⟨whole.1, rfl⟩

theorem countP_cleanChunks (source : List StreamChunk) :
    (cleanChunks source).countP (·.err.isSome) = 0 := by
  refine List.countP_eq_zero.mpr fun chunk member => ?_
  have clean := List.mem_takeWhile_imp member
  simpa using clean

theorem countP_of_clean (clean : sourceError source = none) : source.countP (·.err.isSome) = 0 := by
  refine List.countP_eq_zero.mpr fun chunk member => ?_
  simp [List.findSome?_eq_none_iff.mp clean chunk member]

theorem Delivered.countP_error (delivered : Delivered action ctx source state) :
    state.received.countP (·.err.isSome) =
      if (sourceError source).isSome ∨
          (action.gate.reflect ctx action.metadata (action.output (fullText source))).isOk = false
      then 1 else 0 := by
  cases failed : sourceError source with
  | some err => simp [delivered.failed err failed, countP_cleanChunks]
  | none =>
    cases verdict : action.gate.reflect ctx action.metadata (action.output (fullText source)) with
    | error err =>
      simp [delivered.denied failed err verdict, countP_of_clean failed, Except.isOk, Except.toBool]
    | ok validated =>
      simp [(delivered.passed failed validated verdict).1, countP_of_clean failed, Except.isOk,
        Except.toBool]

theorem payload_of_engineGate {engine : PolicyEngine Id} (gated : action.gate = engineGate engine)
    {text : String} {validated : Envelope}
    (passed : action.gate.reflect ctx action.metadata (action.output text) = .ok validated) :
    validated.payload = .string text := by
  rw [gated] at passed
  change outputOf (action.output text) _ = .ok validated at passed
  unfold outputOf at passed
  split at passed
  · cases passed
  · cases passed
    rfl

end StreamingSupervisedAction

open StreamingSupervisedAction

/-- Of a stream that nobody cancels, every schedule comes to an end, and while the consumer
has not seen the channel closed somebody can move.  Once the channel is closed, the consumer
has received the chunks before the source's error and that error; or all chunks and the
denial of the whole text; or all chunks alone, and then the action exposes what passed the
check, which for the engine's gate is the whole text.  There is one error chunk if the source
failed or the text was denied, and none otherwise. -/
theorem stream_protocol (action : StreamingSupervisedAction) (ctx : Context)
    {source : List StreamChunk} {before : Option Envelope} {moves : List StreamMove}
    {state : OpenStream} (uncancelled : StreamMove.cancel ∉ moves)
    (reached : (action.streaming ctx).run (.opened source before) moves = some state) :
    moves.length ≤ 3 * source.length + 8 ∧
      (state.consumer ≠ .finished →
        ∃ move, move ≠ .cancel ∧ ((action.streaming ctx).step state move).isSome = true) ∧
      (state.consumer = .finished → ∃ published, state.goroutine = .closed published) ∧
      ∀ published, state.goroutine = .closed published →
        Delivered action ctx source state ∧
          (state.received.countP (·.err.isSome) =
            if (sourceError source).isSome ∨
              (action.gate.reflect ctx action.metadata (action.output (fullText source))).isOk =
                false
            then 1 else 0) ∧
          ∀ engine validated, action.gate = engineGate engine →
            sourceError source = none →
            action.gate.reflect ctx action.metadata (action.output (fullText source)) =
              .ok validated →
            validated.payload = .string (fullText source) := by
  refine ⟨?_, exists_move, ?_, ?_⟩
  · have bounded := length_add_remaining_le reached
    simp only [OpenStream.opened, remaining, Bool.false_eq_true, if_false] at bounded
    omega
  · exact Machine.run_invariant InOrder (fun _ _ _ stepped inOrder => inOrder.step stepped)
      reached (by simp [InOrder, OpenStream.opened])
  · intro published closed
    have delivered := delivered_of_closed uncancelled reached closed
    refine ⟨delivered, delivered.countP_error, ?_⟩
    intro engine validated gated _ passed
    exact payload_of_engineGate gated passed

def openChat : StreamingSupervisedAction where
  name := "chat"
  generator :=
    { complete := fun _ prompt => .ok prompt, stream := fun _ prompt => .ok [{ text := prompt }] }
  gate := { assess := fun _ _ _ => none, reflect := fun _ _ output => .ok output }
  verbs := { quote := id, plain := fun _ => "", typeName := fun _ => "" }

def twoChunks : List StreamChunk := [{ text := "to" }, { text := "day" }]

def twoChunksSchedule : List StreamMove :=
  [.receive, .await, .exchange, .receive, .await, .exchange, .receive, .reflect, .await, .publish,
    .close, .finish]

theorem twoChunks_delivered :
    StreamMove.cancel ∉ twoChunksSchedule ∧
      ∃ state, (openChat.streaming {}).run (.opened twoChunks none) twoChunksSchedule =
          some state ∧
        state.received = twoChunks ∧ state.final = some (openChat.output "today") := by
  have ends : ((openChat.streaming {}).run (.opened twoChunks none) twoChunksSchedule).map
      (·.consumer) = some .finished := rfl
  obtain ⟨state, reached, finished⟩ := Option.map_eq_some_iff.mp ends
  have uncancelled : StreamMove.cancel ∉ twoChunksSchedule := by decide
  obtain ⟨_, _, closes, delivers⟩ := stream_protocol openChat {} uncancelled reached
  obtain ⟨published, closed⟩ := closes finished
  have passed := (delivers published closed).1.passed rfl (openChat.output "today") rfl
  exact ⟨uncancelled, state, reached, passed⟩

end Manglekit.Ai

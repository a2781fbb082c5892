import Manglekit.Sdk.Loop

/-!
# The entry points of a client

A registered action can be reached by name, through steering, as a step of a plan,
and through its proxy.  All of them end in the same loop, but only a call by name
that is given the caller's envelope itself forwards its labels, its facts and its
metadata as they are.
-/

namespace Manglekit.Sdk

open Core Supervisor

section Model

variable {m : Type → Type} [Monad m] [MonadExceptOf Panic m]

/-- An envelope given as input is unpacked: its payload becomes the input, and the rest
is forwarded. -/
def forwardEnvelope (input : Value) (params : ExecutionParams) : Value × ExecutionParams :=
  match input.envelope? with
  | some env =>
    (env.payload,
      { params with
        fwdFacts := params.fwdFacts ++ env.facts
        fwdLabels := params.fwdLabels ++ env.securityLabels
        fwdMeta := if env.metadata.entries.isEmpty then params.fwdMeta else env.metadata })
  | none => (input, params)

def applyOptions (opts : List ExecuteOption) : ExecutionParams :=
  opts.foldl (fun params opt => opt params) {}

def startOf (input : Value) (opts : List ExecuteOption) : Value × ExecutionParams :=
  forwardEnvelope input (applyOptions opts)

def executeByName (client : Client m) (ctx : Context) (actionName : String) (input : Value)
    (opts : List ExecuteOption) : m (Except GoError Envelope) :=
  runLoopInternal client ctx actionName (startOf input opts).1 (startOf input opts).2

omit [Monad m] [MonadExceptOf Panic m] in
def formatTexts (metadata : StringMap String) : String :=
  "map[" ++ " ".intercalate (metadata.entries.map fun entry => entry.1 ++ ":" ++ entry.2) ++ "]"

/-- The policy chooses the action; only the payload goes on to it. -/
def execute (client : Client m) (ctx : Context) (input : Envelope) (opts : List ExecuteOption) :
    m (Except GoError Envelope) :=
  if client.steeringEnabled then do
    match ← Engine.evaluateSteering client.engine ctx input with
    | .error err => return .error (.wrap "failed to evaluate entry route" err)
    | .ok steering =>
      if steering.decision = .route then
        let actionName := (steering.metadata.lookup keyNextStep).getD ""
        if actionName = "" then
          return .error (.text "routing decision returned empty action name")
        else executeByName client ctx actionName input.payload opts
      else
        return .error (.text ("no execution route defined for this input (decision="
          ++ steering.decision.text ++ ", meta=" ++ formatTexts steering.metadata ++ ")"))
  else
    return .error (.text "steering disabled: use ExecuteByName for explicit action routing")

def executePlanFrom (client : Client m) (ctx : Context) : Nat → List String → Envelope →
    m (Except GoError Envelope)
  | _, [], envelope => return .ok envelope
  | index, actionName :: rest, envelope => do
    match ← executeByName client ctx actionName envelope.payload
        [withMetadataMap envelope.metadata] with
    | .error err =>
      return .error (.wrap
        ("step " ++ toString (index + 1) ++ " (" ++ actionName ++ ") failed") err)
    | .ok result => executePlanFrom client ctx (index + 1) rest result

def executePlan (client : Client m) (ctx : Context) (steps : List String)
    (initialInput : Envelope) : m (Except GoError Envelope) :=
  executePlanFrom client ctx 0 steps initialInput

def actionProxy (client : Client m) (name : String) : Action m where
  metadata := { name }
  execute ctx env :=
    executeByName client ctx name env.payload [withMetadataMap env.metadata]

/-! ## The first step of a call -/

inductive EntryPoint where
  | execute
  | executePlan
  | actionProxy
  deriving DecidableEq

def EntryPoint.call (client : Client m) (ctx : Context) (actionName : String) (env : Envelope) :
    EntryPoint → m (Except GoError Envelope)
  | .execute => Sdk.execute client ctx env []
  | .executePlan => Sdk.executePlan client ctx [actionName] env
  | .actionProxy => (Sdk.actionProxy client actionName).execute ctx env

end Model

def EntryPoint.options (env : Envelope) : EntryPoint → List ExecuteOption
  | .execute => []
  | .executePlan | .actionProxy => [withMetadataMap env.metadata]

/-- The envelope that the first step shows to an action, which is also what the gate of
a supervised action sees, given what memory recalled. -/
def shown (host : Host) (ctx : Context) (contentType : ContentType)
    (start : Value × ExecutionParams) (recalled : Metadata) : Envelope :=
  injected host ctx (forwardedEnvelope contentType start.1 start.2) start.2 recalled

def unpacked (input : Value) : Envelope := input.envelope?.getD {}

/-- A run that has no session, no history and no feedback yet. -/
structure Fresh (params : ExecutionParams) : Prop where
  sessionID : params.sessionID = ""
  memoryMode : params.memoryMode = .none
  feedbackHistory : params.feedbackHistory = []
  lastFeedback : params.lastFeedback = ""

theorem startOf_fresh {input : Value} {opts : List ExecuteOption}
    (fresh : Fresh (applyOptions opts)) :
    Fresh (startOf input opts).2 := by
  unfold startOf forwardEnvelope
  split
  · exact ⟨fresh.1, fresh.2, fresh.3, fresh.4⟩
  · exact fresh

variable (entry : EntryPoint) (env : Envelope)

theorem EntryPoint.fresh_options : Fresh (applyOptions (entry.options env)) := by
  cases entry <;> exact ⟨rfl, rfl, rfl, rfl⟩

section Shown

variable {input : Value} {opts : List ExecuteOption}

/-- Options do not forward anything themselves. -/
def ForwardsNothing (opts : List ExecuteOption) : Prop :=
  (applyOptions opts).fwdFacts = [] ∧ (applyOptions opts).fwdLabels = [] ∧
    (applyOptions opts).fwdMeta = ∅

theorem EntryPoint.options_forwardNothing : ForwardsNothing (entry.options env) := by
  cases entry <;> exact ⟨rfl, rfl, rfl⟩

theorem startOf_forwards (input : Value) (nothing : ForwardsNothing opts) :
    (startOf input opts).2.fwdLabels = (unpacked input).securityLabels ∧
      (startOf input opts).2.fwdFacts = (unpacked input).facts ∧
      ∀ key, (startOf input opts).2.fwdMeta.lookup key = (unpacked input).metadata.lookup key := by
  obtain ⟨noFacts, noLabels, noMeta⟩ := nothing
  unfold startOf forwardEnvelope unpacked
  cases input.envelope? with
  | none => exact ⟨noLabels, noFacts, fun key => congrArg (AList.lookup key) noMeta⟩
  | some env =>
    refine ⟨by simp [noLabels], by simp [noFacts], fun key => ?_⟩
    simp only [noMeta, Option.getD_some]
    split
    next empty =>
      have none : env.metadata.entries = [] := List.isEmpty_iff.mp empty
      simp [AList.lookup, none]
    · rfl

theorem startOf_metadata : (startOf input opts).2.metadata = (applyOptions opts).metadata := by
  unfold startOf forwardEnvelope
  split <;> rfl

/-- The metadata that an action is shown: facts of the context hide the options of the
call, those what memory recalled, and that the forwarded metadata. -/
theorem lookup_shown (input : Value) (fresh : Fresh (applyOptions opts))
    (nothing : ForwardsNothing opts) (host : Host) (ctx : Context) (contentType : ContentType)
    (recalled : Metadata) (key : String) :
    (shown host ctx contentType (startOf input opts) recalled).metadata.lookup key =
      ((ctx.contextFacts.lookup key).map .string).or
        ((((applyOptions opts).metadata.lookup key).map .string).or
          ((recalled.lookup key).or ((unpacked input).metadata.lookup key))) := by
  have starts : Fresh (startOf input opts).2 := startOf_fresh fresh
  have feedback (env : Envelope) : injectFeedback env (startOf input opts).2 = env := by
    simp [injectFeedback, starts.feedbackHistory, starts.lastFeedback]
  have history (env : Envelope) : injectHistory host env (startOf input opts).2 = env := by
    simp [injectHistory, starts.memoryMode]
  simp only [shown, injected, feedback, history, forwardedEnvelope, newEnvelope,
    StringMap.assignAll, StringMap.lookup_assignWith, StringMap.lookup_assignMissing,
    AList.lookup_empty, Option.none_or, Option.map_id_fun, id_eq, startOf_metadata,
    (startOf_forwards input nothing).2.2 key]

theorem shown_labels_facts (input : Value) (fresh : Fresh (applyOptions opts))
    (nothing : ForwardsNothing opts) (host : Host) (ctx : Context) (contentType : ContentType)
    (recalled : Metadata) :
    (shown host ctx contentType (startOf input opts) recalled).securityLabels =
        (unpacked input).securityLabels ∧
      (shown host ctx contentType (startOf input opts) recalled).facts =
        (unpacked input).facts := by
  have starts : Fresh (startOf input opts).2 := startOf_fresh fresh
  obtain ⟨labels, facts, _⟩ := startOf_forwards input nothing
  simp [shown, injected, injectFeedback, injectHistory, starts.feedbackHistory,
    starts.lastFeedback, starts.memoryMode, forwardedEnvelope, newEnvelope, labels, facts]

end Shown

/-! ## Calls show their envelope -/

section Calls

variable {m : Type → Type} [Monad m] [MonadExceptOf Panic m] [LawfulMonad m]
  {client : Client m} {ctx : Context} {actionName : String} {action : Action m}

omit [Monad m] [MonadExceptOf Panic m] [LawfulMonad m] in
theorem stepLimit_pos (client : Client m) (params : ExecutionParams) :
    0 < stepLimit client params := by
  unfold stepLimit
  split_ifs <;> simp_all [defaultMaxSteps]

/-- The call begins by recalling, and then executes the action on what it shows. -/
def Shows (client : Client m) (ctx : Context) (action : Action m)
    (start : Value × ExecutionParams) (call : m (Except GoError Envelope)) : Prop :=
  ∃ rest : Except GoError Envelope → m (Except GoError Envelope), call = do
    let recalled ← recallContext client ctx start.1
      (forwardedEnvelope action.metadata.inputContentType start.1 start.2)
    let executed ← action.execute ctx
      (shown client.host ctx action.metadata.inputContentType start recalled)
    rest executed

theorem executeByName_shows (input : Value) {opts : List ExecuteOption}
    (fresh : Fresh (applyOptions opts))
    (registered : client.registry.lookup actionName = some action)
    (running : ctx.err (.step 0) = none) :
    Shows client ctx action (startOf input opts)
      (executeByName client ctx actionName input opts) := by
  have starts : Fresh (startOf input opts).2 := startOf_fresh fresh
  obtain ⟨limit, positive⟩ :=
    Nat.exists_eq_succ_of_ne_zero (stepLimit_pos client (startOf input opts).2).ne'
  have loaded : loadHistory client ctx (startOf input opts).2 = pure (startOf input opts).2 := by
    simp [loadHistory, starts.memoryMode]
  have hydrated : hydrate client ctx (startOf input opts).1 (startOf input opts).2 =
      pure ((startOf input opts).1, (startOf input opts).2) := by
    unfold hydrate
    split
    · rfl
    · rw [if_pos starts.sessionID]
  have unchanged (env : Envelope) :
      injectHistory client.host (injectFeedback env (startOf input opts).2) (startOf input opts).2 =
        env := by
    simp [injectFeedback, injectHistory, starts.feedbackHistory, starts.lastFeedback,
      starts.memoryMode]
  unfold executeByName runLoopInternal
  simp only [loaded, hydrated, pure_bind, positive, runSteps, running, executeSingleStep,
    registered, injectContext, unchanged, bind_assoc]
  exact ⟨_, rfl⟩

structure Routed (client : Client m) (ctx : Context) (env : Envelope) (actionName : String) :
    Prop where
  enabled : client.steeringEnabled = true
  named : actionName ≠ ""
  decided : ∃ steering : Engine.Steering,
    Engine.evaluateSteering client.engine ctx env = pure (.ok steering) ∧
      steering.decision = .route ∧ steering.metadata.lookup keyNextStep = some actionName

theorem EntryPoint.call_shows (registered : client.registry.lookup actionName = some action)
    (running : ctx.err (.step 0) = none)
    (routed : entry = .execute → Routed client ctx env actionName) :
    Shows client ctx action (startOf env.payload (entry.options env))
      (entry.call client ctx actionName env) := by
  have byName := executeByName_shows env.payload (entry.fresh_options env) registered running
  cases entry with
  | execute =>
    obtain ⟨enabled, named, steering, evaluated, decision, next⟩ := routed rfl
    have called : EntryPoint.call client ctx actionName env .execute =
        executeByName client ctx actionName env.payload [] := by
      simp only [EntryPoint.call, Sdk.execute, enabled, if_true, evaluated, pure_bind, decision,
        next, Option.getD_some, if_neg named]
    rw [called]
    exact byName
  | executePlan =>
    obtain ⟨rest, shows⟩ := byName
    change executeByName client ctx actionName env.payload [withMetadataMap env.metadata] = _
      at shows
    unfold EntryPoint.call Sdk.executePlan executePlanFrom
    simp only [shows, bind_assoc]
    exact ⟨_, rfl⟩
  | actionProxy => exact byName

end Calls

end Manglekit.Sdk

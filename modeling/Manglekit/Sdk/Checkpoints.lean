import Manglekit.Effects.Journal
import Manglekit.Sdk.Confinement
import Manglekit.Sdk.StateManager

/-!
# Which steps are recorded

A step whose result may stand is checkpointed and memorised.  Whether it may is read from the
decision in the metadata of the result, and a result without a decision is not told from one
with some other decision: without steering, or if steering fails, a plain result is neither
checkpointed nor memorised.
-/

namespace Manglekit.Sdk

open Core Effects

/-! ## A client whose writes are noted -/

section Model

inductive Write where
  | checkpoint (sessionID : String)
  | memorize (input output : String)
  deriving DecidableEq, Repr

variable (World Data : Type)

/-- A client with a state provider and a memory, and whether it is shutting down when a step
comes to memorise. -/
structure ProvidedClient where
  engine : Engine.PolicyEngine (Stateful Panic World)
  host : Host
  registry : StringMap (Supervisor.Action (Stateful Panic World))
  memory : AgentMemory (Stateful Panic World)
  provider : StateProvider (Stateful Panic World) Data
  codec : StateCodec Data
  loadFacts : Context → List String → Stateful Panic World (Option GoError)
  maxSteps : Int := 0
  steeringEnabled : Bool := false
  shuttingDown : Bool := false

namespace ProvidedClient

variable {World Data} (provided : ProvidedClient World Data)

def notedEngine : Engine.PolicyEngine (Journaled Panic World Write) where
  host := provided.engine.host
  parseAtom := provided.engine.parseAtom
  runtime :=
    { isReady := quietly provided.engine.runtime.isReady
      queryWithSolutions := fun ctx facts query =>
        quietly (provided.engine.runtime.queryWithSolutions ctx facts query)
      executeQuery := fun ctx facts query =>
        quietly (provided.engine.runtime.executeQuery ctx facts query) }

/-- A client that is shutting down does not start to memorise. -/
def notedMemory : AgentMemory (Journaled Panic World Write) where
  read ctx sessionID := quietly (provided.memory.read ctx sessionID)
  append ctx sessionID messages := quietly (provided.memory.append ctx sessionID messages)
  recallText ctx text := quietly (provided.memory.recallText ctx text)
  recallWithFacts := provided.memory.recallWithFacts.map fun search ctx text =>
    quietly (search ctx text)
  memorize input output :=
    if provided.shuttingDown then pure ()
    else noting (.memorize input output) (provided.memory.memorize input output)

def notedManager : DurableStateManager (Journaled Panic World Write) Data where
  provider :=
    { get := fun ctx sessionID => quietly (provided.provider.get ctx sessionID)
      set := fun ctx sessionID data =>
        noting (.checkpoint sessionID) (provided.provider.set ctx sessionID data) }
  codec := provided.codec
  loadFacts ctx facts := quietly (provided.loadFacts ctx facts)

def notedAction (action : Supervisor.Action (Stateful Panic World)) :
    Supervisor.Action (Journaled Panic World Write) where
  metadata := action.metadata
  execute ctx env := quietly (action.execute ctx env)

def client : Client (Journaled Panic World Write) where
  engine := provided.notedEngine
  host := provided.host
  registry := StringMap.assignWith ∅ notedAction provided.registry
  agentMemory := some provided.notedMemory
  stateManager := some provided.notedManager.stateManager
  maxSteps := provided.maxSteps
  steeringEnabled := provided.steeringEnabled

end ProvidedClient

end Model

/-! ## What is noted -/

variable {step : Except GoError Envelope × ExecutionParams}

section Noted

variable {World Data : Type} {provided : ProvidedClient World Data} {ctx : Context}
  {params : ExecutionParams}

def exchanged (params : ExecutionParams) (payload : Value) (result : Envelope) : ExecutionParams :=
  if params.memoryMode = .none then params
  else
    { params with
      currentHistory := params.currentHistory ++
        [⟨"user", safelyStringify payload⟩, ⟨"assistant", safelyStringify result.payload⟩] }

def snapshot (params : ExecutionParams) (result : Envelope) : SessionState where
  sessionID := params.sessionID
  activeEnvelope := result
  executionCtx := ⟨params.retryCount, params.feedbackHistory, params.currentHistory⟩
  logicalFacts := DurableStateManager.extractFacts result
  auditRecords := params.auditRecords

def StateCodec.storable (codec : StateCodec Data) (state : SessionState) : Bool :=
  state.validate.isNone && (codec.marshal state).toOption.isSome

theorem engine_quiet : provided.client.engine.Confined Quiet fun _ => True where
  isReady := .operation (quiet_quietly _)
  queryWithSolutions _ _ _ _ := .operation (quiet_quietly _)
  executeQuery _ _ _ _ := .operation (quiet_quietly _)

theorem execute_quiet {actionName : String}
    {action : Supervisor.Action (Journaled Panic World Write)}
    (registered : provided.client.registry.lookup actionName = some action) (env : Envelope) :
    Confined Quiet (action.execute ctx env) := by
  unfold ProvidedClient.client at registered
  rw [StringMap.lookup_assignWith, AList.lookup_empty, Option.or_none] at registered
  obtain ⟨inner, _, rfl⟩ := Option.map_eq_some_iff.mp registered
  exact .operation (quiet_quietly _)

theorem unrecording_quiet (provided : ProvidedClient World Data) (session : String) :
    provided.client.unrecording.Confined Quiet (fun _ => True) session where
  engine := engine_quiet
  execute _ _ registered _ env _ := execute_quiet registered env
  append memory found _ _ := by
    cases found
    exact .operation (quiet_quietly _)
  recallText memory found _ _ := by
    cases found
    exact .operation (quiet_quietly _)
  recallWithFacts memory found search offered _ _ := by
    cases found
    obtain ⟨inner, _, rfl⟩ := Option.map_eq_some_iff.mp offered
    exact .operation (quiet_quietly _)
  memorize memory found _ _ := by
    cases found
    exact .pure _
  extractFacts manager found := by cases found
  checkpoint manager found := by cases found

theorem updateHistory_quiet (provided : ProvidedClient World Data) (ctx : Context)
    (payload : Value) (result : Envelope) (params : ExecutionParams) :
    Yields Quiet (updateHistory provided.client ctx payload result params)
      fun updated => updated = exchanged params payload result := by
  unfold updateHistory exchanged
  split
  · exact .pure _ rfl
  · dsimp only [ProvidedClient.client]
    split
    · exact .bind (.operation (quiet_quietly _)) fun _ _ => .pure _ rfl
    · exact .pure _ rfl

theorem checkpoint_journal {result : Envelope} {state after : World × List Write}
    (ended : runFrom (checkpoint provided.client ctx result params) state = (.ok (), after)) :
    after.2 = state.2 ++
      if (proceeds result && provided.codec.storable (snapshot params result)) = true then
        [.checkpoint params.sessionID]
      else [] := by
  unfold checkpoint at ended
  dsimp only [ProvidedClient.client] at ended
  split at ended
  next recorded =>
    obtain ⟨facts, extracted, extracts, ended⟩ := runFrom_bind_ok ended
    cases extracts
    obtain ⟨err, saved, saves, ended⟩ := runFrom_bind_ok ended
    cases ended
    rw [recorded.2, Bool.true_and]
    change runFrom (provided.notedManager.checkpoint ctx (snapshot params result)) state =
      (.ok err, after) at saves
    unfold DurableStateManager.checkpoint at saves
    unfold StateCodec.storable
    split at saves
    next invalid =>
      cases saves
      simp [invalid]
    next valid =>
      dsimp only [ProvidedClient.notedManager] at saves
      split at saves
      next failed =>
        cases saves
        simp [failed, Except.toOption]
      next data marshalled =>
        obtain ⟨answer, set, sets, ended⟩ := runFrom_bind_ok saves
        rw [runFrom_noting] at sets
        have noted : after.2 = state.2 ++ [.checkpoint params.sessionID] := by
          split at ended
          all_goals
            cases ended
            exact (congrArg (·.2.2) sets).symm
        simp [valid, marshalled, Except.toOption, noted]
  next unrecorded =>
    cases ended
    have absent : (proceeds result && provided.codec.storable (snapshot params result)) =
        false := by
      by_contra both
      rw [Bool.not_eq_false, Bool.and_eq_true] at both
      refine unrecorded ⟨fun unnamed => ?_, both.1⟩
      simp [StateCodec.storable, SessionState.validate, snapshot, unnamed] at both
    simp [absent]

theorem handleDecision_journal {actionName : String} {result : Envelope} {payload : Value}
    {state after : World × List Write}
    (ended : runFrom (handleDecision provided.client ctx actionName result payload params)
      state = (.ok step, after)) :
    after.2 = state.2 ++
      if (proceeds result && !provided.shuttingDown) = true then
        [.memorize (safelyStringify payload) (safelyStringify result.payload)]
      else [] := by
  rw [handleDecision_eq] at ended
  split at ended
  next stands =>
    obtain ⟨_, memorized, memorizes, ended⟩ := runFrom_bind_ok ended
    cases ended
    dsimp only [asyncMemorize, ProvidedClient.client, ProvidedClient.notedMemory] at memorizes
    cases down : provided.shuttingDown with
    | true =>
      rw [down, if_pos rfl] at memorizes
      cases memorizes
      simp
    | false =>
      rw [down, if_neg Bool.false_ne_true, runFrom_noting] at memorizes
      have noted : state.2 ++ [_] = after.2 := congrArg (·.2.2) memorizes
      simp [stands, ← noted]
  next falls =>
    cases ended
    simp [falls]

end Noted

/-! ## One step -/

section Step

variable {World Data : Type} {provided : ProvidedClient World Data} {ctx : Context}
  {actionName : String} {action : Supervisor.Action (Journaled Panic World Write)}
  {payload : Value} {params : ExecutionParams} {returned result : Envelope}

def actionRun (client : Client (Journaled Panic World Write)) (ctx : Context)
    (action : Supervisor.Action (Journaled Panic World Write)) (payload : Value)
    (params : ExecutionParams) : Journaled Panic World Write (Except GoError Envelope) :=
  injectContext client ctx
    (forwardedEnvelope action.metadata.inputContentType payload params) payload params >>=
      action.execute ctx

def writesOf (provided : ProvidedClient World Data) (params : ExecutionParams) (payload : Value)
    (result : Envelope) : List Write :=
  (if (proceeds result && provided.codec.storable
      (snapshot (exchanged params payload result) result)) = true then
    [.checkpoint params.sessionID]
  else []) ++
    if (proceeds result && !provided.shuttingDown) = true then
      [.memorize (safelyStringify payload) (safelyStringify result.payload)]
    else []

theorem sessionID_exchanged (params : ExecutionParams) (payload : Value) (result : Envelope) :
    (exchanged params payload result).sessionID = params.sessionID := by
  unfold exchanged
  split <;> rfl

theorem executeSingleStep_journal {state ran steered after : World × List Write}
    (registered : provided.client.registry.lookup actionName = some action)
    (runs : runFrom (actionRun provided.client ctx action payload params) state =
      (.ok (.ok returned), ran))
    (steers : runFrom (steer provided.client ctx returned) ran = (.ok result, steered))
    (ended : runFrom (executeSingleStep provided.client ctx actionName payload params) state =
      (.ok step, after)) :
    after.2 = state.2 ++ writesOf provided { params with lastFeedback := "" } payload result := by
  have quiet := unrecording_quiet provided params.sessionID
  have quietRun : Confined Quiet (actionRun provided.client ctx action payload params) := by
    refine .bind ?_ fun env => execute_quiet registered env
    rw [← injectContext_unrecording]
    exact quiet.injectContext trivial _ _ _
  unfold executeSingleStep at ended
  rw [registered] at ended
  obtain ⟨env, _, injects, ended⟩ := runFrom_bind_ok ended
  obtain ⟨answer, _, executes, ended⟩ := runFrom_bind_ok ended
  have same := runs
  rw [actionRun, runFrom_bind, injects] at same
  dsimp only at same
  rw [executes] at same
  cases same
  obtain ⟨_, _, again, ended⟩ := runFrom_bind_ok ended
  rw [steers] at again
  cases again
  obtain ⟨updated, appended, appends, ended⟩ := runFrom_bind_ok ended
  obtain ⟨_, saved, saves, ended⟩ := runFrom_bind_ok ended
  have recorded := updateHistory_quiet provided ctx payload result
    { params with lastFeedback := "" }
  rw [recorded.result appends] at saves ended
  calc
    after.2 = saved.2 ++ _ := handleDecision_journal ended
    _ = (appended.2 ++ _) ++ _ := by rw [checkpoint_journal saves]
    _ = (state.2 ++ _) ++ _ := by
        rw [(preserves_of_yields recorded).view_eq appends, (preserves_of_yields (quiet.steer
          trivial returned)).view_eq steers, (preserves_of_yields quietRun).view_eq runs]
    _ = _ := by rw [sessionID_exchanged, List.append_assoc]; rfl

def SteeringAnswers (provided : ProvidedClient World Data) (ctx : Context) (returned : Envelope)
    (state : World × List Write) : Prop :=
  provided.steeringEnabled = true ∧ ∃ steering after,
    runFrom (Engine.evaluateSteering provided.client.engine ctx returned) state =
      (.ok (.ok steering), after)

/-- A result without a decision is what the action returned and steering did not decide. -/
theorem decision_steer {state after : World × List Write}
    (steers : runFrom (steer provided.client ctx returned) state = (.ok result, after)) :
    result.metadata.lookup keyDecision ≠ none ↔
      returned.metadata.lookup keyDecision ≠ none ∨
        SteeringAnswers provided ctx returned state := by
  unfold steer at steers
  split at steers
  next asked =>
    obtain ⟨answer, reached, evaluates, ended⟩ := runFrom_bind_ok steers
    cases answer with
    | error err =>
      cases ended
      have silent : ¬ SteeringAnswers provided ctx returned state := by
        rintro ⟨_, steering, _, answered⟩
        rw [evaluates] at answered
        cases answered
      simp [silent]
    | ok steering =>
      cases ended
      refine iff_of_true ?_ (.inr ⟨asked.1, steering, _, evaluates⟩)
      simp [StringMap.lookup_assignWith, Envelope.setMeta]
  next unasked =>
    cases steers
    refine ⟨Or.inl, fun decided => ?_⟩
    rcases decided with decided | ⟨enabled, _⟩
    · exact decided
    · intro absent
      exact unasked ⟨enabled, .inl (by simp [absent])⟩

/-- The result carries no decision, or one to proceed. -/
def Stands (result : Envelope) : Prop :=
  result.metadata.lookup keyDecision = none ∨ proceeds result = true

/-- The result asks for another step, or for none. -/
def TurnsAway (result : Envelope) : Prop :=
  ∃ outcome ∈ [Outcome.retry, Outcome.route, Outcome.halt],
    result.hasText keyDecision outcome.text = true

theorem proceeds_of_turnsAway {result : Envelope} (turns : TurnsAway result) :
    proceeds result = false := by
  obtain ⟨outcome, listed, decides⟩ := turns
  unfold proceeds Envelope.hasText at *
  rw [of_decide_eq_true decides]
  clear decides
  revert outcome
  decide

theorem proceeds_iff_of_stands {result : Envelope} (stands : Stands result) :
    proceeds result = true ↔ result.metadata.lookup keyDecision ≠ none := by
  constructor
  · intro proceeding absent
    simp [proceeds, Envelope.hasText, absent] at proceeding
  · exact stands.resolve_left

/-- One checkpoint and one exchange to memorise for a result that stands, unless the client is
shutting down, and nothing for a result that turns away. -/
structure RecordedRightly (provided : ProvidedClient World Data) (params : ExecutionParams)
    (payload : Value) (result : Envelope) (before after : List Write) : Prop where
  stands : Stands result → provided.shuttingDown = false →
    after = before ++ [.checkpoint params.sessionID,
      .memorize (safelyStringify payload) (safelyStringify result.payload)]
  turnsAway : TurnsAway result → after = before

/-- A step is recorded as it should be exactly if the result that stands was decided by the
action or by steering, and its state can be stored. -/
theorem step_recorded_iff {state ran steered after : World × List Write}
    {step : Except GoError Envelope × ExecutionParams}
    (registered : provided.client.registry.lookup actionName = some action)
    (runs : runFrom (actionRun provided.client ctx action payload params) state =
      (.ok (.ok returned), ran))
    (steers : runFrom (steer provided.client ctx returned) ran = (.ok result, steered))
    (ended : runFrom (executeSingleStep provided.client ctx actionName payload params) state =
      (.ok step, after)) :
    RecordedRightly provided params payload result state.2 after.2 ↔
      (Stands result → provided.shuttingDown = false →
        (returned.metadata.lookup keyDecision ≠ none ∨
          SteeringAnswers provided ctx returned ran) ∧
        provided.codec.storable (snapshot (exchanged params payload result) result) = true) := by
  have journal := executeSingleStep_journal registered runs steers ended
  have same : writesOf provided { params with lastFeedback := "" } payload result =
      writesOf provided params payload result := by
    unfold writesOf exchanged
    split <;> rfl
  rw [same] at journal
  rw [← decision_steer steers]
  constructor
  · intro recorded stands running
    have both := recorded.stands stands running
    rw [journal, List.append_cancel_left_eq, writesOf] at both
    rw [← proceeds_iff_of_stands stands, ← Bool.and_eq_true]
    by_contra missing
    rw [if_neg missing, List.nil_append] at both
    split at both
    · cases both
    · cases both
  · intro decided
    refine ⟨fun stands running => ?_, fun turns => ?_⟩
    · obtain ⟨present, storable⟩ := decided stands running
      have proceeding := (proceeds_iff_of_stands stands).mpr present
      rw [journal, writesOf, proceeding, storable, running]
      rfl
    · rw [journal, writesOf, proceeds_of_turnsAway turns]
      simp

end Step

/-! ## A plain action -/

/-- A client whose only action returns a result without a decision.  The policy has no rules. -/
def greeter (steeringEnabled : Bool) : ProvidedClient Unit SessionState where
  engine :=
    { host := ⟨id, fun _ => none, "", fun _ _ => .ok [], fun _ _ => .ok []⟩
      parseAtom := fun _ => .error (.text "not an atom")
      runtime := ⟨pure false, fun _ _ _ => pure ⟨[], none⟩, fun _ _ _ => pure (.ok false)⟩ }
  host := asciiHost
  registry := AList.singleton "greet"
    { metadata := { name := "greet" }
      execute := fun _ _ => pure (.ok (newEnvelope (.string "hello"))) }
  memory :=
    { read := fun _ _ => pure ([], none)
      append := fun _ _ _ => pure none
      recallText := fun _ _ => pure (.ok "")
      memorize := fun _ _ => pure () }
  provider := ⟨fun _ _ => pure (.ok none), fun _ _ _ => pure none⟩
  codec := ⟨.ok, .ok⟩
  loadFacts := fun _ _ => pure none
  steeringEnabled

/-- With steering the step is recorded. -/
theorem plain_step_recorded :
    (runFrom (executeSingleStep (greeter true).client {} "greet" (.string "hi")
      { sessionID := "first" }) ((), [])).2.2 =
        [.checkpoint "first", .memorize "hi" "hello"] := by
  have recorded := step_recorded_iff
    (show (greeter true).client.registry.lookup "greet" = some _ from rfl)
    (show runFrom (actionRun (greeter true).client {} _ (.string "hi")
      { sessionID := "first" }) ((), []) = _ from rfl) rfl
    (show runFrom (executeSingleStep (greeter true).client {} "greet" (.string "hi")
      { sessionID := "first" }) ((), []) = _ from rfl)
  exact (recorded.mpr fun _ _ => ⟨.inr ⟨rfl, _, _, rfl⟩, rfl⟩).stands (.inr rfl) rfl

/-- Without steering the step returns the same result without a decision, and is not. -/
theorem plain_step_unrecorded :
    let ended := runFrom (executeSingleStep (greeter false).client {} "greet"
      (.string "hi") { sessionID := "first" }) ((), [])
    (ended.1.toOption.bind (·.1.toOption)).map
        (fun result => (result.metadata.lookup keyDecision).isNone) = some true ∧
      (greeter false).shuttingDown = false ∧ ended.2.2 = [] := by
  decide +kernel

end Manglekit.Sdk

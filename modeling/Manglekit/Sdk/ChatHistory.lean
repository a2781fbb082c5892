import Manglekit.Sdk.Sessions

/-!
# What a run adds to the history

Each executed step of a persistent run appends the whole history of the run to the store, not
only its own exchange.  A run therefore stores the history that it started with once per
executed step, and the exchange of a step once more for every later one.
-/

namespace Manglekit.Sdk

open Core Effects

/-! ## The executed steps of a run -/

structure Exchange where
  user : String
  assistant : String
  deriving DecidableEq, Repr

def Exchange.messages (exchange : Exchange) : List Message :=
  [⟨"user", exchange.user⟩, ⟨"assistant", exchange.assistant⟩]

def transcript (exchanges : List Exchange) : List Message :=
  exchanges.flatMap Exchange.messages

section Traced

variable {m : Type → Type} [Monad m]

def tracedStep (client : Client m) (ctx : Context) (actionName : String) (payload : Value)
    (params : ExecutionParams) :
    m ((Except GoError Envelope × ExecutionParams) × List Exchange) :=
  match client.registry.lookup actionName with
  | none => return ((.error (.text ("action not found: " ++ actionName)), params), [])
  | some action => do
    let env ← injectContext client ctx
      (forwardedEnvelope action.metadata.inputContentType payload params) payload params
    match ← action.execute ctx env with
    | .error err => return (handleExecutionError ctx err payload params, [])
    | .ok executed =>
      let result ← steer client ctx executed
      let updated ← updateHistory client ctx payload result { params with lastFeedback := "" }
      checkpoint client ctx result updated
      let decided ← handleDecision client ctx actionName result payload updated
      return (decided, [⟨safelyStringify payload, safelyStringify executed.payload⟩])

def tracedSteps (client : Client m) (ctx : Context) : (remaining step : Nat) → String → Value →
    ExecutionParams → m (Except GoError Envelope × List Exchange)
  | 0, _, _, _, _ => return (.error (.text "max steps exceeded"), [])
  | remaining + 1, step, action, payload, params =>
    match ctx.err (.step step) with
    | some err => return (.error err, [])
    | none => do
      match ← tracedStep client ctx action payload params with
      | ((.error err, _), exchanges) => return (.error err, exchanges)
      | ((.ok result, updated), exchanges) =>
        let recorded :=
          { updated with
            auditRecords := updated.auditRecords ++ [auditRecord client.host step result] }
        let continued := fun next nextPayload => do
          let later ← tracedSteps client ctx remaining (step + 1) next nextPayload recorded
          return (later.1, exchanges ++ later.2)
        if result.hasText keyDecision Outcome.route.text then
          match (result.metadata.lookup keyNextStep).bind Value.string? with
          | none | some "" =>
            return (.error (.text "route decision missing next_step"), exchanges)
          | some next => continued next result.payload
        else if result.hasText keyDecision Outcome.retry.text then continued action payload
        else return (.ok result, exchanges)

variable [MonadExceptOf Panic m]

def tracedCall (client : Client m) (ctx : Context) (actionName : String) (input : Value)
    (opts : List ExecuteOption) : m (Except GoError Envelope × List Exchange) := do
  let loaded ← loadHistory client ctx (startOf input opts).2
  let start ← hydrate client ctx (startOf input opts).1 loaded
  tracedSteps client ctx (stepLimit client start.2) 0 actionName start.1 start.2

variable [LawfulMonad m]

omit [MonadExceptOf Panic m] in
theorem fst_tracedStep (client : Client m) (ctx : Context) (actionName : String)
    (payload : Value) (params : ExecutionParams) :
    (·.1) <$> tracedStep client ctx actionName payload params =
      executeSingleStep client ctx actionName payload params := by
  unfold tracedStep executeSingleStep
  cases client.registry.lookup actionName with
  | none => simp
  | some action =>
    simp only [map_bind]
    refine bind_congr fun env => bind_congr fun executed => ?_
    cases executed with
    | error err => simp
    | ok executed => simp

omit [MonadExceptOf Panic m] in
theorem fst_tracedSteps (client : Client m) (ctx : Context) (remaining step : Nat)
    (action : String) (payload : Value) (params : ExecutionParams) :
    (·.1) <$> tracedSteps client ctx remaining step action payload params =
      runSteps client ctx remaining step action payload params := by
  induction remaining generalizing step action payload params with
  | zero => simp [tracedSteps, runSteps]
  | succ remaining ih =>
    unfold tracedSteps runSteps
    cases ctx.err (.step step) with
    | some err => simp
    | none =>
      dsimp only
      rw [← fst_tracedStep, map_bind, bind_map_left]
      refine bind_congr fun outcome => ?_
      obtain ⟨⟨err | result, updated⟩, exchanges⟩ := outcome
      · simp
      · dsimp only
        split_ifs
        · generalize (result.metadata.lookup keyNextStep).bind Value.string? = route
          split
          · simp
          · simp
          · simp [← ih]
        · simp [← ih]
        · simp

theorem fst_tracedCall (client : Client m) (ctx : Context) (actionName : String) (input : Value)
    (opts : List ExecuteOption) :
    (·.1) <$> tracedCall client ctx actionName input opts =
      executeByName client ctx actionName input opts := by
  unfold tracedCall executeByName runLoopInternal
  simp only [map_bind, fst_tracedSteps]

end Traced

/-! ## Stores -/

section Stores

variable {World : Type}

/-- Reading returns the history of the session, and appending adds to its end. -/
structure AppendsToEnd (memory : AgentMemory (Stateful Panic World)) (session : String)
    (history : World → List Message) : Prop where
  read : ∀ ctx world, ∃ err after,
    runFrom (memory.read ctx session) world = (.ok (history world, err), after) ∧
      history after = history world
  append : ∀ ctx messages world, ∃ err after,
    runFrom (memory.append ctx session messages) world = (.ok err, after) ∧
      history after = history world ++ messages

def SameHistory (history : World → List Message) (first second : World) : Prop :=
  history first = history second

theorem sameHistory_equivalence (history : World → List Message) :
    Equivalence (SameHistory history) := ⟨fun _ => rfl, Eq.symm, Eq.trans⟩

def Untouching (history : World → List Message) (Result : Type)
    (computation : Stateful Panic World Result) : Prop :=
  ∀ world, Leaves (SameHistory history) computation world

variable {history : World → List Message}

theorem history_of_confined {Result : Type} {computation : Stateful Panic World Result}
    (confined : Confined (Untouching history) computation) {world after : World} {result : Result}
    (ended : runFrom computation world = (.ok result, after)) : history after = history world := by
  have same := sameHistory_equivalence history
  have leaves : Leaves (SameHistory history) computation world := by
    refine confined.leaves ?_ ?_ ?_ (same.refl world)
    · exact fun _ _ => same.symm
    · exact fun _ _ _ => same.trans
    · exact fun _ _ operation world _ => operation world
  rw [Leaves, ended] at leaves
  exact leaves.symm

structure Client.LeavesHistory (client : Client (Stateful Panic World)) (session : String)
    (history : World → List Message) : Prop where
  engine : client.engine.Confined (Untouching history) fun _ => True
  execute : ∀ name action, client.registry.lookup name = some action → ∀ ctx env,
    Effects.Confined (Untouching history) (action.execute ctx env)
  recallText : ∀ memory ∈ client.agentMemory, ∀ ctx text,
    Effects.Confined (Untouching history) (memory.recallText ctx text)
  recallWithFacts : ∀ memory ∈ client.agentMemory, ∀ search ∈ memory.recallWithFacts,
    ∀ ctx text, Effects.Confined (Untouching history) (search ctx text)
  memorize : ∀ memory ∈ client.agentMemory, ∀ input output,
    Effects.Confined (Untouching history) (memory.memorize input output)
  hydrate : ∀ manager ∈ client.stateManager, ∀ ctx,
    Effects.Confined (Untouching history) (manager.hydrate ctx session)
  extractFacts : ∀ manager ∈ client.stateManager, ∀ ctx env,
    Effects.Confined (Untouching history) (manager.extractFacts ctx env)
  checkpoint : ∀ manager ∈ client.stateManager, ∀ ctx state, state.sessionID = session →
    Effects.Confined (Untouching history) (manager.checkpoint ctx state)

/-- The client without its writes to the history. -/
def Client.silenced (client : Client (Stateful Panic World)) : Client (Stateful Panic World) :=
  { client with
    agentMemory := client.agentMemory.map fun memory =>
      { memory with append := fun _ _ _ => pure none } }

variable {client : Client (Stateful Panic World)} {session : String}

theorem Client.LeavesHistory.silenced (leaves : client.LeavesHistory session history) :
    client.silenced.Confined (Untouching history) (fun _ => True) session where
  engine := leaves.engine
  execute name action registered ctx env _ := leaves.execute name action registered ctx env
  append memory found ctx messages := by
    obtain ⟨inner, _, rfl⟩ := Option.map_eq_some_iff.mp found
    exact .pure _
  recallText memory found ctx text := by
    obtain ⟨inner, offered, rfl⟩ := Option.map_eq_some_iff.mp found
    exact leaves.recallText inner offered ctx text
  recallWithFacts memory found search searched ctx text := by
    obtain ⟨inner, offered, rfl⟩ := Option.map_eq_some_iff.mp found
    exact leaves.recallWithFacts inner offered search searched ctx text
  memorize memory found input output := by
    obtain ⟨inner, offered, rfl⟩ := Option.map_eq_some_iff.mp found
    exact leaves.memorize inner offered input output
  extractFacts := leaves.extractFacts
  checkpoint := leaves.checkpoint

structure SameRun (before after : ExecutionParams) : Prop where
  session : after.sessionID = before.sessionID
  mode : after.memoryMode = before.memoryMode
  current : after.currentHistory = before.currentHistory

theorem sameRun_handleExecutionError (ctx : Context) (err : GoError) (payload : Value)
    (params : ExecutionParams) :
    SameRun params (handleExecutionError ctx err payload params).2 := by
  unfold handleExecutionError
  split
  · exact ⟨rfl, rfl, rfl⟩
  · split <;> exact ⟨rfl, rfl, rfl⟩

theorem sameRun_handleRetryDecision (ctx : Context) (actionName : String) (result : Envelope)
    (params : ExecutionParams) :
    SameRun params (handleRetryDecision client ctx actionName result params).2 := by
  unfold handleRetryDecision
  split
  · exact ⟨rfl, rfl, rfl⟩
  · dsimp only
    split <;> exact ⟨rfl, rfl, rfl⟩

namespace Client.LeavesHistory

variable (leaves : client.LeavesHistory session history) {ctx : Context}
  {params : ExecutionParams}
include leaves

theorem injectContext (env : Envelope) (payload : Value) (params : ExecutionParams) :
    Effects.Confined (Untouching history) (Sdk.injectContext client ctx env payload params) := by
  have same : Sdk.recallContext client ctx payload =
      Sdk.recallContext client.silenced ctx payload := by
    funext env
    unfold Sdk.recallContext Client.silenced
    cases client.agentMemory <;> rfl
  refine .bind ?_ fun _ => .pure _
  rw [same]
  exact leaves.silenced.recallContext trivial _ _

theorem steer (result : Envelope) :
    Effects.Confined (Untouching history) (Sdk.steer client ctx result) :=
  leaves.silenced.steer trivial result

theorem checkpointed (result : Envelope) (same : params.sessionID = session) :
    Effects.Confined (Untouching history) (Sdk.checkpoint client ctx result params) :=
  leaves.silenced.checkpointed result same

theorem asyncMemorize (input output : Value) :
    Effects.Confined (Untouching history) (Sdk.asyncMemorize client input output) := by
  have same : Sdk.asyncMemorize client input output =
      Sdk.asyncMemorize client.silenced input output := by
    unfold Sdk.asyncMemorize Client.silenced
    cases client.agentMemory <;> rfl
  rw [same]
  exact leaves.silenced.asyncMemorize input output

theorem handleDecision (actionName : String) (result : Envelope) (payload : Value)
    (params : ExecutionParams) :
    Yields (Untouching history) (Sdk.handleDecision client ctx actionName result payload params)
      fun step => SameRun params step.2 := by
  have same : SameRun params (decided client ctx actionName result params).2 := by
    unfold decided
    split
    · exact sameRun_handleRetryDecision ctx actionName result params
    · split
      · exact ⟨rfl, rfl, rfl⟩
      · split <;> exact ⟨rfl, rfl, rfl⟩
  rw [handleDecision_eq]
  split
  · exact .bind (leaves.asyncMemorize _ _) fun _ _ => .pure _ same
  · exact .pure _ same

end Client.LeavesHistory

end Stores

/-! ## The memory of an installation -/

namespace Installation

variable {Key Data : Type} [DecidableEq Key] (installation : Installation Key Data)
  (session : String)

omit [DecidableEq Key] in
theorem appendsToEnd :
    AppendsToEnd installation.memory session (fun world => world.histories session) where
  read _ world := ⟨none, world, rfl, rfl⟩
  append _ _ world := ⟨none, _, rfl, Function.update_self session _ world.histories⟩

omit [DecidableEq Key] in
theorem hydrate_leavesHistory (ctx : Context) :
    Confined (Untouching fun world : World Key Data => world.histories session)
      (installation.manager.hydrate ctx session) := by
  unfold DurableStateManager.hydrate
  split
  · exact .pure _
  · refine .bind (.operation fun _ => rfl) fun answer => ?_
    split
    · exact .pure _
    · exact .pure _
    · split
      · exact .pure _
      · split
        · exact .bind (.operation fun _ => rfl) fun _ => .pure _
        · exact .pure _

theorem engine_leavesHistory : installation.engine.Confined
    (Untouching fun world : World Key Data => world.histories session) fun _ => True where
  isReady := .operation fun _ => rfl
  queryWithSolutions _ _ _ _ := .operation fun _ => rfl
  executeQuery _ _ _ _ := .operation fun _ => rfl

theorem leavesHistory :
    installation.client.LeavesHistory session (fun world => world.histories session) where
  engine := installation.engine_leavesHistory session
  execute name action registered ctx env :=
    action_confined (installation.engine_leavesHistory session)
      ⟨fun _ _ _ => rfl, fun _ _ _ => trivial⟩ registered trivial env
  recallText memory found _ _ := by
    cases found
    exact .pure _
  recallWithFacts memory found search offered _ _ := by
    cases found
    obtain ⟨behaviour, _, rfl⟩ := Option.map_eq_some_iff.mp offered
    exact .pure _
  memorize memory found _ _ := by
    cases found
    exact .pure _
  hydrate manager found ctx := by
    cases found
    exact installation.hydrate_leavesHistory session ctx
  extractFacts manager found _ _ := by
    cases found
    exact .pure _
  checkpoint manager found ctx state _ := by
    cases found
    exact checkpoint_confined fun _ _ => rfl

end Installation

/-! ## What is stored -/

section Stored

def persisted (current : List Message) : List Exchange → List Message
  | [] => []
  | exchange :: rest =>
    (current ++ exchange.messages) ++ persisted (current ++ exchange.messages) rest

def stored (session : String) (current : List Message) (exchanges : List Exchange) :
    List Message :=
  if session = "" then [] else persisted current exchanges

@[simp]
theorem stored_nil (session : String) (current : List Message) :
    stored session current [] = [] := by
  simp [stored, persisted]

variable (current : List Message)

theorem persisted_append (earlier later : List Exchange) :
    persisted current (earlier ++ later) =
      persisted current earlier ++ persisted (current ++ transcript earlier) later := by
  induction earlier generalizing current with
  | nil => simp [persisted, transcript]
  | cons exchange earlier ih =>
    simp [persisted, transcript, ih]

theorem stored_append (session : String) (current : List Message)
    (earlier later : List Exchange) :
    stored session current (earlier ++ later) =
      stored session current earlier ++ stored session (current ++ transcript earlier) later := by
  unfold stored
  split_ifs
  · rfl
  · exact persisted_append current earlier later

theorem length_transcript_le (exchanges : List Exchange) :
    (transcript exchanges).length ≤ (persisted current exchanges).length := by
  induction exchanges generalizing current with
  | nil => simp [transcript]
  | cons exchange rest ih =>
    have later := ih (current ++ exchange.messages)
    simp only [transcript, persisted, List.flatMap_cons, List.length_append] at later ⊢
    omega

theorem stored_eq_transcript_iff (session : String) (current : List Message)
    (exchanges : List Exchange) :
    stored session current exchanges = transcript exchanges ↔
      exchanges = [] ∨ (session ≠ "" ∧ current = [] ∧ exchanges.length = 1) := by
  unfold stored
  match exchanges with
  | [] => simp [persisted, transcript]
  | [exchange] =>
    split_ifs with unnamed
    · simp [transcript, Exchange.messages, unnamed]
    · simp [persisted, transcript, unnamed]
  | first :: second :: rest =>
    refine iff_of_false (fun same => ?_) (by simp)
    have lengths := congrArg List.length same
    have later := length_transcript_le ((current ++ first.messages) ++ second.messages) rest
    split_ifs at lengths with unnamed
    · simp [transcript, Exchange.messages] at lengths
    · simp only [persisted, transcript, Exchange.messages, List.flatMap_cons,
        List.length_append, List.length_cons, List.length_nil] at lengths later
      omega

end Stored

/-! ## Runs -/

variable {params updated : ExecutionParams} {payload : Value} {outcome : Except GoError Envelope}
  {exchanges : List Exchange}

section Runs

variable {World : Type} {history : World → List Message}
  {client : Client (Stateful Panic World)} {memory : AgentMemory (Stateful Panic World)}
  {session : String} {ctx : Context} {world after : World}

structure Advances (history : World → List Message) (params updated : ExecutionParams)
    (world after : World) (exchanges : List Exchange) : Prop where
  session : updated.sessionID = params.sessionID
  mode : updated.memoryMode = params.memoryMode
  current : updated.currentHistory = params.currentHistory ++ transcript exchanges
  history : history after = history world ++
    stored params.sessionID params.currentHistory exchanges

theorem updateHistory_advances (appends : AppendsToEnd memory session history)
    (remembers : client.agentMemory = some memory) (persists : params.memoryMode = .persist)
    (same : params.sessionID = session) {result : Envelope}
    (ended : runFrom (updateHistory client ctx payload result params) world =
      (.ok updated, after)) :
    Advances history params updated world after
      [⟨safelyStringify payload, safelyStringify result.payload⟩] := by
  have added : transcript [⟨safelyStringify payload, safelyStringify result.payload⟩] =
      [⟨"user", safelyStringify payload⟩, ⟨"assistant", safelyStringify result.payload⟩] := rfl
  rw [updateHistory, if_neg (by simp [persists]), remembers] at ended
  dsimp only at ended
  split at ended
  next named =>
    obtain ⟨err, reached, stores, returned⟩ := runFrom_bind_ok ended
    obtain ⟨_, _, appended, grown⟩ := appends.append ctx (params.currentHistory ++
      [⟨"user", safelyStringify payload⟩, ⟨"assistant", safelyStringify result.payload⟩]) world
    rw [same, appended] at stores
    cases stores
    cases returned
    refine ⟨rfl, rfl, by rw [added], ?_⟩
    rw [grown, stored, if_neg named.1]
    simp [persisted, Exchange.messages]
  next unnamed =>
    cases ended
    refine ⟨rfl, rfl, by rw [added], ?_⟩
    have empty : params.sessionID = "" := by
      by_contra named
      exact unnamed ⟨named, persists⟩
    simp [stored, empty]

theorem Advances.unexecuted (same : SameRun params updated) (kept : history after = history world) :
    Advances history params updated world after [] where
  session := same.session
  mode := same.mode
  current := by simp [same.current, transcript]
  history := by simp [kept]

theorem payload_steer {executed result : Envelope}
    (ended : runFrom (steer client ctx executed) world = (.ok result, after)) :
    result.payload = executed.payload := by
  have yields : Yields (fun _ _ => True) (steer client ctx executed)
      fun result => result.payload = executed.payload := by
    unfold steer
    split
    · refine .bind (.operation trivial) fun steering _ => ?_
      split <;> exact .pure _ rfl
    · exact .pure _ rfl
  exact yields.result ended

variable (leaves : client.LeavesHistory session history)
  (appends : AppendsToEnd memory session history)
  (remembers : client.agentMemory = some memory)
include leaves appends remembers

section

variable (persists : params.memoryMode = .persist) (same : params.sessionID = session)

include persists same

theorem tracedStep_advances {actionName : String}
    (ended : runFrom (tracedStep client ctx actionName payload params) world =
      (.ok ((outcome, updated), exchanges), after)) :
    Advances history params updated world after exchanges := by
  unfold tracedStep at ended
  split at ended
  · cases ended
    exact .unexecuted ⟨rfl, rfl, rfl⟩ rfl
  next action registered =>
    obtain ⟨env, injected, began, ended⟩ := runFrom_bind_ok ended
    obtain ⟨answer, executed, ran, ended⟩ := runFrom_bind_ok ended
    have unchanged : history executed = history world :=
      (history_of_confined (leaves.execute _ action registered ctx env) ran).trans
        (history_of_confined (leaves.injectContext _ _ _) began)
    cases answer with
    | error err =>
      simp only [runFrom_pure, Prod.mk.injEq, Except.ok.injEq] at ended
      obtain ⟨⟨handled, rfl⟩, rfl⟩ := ended
      have same := sameRun_handleExecutionError ctx err payload params
      rw [handled] at same
      exact .unexecuted same unchanged
    | ok returned =>
      obtain ⟨result, steered, steers, ended⟩ := runFrom_bind_ok ended
      obtain ⟨current, updatedWorld, updates, ended⟩ := runFrom_bind_ok ended
      obtain ⟨_, saved, checkpoints, ended⟩ := runFrom_bind_ok ended
      obtain ⟨decided, decidedWorld, decides, ended⟩ := runFrom_bind_ok ended
      cases ended
      have step := updateHistory_advances appends remembers (by exact persists)
        (by exact same) updates
      rw [payload_steer steers] at step
      have decision := (leaves.handleDecision _ _ _ _).result decides
      have before := (history_of_confined (leaves.steer _) steers).trans unchanged
      have later : history after = history updatedWorld :=
        (history_of_confined (leaves.handleDecision _ _ _ _).confined decides).trans
          (history_of_confined (leaves.checkpointed _ (step.session.trans same)) checkpoints)
      exact ⟨decision.session.trans step.session, decision.mode.trans step.mode,
        decision.current.trans step.current, by rw [later, step.history, before]⟩

theorem tracedSteps_history {remaining step : Nat} {action : String}
    (ended : runFrom (tracedSteps client ctx remaining step action payload params) world =
      (.ok (outcome, exchanges), after)) :
    history after = history world ++ stored session params.currentHistory exchanges := by
  induction remaining generalizing step action payload params world outcome exchanges with
  | zero =>
    cases ended
    simp
  | succ remaining ih =>
    unfold tracedSteps at ended
    split at ended
    · cases ended
      simp
    · obtain ⟨⟨⟨answer, updated⟩, executed⟩, reached, stepped, ended⟩ := runFrom_bind_ok ended
      have advance := tracedStep_advances leaves appends remembers persists same stepped
      have stops {last : Except GoError Envelope}
          (ended : runFrom (pure (last, executed) : Stateful Panic World _) reached =
            (.ok (outcome, exchanges), after)) :
          history after = history world ++ stored session params.currentHistory exchanges := by
        cases ended
        rw [advance.history, same]
      have continues {recorded : ExecutionParams} {next : String} {nextPayload : Value}
          (ended : runFrom (do
            let later ← tracedSteps client ctx remaining (step + 1) next nextPayload recorded
            return (later.1, executed ++ later.2)) reached = (.ok (outcome, exchanges), after))
          (kept : SameRun updated recorded) :
          history after = history world ++ stored session params.currentHistory exchanges := by
        obtain ⟨later, _, runs, returned⟩ := runFrom_bind_ok ended
        cases returned
        have rest := ih (kept.mode.trans (advance.mode.trans persists))
          (kept.session.trans (advance.session.trans same)) runs
        rw [rest, advance.history, same, kept.current, advance.current, stored_append,
          List.append_assoc]
      cases answer with
      | error err => exact stops ended
      | ok result =>
        dsimp only at ended
        split at ended
        · split at ended
          · exact stops ended
          · exact stops ended
          · exact continues ended ⟨rfl, rfl, rfl⟩
        · split at ended
          · exact continues ended ⟨rfl, rfl, rfl⟩
          · exact stops ended

end

omit leaves appends remembers in
/-- The history that a run on the session starts with: that of its durable state, or else what
is stored. -/
def startHistory (client : Client (Stateful Panic World))
    (memory : AgentMemory (Stateful Panic World)) (history : World → List Message)
    (ctx : Context) (session : String) (world : World) : List Message :=
  match client.stateManager with
  | none => history world
  | some manager =>
    let reached := (runFrom (memory.read ctx session) world).2
    match (runFrom (manager.hydrate ctx session) reached).1 with
    | .ok (.ok (some state)) => state.executionCtx.currentHistory
    | _ => history world

variable {start : Value × ExecutionParams}

theorem start_spec {loaded : ExecutionParams} {read : World}
    (persists : params.memoryMode = .persist) (same : params.sessionID = session)
    (named : session ≠ "")
    (loads : runFrom (loadHistory client ctx params) world = (.ok loaded, read))
    (hydrates : runFrom (hydrate client ctx payload loaded) read = (.ok start, after)) :
    history after = history world ∧ start.2.memoryMode = .persist ∧
      start.2.sessionID = session ∧
      start.2.currentHistory = startHistory client memory history ctx session world := by
  obtain ⟨err, reached, reads, kept⟩ := appends.read ctx world
  have loading : runFrom (loadHistory client ctx params) world =
      (.ok { params with currentHistory := history world }, reached) := by
    rw [loadHistory, if_pos ⟨persists, same ▸ named⟩, remembers]
    dsimp only
    rw [same, runFrom_bind, reads]
    rfl
  rw [loading] at loads
  cases loads
  unfold hydrate at hydrates
  unfold startHistory
  cases managed : client.stateManager with
  | none =>
    simp only [managed] at hydrates
    cases hydrates
    exact ⟨kept, persists, same, rfl⟩
  | some manager =>
    simp only [managed, same, named, if_false] at hydrates
    obtain ⟨state, _, hydration, returned⟩ := runFrom_bind_ok hydrates
    have unchanged := history_of_confined (leaves.hydrate manager managed ctx) hydration
    simp only [reads, hydration]
    rcases state with err | _ | state
    all_goals
      cases returned
      exact ⟨unchanged.trans kept, persists, rfl, rfl⟩

omit leaves appends remembers in
theorem start_unnamed {params loaded : ExecutionParams} {payload : Value} {read : World}
    (unnamed : params.sessionID = "")
    (loads : runFrom (loadHistory client ctx params) world = (.ok loaded, read))
    (hydrates : runFrom (hydrate client ctx payload loaded) read = (.ok start, after)) :
    after = world ∧ start.2 = params := by
  rw [loadHistory, if_neg (by simp [unnamed])] at loads
  cases loads
  unfold hydrate at hydrates
  split at hydrates
  · cases hydrates
    exact ⟨rfl, rfl⟩
  · rw [if_pos unnamed] at hydrates
    cases hydrates
    exact ⟨rfl, rfl⟩

theorem tracedCall_history {actionName : String} {input : Value} {opts : List ExecuteOption}
    (persists : (startOf input opts).2.memoryMode = .persist)
    (same : (startOf input opts).2.sessionID = session)
    (ended : runFrom (tracedCall client ctx actionName input opts) world =
      (.ok (outcome, exchanges), after)) :
    history after = history world ++
      stored session (startHistory client memory history ctx session world) exchanges := by
  obtain ⟨loaded, read, loads, later⟩ := runFrom_bind_ok ended
  obtain ⟨start, hydrated, hydrates, steps⟩ := runFrom_bind_ok later
  by_cases named : session = ""
  · obtain ⟨rfl, kept⟩ := start_unnamed (same.trans named) loads hydrates
    rw [tracedSteps_history leaves appends remembers (kept ▸ persists) (kept ▸ same) steps]
    simp [stored, named]
  · obtain ⟨kept, mode, sessionID, current⟩ :=
      start_spec leaves appends remembers persists same named loads hydrates
    rw [tracedSteps_history leaves appends remembers mode sessionID steps, kept, current]

omit leaves appends remembers in
/-- The exchanges of a call, unless it panics. -/
def exchangesOf (client : Client (Stateful Panic World)) (ctx : Context) (actionName : String)
    (input : Value) (opts : List ExecuteOption) (world : World) : Option (List Exchange) :=
  (runFrom (tracedCall client ctx actionName input opts) world).1.toOption.map (·.2)

/-- The history after a call is the one before with each exchange of the call once, exactly if
no step was executed, or only one and on an empty history. -/
theorem history_exact_iff {actionName : String} {input : Value} {opts : List ExecuteOption}
    (persists : (startOf input opts).2.memoryMode = .persist)
    (same : (startOf input opts).2.sessionID = session) {exchanges : List Exchange}
    (said : exchangesOf client ctx actionName input opts world = some exchanges) :
    history (runFrom (executeByName client ctx actionName input opts) world).2 =
        history world ++ transcript exchanges ↔
      exchanges = [] ∨ (session ≠ "" ∧ exchanges.length = 1 ∧
        startHistory client memory history ctx session world = []) := by
  rw [← fst_tracedCall, map_eq_pure_bind, after_bind fun _ _ => rfl]
  rcases ended : runFrom (tracedCall client ctx actionName input opts) world
    with ⟨fault | ⟨outcome, _⟩, after⟩
  · rw [exchangesOf, ended] at said
    cases said
  · rw [exchangesOf, ended] at said
    cases said
    rw [tracedCall_history leaves appends remembers persists same ended,
      List.append_cancel_left_eq, stored_eq_transcript_iff]
    tauto

end Runs

/-- The first call on a session has one step, and is stored as it was. -/
theorem first_call_stored :
    let opts := [withSessionID "first"]
    exchangesOf bank.client {} "send" (.string "hello") opts bankStart =
        some [⟨"hello", ""⟩] ∧
      (runFrom (executeByName bank.client {} "send" (.string "hello") opts)
          bankStart).2.histories "first" =
        bankStart.histories "first" ++ transcript [⟨"hello", ""⟩] := by
  intro opts
  have said : exchangesOf bank.client {} "send" (.string "hello") opts bankStart =
      some [⟨"hello", ""⟩] := by decide +kernel
  have fresh : startHistory bank.client bank.memory (fun world => world.histories "first") {}
      "first" bankStart = [] := by decide +kernel
  have stored := history_exact_iff (bank.leavesHistory "first") (bank.appendsToEnd "first") rfl
    rfl rfl said
  exact ⟨said, stored.mpr (.inr ⟨by decide, rfl, fresh⟩)⟩

/-- The second one continues with the result of the first, and stores the exchange of the first
again before its own. -/
theorem second_call_repeats :
    let call : Call := ⟨{}, "send", .string "hello", [withSessionID "first"]⟩
    let world := (bank.serve call bankStart).2
    world.histories "first" = transcript [⟨"hello", ""⟩] ∧
      exchangesOf bank.client {} "send" (.string "hello") [withSessionID "first"] world =
        some [⟨"", ""⟩] ∧
      (bank.serve call world).2.histories "first" =
        transcript [⟨"hello", ""⟩, ⟨"hello", ""⟩, ⟨"", ""⟩] := by
  decide +kernel

end Manglekit.Sdk

import Manglekit.Sdk.Checkpoints
import Manglekit.Sdk.LoopTrace
import Manglekit.Sdk.Sessions

/-!
# Runs on a session resume it

A run that proceeds leaves the state of its last step with the state provider, and the next run
on the session starts from there: with the payload of that step's result and with the retries
that the run had used.  Only a run that finds no state starts with its own input.
-/

namespace Manglekit.Sdk

open Core Effects

/-! ## Stored states -/

section Stored

variable {Data : Type}

def StateCodec.encode (codec : StateCodec Data) (state : SessionState) : Option Data :=
  match state.validate with
  | some _ => none
  | none => (codec.marshal state).toOption

/-- The state in which a run ended, if its last step had a result. -/
def finalState (passes : List Pass) : Option SessionState :=
  match passes.getLast? with
  | some ⟨_, .ok result, after⟩ => some (snapshot after result)
  | _ => none

/-- Where a run starts that finds the raw state: with its own input, or resumed. -/
def startingPoint (codec : StateCodec Data) (stored : Option (RawState Data)) (input : Value) :
    Value × Nat :=
  match stored.bind fun raw => (codec.reconstruct raw).toOption with
  | some state => (state.activeEnvelope.payload, state.executionCtx.retryCount)
  | none => (input, 0)

end Stored

/-! ## One step -/

variable {result : Envelope} {payload : Value}

section Step

variable {World Data : Type}

/-- The client keeps the states of its sessions with the manager, and `slot` is what is stored
for the session.  Nothing but a checkpoint touches it. -/
structure Durable (client : Client (Stateful Panic World))
    (manager : DurableStateManager (Stateful Panic World) Data) (session : String)
    (slot : World → Option (RawState Data)) : Prop where
  managed : client.stateManager = some manager.stateManager
  named : session ≠ ""
  get : ∀ ctx world, ∃ after,
    runFrom (manager.provider.get ctx session) world = (.ok (.ok (slot world)), after) ∧
      slot after = slot world
  set : ∀ ctx data world outcome after,
    runFrom (manager.provider.set ctx session data) world = (outcome, after) →
      slot after = some (.bytes data)
  loadFacts : ∀ ctx facts, Preserves slot _ (manager.loadFacts ctx facts)
  surroundings : client.unrecording.Confined (Preserves slot) (fun _ => True) session
  read : ∀ memory ∈ client.agentMemory, ∀ ctx, Preserves slot _ (memory.read ctx session)
  memorize : ∀ memory ∈ client.agentMemory, ∀ input output,
    Preserves slot _ (memory.memorize input output)

variable {client : Client (Stateful Panic World)}
  {manager : DurableStateManager (Stateful Panic World) Data} {session : String}
  {slot : World → Option (RawState Data)} {ctx : Context} {params : ExecutionParams}
  {world after : World}

def written (codec : StateCodec Data) (state : SessionState) (before : Option (RawState Data)) :
    Option (RawState Data) :=
  ((codec.encode state).map .bytes).or before

variable (durable : Durable client manager session slot)
include durable

theorem slot_checkpoint (same : params.sessionID = session)
    (ended : runFrom (checkpoint client ctx result params) world = (.ok (), after)) :
    slot after =
      if proceeds result = true then
        written manager.codec (snapshot params result) (slot world)
      else slot world := by
  unfold checkpoint at ended
  rw [durable.managed] at ended
  dsimp only at ended
  split at ended
  next recorded =>
    obtain ⟨facts, _, extracts, ended⟩ := runFrom_bind_ok ended
    cases extracts
    obtain ⟨err, _, saves, ended⟩ := runFrom_bind_ok ended
    cases ended
    rw [if_pos recorded.2]
    change runFrom (manager.checkpoint ctx (snapshot params result)) world =
      (.ok err, after) at saves
    unfold DurableStateManager.checkpoint at saves
    unfold written StateCodec.encode
    split at saves
    next invalid =>
      cases saves
      simp [invalid]
    next valid =>
      split at saves
      next failed =>
        cases saves
        simp [valid, failed, Except.toOption]
      next data marshalled =>
        obtain ⟨answer, set, sets, ended⟩ := runFrom_bind_ok saves
        have sessionID : (snapshot params result).sessionID = session := same
        rw [sessionID] at sets
        have stored := durable.set ctx data world _ _ sets
        have kept : after = set := by
          split at ended <;> exact (congrArg Prod.snd ended).symm
        simp [valid, marshalled, Except.toOption, kept, stored]
  next unrecorded =>
    cases ended
    rw [if_neg fun proceeding => unrecorded ⟨same ▸ durable.named, proceeding⟩]

omit durable in
theorem proceeds_text (proceeding : proceeds result = true) (outcome : Outcome)
    (other : outcome ∈ [Outcome.retry, .route, .halt]) :
    result.hasText keyDecision outcome.text = false := by
  by_contra decides
  rw [proceeds_of_turnsAway ⟨outcome, other, by simpa using decides⟩] at proceeding
  exact Bool.false_ne_true proceeding

variable {actionName : String}

omit durable in
theorem decided_of_proceeds (proceeding : proceeds result = true) :
    decided client ctx actionName result params = (.ok result, params) := by
  unfold decided
  rw [if_neg, if_neg, if_neg]
  · simp [proceeds_text proceeding .halt (by decide)]
  · simp [proceeds_text proceeding .route (by decide)]
  · simp [proceeds_text proceeding .retry (by decide)]

variable {updated : ExecutionParams}

omit durable in
theorem decided_of_not_proceeds {answered : Envelope} (stops : proceeds result = false)
    (answers : decided client ctx actionName result params = (.ok answered, updated)) :
    proceeds answered = false := by
  unfold decided at answers
  split at answers
  · unfold handleRetryDecision at answers
    split at answers
    · cases answers
    · dsimp only at answers
      split at answers
      · cases answers
      · have waited := congrArg Prod.fst answers
        dsimp only [backoff] at waited
        split at waited
        · cases waited
        · cases waited
          exact stops
  · split at answers
    · cases answers
      exact stops
    · split at answers
      · cases answers
      · cases answers
        exact stops

theorem slot_asyncMemorize {input output : Value} {outcome : Except Panic Unit}
    (ended : runFrom (asyncMemorize client input output) world = (outcome, after)) :
    slot after = slot world := by
  unfold asyncMemorize at ended
  split at ended
  · cases ended
    rfl
  next memory found => exact (durable.memorize memory found _ _).view_eq ended

def slotAfter (codec : StateCodec Data) (answer : Except GoError Envelope)
    (updated : ExecutionParams) (before : Option (RawState Data)) : Option (RawState Data) :=
  match answer with
  | .ok result =>
    if proceeds result = true then written codec (snapshot updated result) before else before
  | .error _ => before

variable {answer : Except GoError Envelope}

omit durable in
theorem slotAfter_handleExecutionError {err : GoError} (codec : StateCodec Data)
    (before : Option (RawState Data))
    (handled : handleExecutionError ctx err payload params = (answer, updated)) :
    slotAfter codec answer updated before = before := by
  unfold handleExecutionError at handled
  split at handled
  · cases handled
    rfl
  · split at handled
    · cases handled
      rfl
    · dsimp only [backoff] at handled
      split at handled
      · cases handled
        rfl
      · cases handled
        have turns : TurnsAway ((newEnvelope payload).setMeta keyDecision
            (.string Outcome.retry.text)) :=
          ⟨.retry, by decide, by simp [Envelope.hasText, Envelope.setMeta, Value.string?]⟩
        simp [slotAfter, proceeds_of_turnsAway turns]

theorem slot_handleDecision {before : World} (same : params.sessionID = session)
    (checkpointed : slot world = if proceeds result = true then
      written manager.codec (snapshot params result) (slot before) else slot before)
    (ended : runFrom (handleDecision client ctx actionName result payload params) world =
      (.ok (answer, updated), after)) :
    updated.sessionID = session ∧
      slot after = slotAfter manager.codec answer updated (slot before) := by
  rw [handleDecision_eq] at ended
  split at ended
  next proceeding =>
    obtain ⟨_, memorized, memorizes, ended⟩ := runFrom_bind_ok ended
    rw [decided_of_proceeds proceeding] at ended
    cases ended
    rw [if_pos proceeding] at checkpointed
    exact ⟨same, (slot_asyncMemorize durable memorizes).trans
      (checkpointed.trans (if_pos proceeding).symm)⟩
  next stops =>
    rw [runFrom_pure, Prod.mk.injEq, Except.ok.injEq] at ended
    obtain ⟨decides, rfl⟩ := ended
    rw [if_neg stops] at checkpointed
    have session := Client.Confined.sessionID_decided client ctx actionName result params
    rw [decides] at session
    refine ⟨session.trans same, checkpointed.trans ?_⟩
    cases answer with
    | error err => rfl
    | ok answered =>
      simp [slotAfter, decided_of_not_proceeds (by simpa using stops) decides]

theorem slot_executeSingleStep (same : params.sessionID = session)
    (ended : runFrom (executeSingleStep client ctx actionName payload params) world =
      (.ok (answer, updated), after)) :
    updated.sessionID = session ∧
      slot after = slotAfter manager.codec answer updated (slot world) := by
  unfold executeSingleStep at ended
  split at ended
  · cases ended
    exact ⟨same, rfl⟩
  next action registered =>
    obtain ⟨env, injected, injects, ended⟩ := runFrom_bind_ok ended
    obtain ⟨executed, ran, executes, ended⟩ := runFrom_bind_ok ended
    rw [← injectContext_unrecording] at injects
    have executing := durable.surroundings.execute _ action registered ctx env trivial
    have unchanged : slot ran = slot world :=
      ((preserves_of_yields executing).view_eq executes).trans
        ((preserves_of_yields (durable.surroundings.injectContext trivial _ _ _)).view_eq injects)
    cases executed with
    | error err =>
      rw [runFrom_pure, Prod.mk.injEq, Except.ok.injEq] at ended
      obtain ⟨handled, rfl⟩ := ended
      have session := Client.Confined.sessionID_handleExecutionError ctx err payload params
      rw [handled] at session
      exact ⟨session.trans same, unchanged.trans (slotAfter_handleExecutionError _ _ handled).symm⟩
    | ok executed =>
      obtain ⟨result, steered, steers, ended⟩ := runFrom_bind_ok ended
      obtain ⟨current, appended, appends, ended⟩ := runFrom_bind_ok ended
      obtain ⟨_, saved, saves, ended⟩ := runFrom_bind_ok ended
      rw [← updateHistory_unrecording] at appends
      have updates : Yields (Preserves slot)
          (updateHistory client.unrecording ctx payload result { params with lastFeedback := "" })
          fun updated => updated.sessionID = session :=
        durable.surroundings.updateHistory payload result same
      have kept : slot appended = slot world := by
        rw [(preserves_of_yields updates).view_eq appends, (preserves_of_yields
          (durable.surroundings.steer trivial _)).view_eq steers, unchanged]
      have checkpointed := slot_checkpoint durable (updates.result appends) saves
      rw [kept] at checkpointed
      exact slot_handleDecision durable (updates.result appends) checkpointed ended

end Step

/-! ## One run -/

section Run

variable {World Data : Type} {client : Client (Stateful Panic World)}
  {manager : DurableStateManager (Stateful Panic World) Data} {session : String}
  {slot : World → Option (RawState Data)} {ctx : Context} {world : World}

/-- The run ended with a result that says `PROCEED`. -/
def RunTrace.proceeded (trace : RunTrace World) : Bool :=
  match trace.ended.1 with
  | .ok (.ok result) => result.hasText keyDecision Outcome.proceed.text
  | _ => false

variable {pass : Pass}

theorem Pass.next_of_proceeds (host : Host)
    (answered : pass.answer = .ok result) (proceeding : proceeds result = true) :
    pass.next host = .error (.ok result) := by
  unfold Pass.next
  rw [answered]
  simp [proceeds_text proceeding .route (by decide), proceeds_text proceeding .retry (by decide)]

theorem sessionID_next {next : LoopState} {host : Host}
    (continues : pass.next host = .ok next) : next.params.sessionID = pass.after.sessionID := by
  obtain ⟨records, same⟩ := Pass.params_of_next continues
  rw [same]

theorem Pass.answer_of_next {host : Host}
    (stops : pass.next host = .error (.ok result)) : pass.answer = .ok result := by
  unfold Pass.next at stops
  split at stops
  · cases stops
  next answered answer =>
    dsimp only at stops
    split at stops
    · split at stops <;> cases stops
    · split at stops
      · cases stops
      · cases stops
        exact answer

theorem slotAfter_of_continues {next : LoopState} {host : Host}
    {codec : StateCodec Data} {before : Option (RawState Data)}
    (continues : pass.next host = .ok next) :
    slotAfter codec pass.answer pass.after before = before := by
  unfold slotAfter
  split
  next result answered =>
    refine if_neg fun proceeding => ?_
    rw [Pass.next_of_proceeds host answered proceeding] at continues
    cases continues
  · rfl

theorem finalState_cons {passes : List Pass} {final : SessionState}
    (found : finalState passes = some final) : finalState (pass :: passes) = some final := by
  cases passes with
  | nil => cases found
  | cons next later =>
    unfold finalState at found ⊢
    rwa [List.getLast?_cons_cons]

theorem result_of_proceeded {outcome : Except GoError Envelope} {passes : List Pass}
    (proceeded : (RunTrace.mk (.ok outcome, world) passes).proceeded = true) :
    ∃ result, outcome = .ok result ∧ result.hasText keyDecision Outcome.proceed.text = true := by
  cases outcome with
  | error err => cases proceeded
  | ok result => exact ⟨result, rfl, proceeded⟩

theorem head_tracedPasses {remaining : Nat} {state : LoopState} {final : SessionState}
    (found : finalState (tracedPasses client ctx remaining state world).passes = some final) :
    ∃ first, (tracedPasses client ctx remaining state world).passes.head? = some first ∧
      first.before = state := by
  cases remaining with
  | zero => cases found
  | succ remaining =>
    unfold tracedPasses at found ⊢
    split at found
    · cases found
    · split at found
      · cases found
      · dsimp only at found ⊢
        split <;> exact ⟨_, rfl, rfl⟩

/-- A run that proceeds leaves the state of its last step.  By induction on the number of steps
that are left. -/
theorem slot_tracedPasses (durable : Durable client manager session slot) {remaining : Nat}
    {state : LoopState} (same : state.params.sessionID = session)
    (proceeded : (tracedPasses client ctx remaining state world).proceeded = true) :
    ∃ final, finalState (tracedPasses client ctx remaining state world).passes = some final ∧
      slot (tracedPasses client ctx remaining state world).ended.2 =
        written manager.codec final (slot world) := by
  induction remaining generalizing state world with
  | zero => cases proceeded
  | succ remaining ih =>
    unfold tracedPasses at proceeded ⊢
    split at proceeded
    · cases proceeded
    · split at proceeded
      · cases proceeded
      next unexpired _ answer after reached stepped =>
        obtain ⟨kept, step⟩ := slot_executeSingleStep durable same stepped
        dsimp only at proceeded ⊢
        split at proceeded
        next outcome stops =>
          obtain ⟨result, rfl, decides⟩ := result_of_proceeded proceeded
          have answered : answer = .ok result := Pass.answer_of_next stops
          subst answered
          refine ⟨snapshot after result, rfl, ?_⟩
          rw [step, slotAfter, if_pos (by simp [proceeds, decides])]
        next next continues =>
          have unwritten : slot reached = slot world := by
            rw [step]
            exact slotAfter_of_continues continues
          obtain ⟨final, found, stored⟩ := ih ((sessionID_next continues).trans kept) proceeded
          exact ⟨final, finalState_cons found, unwritten ▸ stored⟩

variable {reached : World}

theorem slot_hydrate (durable : Durable client manager session slot)
    {hydrated : Except GoError (Option SessionState)}
    (ended : runFrom (manager.hydrate ctx session) world = (.ok hydrated, reached)) :
    hydrated.toOption.join =
        (slot world).bind (fun raw => (manager.codec.reconstruct raw).toOption) ∧
      slot reached = slot world := by
  unfold DurableStateManager.hydrate at ended
  rw [if_neg durable.named] at ended
  obtain ⟨answer, got, gets, ended⟩ := runFrom_bind_ok ended
  obtain ⟨_, read, kept⟩ := durable.get ctx world
  rw [read] at gets
  cases gets
  split at ended
  next failed => cases failed
  next found =>
    cases ended
    rw [Except.ok.injEq] at found
    exact ⟨by simp [found, Except.toOption], kept⟩
  next raw found =>
    rw [Except.ok.injEq] at found
    rw [found, Option.bind_some]
    split at ended
    next invalid =>
      cases ended
      exact ⟨by simp [invalid, Except.toOption], found ▸ kept⟩
    next state valid =>
      split at ended
      · obtain ⟨_, loaded, loads, ended⟩ := runFrom_bind_ok ended
        cases ended
        exact ⟨by simp [valid, Except.toOption],
          ((durable.loadFacts _ _).view_eq loads).trans (found ▸ kept)⟩
      · cases ended
        exact ⟨by simp [valid, Except.toOption], found ▸ kept⟩

theorem slot_loadHistory (durable : Durable client manager session slot)
    {params loaded : ExecutionParams} (same : params.sessionID = session)
    (ended : runFrom (loadHistory client ctx params) world = (.ok loaded, reached)) :
    loaded.sessionID = session ∧ loaded.retryCount = params.retryCount ∧
      slot reached = slot world := by
  unfold loadHistory at ended
  split at ended
  · split at ended
    · cases ended
    next memory found =>
      obtain ⟨history, read, reads, ended⟩ := runFrom_bind_ok ended
      cases ended
      rw [same] at reads
      exact ⟨same, rfl, (durable.read memory found ctx).view_eq reads⟩
  · cases ended
    exact ⟨same, rfl, rfl⟩

theorem start_durable (durable : Durable client manager session slot) {params : ExecutionParams}
    {start : Value × ExecutionParams}
    (same : params.sessionID = session) (unused : params.retryCount = 0)
    (started : runFrom (loadHistory client ctx params >>= hydrate client ctx payload) world =
      (.ok start, reached)) :
    (start.1, start.2.retryCount) = startingPoint manager.codec (slot world) payload ∧
      start.2.sessionID = session ∧ slot reached = slot world := by
  obtain ⟨loaded, read, loads, hydrates⟩ := runFrom_bind_ok started
  obtain ⟨sessionID, retries, kept⟩ := slot_loadHistory durable same loads
  unfold hydrate at hydrates
  rw [durable.managed] at hydrates
  dsimp only at hydrates
  rw [sessionID, if_neg durable.named] at hydrates
  obtain ⟨hydrated, restored, hydration, returned⟩ := runFrom_bind_ok hydrates
  obtain ⟨found, unchanged⟩ := slot_hydrate durable hydration
  rw [kept] at found unchanged
  unfold startingPoint
  rw [← found]
  rcases hydrated with err | _ | state
  · cases returned
    exact ⟨by simp [Except.toOption, retries, unused], sessionID, unchanged⟩
  · cases returned
    exact ⟨by simp [Except.toOption, retries, unused], sessionID, unchanged⟩
  · cases returned
    exact ⟨rfl, rfl, unchanged⟩

end Run

/-! ## Calls on a session -/

section Calls

variable {World Data : Type} {client : Client (Stateful Panic World)}
  {manager : DurableStateManager (Stateful Panic World) Data} {session : String}
  {slot : World → Option (RawState Data)}

def callTrace (client : Client (Stateful Panic World)) (call : Call) (world : World) :
    RunTrace World :=
  tracedRun client call.ctx call.actionName (startOf call.input call.opts).1
    (startOf call.input call.opts).2 world

def serveAll (client : Client (Stateful Panic World)) : List Call → World → List (RunTrace World)
  | [], _ => []
  | call :: rest, world =>
    callTrace client call world :: serveAll client rest (callTrace client call world).ended.2

def storedBy (codec : StateCodec Data) (initial : Option (RawState Data))
    (states : List SessionState) : Option (RawState Data) :=
  states.foldl (fun stored state => written codec state stored) initial

theorem callTrace_spec (durable : Durable client manager session slot) {call : Call}
    {world : World} (onSession : call.session = session)
    (unused : (startOf call.input call.opts).2.retryCount = 0)
    (proceeded : (callTrace client call world).proceeded = true) :
    (∃ first, (callTrace client call world).passes.head? = some first ∧
        (first.before.payload, first.before.params.retryCount) =
          startingPoint manager.codec (slot world) (startOf call.input call.opts).1) ∧
      ∃ final, finalState (callTrace client call world).passes = some final ∧
        slot (callTrace client call world).ended.2 = written manager.codec final (slot world) := by
  unfold callTrace tracedRun at proceeded ⊢
  split at proceeded
  · cases proceeded
  next start reached started =>
    obtain ⟨starts, sessionID, kept⟩ := start_durable durable onSession unused started
    obtain ⟨final, found, stored⟩ := slot_tracedPasses durable sessionID proceeded
    refine ⟨?_, final, found, kept ▸ stored⟩
    obtain ⟨first, begins, state⟩ := head_tracedPasses found
    exact ⟨first, begins, by rw [state]; exact starts⟩

end Calls

/-! ## Installations -/

theorem Installation.durable {Key Data : Type} [DecidableEq Key]
    (installation : Installation Key Data) {session : String} (named : session ≠ "") :
    Durable installation.client installation.manager session
      (fun world => world.sessions session) where
  managed := rfl
  named := named
  get _ world := ⟨world, rfl, rfl⟩
  set _ data world _ _ ended := by
    cases ended
    exact Function.update_self ..
  loadFacts _ _ _ := rfl
  read memory found _ := by
    cases found
    exact fun _ => rfl
  memorize memory found _ _ := by
    cases found
    exact fun _ => rfl
  surroundings :=
    have engine : installation.engine.Confined
        (Preserves fun world : World Key Data => world.sessions session) fun _ => True :=
      ⟨.operation fun _ => rfl, fun _ _ _ _ => .operation fun _ => rfl,
        fun _ _ _ _ => .operation fun _ => rfl⟩
    { engine
      execute := fun _ _ registered _ env _ =>
        action_confined engine ⟨fun _ _ _ => rfl, fun _ _ _ => trivial⟩ registered trivial env
      append := fun memory found _ _ => by
        cases found
        exact .operation fun _ => rfl
      recallText := fun memory found _ _ => by
        cases found
        exact .pure _
      recallWithFacts := fun memory found search offered _ _ => by
        cases found
        obtain ⟨behaviour, _, rfl⟩ := Option.map_eq_some_iff.mp offered
        exact .pure _
      memorize := fun memory found _ _ => by
        cases found
        exact .pure _
      extractFacts := fun manager found => by cases found
      checkpoint := fun manager found => by cases found }

def desk : Installation Engine.Reference.Key SessionState where
  mangle := Engine.Reference.mangle
  host := Engine.Reference.host
  clientHost := asciiHost
  codec := ⟨.ok, .ok⟩
  capabilities := AList.singleton "answer"
    { metadata := { name := "answer" }
      behaviour := fun env =>
        let answer := newEnvelope (.string ("answer to " ++ env.payload.sprint))
        .ok (answer.setMeta keyDecision (.string "PROCEED"))
      supervised := false }

/-- The first call on a session, and the second. -/
def questions : List Call :=
  ["why", "how"].map fun question => ⟨{}, "answer", .string question, [withSessionID "first"]⟩

def starts (traces : List (RunTrace (World Engine.Reference.Key SessionState))) :
    List (Option (String × Nat)) :=
  traces.map fun trace => trace.passes.head?.map fun first =>
    (first.before.payload.sprint, first.before.params.retryCount)

end Manglekit.Sdk

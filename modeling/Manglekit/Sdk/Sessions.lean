import Manglekit.Engine.Interchangeable
import Manglekit.Sdk.Confinement
import Manglekit.Sdk.StateManager

/-!
# Sessions that share a client

The sessions of a client have their own durable states and histories, but they share
one engine.  A session whose state carries logical facts loads them into that engine
when it is hydrated, and all sessions see them from then on.  Sessions that load no
facts do not interfere with others.
-/

namespace Manglekit.Sdk

open Core Effects

/-! ## A client with a state provider -/

section Model

variable (Key Data : Type)

/-- What the calls on one client share: the runtime, and the durable state and the history
of each session. -/
structure World where
  runtime : Engine.MangleRuntime Key
  sessions : String → Option (RawState Data) := fun _ => none
  histories : String → List Message := fun _ => []

abbrev ClientM := Stateful Panic (World Key Data)

structure Capability where
  metadata : ActionMetadata
  behaviour : Envelope → Except GoError Envelope
  extractor : Option (String → Except GoError Value) := none
  supervised : Bool := true

/-- What a client is made of.  Its semantic memory is only read: the stores of a new
client keep nothing. -/
structure Installation where
  mangle : Engine.Mangle Key
  host : Engine.Host
  clientHost : Host
  codec : StateCodec Data
  capabilities : StringMap Capability
  recallText : String → Except GoError String := fun _ => .ok ""
  recallWithFacts : Option (String → Except GoError (String × Metadata)) := none
  maxSteps : Int := 0
  steeringEnabled : Bool := false

variable {Key Data} {Result : Type}

def stateful (body : World Key Data → Except Panic Result × World Key Data) :
    ClientM Key Data Result :=
  ExceptT.mk (StateT.mk fun world => body world)

@[simp]
theorem runFrom_stateful (body : World Key Data → Except Panic Result × World Key Data)
    (world : World Key Data) : runFrom (stateful body) world = body world := rfl

def onRuntime (process : Engine.RuntimeM Key Result) : ClientM Key Data Result :=
  stateful fun world =>
    ((process.exec world.runtime).1, { world with runtime := (process.exec world.runtime).2 })

def provider : StateProvider (ClientM Key Data) Data where
  get _ sessionID := stateful fun world => (.ok (.ok (world.sessions sessionID)), world)
  set _ sessionID data := stateful fun world => (.ok none,
    { world with sessions := Function.update world.sessions sessionID (some (.bytes data)) })

namespace Installation

variable [DecidableEq Key] (installation : Installation Key Data)

def engine : Engine.PolicyEngine (ClientM Key Data) where
  host := installation.host
  parseAtom := installation.mangle.parseAtom
  runtime :=
    { isReady := onRuntime Engine.isReady
      queryWithSolutions ctx facts query :=
        onRuntime (Engine.queryWithSolutions installation.mangle ctx facts query)
      executeQuery ctx facts query :=
        onRuntime (Engine.executeQuery installation.mangle ctx facts query) }

omit [DecidableEq Key] in
def manager : DurableStateManager (ClientM Key Data) Data where
  provider := provider
  codec := installation.codec
  loadFacts ctx facts := onRuntime (Engine.loadFacts installation.mangle ctx facts)

omit [DecidableEq Key] in
def memory : AgentMemory (ClientM Key Data) where
  read _ sessionID := stateful fun world => (.ok (world.histories sessionID, none), world)
  append _ sessionID messages := stateful fun world => (.ok none,
    { world with
      histories := Function.update world.histories sessionID
        (world.histories sessionID ++ messages) })
  recallText _ text := pure (installation.recallText text)
  recallWithFacts := installation.recallWithFacts.map fun search _ text => pure (search text)
  memorize _ _ := pure ()

omit [DecidableEq Key] in
def innerAction (capability : Capability) : Supervisor.Action (ClientM Key Data) where
  metadata := capability.metadata
  execute _ env := pure (capability.behaviour env)

def action (capability : Capability) : Supervisor.Action (ClientM Key Data) :=
  if capability.supervised then
    { metadata := capability.metadata
      execute := Supervisor.SupervisedActionV2.execute
        { Supervisor.newSupervisedActionFromSDK installation.host (innerAction capability)
            (Supervisor.policyEvaluator installation.engine) with
          extractor := capability.extractor.map fun extract _ text => pure (extract text) } }
  else innerAction capability

def client : Client (ClientM Key Data) where
  engine := installation.engine
  host := installation.clientHost
  registry := StringMap.assignWith ∅ installation.action installation.capabilities
  agentMemory := some installation.memory
  stateManager := some installation.manager.stateManager
  maxSteps := installation.maxSteps
  steeringEnabled := installation.steeringEnabled

end Installation

structure Call where
  ctx : Context
  actionName : String
  input : Value
  opts : List ExecuteOption

def Call.session (call : Call) : String := (startOf call.input call.opts).2.sessionID

namespace Installation

variable [DecidableEq Key] (installation : Installation Key Data)

def serve (call : Call) (world : World Key Data) :
    Except Panic (Except GoError Envelope) × World Key Data :=
  runFrom (executeByName installation.client call.ctx call.actionName call.input call.opts) world

omit [DecidableEq Key] in
def primedFacts (world : World Key Data) (session : String) : List String :=
  if session = "" then [] else installation.codec.primedFacts (world.sessions session)

omit [DecidableEq Key] in
/-- Another session loads no facts.  If the runtime has a cache, then the context of a
call on the session itself is live, and its facts can be loaded. -/
def quiet (session : String) (world : World Key Data) (call : Call) : Bool :=
  let facts := installation.primedFacts world call.session
  if call.session = session then
    !world.runtime.cacheable ||
      (Engine.live call.ctx &&
        (Engine.addFacts installation.mangle facts (.empty, .empty)).2.isNone)
  else facts.isEmpty

end Installation

end Model

/-! ## What one session can tell -/

section Relation

variable {Key Data : Type}

/-- The session cannot tell the worlds apart.  A session that is not careful can tell
whether an evaluation was cached. -/
structure Indistinguishable (mangle : Engine.Mangle Key) (session : String) (careful : Prop)
    (first second : World Key Data) : Prop where
  runtime : Engine.Interchangeable mangle first.runtime second.runtime
  stored : first.sessions session = second.sessions session
  history : first.histories session = second.histories session
  careful : first.runtime.cacheable = false ∨ careful

variable {mangle : Engine.Mangle Key} {session : String} {careful : Prop}
  {first second third : World Key Data}

section

variable (same : Indistinguishable mangle session careful first second)

include same

theorem Indistinguishable.symm :
    Indistinguishable mangle session careful second first where
  runtime := same.runtime.symm
  stored := same.stored.symm
  history := same.history.symm
  careful := same.careful.imp_left fun uncached => same.runtime.eq_of_uncached uncached ▸ uncached

theorem Indistinguishable.trans (next : Indistinguishable mangle session careful second third) :
    Indistinguishable mangle session careful first third :=
  ⟨same.runtime.trans next.runtime, same.stored.trans next.stored,
    same.history.trans next.history, same.careful⟩

theorem Indistinguishable.imp {other : Prop}
    (implies : careful → other) : Indistinguishable mangle session other first second :=
  ⟨same.runtime, same.stored, same.history, same.careful.imp_right implies⟩

end

end Relation

/-! ## The operations of a session -/

section Operations

variable {Key Data : Type} [DecidableEq Key]

inductive Operation (mangle : Engine.Mangle Key) (session : String) (admitted : Context → Prop) :
    (Result : Type) → ClientM Key Data Result → Prop where
  | isReady : Operation mangle session admitted _ (onRuntime Engine.isReady)
  | executeQuery {ctx} (facts query) : admitted ctx →
      Operation mangle session admitted _ (onRuntime (Engine.executeQuery mangle ctx facts query))
  | queryWithSolutions {ctx} (facts query) : admitted ctx →
      Operation mangle session admitted _
        (onRuntime (Engine.queryWithSolutions mangle ctx facts query))
  | set (ctx data) : Operation mangle session admitted _ (provider.set ctx session data)
  | append (messages : List Message) : Operation mangle session admitted _
      (stateful fun world => (.ok (none : Option GoError),
        { world with
          histories := Function.update world.histories session
            (world.histories session ++ messages) }))
  | panics (Result panic) : Operation mangle session admitted Result (throw panic)

variable {mangle : Engine.Mangle Key} {session other : String} {careful : Prop} {Result : Type}
  {world after : World Key Data} {process : Engine.RuntimeM Key Result}

omit [DecidableEq Key] in
/-- A query of a careful session is answered alike.  Without a cache, the runtimes are
equal. -/
theorem agrees_query (keeps : ∀ runtime, Engine.Interchangeable mangle runtime runtime →
      Engine.Interchangeable mangle runtime (process.exec runtime).2)
    (alike : careful → ∀ runtime other, Engine.Interchangeable mangle runtime other →
      Engine.AnswersAlike mangle process runtime other)
    (same : Indistinguishable mangle session careful world after) :
    Agrees (Indistinguishable mangle session careful) (onRuntime process) world after := by
  have kept := keeps _ same.runtime.refl_left
  have answered : Engine.AnswersAlike mangle process world.runtime after.runtime := by
    rcases same.careful with uncached | holds
    · rw [← same.runtime.eq_of_uncached uncached]
      exact Engine.answersAlike_refl kept
    · exact alike holds _ _ same.runtime
  refine ⟨answered.1, answered.2, same.stored, same.history, ?_⟩
  refine same.careful.imp_left fun uncached => ?_
  exact (congrArg (·.cacheable) (kept.eq_of_uncached uncached)).symm.trans uncached

omit [DecidableEq Key] in
theorem leaves_query (keeps : ∀ runtime, Engine.Interchangeable mangle runtime runtime →
      Engine.Interchangeable mangle runtime (process.exec runtime).2)
    (same : Indistinguishable mangle session careful world world) :
    Leaves (Indistinguishable mangle session careful) (onRuntime process) world :=
  ⟨keeps _ same.runtime, rfl, rfl, same.careful⟩

variable {computation : ClientM Key Data Result}

theorem Operation.agrees (dependable : mangle.Dependable) {admitted : Context → Prop}
    (live : careful → ∀ ctx, admitted ctx → Engine.live ctx = true)
    (operation : Operation mangle session admitted Result computation)
    (same : Indistinguishable mangle session careful world after) :
    Agrees (Indistinguishable mangle session careful) computation world after := by
  cases operation with
  | isReady =>
    exact agrees_query (fun _ same => same) (fun _ _ _ => Engine.answersAlike_isReady) same
  | executeQuery facts query admits =>
    exact agrees_query (fun _ same => Engine.interchangeable_executeQuery same query)
      (fun holds _ _ same =>
        Engine.answersAlike_executeQuery dependable (live holds _ admits) same query) same
  | queryWithSolutions facts query admits =>
    exact agrees_query (fun _ same => Engine.interchangeable_queryWithSolutions same query)
      (fun holds _ _ same =>
        Engine.answersAlike_queryWithSolutions dependable (live holds _ admits) same query) same
  | set ctx data =>
    exact ⟨rfl, same.runtime, by simp [provider], same.history, same.careful⟩
  | append messages =>
    exact ⟨rfl, same.runtime, same.stored, by simp [same.history], same.careful⟩
  | panics panic => exact ⟨rfl, same⟩

theorem Operation.leaves {admitted : Context → Prop} (differs : other ≠ session)
    (operation : Operation mangle other admitted Result computation)
    (same : Indistinguishable mangle session careful world world) :
    Leaves (Indistinguishable mangle session careful) computation world := by
  cases operation with
  | isReady => exact leaves_query (fun _ same => same) same
  | executeQuery facts query _ =>
    exact leaves_query (fun _ same => Engine.interchangeable_executeQuery same query) same
  | queryWithSolutions facts query _ =>
    exact leaves_query (fun _ same => Engine.interchangeable_queryWithSolutions same query) same
  | set ctx data =>
    exact ⟨same.runtime, by simp [provider, Function.update_of_ne differs.symm], rfl, same.careful⟩
  | append messages =>
    exact ⟨same.runtime, rfl, by simp [Function.update_of_ne differs.symm], same.careful⟩
  | panics panic => exact same

end Operations

/-! ## A call on a session -/

variable {params : ExecutionParams}

namespace Installation

variable {Key Data : Type} [DecidableEq Key] (installation : Installation Key Data)

def Admits (ctx other : Context) : Prop := other.err = ctx.err

theorem supervisable (session : String) (ctx : Context) :
    Supervisor.Supervisable (m := ClientM Key Data)
      (Operation installation.mangle session (Admits ctx)) (Admits ctx) where
  panics Result panic := .panics Result panic
  withPreCheck _ _ admits := admits

theorem engine_confined (session : String) (ctx : Context) :
    installation.engine.Confined (Operation installation.mangle session (Admits ctx))
      (Admits ctx) where
  isReady := .operation .isReady
  queryWithSolutions _ facts query admits := .operation (.queryWithSolutions facts query admits)
  executeQuery _ facts query admits := .operation (.executeQuery facts query admits)

section Parts

variable {installation} {operation : (Result : Type) → ClientM Key Data Result → Prop}
  {admitted : Context → Prop}

theorem action_confined (engine : installation.engine.Confined operation admitted)
    (supervisable : Supervisor.Supervisable operation admitted) {name : String}
    {action : Supervisor.Action (ClientM Key Data)}
    (registered : installation.client.registry.lookup name = some action) {ctx : Context}
    (live : admitted ctx) (env : Envelope) : Confined operation (action.execute ctx env) := by
  rw [client, StringMap.lookup_assignWith, AList.lookup_empty, Option.or_none] at registered
  obtain ⟨capability, _, rfl⟩ := Option.map_eq_some_iff.mp registered
  unfold Installation.action
  split
  · apply Supervisor.confined_execute engine supervisable _ live
    · intro ctx env _
      exact .pure _
    · intro extract offered text
      obtain ⟨behaviour, _, rfl⟩ := Option.map_eq_some_iff.mp offered
      exact .pure _
  · exact .pure _

omit [DecidableEq Key] in
theorem checkpoint_confined {ctx : Context} {state : SessionState}
    (sets : ∀ data, operation _ (provider.set ctx state.sessionID data)) :
    Confined operation (installation.manager.checkpoint ctx state) := by
  unfold DurableStateManager.checkpoint
  split
  · exact .pure _
  · split
    · exact .pure _
    next data _ =>
      refine .bind (.operation (sets data)) fun failure => ?_
      split <;> exact .pure _

end Parts

theorem client_confined (session : String) (ctx : Context) :
    installation.client.Confined (Operation installation.mangle session (Admits ctx))
      (Admits ctx) session where
  engine := installation.engine_confined session ctx
  execute name action registered other env admits :=
    action_confined (installation.engine_confined session ctx)
      (installation.supervisable session ctx) registered admits env
  append memory found _ messages := by
    cases found
    exact .operation (.append messages)
  recallText memory found _ _ := by
    cases found
    exact .pure _
  recallWithFacts memory found search offered _ _ := by
    cases found
    obtain ⟨behaviour, _, rfl⟩ := Option.map_eq_some_iff.mp offered
    exact .pure _
  memorize memory found _ _ := by
    cases found
    exact .pure _
  extractFacts manager found _ _ := by
    cases found
    exact .pure _
  checkpoint manager found other state same := by
    cases found
    exact checkpoint_confined fun data => same ▸ .set other data

omit [DecidableEq Key] in
def loadedParams (history : List Message) (params : ExecutionParams) : ExecutionParams :=
  if params.memoryMode = .persist ∧ params.sessionID ≠ "" then
    { params with currentHistory := history }
  else params

variable (ctx : Context)

theorem runFrom_loadHistory (params : ExecutionParams) (world : World Key Data) :
    runFrom (loadHistory installation.client ctx params) world =
      (.ok (loadedParams (world.histories params.sessionID) params), world) := by
  unfold loadHistory loadedParams
  split <;> rfl

omit [DecidableEq Key] in
theorem sessionID_loadedParams (history : List Message) (params : ExecutionParams) :
    (loadedParams history params).sessionID = params.sessionID := by
  unfold loadedParams
  split <;> rfl

variable (payload : Value)

theorem yields_hydrate (params : ExecutionParams) :
    Yields (fun _ _ => True) (Sdk.hydrate installation.client ctx payload params)
      fun start => start.2.sessionID = params.sessionID := by
  unfold Sdk.hydrate
  split
  · exact .pure _ rfl
  · split
    · exact .pure _ rfl
    · refine .bind (.operation trivial) fun state _ => ?_
      split <;> exact .pure _ rfl

variable {session : String} {careful : Prop} {world other : World Key Data}

omit [DecidableEq Key] in
theorem agrees_loadFacts {facts : List String}
    (parses : careful → (Engine.addFacts installation.mangle facts (.empty, .empty)).2 = none)
    (same : Indistinguishable installation.mangle session careful world other) :
    Agrees (Indistinguishable installation.mangle session careful)
      (installation.manager.loadFacts ctx facts) world other := by
  have alike : Engine.AnswersAlike installation.mangle
      (Engine.loadFacts installation.mangle ctx facts) world.runtime other.runtime :=
    Engine.answersAlike_loadFacts same.runtime (same.careful.imp_right parses)
  refine ⟨alike.1, alike.2, same.stored, same.history, ?_⟩
  exact same.careful.imp_left (Engine.cacheable_loadFacts facts).trans

omit [DecidableEq Key] in
theorem agrees_managerHydrate (parses : careful → (Engine.addFacts installation.mangle
      (installation.primedFacts world session) (.empty, .empty)).2 = none)
    (same : Indistinguishable installation.mangle session careful world other) :
    Agrees (Indistinguishable installation.mangle session careful)
      (installation.manager.hydrate ctx session) world other := by
  unfold DurableStateManager.hydrate
  split
  · exact ⟨rfl, same⟩
  next named =>
    have got : Agrees (Indistinguishable installation.mangle session careful)
        (installation.manager.provider.get ctx session) world other :=
      ⟨by simp [manager, provider, same.stored], same⟩
    refine got.bind fun result reached otherReached ended otherEnded _ => ?_
    cases ended
    cases (Prod.mk.inj otherEnded).2
    split
    · exact ⟨rfl, same⟩
    · exact ⟨rfl, same⟩
    next raw stored =>
      have found : world.sessions session = some raw := Except.ok.inj stored
      split
      · exact ⟨rfl, same⟩
      next state reconstructed =>
        have primed : installation.primedFacts world session = state.logicalFacts := by
          have read : installation.codec.reconstruct raw = .ok state := reconstructed
          simp [primedFacts, named, StateCodec.primedFacts, found, read]
        rw [primed] at parses
        split
        · exact (installation.agrees_loadFacts ctx parses same).bind
            fun _ _ _ _ _ after => ⟨rfl, after⟩
        · exact ⟨rfl, same⟩

theorem agrees_hydrate (same : params.sessionID = session)
    (parses : careful → (Engine.addFacts installation.mangle
      (installation.primedFacts world session) (.empty, .empty)).2 = none)
    (related : Indistinguishable installation.mangle session careful world other) :
    Agrees (Indistinguishable installation.mangle session careful)
      (Sdk.hydrate installation.client ctx payload params) world other := by
  subst same
  unfold Sdk.hydrate
  split
  · exact ⟨rfl, related⟩
  next manager found =>
    cases found
    split
    · exact ⟨rfl, related⟩
    · refine (installation.agrees_managerHydrate ctx parses related).bind
        fun state _ _ _ _ after => ?_
      split <;> exact ⟨rfl, after⟩

omit [DecidableEq Key] in
theorem world_managerHydrate (silent : installation.primedFacts world session = []) :
    (runFrom (installation.manager.hydrate ctx session) world).2 = world := by
  unfold DurableStateManager.hydrate
  split
  · rfl
  next named =>
    rw [runFrom_bind]
    simp only [manager, provider, runFrom_stateful]
    cases found : world.sessions session with
    | none => rfl
    | some raw =>
      dsimp only
      split
      · rfl
      next state reconstructed =>
        have quiet : state.logicalFacts = [] := by
          simpa [primedFacts, named, StateCodec.primedFacts, found, reconstructed] using silent
        simp [quiet]

theorem world_hydrate (silent : installation.primedFacts world params.sessionID = []) :
    (runFrom (Sdk.hydrate installation.client ctx payload params) world).2 = world := by
  unfold Sdk.hydrate
  split
  · rfl
  next manager found =>
    cases found
    split
    · rfl
    · refine (after_bind (fun state reached => ?_) world).trans
        (installation.world_managerHydrate ctx silent)
      split <;> rfl

/-! ## Calls -/

theorem runLoopInternal_agrees (dependable : installation.mangle.Dependable) {ctx : Context}
    (live : careful → Engine.live ctx = true) (action : String) (payload : Value)
    (same : params.sessionID = session)
    (parses : careful → (Engine.addFacts installation.mangle
      (installation.primedFacts world session) (.empty, .empty)).2 = none)
    (related : Indistinguishable installation.mangle session careful world other) :
    Agrees (Indistinguishable installation.mangle session careful)
      (runLoopInternal installation.client ctx action payload params) world other := by
  subst same
  have loaded : Agrees (Indistinguishable installation.mangle params.sessionID careful)
      (loadHistory installation.client ctx params) world other := by
    unfold Agrees
    rw [runFrom_loadHistory, runFrom_loadHistory, related.history]
    exact ⟨rfl, related⟩
  refine loaded.bind fun read reached otherReached ended otherEnded _ => ?_
  rw [runFrom_loadHistory] at ended otherEnded
  cases ended
  cases (Prod.mk.inj otherEnded).2
  have session := sessionID_loadedParams (world.histories params.sessionID) params
  refine (installation.agrees_hydrate ctx payload session parses related).bind
    fun start _ _ hydrated _ after => ?_
  have kept := ((installation.yields_hydrate ctx payload _).result hydrated).trans session
  refine ((installation.client_confined params.sessionID ctx).runSteps rfl _ _ _ _ kept).agrees
    (fun _ _ operation _ _ => operation.agrees dependable fun holds other admits => ?_) after
  unfold Engine.live
  rw [admits]
  exact live holds

theorem runLoopInternal_leaves {ctx : Context} (action : String) (payload : Value)
    (differs : params.sessionID ≠ session)
    (silent : installation.primedFacts world params.sessionID = [])
    (related : Indistinguishable installation.mangle session careful world world) :
    Leaves (Indistinguishable installation.mangle session careful)
      (runLoopInternal installation.client ctx action payload params) world := by
  have loaded : Leaves (Indistinguishable installation.mangle session careful)
      (loadHistory installation.client ctx params) world := by
    unfold Leaves
    rw [runFrom_loadHistory]
    exact related
  refine loaded.bind (fun _ _ _ => .trans) fun read reached ended _ => ?_
  rw [runFrom_loadHistory] at ended
  cases ended
  have same := sessionID_loadedParams (world.histories params.sessionID) params
  have unchanged := installation.world_hydrate ctx payload (same ▸ silent)
  have hydrates : Leaves (Indistinguishable installation.mangle session careful)
      (Sdk.hydrate installation.client ctx payload
        (loadedParams (world.histories params.sessionID) params)) world := by
    unfold Leaves
    rw [unchanged]
    exact related
  refine hydrates.bind (fun _ _ _ => .trans) fun start _ hydrated reached => ?_
  have kept := ((installation.yields_hydrate ctx payload _).result hydrated).trans same
  exact ((installation.client_confined params.sessionID ctx).runSteps rfl _ _ _ _ kept).leaves
    (fun _ _ => .symm) (fun _ _ _ => .trans)
    (fun _ _ operation _ => operation.leaves differs) (reached.symm.trans reached)

/-- Quiet calls on other sessions change nothing that a session can tell, and a session
answers the same in worlds that it cannot tell apart. -/
theorem unwinding (dependable : installation.mangle.Dependable) (session : String) :
    Unwinding installation.serve (fun call => decide (call.session = session))
      (installation.quiet session) (Indistinguishable installation.mangle session True) where
  symmetric _ _ := .symm
  transitive _ _ _ := .trans
  agrees call world other seen allowed related := by
    have same := of_decide_eq_true seen
    simp only [quiet, same, if_true, Bool.or_eq_true, Bool.not_eq_true', Bool.and_eq_true,
      Option.isNone_iff_eq_none] at allowed
    have agrees := installation.runLoopInternal_agrees dependable And.left call.actionName
      (startOf call.input call.opts).1 same And.right
      ⟨related.runtime, related.stored, related.history, allowed⟩
    exact ⟨agrees.1, agrees.2.imp fun _ => trivial⟩
  leaves call world hidden allowed related := by
    have differs := of_decide_eq_false hidden
    simp only [quiet, differs, if_false, List.isEmpty_iff] at allowed
    exact installation.runLoopInternal_leaves call.actionName _ differs allowed related

end Installation

/-! ## A fact that leaks -/

theorem reference_dependable : Engine.Reference.mangle.Dependable where
  keysInjective := Engine.reference_keysInjective
  deterministic := Engine.reference_deterministic
  unhurried program store options others ctx otherCtx timeout otherTimeout result _ _ unlimited
      evaluation := by
    change Engine.Reference.eval program options ctx timeout store = (result, none) at evaluation
    change Engine.Reference.eval program others otherCtx otherTimeout store = (result, none)
    simp [Engine.Reference.eval, Engine.Reference.evaluate_of_eval evaluation, unlimited]

/-- Two actions: `send` returns an empty result, `freeze` one that says that the account
is frozen. -/
def bank : Installation Engine.Reference.Key SessionState where
  mangle := Engine.Reference.mangle
  host := Engine.Reference.host
  clientHost := asciiHost
  codec := ⟨.ok, .ok⟩
  capabilities := StringMap.assignAll
    (AList.singleton "send"
      { metadata := { name := "send" }
        behaviour := fun _ => .ok ((newEnvelope .nil).setMeta keyDecision (.string "PROCEED")) })
    (AList.singleton "freeze"
      { metadata := { name := "freeze" }
        behaviour := fun _ => .ok
          { (newEnvelope .nil).setMeta keyDecision (.string "PROCEED") with
            facts := ["frozen(\"account\")"] } })

def bankStart : World Engine.Reference.Key SessionState where
  runtime := ((Engine.reloadFromSource Engine.Reference.mangle {}
    "halt(\"Req\", \"account is frozen\", \"T1\") :- frozen(\"account\").").exec {}).2

def callOn (session actionName : String) : Call := ⟨{}, actionName, .nil, [withSessionID session]⟩

def stopped : Except Panic (Except GoError Envelope) → Bool
  | .ok (.error (.policyViolation _)) => true
  | _ => false

end Manglekit.Sdk

import Manglekit.Sdk.EntryPoints

/-!
# What a run of a client is made of

A call by name first reads the history of its session and hydrates it.  Everything
after that is put together from queries of the engine and from operations of the
memory and of the state manager on the same session.
-/

namespace Manglekit

open Core Effects

variable {m : Type → Type} [Monad m]

/-! ## The engine -/

namespace Engine

structure PolicyEngine.Confined (engine : PolicyEngine m)
    (operation : (Result : Type) → m Result → Prop) (admitted : Context → Prop) : Prop where
  isReady : Effects.Confined operation engine.runtime.isReady
  queryWithSolutions : ∀ ctx facts query, admitted ctx →
    Effects.Confined operation (engine.runtime.queryWithSolutions ctx facts query)
  executeQuery : ∀ ctx facts query, admitted ctx →
    Effects.Confined operation (engine.runtime.executeQuery ctx facts query)

namespace PolicyEngine.Confined

variable {engine : PolicyEngine m} {operation : (Result : Type) → m Result → Prop}
  {admitted : Context → Prop} (confined : engine.Confined operation admitted) {ctx : Context}
  (live : admitted ctx)

include confined live

theorem evaluateGateWithTrail (actionName entityID : String) (env : Envelope)
    (extraFacts : List Datalog.Atom) :
    Effects.Confined operation
      (Engine.evaluateGateWithTrail engine ctx actionName entityID env extraFacts) := by
  refine .bind confined.isReady fun ready => ?_
  split
  · split
    · exact .pure _
    · exact holds_checkHalts compositional_confined
        (fun _ => confined.queryWithSolutions _ _ _ live)
        (fun _ => confined.executeQuery _ _ _ live) _ _
  · exact .pure _

theorem steeringMatches (facts : List Datalog.Atom) (pred variableName : String) :
    Effects.Confined operation (Engine.steeringMatches engine ctx facts pred variableName) := by
  refine .bind (confined.queryWithSolutions _ _ _ live) fun tiered => ?_
  split
  · exact .pure _
  · split
    · exact .pure _
    · refine .bind (confined.queryWithSolutions _ _ _ live) fun untiered => ?_
      split <;> exact .pure _

theorem evaluateSteering (input : Envelope) :
    Effects.Confined operation (Engine.evaluateSteering engine ctx input) := by
  refine .bind confined.isReady fun ready => ?_
  split
  · split
    · exact .pure _
    · split
      · exact .pure _
      · refine .bind (confined.steeringMatches live _ _ _) fun retries => ?_
        split
        · exact .pure _
        · refine .bind (confined.steeringMatches live _ _ _) fun routes => ?_
          split <;> exact .pure _
  · exact .pure _

theorem checkRequirement (input : Envelope) (reqName : String) :
    Effects.Confined operation (Engine.checkRequirement engine ctx input reqName) := by
  unfold Engine.checkRequirement
  split
  · exact .pure _
  · exact confined.executeQuery _ _ _ live

end PolicyEngine.Confined

end Engine

/-! ## Supervised actions -/

namespace Supervisor

variable [MonadExceptOf Panic m] {operation : (Result : Type) → m Result → Prop}
  {admitted : Context → Prop}

structure Supervisable (operation : (Result : Type) → m Result → Prop)
    (admitted : Context → Prop) : Prop where
  panics : ∀ Result (panic : Panic), operation Result (throw panic)
  withPreCheck : ∀ ctx preCheck, admitted ctx → admitted (ctx.withPreCheck preCheck)

theorem confined_orPanic (supervisable : Supervisable operation admitted) {Result : Type}
    (outcome : Except Panic Result) : Confined operation (orPanic outcome : m Result) := by
  cases outcome with
  | ok value => exact .pure _
  | error panic => exact .operation (supervisable.panics _ panic)

variable {engine : Engine.PolicyEngine m} (confined : engine.Confined operation admitted)
  {ctx : Context}

include confined

omit [MonadExceptOf Panic m] in
theorem confined_verifyAtoms (live : admitted ctx) (host : Engine.Host) (atoms : List Atom) :
    Confined operation (verifyAtoms host (policyEvaluator engine) ctx atoms) := by
  unfold verifyAtoms
  split
  · exact .pure _
  · dsimp only
    split
    all_goals
      exact .bind (.bind (confined.evaluateGateWithTrail live _ _ _ _) fun _ => .pure _)
        fun _ => .pure _

variable (supervisable : Supervisable operation admitted) (host : Engine.Host)

include supervisable

theorem confined_release (live : admitted ctx)
    (inner : Context → Envelope → m (Except GoError Envelope)) (result : Envelope) :
    Confined operation
      (SupervisedAction.release ⟨inner, verifyAtoms host (policyEvaluator engine)⟩ ctx result) := by
  refine .bind (confined_orPanic supervisable _) fun outFacts => ?_
  dsimp only
  split
  · exact .pure _
  · refine .bind (confined_verifyAtoms confined (supervisable.withPreCheck _ _ live) _ _)
      fun verdict => ?_
    split
    · exact .pure _
    · split <;> exact .pure _

theorem confined_executeInternal (live : admitted ctx)
    {inner : Context → Envelope → m (Except GoError Envelope)}
    (runs : ∀ env, Confined operation (inner ctx env)) (input : Value) :
    Confined operation (SupervisedAction.executeInternal
      ⟨inner, verifyAtoms host (policyEvaluator engine)⟩ ctx input) := by
  refine .bind (confined_orPanic supervisable _) fun facts => ?_
  refine .bind (confined_verifyAtoms confined live _ _) fun verdict => ?_
  split
  · exact .pure _
  · split
    · exact .pure _
    · refine .bind (runs _) fun result => ?_
      split
      · exact .pure _
      · exact confined_release confined supervisable host live _ _

/-- A supervised action does what its inner action and its extractor do, and asks the
engine. -/
theorem confined_execute (live : admitted ctx) {action : Action m}
    {extractor : Option (Context → String → m (Except GoError Value))}
    (runs : ∀ ctx env, admitted ctx → Confined operation (action.execute ctx env))
    (extracts : ∀ extract ∈ extractor, ∀ text, Confined operation (extract ctx text))
    (input : Envelope) :
    Confined operation (SupervisedActionV2.execute
      { newSupervisedActionFromSDK host action (policyEvaluator engine) with extractor } ctx
      input) := by
  have extracted : Confined operation (SupervisedActionV2.extract
      { newSupervisedActionFromSDK host action (policyEvaluator engine) with extractor } ctx
      input.payload) := by
    unfold SupervisedActionV2.extract
    split
    next extract text found _ =>
      refine .bind (extracts extract found _) fun answer => ?_
      split <;> exact .pure _
    · exact .pure _
  refine .bind extracted fun payload => ?_
  split
  · exact .pure _
  · have checked := supervisable.withPreCheck ctx (preCheckContext action.metadata.name input) live
    have inner (env : Envelope) : Confined operation (executeInner action _ env) := runs _ _ checked
    refine .bind (confined_executeInternal confined supervisable host checked inner _)
      fun executed => ?_
    split <;> exact .pure _

end Supervisor

/-! ## The loop -/

namespace Sdk

/-- The parts of a client perform operations only, as far as a run of one session uses
them. -/
structure Client.Confined (client : Client m) (operation : (Result : Type) → m Result → Prop)
    (admitted : Context → Prop) (session : String) : Prop where
  engine : client.engine.Confined operation admitted
  execute : ∀ name action, client.registry.lookup name = some action →
    ∀ ctx env, admitted ctx → Effects.Confined operation (action.execute ctx env)
  append : ∀ memory ∈ client.agentMemory, ∀ ctx messages,
    Effects.Confined operation (memory.append ctx session messages)
  recallText : ∀ memory ∈ client.agentMemory, ∀ ctx text,
    Effects.Confined operation (memory.recallText ctx text)
  recallWithFacts : ∀ memory ∈ client.agentMemory, ∀ search ∈ memory.recallWithFacts,
    ∀ ctx text, Effects.Confined operation (search ctx text)
  memorize : ∀ memory ∈ client.agentMemory, ∀ input output,
    Effects.Confined operation (memory.memorize input output)
  extractFacts : ∀ manager ∈ client.stateManager, ∀ ctx env,
    Effects.Confined operation (manager.extractFacts ctx env)
  checkpoint : ∀ manager ∈ client.stateManager, ∀ ctx state, state.sessionID = session →
    Effects.Confined operation (manager.checkpoint ctx state)

namespace Client.Confined

variable {client : Client m} {operation : (Result : Type) → m Result → Prop}
  {admitted : Context → Prop} {session : String}
  (confined : client.Confined operation admitted session) {ctx : Context} {params : ExecutionParams}

include confined

theorem recallContext (live : admitted ctx) (payload : Value) (env : Envelope) :
    Effects.Confined operation (Sdk.recallContext client ctx payload env) := by
  unfold Sdk.recallContext
  split
  · exact .pure _
  next memory found =>
    refine .bind (confined.engine.checkRequirement live _ _) fun required => ?_
    split
    · exact .pure _
    · exact .pure _
    · dsimp only
      split
      next search offered =>
        refine .bind (confined.recallWithFacts memory found search offered _ _) fun recalled => ?_
        split <;> exact .pure _
      · refine .bind (confined.recallText memory found _ _) fun recalled => ?_
        refine .bind (.pure _) fun recalled => ?_
        split <;> exact .pure _

theorem injectContext (live : admitted ctx) (env : Envelope) (payload : Value)
    (params : ExecutionParams) :
    Effects.Confined operation (Sdk.injectContext client ctx env payload params) :=
  .bind (confined.recallContext live _ _) fun _ => .pure _

theorem steer (live : admitted ctx) (result : Envelope) :
    Effects.Confined operation (Sdk.steer client ctx result) := by
  unfold Sdk.steer
  split
  · refine .bind (confined.engine.evaluateSteering live _) fun steering => ?_
    split <;> exact .pure _
  · exact .pure _

theorem checkpointed (result : Envelope) (same : params.sessionID = session) :
    Effects.Confined operation (Sdk.checkpoint client ctx result params) := by
  unfold Sdk.checkpoint
  split
  · exact .pure _
  next manager found =>
    split
    · refine .bind (confined.extractFacts manager found _ _) fun facts => ?_
      exact .bind (confined.checkpoint manager found _ _ same) fun _ => .pure _
    · exact .pure _

theorem asyncMemorize (input output : Value) :
    Effects.Confined operation (Sdk.asyncMemorize client input output) := by
  unfold Sdk.asyncMemorize
  split
  · exact .pure _
  next memory found => exact confined.memorize memory found _ _

theorem updateHistory (payload : Value) (result : Envelope) (same : params.sessionID = session) :
    Yields operation (Sdk.updateHistory client ctx payload result params)
      fun updated => updated.sessionID = session := by
  unfold Sdk.updateHistory
  split
  · exact .pure _ same
  · dsimp only
    split
    next memory found =>
      split
      · refine .bind (same ▸ confined.append memory found _ _) fun _ _ => ?_
        exact .pure _ same
      · exact .pure _ same
    · exact .pure _ same

omit confined in
theorem sessionID_handleExecutionError (ctx : Context) (err : GoError) (payload : Value)
    (params : ExecutionParams) :
    (handleExecutionError ctx err payload params).2.sessionID = params.sessionID := by
  unfold handleExecutionError
  split
  · rfl
  · split <;> rfl

omit confined [Monad m] in
theorem sessionID_handleRetryDecision (client : Client m) (ctx : Context) (actionName : String)
    (result : Envelope) (params : ExecutionParams) :
    (handleRetryDecision client ctx actionName result params).2.sessionID = params.sessionID := by
  unfold handleRetryDecision
  split
  · rfl
  · dsimp only
    split <;> rfl

omit confined [Monad m] in
theorem sessionID_decided (client : Client m) (ctx : Context) (actionName : String)
    (result : Envelope) (params : ExecutionParams) :
    (decided client ctx actionName result params).2.sessionID = params.sessionID := by
  unfold decided
  split
  · exact sessionID_handleRetryDecision client ctx actionName result params
  · split
    · rfl
    · split <;> rfl

theorem handleDecision (actionName : String) (result : Envelope) (payload : Value)
    (same : params.sessionID = session) :
    Yields operation (Sdk.handleDecision client ctx actionName result payload params)
      fun step => step.2.sessionID = session := by
  have kept := (sessionID_decided client ctx actionName result params).trans same
  rw [handleDecision_eq]
  split
  · exact .bind (confined.asyncMemorize _ _) fun _ _ => .pure _ kept
  · exact .pure _ kept

theorem executeSingleStep (live : admitted ctx) (actionName : String) (payload : Value)
    (same : params.sessionID = session) :
    Yields operation (Sdk.executeSingleStep client ctx actionName payload params)
      fun step => step.2.sessionID = session := by
  unfold Sdk.executeSingleStep
  split
  · exact .pure _ same
  next action registered =>
    refine .bind (confined.injectContext live _ _ _) fun env _ => ?_
    refine .bind (confined.execute _ action registered _ _ live) fun executed _ => ?_
    split
    · exact .pure _ ((sessionID_handleExecutionError ..).trans same)
    · refine .bind (confined.steer live _) fun result _ => ?_
      refine .bind (confined.updateHistory _ _ same) fun updated kept => ?_
      refine .bind (confined.checkpointed _ kept) fun _ _ => ?_
      exact confined.handleDecision _ _ _ kept

theorem runSteps (live : admitted ctx) (remaining step : Nat) (action : String) (payload : Value)
    (same : params.sessionID = session) :
    Effects.Confined operation (Sdk.runSteps client ctx remaining step action payload params) := by
  induction remaining generalizing step action payload params with
  | zero => exact .pure _
  | succ remaining ih =>
    unfold Sdk.runSteps
    split
    · exact .pure _
    · refine Yields.bind (confined.executeSingleStep live _ _ same) fun executed kept => ?_
      rcases executed with ⟨err | result, updated⟩
      · exact .pure _ trivial
      · dsimp only
        split
        · split
          · exact .pure _ trivial
          · exact .pure _ trivial
          · exact ih _ _ _ kept
        · split
          · exact ih _ _ _ kept
          · exact .pure _ trivial

end Client.Confined

/-! ### Around the writes of a step -/

/-- The client without what it records of a step: it neither memorises nor checkpoints. -/
def Client.unrecording (client : Client m) : Client m :=
  { client with
    agentMemory := client.agentMemory.map fun memory =>
      { memory with memorize := fun _ _ => pure () }
    stateManager := none }

theorem injectContext_unrecording (client : Client m) (ctx : Context) (env : Envelope)
    (payload : Value) (params : ExecutionParams) :
    injectContext client.unrecording ctx env payload params =
      injectContext client ctx env payload params := by
  unfold injectContext recallContext Client.unrecording
  cases client.agentMemory <;> rfl

theorem updateHistory_unrecording (client : Client m) (ctx : Context) (payload : Value)
    (result : Envelope) (params : ExecutionParams) :
    updateHistory client.unrecording ctx payload result params =
      updateHistory client ctx payload result params := by
  unfold updateHistory Client.unrecording
  cases client.agentMemory <;> rfl

end Sdk

end Manglekit

import Manglekit.Multiagent.Executors

/-!
# Running a workflow in a session

`ExecuteWithSession` keeps an instance of the workflow in a store: the current node, variables,
and the nodes that completed or failed.  A later call finds the instance and goes on from its
current node.
-/

namespace Manglekit.Multiagent

open Core Engine Iteration Runner

/-! ## Instances -/

inductive WorkflowInstanceStatus where
  | pending
  | running
  | paused
  | completed
  | failed
  deriving DecidableEq, Repr

/-- `vars` is the field `Variables`. -/
structure WorkflowInstance where
  workflowID : String
  sessionID : String
  currentNodeID : String := ""
  vars : StringMap Value := ∅
  completedNodes : List String := []
  failedNodes : List String := []
  status : WorkflowInstanceStatus := .pending

namespace WorkflowInstance

def isNodeCompleted (session : WorkflowInstance) (nodeID : String) : Bool :=
  session.completedNodes.contains nodeID

def markNodeCompleted (session : WorkflowInstance) (nodeID : String) : WorkflowInstance :=
  if session.isNodeCompleted nodeID then session
  else { session with completedNodes := session.completedNodes ++ [nodeID] }

def markNodeFailed (session : WorkflowInstance) (nodeID : String) : WorkflowInstance :=
  { session with failedNodes := session.failedNodes ++ [nodeID] }

def setCurrentNode (session : WorkflowInstance) (nodeID : String) : WorkflowInstance :=
  let left :=
    if session.currentNodeID ≠ "" && !session.isNodeCompleted session.currentNodeID then
      { session with completedNodes := session.completedNodes ++ [session.currentNodeID] }
    else session
  { left with currentNodeID := nodeID }

def setVariable (session : WorkflowInstance) (key : String) (value : Value) : WorkflowInstance :=
  { session with vars := session.vars.insert key value }

def getVariable (session : WorkflowInstance) (key : String) : Value :=
  (session.vars.lookup key).getD .nil

/-- The names, with one more at the end unless it is among them. -/
def addOnce (names : List String) (name : String) : List String :=
  if names.contains name then names else names ++ [name]

variable (session : WorkflowInstance) (nodeID : String)

theorem markNodeCompleted_completedNodes :
    (session.markNodeCompleted nodeID).completedNodes = addOnce session.completedNodes nodeID := by
  rw [markNodeCompleted, addOnce, isNodeCompleted]
  split <;> rfl

theorem markNodeCompleted_currentNodeID :
    (session.markNodeCompleted nodeID).currentNodeID = session.currentNodeID := by
  rw [markNodeCompleted]
  split <;> rfl

theorem setCurrentNode_completedNodes :
    (session.setCurrentNode nodeID).completedNodes =
      if session.currentNodeID = "" then session.completedNodes
      else addOnce session.completedNodes session.currentNodeID := by
  rw [setCurrentNode, addOnce, isNodeCompleted]
  by_cases unset : session.currentNodeID = ""
  · simp [unset]
  · cases session.completedNodes.contains session.currentNodeID <;> simp [unset]

theorem mem_addOnce {names : List String} {name other : String} :
    other ∈ addOnce names name ↔ other ∈ names ∨ other = name := by
  rw [addOnce]
  split
  next listed =>
    have member : name ∈ names := List.contains_iff_mem.mp listed
    exact ⟨.inl, fun either => either.elim id fun same => same ▸ member⟩
  · simp

theorem nodup_addOnce {names : List String} (nodup : names.Nodup) (name : String) :
    (addOnce names name).Nodup := by
  rw [addOnce]
  split
  · exact nodup
  next fresh =>
    have absent : name ∉ names := fun member => fresh (List.contains_iff_mem.mpr member)
    exact nodup.append (List.nodup_singleton name) (by simpa using absent)

end WorkflowInstance

/-! ## The executor -/

structure SessionStore (World : Type) where
  get : String → StateM World (Except GoError WorkflowInstance)
  create : WorkflowInstance → StateM World (Option GoError)
  update : WorkflowInstance → StateM World (Option GoError)

structure SessionExecutor (World : Type) where
  services : HydratedServices World
  store : SessionStore World
  sessionID : String
  maxRetries : Int
  workflow : WorkflowDef

structure SessionState (World : Type) where
  world : World
  session : WorkflowInstance
  currentInput : Value
  nodeResults : StringMap Value
  visited : String → Nat
  lastError : Option GoError := none
  results : StringMap NodeResult := ∅
  visits : List Visit := []

structure SessionEnd (World : Type) where
  state : SessionState World
  status : WorkflowStatus := .running
  error : Option GoError := none

abbrev SessionTurn (World : Type) := Turn (SessionState World) (SessionEnd World)

structure SessionOutcome where
  result : WorkflowResult
  session : WorkflowInstance
  visits : List Visit

variable {World : Type}

def SessionState.withStatus (state : SessionState World) (status : WorkflowInstanceStatus) :
    SessionState World :=
  { state with session := { state.session with status } }

namespace SessionExecutor

def runner (executor : SessionExecutor World) : Runner World NodeDef :=
  hydratedRunner executor.services executor.maxRetries executor.workflow

theorem runner_findNode (executor : SessionExecutor World) (nodeID : String) :
    executor.runner.findNode nodeID = executor.workflow.getNode nodeID := rfl

def save (executor : SessionExecutor World) (state : SessionState World) : SessionState World :=
  { state with world := (executor.store.update state.session state.world).2 }

def moveTo (executor : SessionExecutor World) (state : SessionState World) (nodeID : String) :
    SessionTurn World :=
  .next (executor.save { state with session := state.session.setCurrentNode nodeID })

def afterFailure (executor : SessionExecutor World) (state : SessionState World) (node : NodeDef)
    (run : NodeRun) (err : GoError) : SessionTurn World :=
  let errorEdge := findErrorEdge executor.workflow.edges node.id
  let state :=
    { state with
      lastError := some err
      session := state.session.markNodeFailed node.id
      visits := state.visits ++ [⟨state.session.currentNodeID, run, .failed errorEdge⟩] }
  match errorEdge with
  | none => .done { state := state.withStatus .failed, status := .failed }
  | some edge => executor.moveTo state edge.target

def afterSuccess (executor : SessionExecutor World) (state : SessionState World) (node : NodeDef)
    (run : NodeRun) : SessionTurn World :=
  let output := run.result.output
  let nodeResults := state.nodeResults.insert node.id output
  let session :=
    (state.session.setVariable (node.id ++ "_output") output).markNodeCompleted node.id
  let (successor, world) := executor.runner.findNextNode node.id output nodeResults state.world
  let visited (onward : Onward) : List Visit :=
    state.visits ++ [⟨state.session.currentNodeID, run, onward⟩]
  let state := { state with world, nodeResults, session, currentInput := output }
  match successor with
  | .error err =>
    .done
      { state :=
          { state with lastError := some err, visits := visited (.unevaluated err) }.withStatus
            .failed
        status := .failed }
  | .ok ⟨edge, none⟩ =>
    .done { state := { state with visits := visited (.selected edge) }.withStatus .completed }
  | .ok ⟨edge, some next⟩ =>
    executor.moveTo { state with visits := visited (.selected edge) } next.id

def runNode (executor : SessionExecutor World) (state : SessionState World) (node : NodeDef) :
    SessionTurn World :=
  let state :=
    executor.save
      { state with session := state.session.setVariable "current_input" state.currentInput }
  let (run, world) := executor.runner.executeNode node state.currentInput state.world
  let state := { state with world, results := state.results.insert node.id run.result }
  match run.result.error with
  | some err => executor.afterFailure state node run err
  | none => executor.afterSuccess state node run

def step (executor : SessionExecutor World) (state : SessionState World) : SessionTurn World :=
  let nodeID := state.session.currentNodeID
  if nodeID = "" then .done { state }
  else
    match executor.workflow.getNode nodeID with
    | none => .done { state }
    | some node =>
      let attempts := state.visited nodeID + 1
      let state := { state with visited := Function.update state.visited nodeID attempts }
      if executor.maxRetries < attempts then
        .done
          { state := state.withStatus .failed
            status := .failed
            error := some (.text ("max retries exceeded for node " ++ nodeID)) }
      else executor.runNode state node

structure Due (executor : SessionExecutor World) (state : SessionState World) (node : NodeDef) :
    Prop where
  named : state.session.currentNodeID ≠ ""
  found : executor.workflow.getNode state.session.currentNodeID = some node
  within : ((state.visited state.session.currentNodeID + 1 : Nat) : Int) ≤ executor.maxRetries

def counted (state : SessionState World) : SessionState World :=
  { state with
    visited := Function.update state.visited state.session.currentNodeID
      (state.visited state.session.currentNodeID + 1) }

variable {executor : SessionExecutor World} {state : SessionState World}

theorem Due.step_eq {node : NodeDef} (due : executor.Due state node) :
    executor.step state = executor.runNode (counted state) node := by
  rw [step]
  simp only [due.named, due.found, Int.not_lt.mpr due.within, if_false]
  rfl

/-- The end of a loop without a node that can be run. -/
structure Idle (executor : SessionExecutor World) (state : SessionState World)
    (ended : SessionEnd World) : Prop where
  world : ended.state.world = state.world
  visits : ended.state.visits = state.visits
  completed : ended.state.session.completedNodes = state.session.completedNodes
  missing : ended.status = .failed ∨ ended.status = .running ∧ ended.state = state ∧
    (state.session.currentNodeID = "" ∨
      executor.workflow.getNode state.session.currentNodeID = none)

theorem step_cases (executor : SessionExecutor World) (state : SessionState World) :
    (∃ node, executor.Due state node) ∨
      ∃ ended, executor.step state = .done ended ∧ executor.Idle state ended := by
  rw [step]
  dsimp only
  split
  next unnamed => exact .inr ⟨_, rfl, rfl, rfl, rfl, .inr ⟨rfl, rfl, .inl unnamed⟩⟩
  next named =>
    cases found : executor.workflow.getNode state.session.currentNodeID with
    | none => exact .inr ⟨_, rfl, rfl, rfl, rfl, .inr ⟨rfl, rfl, .inr found⟩⟩
    | some node =>
      dsimp only
      split
      · exact .inr ⟨_, rfl, rfl, rfl, rfl, .inl rfl⟩
      next within => exact .inl ⟨node, named, found, Int.not_lt.mp within⟩

def turn (executor : SessionExecutor World) (state : SessionState World) : SessionTurn World :=
  match executor.services.contextErr state.world with
  | (some err, world) =>
    .done
      { state := executor.save ({ state with world }.withStatus .paused)
        status := .cancelled
        error := some err }
  | (none, world) => executor.step { state with world }

def conclude (executor : SessionExecutor World) (ended : SessionEnd World) :
    WorkflowResult × SessionState World :=
  let result : WorkflowResult :=
    { workflowID := executor.workflow.id
      status := ended.status
      nodeResults := ended.state.results
      error := ended.error }
  if ended.status = .running then
    match ended.state.lastError with
    | some err =>
      ({ result with status := .failed, error := some err }, ended.state.withStatus .failed)
    | none =>
      ({ result with status := .completed, output := ended.state.currentInput },
        ended.state.withStatus .completed)
  else (result, ended.state)

def finish (executor : SessionExecutor World) (ended : SessionEnd World) :
    SessionOutcome × World :=
  let (result, state) := executor.conclude ended
  (⟨result, state.session, state.visits⟩, (executor.save state).world)

/-- The state in which the loop starts with an instance, unless no node can be found. -/
def begin (executor : SessionExecutor World) (session : WorkflowInstance) (initialInput : Value)
    (world : World) : Option (SessionState World) :=
  let start (session : WorkflowInstance) (currentInput : Value) : SessionState World :=
    { world, session, currentInput
      nodeResults := session.vars
      visited := fun nodeID => if session.isNodeCompleted nodeID then 1 else 0 }
  if session.currentNodeID ≠ "" then
    match executor.workflow.getNode session.currentNodeID with
    | some _ => some (start session (session.getVariable "current_input"))
    | none => some (start session initialInput)
  else
    executor.workflow.findStartNode.map fun node =>
      start (session.setCurrentNode node.id) initialInput

def runSession (executor : SessionExecutor World) (turns : Nat) (session : WorkflowInstance)
    (initialInput : Value) (world : World) : Option (SessionOutcome × World) :=
  match executor.begin session initialInput world with
  | none =>
    some
      (⟨{ workflowID := executor.workflow.id
          status := .failed
          error := some (.text "no start node found") }, session, []⟩, world)
  | some state => (iterate executor.turn turns state).map executor.finish

def newSession (executor : SessionExecutor World) : WorkflowInstance where
  workflowID := executor.workflow.id
  sessionID := executor.sessionID
  status := .running

def executeWithSession (executor : SessionExecutor World) (turns : Nat) (initialInput : Value)
    (world : World) : Option (Except GoError SessionOutcome × World) :=
  match executor.store.get (executor.sessionID ++ ":" ++ executor.workflow.id) world with
  | (.ok session, world) =>
    (executor.runSession turns session initialInput world).map (Prod.map .ok id)
  | (.error _, world) =>
    match executor.store.create executor.newSession world with
    | (some err, world) => some (.error (.wrap "failed to create session" err), world)
    | (none, world) =>
      (executor.runSession turns executor.newSession initialInput world).map (Prod.map .ok id)

/-! ## What a turn does -/

theorem exists_conclude_eq (executor : SessionExecutor World) (ended : SessionEnd World) :
    ∃ status, (executor.conclude ended).2 = ended.state.withStatus status := by
  rw [conclude]
  split
  · cases ended.state.lastError with
    | none => exact ⟨.completed, rfl⟩
    | some err => exact ⟨.failed, rfl⟩
  · exact ⟨ended.state.session.status, rfl⟩

theorem begin_visits {session : WorkflowInstance} {input : Value} {world : World}
    (begun : executor.begin session input world = some state) : state.visits = [] := by
  rw [begin] at begun
  split at begun
  · split at begun <;>
      · cases begun
        rfl
  · obtain ⟨node, -, rfl⟩ := Option.map_eq_some_iff.mp begun
    rfl

def leave (executor : SessionExecutor World) (state : SessionState World) :
    Onward → SessionTurn World
  | .failed none | .unevaluated _ =>
    .done { state := state.withStatus .failed, status := .failed }
  | .failed (some edge) => executor.moveTo state edge.target
  | .selected edge =>
    match edge.bind fun edge => executor.workflow.getNode edge.target with
    | none => .done { state := state.withStatus .completed }
    | some node => executor.moveTo state node.id

theorem leave_eq_next {after : SessionState World} {onward : Onward}
    (left : executor.leave state onward = .next after) :
    ∃ nodeID, after =
      executor.save { state with session := state.session.setCurrentNode nodeID } := by
  cases onward with
  | failed edge =>
    cases edge with
    | none => cases left
    | some edge =>
      cases left
      exact ⟨edge.target, rfl⟩
  | unevaluated err => cases left
  | selected edge =>
    rw [leave] at left
    split at left
    · cases left
    next node _ =>
      cases left
      exact ⟨node.id, rfl⟩

theorem leave_eq_done {onward : Onward} {ended : SessionEnd World}
    (left : executor.leave state onward = .done ended) :
    ∃ status, ended.state = state.withStatus status := by
  cases onward with
  | failed edge =>
    cases edge with
    | none =>
      cases left
      exact ⟨.failed, rfl⟩
    | some edge => cases left
  | unevaluated err =>
    cases left
    exact ⟨.failed, rfl⟩
  | selected edge =>
    rw [leave] at left
    split at left
    · cases left
      exact ⟨.completed, rfl⟩
    · cases left

structure Ran (executor : SessionExecutor World) (before after : SessionState World)
    (visit : Visit) : Prop where
  visits : after.visits = before.visits ++ [visit]
  nodeID : visit.nodeID = before.session.currentNodeID
  named : visit.nodeID ≠ ""
  within : ((before.visited visit.nodeID + 1 : Nat) : Int) ≤ executor.maxRetries
  visited : after.visited =
    Function.update before.visited visit.nodeID (before.visited visit.nodeID + 1)
  node : ∃ node, executor.workflow.getNode visit.nodeID = some node ∧
    ∃ world, visit.run = (executor.runner.executeNode node before.currentInput world).1
  current : after.session.currentNodeID = before.session.currentNodeID
  completed : after.session.completedNodes =
    if visit.run.result.error.isNone then
      WorkflowInstance.addOnce before.session.completedNodes visit.run.result.nodeID
    else before.session.completedNodes
  failed : visit.run.result.error.isSome ↔ ∃ edge, visit.onward = .failed edge

/-- A turn ends the loop without running a node, or it runs the current one. -/
inductive TurnCase (executor : SessionExecutor World) (state : SessionState World) :
    SessionTurn World → Prop where
  | stopped (ended : SessionEnd World) : ended.state.visits = state.visits →
      ended.state.session.completedNodes = state.session.completedNodes →
      TurnCase executor state (.done ended)
  | ran (visit : Visit) (after : SessionState World) : executor.Ran state after visit →
      TurnCase executor state (executor.leave after visit.onward)

theorem afterFailure_eq_leave (executor : SessionExecutor World) (state : SessionState World)
    (node : NodeDef) (run : NodeRun) (err : GoError) :
    executor.afterFailure state node run err =
      executor.leave
        { state with
          lastError := some err
          session := state.session.markNodeFailed node.id
          visits := state.visits ++ [⟨state.session.currentNodeID, run,
            .failed (findErrorEdge executor.workflow.edges node.id)⟩] }
        (.failed (findErrorEdge executor.workflow.edges node.id)) := by
  rw [afterFailure]
  cases findErrorEdge executor.workflow.edges node.id <;> rfl

def succeed (state : SessionState World) (node : NodeDef) (run : NodeRun)
    (selected : Except GoError (Option WorkflowEdge) × World) : SessionState World :=
  let visit : Visit := ⟨state.session.currentNodeID, run, .ofSelection selected.1⟩
  { state with
    world := selected.2
    nodeResults := state.nodeResults.insert node.id run.result.output
    session :=
      (state.session.setVariable (node.id ++ "_output") run.result.output).markNodeCompleted
        node.id
    currentInput := run.result.output
    lastError := visit.lastError state.lastError
    visits := state.visits ++ [visit] }

theorem afterSuccess_eq_leave (executor : SessionExecutor World) (state : SessionState World)
    (node : NodeDef) (run : NodeRun) {selected : Except GoError (Option WorkflowEdge) × World}
    (selects : executor.runner.selection node.id run.result.output
      (state.nodeResults.insert node.id run.result.output) state.world = selected) :
    executor.afterSuccess state node run =
      executor.leave (succeed state node run selected) (.ofSelection selected.1) := by
  rw [selection] at selects
  rw [afterSuccess, findNextNode_eq, selects]
  rcases selected with ⟨err | edge, world⟩
  · rfl
  · simp only [Onward.ofSelection, leave, runner_findNode]
    cases edge.bind fun edge => executor.workflow.getNode edge.target <;> rfl

theorem runNode_cases (executor : SessionExecutor World) {node : NodeDef} (world : World)
    (due : executor.Due state node) :
    executor.TurnCase state (executor.runNode (counted { state with world }) node) := by
  rw [runNode]
  dsimp only [save, counted]
  generalize (executor.store.update _ world).2 = saved
  have ownName := (executor.services.executeNode_spec executor.maxRetries node
    state.currentInput saved).1
  rcases ran : executor.runner.executeNode node state.currentInput saved with ⟨run, later⟩
  have sameName : run.result.nodeID = node.id := by
    rw [← ownName]
    exact congrArg (fun ran => ran.1.result.nodeID) ran.symm
  cases error : run.result.error with
  | some err =>
    simp only [error]
    rw [afterFailure_eq_leave]
    refine .ran ⟨state.session.currentNodeID, run,
      .failed (findErrorEdge executor.workflow.edges node.id)⟩ _
      ⟨rfl, rfl, due.named, due.within, rfl, ⟨node, due.found, saved, by rw [ran]⟩, rfl, ?_, ?_⟩
    · simp [error, WorkflowInstance.markNodeFailed, WorkflowInstance.setVariable]
    · simp [error]
  | none =>
    simp only [error]
    rw [executor.afterSuccess_eq_leave _ node run rfl]
    refine .ran ⟨state.session.currentNodeID, run, .ofSelection _⟩ _
      ⟨rfl, rfl, due.named, due.within, rfl, ⟨node, due.found, saved, by rw [ran]⟩, ?_, ?_, ?_⟩
    · rw [succeed, WorkflowInstance.markNodeCompleted_currentNodeID]
      rfl
    · rw [succeed, WorkflowInstance.markNodeCompleted_completedNodes, sameName, error]
      rfl
    · simp [error, Onward.ofSelection_ne_failed]

theorem turn_cases (executor : SessionExecutor World) (state : SessionState World) :
    executor.TurnCase state (executor.turn state) := by
  rw [turn]
  rcases executor.services.contextErr state.world with ⟨_ | err, world⟩
  · rcases executor.step_cases { state with world } with ⟨node, due⟩ | ⟨ended, done, idle⟩
    · dsimp only
      rw [due.step_eq]
      exact executor.runNode_cases world ⟨due.named, due.found, due.within⟩
    · dsimp only
      rw [done]
      exact .stopped ended idle.visits idle.completed
  · exact .stopped _ rfl rfl

theorem exists_ran_of_next {before after : SessionState World}
    (turned : executor.turn before = .next after) :
    ∃ visit middle, executor.Ran before middle visit ∧
      executor.leave middle visit.onward = .next after := by
  have turnCase := executor.turn_cases before
  generalize executor.turn before = turn at turnCase turned
  cases turnCase with
  | stopped ended => cases turned
  | ran visit middle ran => exact ⟨visit, middle, ran, turned⟩

theorem done_cases {last : SessionState World} {ended : SessionEnd World}
    (turned : executor.turn last = .done ended) :
    (ended.state.visits = last.visits ∧
        ended.state.session.completedNodes = last.session.completedNodes) ∨
      ∃ visit middle status, executor.Ran last middle visit ∧
        ended.state = middle.withStatus status ∧ ∀ edge, visit.onward ≠ .failed (some edge) := by
  have turnCase := executor.turn_cases last
  generalize executor.turn last = turn at turnCase turned
  cases turnCase with
  | stopped other visits completed =>
    cases turned
    exact .inl ⟨visits, completed⟩
  | ran visit middle ran =>
    obtain ⟨status, same⟩ := leave_eq_done turned
    refine .inr ⟨visit, middle, status, ran, same, fun edge failed => ?_⟩
    rw [failed] at turned
    cases turned

end SessionExecutor

end Manglekit.Multiagent

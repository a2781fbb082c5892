import Manglekit.Iteration.Turns
import Manglekit.Multiagent.AgentSystem

/-!
# Running a workflow

Both workflow executors go from node to node: they run a node, take the first outgoing edge
whose condition holds, and after a failure the first edge whose condition starts with `error`.
They differ in where nodes, agents and verdicts come from.
-/

namespace Manglekit.Multiagent

open Core Engine Iteration

/-! ## Workflows -/

/-- `source` and `target` are the fields `From` and `To`. -/
structure WorkflowEdge where
  source : String
  target : String
  condition : String
  deriving DecidableEq, Repr

structure Workflow where
  id : String
  name : String
  version : String
  nodes : List WorkflowNode
  edges : List WorkflowEdge

inductive WorkflowStatus where
  | pending
  | running
  | completed
  | failed
  | cancelled
  deriving DecidableEq, Repr

structure WorkflowResult where
  workflowID : String
  status : WorkflowStatus
  output : Value := .nil
  nodeResults : StringMap NodeResult := ∅
  error : Option GoError := none

def startsWithError (condition : String) : Bool := "error".toList.isPrefixOf condition.toList

def isErrorEdge (edge : WorkflowEdge) : Bool := startsWithError edge.condition

def findErrorEdge (edges : List WorkflowEdge) (nodeID : String) : Option WorkflowEdge :=
  edges.find? fun edge => edge.source = nodeID && isErrorEdge edge

def outgoingEdges (edges : List WorkflowEdge) (nodeID : String) : List WorkflowEdge :=
  edges.filter fun edge => edge.source = nodeID

/-! ## Nodes -/

/-- What happens outside: the context may be done, node executors answer, and the context may
end a wait between two attempts.  Everything may depend on what happened before. -/
structure Services (World : Type) where
  contextErr : StateM World (Option GoError)
  execute : WorkflowNode → Value → Agent → StateM World (Except GoError Value)
  wait : Nat → StateM World (Option GoError)

section Running

variable {World Node : Type}

def Services.attemptNode (services : Services World) (node : WorkflowNode) (agent : Agent)
    (result : NodeResult) (attempt : Nat) : Nat → StateM World NodeRun
  | 0 => pure ⟨result, []⟩
  | left + 1 => do
    let tried := { result with retryCount := attempt }
    match ← services.execute node result.input agent with
    | .ok output => pure ⟨{ tried with output }, [agent]⟩
    | .error err =>
      if left = 0 then pure ⟨{ tried with error := some err }, [agent]⟩
      else
        match ← services.wait attempt with
        | some stopped => pure ⟨{ tried with error := some stopped }, [agent]⟩
        | none => do
          let later ← services.attemptNode node agent result (attempt + 1) left
          pure ⟨later.result, agent :: later.ranOn⟩

section

variable (services : Services World) (node : WorkflowNode) (agent : Agent) (result : NodeResult)
  (attempt left : Nat) (world : World)

include services node agent result attempt left world

theorem Services.attemptNode_succ :
    services.attemptNode node agent result attempt (left + 1) world =
      match services.execute node result.input agent world with
      | (.ok output, after) => (⟨{ result with retryCount := attempt, output }, [agent]⟩, after)
      | (.error err, after) =>
        if left = 0 then
          (⟨{ result with retryCount := attempt, error := some err }, [agent]⟩, after)
        else
          match services.wait attempt after with
          | (some stopped, later) =>
            (⟨{ result with retryCount := attempt, error := some stopped }, [agent]⟩, later)
          | (none, later) =>
            ((fun run => ⟨run.result, agent :: run.ranOn⟩) <$>
              services.attemptNode node agent result (attempt + 1) left) later := by
  rw [attemptNode]
  simp only [bind, StateT.bind]
  rcases services.execute node result.input agent world with ⟨err | output, after⟩
  · dsimp only
    split
    · rfl
    · simp only [StateT.bind, bind]
      rcases services.wait attempt after with ⟨_ | stopped, later⟩ <;> rfl
  · rfl

theorem Services.attemptNode_spec :
    (services.attemptNode node agent result attempt left world).1.result.nodeID =
        result.nodeID ∧
      (services.attemptNode node agent result attempt left world).1.ranOn.length ≤ left := by
  induction left generalizing attempt world with
  | zero => exact ⟨rfl, Nat.le_refl _⟩
  | succ left ih =>
    rw [attemptNode_succ]
    rcases services.execute node result.input agent world with ⟨err | output, after⟩
    · dsimp only
      split
      · exact ⟨rfl, Nat.le_add_left ..⟩
      · rcases services.wait attempt after with ⟨_ | stopped, later⟩
        · obtain ⟨named, bounded⟩ := ih (attempt + 1) later
          exact ⟨named, Nat.succ_le_succ bounded⟩
        · exact ⟨rfl, Nat.le_add_left ..⟩
    · exact ⟨rfl, Nat.le_add_left ..⟩

end

/-! ## Edges -/

/-- The first edge without a condition or with one that holds. -/
def selectEdge (verdict : String → StateM World (Except GoError Bool)) :
    List WorkflowEdge → StateM World (Except GoError (Option WorkflowEdge))
  | [] => pure (.ok none)
  | edge :: rest =>
    if edge.condition = "" then pure (.ok (some edge))
    else do
      match ← verdict edge.condition with
      | .error err => pure (.error err)
      | .ok true => pure (.ok (some edge))
      | .ok false => selectEdge verdict rest

theorem selectEdge_cons (verdict : String → StateM World (Except GoError Bool))
    (edge : WorkflowEdge) (rest : List WorkflowEdge) (world : World) :
    selectEdge verdict (edge :: rest) world =
      if edge.condition = "" then (.ok (some edge), world)
      else
        match verdict edge.condition world with
        | (.error err, after) => (.error err, after)
        | (.ok true, after) => (.ok (some edge), after)
        | (.ok false, after) => selectEdge verdict rest after := by
  rw [selectEdge]
  split
  · rfl
  · simp only [bind, StateT.bind]
    rcases verdict edge.condition world with ⟨_ | _ | _, after⟩ <;> rfl

structure Runner (World Node : Type) where
  workflowID : String
  maxRetries : Int
  missingStart : GoError
  startNode : Option Node
  nodeID : Node → String
  findNode : String → Option Node
  edges : List WorkflowEdge
  contextErr : StateM World (Option GoError)
  executeNode : Node → Value → StateM World NodeRun
  evaluate : String → Value → StringMap Value → StateM World (Except GoError Bool)

/-- The selected edge is only observed: the source returns the node alone, which is nil also
if the target of the edge does not exist. -/
structure Successor (Node : Type) where
  edge : Option WorkflowEdge
  node : Option Node

namespace Runner

def findNextNode (runner : Runner World Node) (nodeID : String) (output : Value)
    (previousResults : StringMap Value) : StateM World (Except GoError (Successor Node)) := do
  match ← selectEdge (fun condition => runner.evaluate condition output previousResults)
      (outgoingEdges runner.edges nodeID) with
  | .error err => pure (.error err)
  | .ok edge => pure (.ok ⟨edge, edge.bind fun edge => runner.findNode edge.target⟩)

variable (runner : Runner World Node)

theorem findNextNode_eq (nodeID : String) (output : Value)
    (previousResults : StringMap Value) (world : World) :
    runner.findNextNode nodeID output previousResults world =
      match selectEdge (fun condition => runner.evaluate condition output previousResults)
          (outgoingEdges runner.edges nodeID) world with
      | (.error err, after) => (.error err, after)
      | (.ok edge, after) =>
        (.ok ⟨edge, edge.bind fun edge => runner.findNode edge.target⟩, after) := by
  rw [findNextNode]
  simp only [bind, StateT.bind]
  rcases selectEdge (fun condition => runner.evaluate condition output previousResults)
    (outgoingEdges runner.edges nodeID) world with ⟨_ | _, after⟩ <;> rfl

/-! ## The loop -/

inductive Onward where
  | failed (errorEdge : Option WorkflowEdge)
  | unevaluated (err : GoError)
  | selected (edge : Option WorkflowEdge)
  deriving DecidableEq

/-- A node that was run.  Visits are only observed. -/
structure Visit where
  nodeID : String
  run : NodeRun
  onward : Onward

def Visit.brief (visit : Visit) : String × Bool × Onward :=
  (visit.nodeID, visit.run.result.error.isNone, visit.onward)

structure LoopState (World Node : Type) where
  world : World
  current : Node
  currentInput : Value
  nodeResults : StringMap Value := ∅
  visited : String → Nat := fun _ => 0
  lastError : Option GoError := none
  results : StringMap NodeResult := ∅
  visits : List Visit := []

structure LoopEnd (World Node : Type) where
  state : LoopState World Node
  status : WorkflowStatus := .running
  error : Option GoError := none

abbrev LoopTurn (World Node : Type) := Turn (LoopState World Node) (LoopEnd World Node)

def proceed (state : LoopState World Node) : Option Node → LoopTurn World Node
  | none => .done { state }
  | some node => .next { state with current := node }

def afterFailure (runner : Runner World Node) (state : LoopState World Node) (run : NodeRun)
    (err : GoError) : LoopTurn World Node :=
  let nodeID := runner.nodeID state.current
  let errorEdge := findErrorEdge runner.edges nodeID
  let state :=
    { state with
      lastError := some err
      visits := state.visits ++ [⟨nodeID, run, .failed errorEdge⟩] }
  match errorEdge with
  | none => .done { state, status := .failed }
  | some edge => proceed state (runner.findNode edge.target)

def afterSuccess (runner : Runner World Node) (state : LoopState World Node) (run : NodeRun) :
    LoopTurn World Node :=
  let nodeID := runner.nodeID state.current
  let output := run.result.output
  let nodeResults := state.nodeResults.insert nodeID output
  let (successor, world) := runner.findNextNode nodeID output nodeResults state.world
  let state := { state with world, nodeResults, currentInput := output }
  match successor with
  | .error err =>
    .done
      { state :=
          { state with
            lastError := some err
            visits := state.visits ++ [⟨nodeID, run, .unevaluated err⟩] }
        status := .failed }
  | .ok next =>
    proceed { state with visits := state.visits ++ [⟨nodeID, run, .selected next.edge⟩] }
      next.node

def runNode (runner : Runner World Node) (state : LoopState World Node) : LoopTurn World Node :=
  let (run, world) := runner.executeNode state.current state.currentInput state.world
  let state :=
    { state with
      world
      results := state.results.insert (runner.nodeID state.current) run.result }
  match run.result.error with
  | some err => runner.afterFailure state run err
  | none => runner.afterSuccess state run

def turn (runner : Runner World Node) (state : LoopState World Node) : LoopTurn World Node :=
  match runner.contextErr state.world with
  | (some err, world) => .done { state := { state with world }, status := .cancelled, error := err }
  | (none, world) =>
    let nodeID := runner.nodeID state.current
    let attempts := state.visited nodeID + 1
    let state := { state with world, visited := Function.update state.visited nodeID attempts }
    if runner.maxRetries < attempts then
      .done
        { state
          status := .failed
          error := some (.text ("max retries exceeded for node " ++ nodeID)) }
    else runner.runNode state

/-- A run that ended without a status has failed if any node of it has. -/
def finish (runner : Runner World Node) (ended : LoopEnd World Node) : WorkflowResult :=
  let result : WorkflowResult :=
    { workflowID := runner.workflowID
      status := ended.status
      nodeResults := ended.state.results
      error := ended.error }
  if ended.status = .running then
    match ended.state.lastError with
    | some err => { result with status := .failed, error := some err }
    | none => { result with status := .completed, output := ended.state.currentInput }
  else result

/-- The result and the visits of a run, which takes at most so many turns. -/
def execute (runner : Runner World Node) (turns : Nat) (initialInput : Value) (world : World) :
    Option (WorkflowResult × List Visit) :=
  match runner.startNode with
  | none =>
    some
      ({ workflowID := runner.workflowID, status := .failed, error := some runner.missingStart },
        [])
  | some node =>
    (iterate runner.turn turns { world, current := node, currentInput := initialInput }).map
      fun ended => (runner.finish ended, ended.state.visits)

/-! ## What a turn does -/

def leave (runner : Runner World Node) (state : LoopState World Node) :
    Onward → LoopTurn World Node
  | .failed none | .unevaluated _ => .done { state, status := .failed }
  | .failed (some edge) => proceed state (runner.findNode edge.target)
  | .selected edge => proceed state (edge.bind fun edge => runner.findNode edge.target)

def Visit.succeeded (visit : Visit) : Prop := visit.run.result.error = none

def Visit.edge? (visit : Visit) : Option WorkflowEdge :=
  match visit.onward with
  | .failed edge => edge
  | .unevaluated _ => none
  | .selected edge => edge

/-- The last error after a visit. -/
def Visit.lastError (visit : Visit) (before : Option GoError) : Option GoError :=
  match visit.onward with
  | .failed _ => visit.run.result.error
  | .unevaluated err => some err
  | .selected _ => before

structure Ran (runner : Runner World Node) (before after : LoopState World Node) (visit : Visit) :
    Prop where
  visits : after.visits = before.visits ++ [visit]
  nodeID : visit.nodeID = runner.nodeID before.current
  within : ((before.visited visit.nodeID + 1 : Nat) : Int) ≤ runner.maxRetries
  visited : after.visited =
    Function.update before.visited visit.nodeID (before.visited visit.nodeID + 1)
  run : ∃ world, visit.run = (runner.executeNode before.current before.currentInput world).1
  failed : visit.run.result.error.isSome ↔ ∃ edge, visit.onward = .failed edge
  lastError : after.lastError = visit.lastError before.lastError

/-- A turn ends the loop without running a node, or it runs the current one. -/
inductive TurnCase (runner : Runner World Node) (state : LoopState World Node) :
    LoopTurn World Node → Prop where
  | stopped (ended : LoopEnd World Node) : ended.state.visits = state.visits →
      ended.status = .failed ∨ ended.status = .cancelled → ended.error.isSome →
      TurnCase runner state (.done ended)
  | ran (visit : Visit) (after : LoopState World Node) : runner.Ran state after visit →
      TurnCase runner state (runner.leave after visit.onward)

theorem proceed_eq_next {state after : LoopState World Node} {node : Option Node}
    (next : proceed state node = .next after) :
    ∃ found, node = some found ∧ after = { state with current := found } := by
  cases node with
  | none => cases next
  | some found =>
    cases next
    exact ⟨found, rfl, rfl⟩

theorem proceed_eq_done {state : LoopState World Node} {ended : LoopEnd World Node}
    {node : Option Node} (done : proceed state node = .done ended) :
    node = none ∧ ended = { state } := by
  cases node with
  | none =>
    cases done
    exact ⟨rfl, rfl⟩
  | some found => cases done

theorem leave_eq_done {runner : Runner World Node} {state : LoopState World Node}
    {onward : Onward} {ended : LoopEnd World Node}
    (left : runner.leave state onward = .done ended) : ended.state = state := by
  cases onward with
  | failed edge =>
    cases edge with
    | none =>
      cases left
      rfl
    | some edge => rw [(proceed_eq_done left).2]
  | unevaluated err =>
    cases left
    rfl
  | selected edge => rw [(proceed_eq_done left).2]

theorem leave_eq_next {runner : Runner World Node} {state after : LoopState World Node}
    {visit : Visit} (left : runner.leave state visit.onward = .next after) :
    ∃ edge node, visit.edge? = some edge ∧ runner.findNode edge.target = some node ∧
      after = { state with current := node } := by
  rcases visit with ⟨nodeID, run, onward⟩
  cases onward with
  | failed edge =>
    cases edge with
    | none => cases left
    | some edge =>
      obtain ⟨node, found, same⟩ := proceed_eq_next left
      exact ⟨edge, node, rfl, found, same⟩
  | unevaluated err => cases left
  | selected edge =>
    obtain ⟨node, found, same⟩ := proceed_eq_next left
    obtain ⟨edge, rfl, found⟩ := Option.bind_eq_some_iff.mp found
    exact ⟨edge, node, rfl, found, same⟩

variable (state : LoopState World Node)

theorem afterFailure_eq_leave (run : NodeRun) (err : GoError) :
    runner.afterFailure state run err =
      runner.leave
        { state with
          lastError := some err
          visits := state.visits ++ [⟨runner.nodeID state.current, run,
            .failed (findErrorEdge runner.edges (runner.nodeID state.current))⟩] }
        (.failed (findErrorEdge runner.edges (runner.nodeID state.current))) := by
  rw [afterFailure]
  cases findErrorEdge runner.edges (runner.nodeID state.current) <;> rfl

def Onward.ofSelection : Except GoError (Option WorkflowEdge) → Onward
  | .error err => .unevaluated err
  | .ok edge => .selected edge

theorem Onward.ofSelection_ne_failed (selected : Except GoError (Option WorkflowEdge))
    (edge : Option WorkflowEdge) : Onward.ofSelection selected ≠ .failed edge := by
  cases selected <;> simp [Onward.ofSelection]

def selection (runner : Runner World Node) (nodeID : String) (output : Value)
    (previousResults : StringMap Value) (world : World) :
    Except GoError (Option WorkflowEdge) × World :=
  selectEdge (fun condition => runner.evaluate condition output previousResults)
    (outgoingEdges runner.edges nodeID) world

def succeed (runner : Runner World Node) (state : LoopState World Node) (run : NodeRun)
    (selected : Except GoError (Option WorkflowEdge) × World) : LoopState World Node :=
  let visit : Visit := ⟨runner.nodeID state.current, run, .ofSelection selected.1⟩
  { state with
    world := selected.2
    nodeResults := state.nodeResults.insert (runner.nodeID state.current) run.result.output
    currentInput := run.result.output
    lastError := visit.lastError state.lastError
    visits := state.visits ++ [visit] }

theorem afterSuccess_eq_leave
    (run : NodeRun) {selected : Except GoError (Option WorkflowEdge) × World}
    (selects : runner.selection (runner.nodeID state.current) run.result.output
      (state.nodeResults.insert (runner.nodeID state.current) run.result.output) state.world =
        selected) :
    runner.afterSuccess state run =
      runner.leave (runner.succeed state run selected) (.ofSelection selected.1) := by
  rw [selection] at selects
  rw [afterSuccess, findNextNode_eq, selects]
  rcases selected with ⟨err | edge, world⟩ <;> rfl

theorem turn_cases : runner.TurnCase state (runner.turn state) := by
  rw [turn]
  rcases runner.contextErr state.world with ⟨_ | err, world⟩
  · dsimp only
    split
    · exact .stopped _ rfl (.inl rfl) rfl
    next within =>
      have bounded : ((state.visited (runner.nodeID state.current) + 1 : Nat) : Int) ≤
          runner.maxRetries := by omega
      rw [runNode]
      dsimp only
      rcases ran : runner.executeNode state.current state.currentInput world with ⟨run, later⟩
      dsimp only
      cases error : run.result.error with
      | some err =>
        dsimp only
        rw [afterFailure_eq_leave]
        exact .ran ⟨runner.nodeID state.current, run,
            .failed (findErrorEdge runner.edges (runner.nodeID state.current))⟩ _
          ⟨rfl, rfl, bounded, rfl, ⟨world, by rw [ran]⟩, by simp [error], error.symm⟩
      | none =>
        dsimp only
        rw [runner.afterSuccess_eq_leave _ run rfl]
        exact .ran ⟨runner.nodeID state.current, run, .ofSelection _⟩ _
          ⟨rfl, rfl, bounded, rfl, ⟨world, by rw [ran]⟩,
            by simp [error, Onward.ofSelection_ne_failed], rfl⟩
  · exact .stopped _ rfl (.inr rfl) rfl

end Runner

end Running

end Manglekit.Multiagent

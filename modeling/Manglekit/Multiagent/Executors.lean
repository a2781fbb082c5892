import Manglekit.Multiagent.Workflow

/-!
# The two workflow executors

`WorkflowExecutor` runs a workflow as the registry has it: nodes are a list, an agent is found
for the task of each node, and conditions are queries of the engine.  `HydratedWorkflowExecutor`
runs a converted definition: nodes are a map, agents and the evaluator of conditions are optional.
-/

namespace Manglekit.Multiagent

open Core Engine

variable {World : Type}

/-! ## The executor of the registry -/

structure AgentServices (World : Type) extends Services World where
  findAgentsForTask : String → StateM World (Except GoError (List Agent))
  query : List String → String → StateM World (Except GoError (List Solution))

def formatValue : Value → String
  | .string text => escapeString text
  | .nil => "null"
  | value => value.sprint

def contextFact (key : String) (value : Value) : String :=
  "context(\"" ++ key ++ "\", \"" ++ formatValue value ++ "\")."

namespace AgentServices

def evaluateCondition (services : AgentServices World) (condition : String) (nodeOutput : Value)
    (previousResults : StringMap Value) : StateM World (Except GoError Bool) := do
  if condition = "" then pure (.ok true)
  else
    let facts := contextFact "current_output" nodeOutput ::
      previousResults.entries.map fun entry => contextFact entry.1 entry.2
    match ← services.query facts condition with
    | .error err => pure (.error err)
    | .ok results => pure (.ok !results.isEmpty)

def executeNode (services : AgentServices World) (maxRetries : Int) (node : WorkflowNode)
    (input : Value) : StateM World NodeRun := do
  let result : NodeResult := { nodeID := node.id, input }
  let refused : NodeRun :=
    ⟨{ result with error := some (.text ("no agents found for role " ++ node.agent)) }, []⟩
  match ← services.findAgentsForTask node.agent with
  | .error _ | .ok [] => pure refused
  | .ok (agent :: _) =>
    services.attemptNode node agent { result with agentID := agent.id } 0 (maxRetries + 1).toNat

theorem executeNode_spec (services : AgentServices World) (maxRetries : Int)
    (node : WorkflowNode) (input : Value) (world : World) :
    (services.executeNode maxRetries node input world).1.result.nodeID = node.id ∧
      (services.executeNode maxRetries node input world).1.ranOn.length ≤
        (maxRetries + 1).toNat := by
  rw [executeNode]
  simp only [bind, StateT.bind]
  rcases services.findAgentsForTask node.agent world with ⟨_ | _ | ⟨agent, _⟩, after⟩
  · exact ⟨rfl, Nat.zero_le _⟩
  · exact ⟨rfl, Nat.zero_le _⟩
  · exact services.attemptNode_spec node agent _ 0 _ after

end AgentServices

namespace Workflow

def isStartNode (workflow : Workflow) (node : WorkflowNode) : Bool :=
  workflow.edges.all fun edge => !(edge.target = node.id && edge.condition = "")

def findStartNode (workflow : Workflow) : Option WorkflowNode :=
  (workflow.nodes.find? workflow.isStartNode).or workflow.nodes.head?

def findNodeByID (workflow : Workflow) (nodeID : String) : Option WorkflowNode :=
  workflow.nodes.find? fun node => node.id = nodeID

end Workflow

theorem Workflow.findStartNode_mem {workflow : Workflow} {node : WorkflowNode}
    (start : workflow.findStartNode = some node) : node ∈ workflow.nodes := by
  rcases Option.or_eq_some_iff.mp start with found | ⟨-, first⟩
  · exact List.mem_of_find?_eq_some found
  · exact List.mem_of_head? first

/-- `WorkflowExecutor` on a workflow. -/
def registryRunner (services : AgentServices World) (maxRetries : Int) (workflow : Workflow) :
    Runner World WorkflowNode where
  workflowID := workflow.id
  maxRetries := maxRetries
  missingStart := .text ("no start node found for workflow " ++ workflow.id)
  startNode := workflow.findStartNode
  nodeID := WorkflowNode.id
  findNode := workflow.findNodeByID
  edges := workflow.edges
  contextErr := services.contextErr
  executeNode := services.executeNode maxRetries
  evaluate := services.evaluateCondition

def executeWorkflow (services : AgentServices World) (maxRetries : Int) (workflow : Workflow) :
    Nat → Value → World → Option (WorkflowResult × List Runner.Visit) :=
  (registryRunner services maxRetries workflow).execute

/-! ## The executor of definitions -/

/-- The values of the configuration are given as `fmt` prints them. -/
structure NodeDef where
  id : String
  agentRole : String
  taskType : String
  config : StringMap String

/-- The nodes are in the order in which a range loop visits them. -/
structure WorkflowDef where
  id : String
  name : String
  version : String
  rootNodeID : String
  nodes : StringMap NodeDef
  edges : List WorkflowEdge

namespace WorkflowDef

def getNode (workflow : WorkflowDef) (nodeID : String) : Option NodeDef :=
  workflow.nodes.lookup nodeID

def hasIncoming (workflow : WorkflowDef) (nodeID : String) : Bool :=
  workflow.edges.any fun edge => edge.target = nodeID

def better (best : Option NodeDef) (entry : Sigma fun _ : String => NodeDef) : Option NodeDef :=
  match best with
  | none => some entry.2
  | some node => if entry.1 < node.id then some entry.2 else some node

def leastNode (entries : List (Sigma fun _ : String => NodeDef)) : Option NodeDef :=
  entries.foldl better none

def findStartNode (workflow : WorkflowDef) : Option NodeDef :=
  let root := if workflow.rootNodeID = "" then none else workflow.getNode workflow.rootNodeID
  let free := leastNode (workflow.nodes.entries.filter fun entry => !workflow.hasIncoming entry.1)
  (root.or free).or (leastNode workflow.nodes.entries)

end WorkflowDef

def NodeDef.toWorkflowNode (node : NodeDef) : WorkflowNode :=
  ⟨node.id, node.taskType, node.agentRole, node.config⟩

structure HydratedServices (World : Type) extends Services World where
  agentFinder : Option (String → StateM World (Except GoError (List String)))
  conditionEval : Option (String → StringMap Value → StateM World (Except GoError Bool))

namespace HydratedServices

/-- A condition that cannot be evaluated for want of an evaluator does not hold. -/
def evaluate (services : HydratedServices World) (condition : String) (nodeOutput : Value)
    (previousResults : StringMap Value) : StateM World (Except GoError Bool) :=
  match services.conditionEval with
  | none => pure (.ok false)
  | some evaluator =>
    evaluator condition
      (StringMap.assignAll (AList.insert "current_output" nodeOutput ∅) previousResults)

/-- The first agent with the role; it is no error if there is none. -/
def agentID (services : HydratedServices World) (role : String) : StateM World String :=
  match services.agentFinder with
  | none => pure ""
  | some finder => do
    match ← finder role with
    | .ok (agent :: _) => pure agent
    | _ => pure ""

def executeNode (services : HydratedServices World) (maxRetries : Int) (node : NodeDef)
    (input : Value) : StateM World NodeRun := do
  let agentID ← services.agentID node.agentRole
  let agent : Agent :=
    { id := agentID, role := node.agentRole, capabilities := [], config := ∅, status := "" }
  services.attemptNode node.toWorkflowNode agent { nodeID := node.id, agentID, input } 0
    (maxRetries + 1).toNat

theorem executeNode_spec (services : HydratedServices World) (maxRetries : Int) (node : NodeDef)
    (input : Value) (world : World) :
    (services.executeNode maxRetries node input world).1.result.nodeID = node.id ∧
      (services.executeNode maxRetries node input world).1.ranOn.length ≤
        (maxRetries + 1).toNat := by
  rw [executeNode]
  simp only [bind, StateT.bind]
  rcases services.agentID node.agentRole world with ⟨agentID, after⟩
  exact services.attemptNode_spec _ _ _ 0 _ after

end HydratedServices

/-- `HydratedWorkflowExecutor` on a definition. -/
def hydratedRunner (services : HydratedServices World) (maxRetries : Int) (workflow : WorkflowDef) :
    Runner World NodeDef where
  workflowID := workflow.id
  maxRetries := maxRetries
  missingStart := .text "no start node found"
  startNode := workflow.findStartNode
  nodeID := NodeDef.id
  findNode := workflow.getNode
  edges := workflow.edges
  contextErr := services.contextErr
  executeNode := services.executeNode maxRetries
  evaluate := services.evaluate

def executeHydrated (services : HydratedServices World) (maxRetries : Int)
    (workflow : WorkflowDef) :
    Nat → Value → World → Option (WorkflowResult × List Runner.Visit) :=
  (hydratedRunner services maxRetries workflow).execute

/-! ## Converting a workflow -/

def findLoadedStart (workflow : Workflow) : Option WorkflowNode :=
  (workflow.nodes.find? fun node => workflow.edges.all fun edge => edge.target ≠ node.id).or
    workflow.nodes.head?

def WorkflowNode.toNodeDef (node : WorkflowNode) : NodeDef :=
  ⟨node.id, node.agent, node.type, node.config⟩

def convertToWorkflowDef (workflow : Workflow) : WorkflowDef where
  id := workflow.id
  name := workflow.name
  version := workflow.version
  rootNodeID := ((findLoadedStart workflow).map WorkflowNode.id).getD ""
  nodes := workflow.nodes.foldl (fun nodes node => nodes.insert node.id node.toNodeDef) ∅
  edges := workflow.edges

end Manglekit.Multiagent

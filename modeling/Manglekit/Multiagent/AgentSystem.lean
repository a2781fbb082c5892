import Manglekit.Engine.Query

/-!
# Agents and the nodes they run

Agents, their capabilities and their status are facts of the policy engine.  The agent system
looks an agent up with one query per kind of fact and keeps what it found in a registry.  A
workflow node is run by the first agent that was found for its task.
-/

namespace Manglekit.Multiagent

open Core Engine

abbrev AgentRole := String

abbrev AgentStatus := String

def statusAvailable : AgentStatus := "available"

structure Agent where
  id : String
  role : AgentRole
  capabilities : List String
  config : StringMap String
  status : AgentStatus

/-- The facts are the evaluated ones of the engine.  The registry holds each agent under its
own identifier. -/
structure AgentSystem where
  parseAtom : String → Except GoError Datalog.Atom
  store : Datalog.Store
  registry : StringMap Agent := ∅
  keyed : ∀ id agent, registry.lookup id = some agent → agent.id = id

def escapeDatalog (text : String) : String := escapeString text

/-- A variable that a solution does not bind reads as the empty text. -/
def valueOf (solution : Solution) (variableName : String) : String :=
  (solution.lookup variableName).getD ""

namespace AgentSystem

def query (system : AgentSystem) (query : String) : Except GoError (List Solution) :=
  let run := solutionsIn system.parseAtom system.store query
  match run.err with
  | some err => .error err
  | none => .ok run.reported

/-! ## Looking an agent up -/

def roleQuery (agentID : String) : String := "agent(\"" ++ escapeDatalog agentID ++ "\", Role)."

def capabilityQuery (agentID : String) : String :=
  "agent_capability(\"" ++ escapeDatalog agentID ++ "\", Capability)."

def configQuery (agentID : String) : String :=
  "agent_config(\"" ++ escapeDatalog agentID ++ "\", Key, Value)."

def statusQuery (agentID : String) : String :=
  "agent_status(\"" ++ escapeDatalog agentID ++ "\", Status)."

def roleIn (results : List Solution) : AgentRole :=
  match results with
  | [] => ""
  | result :: _ => valueOf result "Role"

def configIn (results : List Solution) : StringMap String :=
  results.foldl
    (fun config result => config.insert (valueOf result "Key") (valueOf result "Value")) ∅

def statusIn : Except GoError (List Solution) → AgentStatus
  | .error _ => statusAvailable
  | .ok [] => statusAvailable
  | .ok (result :: _) => valueOf result "Status"

def register (system : AgentSystem) (agent : Agent) : AgentSystem :=
  { system with
    registry := system.registry.insert agent.id agent
    keyed := fun id found listed => by
      by_cases same : id = agent.id
      · subst same
        rw [AList.lookup_insert] at listed
        rw [Option.some.inj listed]
      · rw [AList.lookup_insert_ne same] at listed
        exact system.keyed id found listed }

/-- The queries run side by side.  If several fail, the schedule decides which error is kept;
here it is the first in this order. -/
def getAgent (system : AgentSystem) (agentID : String) : Except GoError Agent × AgentSystem :=
  match system.registry.lookup agentID with
  | some agent => (.ok agent, system)
  | none =>
    match system.query (roleQuery agentID), system.query (capabilityQuery agentID),
        system.query (configQuery agentID) with
    | .error err, _, _ => (.error (.wrap "agent query failed" err), system)
    | .ok _, .error err, _ => (.error (.wrap "capability query failed" err), system)
    | .ok _, .ok _, .error err => (.error (.wrap "config query failed" err), system)
    | .ok roles, .ok capabilities, .ok configs =>
      let role := roleIn roles
      if role = "" then (.error (.text ("agent not found: " ++ agentID)), system)
      else
        let agent : Agent :=
          { id := agentID
            role
            capabilities := capabilities.map (valueOf · "Capability")
            config := configIn configs
            status := statusIn (system.query (statusQuery agentID)) }
        (.ok agent, system.register agent)

/-! ## Agents for a task -/

def taskQuery (task : String) : String :=
  "\n\t\tagent(AgentID, _),\n\t\tagent_capability(AgentID, Capability),"
    ++ "\n\t\tagent_status(AgentID, \"available\"),\n\t\ttask_requires_capability(\""
    ++ escapeDatalog task ++ "\", Capability)."

def collectAgents (system : AgentSystem) (seen : List String) :
    List String → List Agent × AgentSystem
  | [] => ([], system)
  | id :: rest =>
    if id ∈ seen then collectAgents system seen rest
    else
      match getAgent system id with
      | (.error _, system) => collectAgents system (id :: seen) rest
      | (.ok agent, system) =>
        let (agents, system) := collectAgents system (id :: seen) rest
        (agent :: agents, system)

def findAgentsForTask (system : AgentSystem) (task : String) :
    Except GoError (List Agent) × AgentSystem :=
  match system.query (taskQuery task) with
  | .error err => (.error (.wrap "query failed" err), system)
  | .ok results =>
    match collectAgents system [] (results.map (valueOf · "AgentID")) with
    | ([], system) => (.error (.text ("no agents found for task: " ++ task)), system)
    | (agents, system) => (.ok agents, system)

end AgentSystem

/-! ## Running a node -/

structure WorkflowNode where
  id : String
  type : String
  agent : String
  config : StringMap String

structure NodeResult where
  nodeID : String
  agentID : String := ""
  input : Value
  output : Value := .nil
  error : Option GoError := none
  retryCount : Nat := 0

/-- The node executor answers each attempt anew, and the context may be done while the
executor waits for the next attempt. -/
structure WorkflowExecutor where
  maxRetries : Int
  execute : Nat → WorkflowNode → Value → Agent → Except GoError Value
  interrupted : Nat → Option GoError

structure NodeRun where
  result : NodeResult
  ranOn : List Agent

namespace WorkflowExecutor

def attemptNode (executor : WorkflowExecutor) (node : WorkflowNode) (agent : Agent)
    (result : NodeResult) (attempt : Nat) : Nat → NodeRun
  | 0 => ⟨result, []⟩
  | left + 1 =>
    let tried := { result with retryCount := attempt }
    match executor.execute attempt node result.input agent with
    | .ok output => ⟨{ tried with output }, [agent]⟩
    | .error err =>
      if left = 0 then ⟨{ tried with error := some err }, [agent]⟩
      else
        match executor.interrupted attempt with
        | some stopped => ⟨{ tried with error := some stopped }, [agent]⟩
        | none =>
          let later := attemptNode executor node agent result (attempt + 1) left
          ⟨later.result, agent :: later.ranOn⟩

def executeNode (executor : WorkflowExecutor) (system : AgentSystem) (node : WorkflowNode)
    (input : Value) : NodeRun × AgentSystem :=
  let result : NodeResult := { nodeID := node.id, input }
  let refused : NodeRun :=
    ⟨{ result with error := some (.text ("no agents found for role " ++ node.agent)) }, []⟩
  match system.findAgentsForTask node.agent with
  | (.error _, system) => (refused, system)
  | (.ok [], system) => (refused, system)
  | (.ok (agent :: _), system) =>
    (executor.attemptNode node agent { result with agentID := agent.id } 0
      (executor.maxRetries + 1).toNat, system)

end WorkflowExecutor

end Manglekit.Multiagent

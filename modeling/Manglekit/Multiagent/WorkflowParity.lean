import Manglekit.Multiagent.ErrorEdges

/-!
# Two engines for one workflow

The executor of the registry and the executor of converted definitions run in lockstep where they
start at the same node, find the same nodes and get the same answers.
-/

namespace Manglekit.Multiagent

open Core Engine Iteration

def NodeResult.outcome (result : NodeResult) : String × Value × Value × Option GoError :=
  (result.nodeID, result.input, result.output, result.error)

def NodeRun.outcome (run : NodeRun) : String × Value × Value × Option GoError :=
  run.result.outcome

def Runner.Visit.path (visit : Runner.Visit) :
    String × (String × Value × Value × Option GoError) × Runner.Onward :=
  (visit.nodeID, visit.run.outcome, visit.onward)

namespace Runner

variable {World Node OtherNode : Type}

/-- The two runners differ in their nodes only. -/
structure Mirrors (first : Runner World Node) (second : Runner World OtherNode)
    (Same : Node → OtherNode → Prop) : Prop where
  maxRetries : second.maxRetries = first.maxRetries
  edges : second.edges = first.edges
  context : second.contextErr = first.contextErr
  start : Option.Rel Same first.startNode second.startNode
  found : ∀ nodeID, Option.Rel Same (first.findNode nodeID) (second.findNode nodeID)
  nodeID : ∀ node other, Same node other → second.nodeID other = first.nodeID node
  evaluate : ∀ condition output results, condition ≠ "" →
    second.evaluate condition output results = first.evaluate condition output results
  execute : ∀ node other, Same node other → ∀ input world,
    (second.executeNode other input world).1.outcome =
        (first.executeNode node input world).1.outcome ∧
      (second.executeNode other input world).2 = (first.executeNode node input world).2

structure Alongside (Same : Node → OtherNode → Prop) (state : LoopState World Node)
    (other : LoopState World OtherNode) : Prop where
  world : other.world = state.world
  current : Same state.current other.current
  currentInput : other.currentInput = state.currentInput
  nodeResults : other.nodeResults = state.nodeResults
  visited : other.visited = state.visited
  lastError : other.lastError = state.lastError
  visits : other.visits.map Visit.path = state.visits.map Visit.path

structure EndsAlongside (Same : Node → OtherNode → Prop) (ended : LoopEnd World Node)
    (other : LoopEnd World OtherNode) : Prop where
  state : Alongside Same ended.state other.state
  status : other.status = ended.status
  error : other.error = ended.error

theorem selectEdge_congr {verdict other : String → StateM World (Except GoError Bool)}
    (same : ∀ condition, condition ≠ "" → other condition = verdict condition)
    (edges : List WorkflowEdge) : selectEdge other edges = selectEdge verdict edges := by
  induction edges with
  | nil => rfl
  | cons edge rest ih =>
    rw [selectEdge, selectEdge, ih]
    split
    · rfl
    next conditional => rw [same edge.condition conditional]

section Lockstep

variable {first : Runner World Node} {second : Runner World OtherNode}
  {Same : Node → OtherNode → Prop} {other : LoopState World OtherNode}
  {state : LoopState World Node}

theorem Alongside.proceed
    (alongside : Alongside Same state other) {node : Option Node} {otherNode : Option OtherNode}
    (same : Option.Rel Same node otherNode) :
    Alike (Alongside Same) (EndsAlongside Same) (proceed state node) (proceed other otherNode) := by
  cases same with
  | none => exact .done ⟨alongside, rfl, rfl⟩
  | some same => exact .next { alongside with current := same }

section

variable (mirrors : first.Mirrors second Same)

include mirrors

theorem Mirrors.leave (alongside : Alongside Same state other) (onward : Onward) :
    Alike (Alongside Same) (EndsAlongside Same) (first.leave state onward)
      (second.leave other onward) := by
  cases onward with
  | failed edge =>
    cases edge with
    | none => exact .done ⟨alongside, rfl, rfl⟩
    | some edge => exact alongside.proceed (mirrors.found edge.target)
  | unevaluated err => exact .done ⟨alongside, rfl, rfl⟩
  | selected edge =>
    cases edge with
    | none => exact alongside.proceed .none
    | some edge => exact alongside.proceed (mirrors.found edge.target)

theorem Mirrors.selection (nodeID : String) (output : Value)
    (results : StringMap Value) (world : World) :
    second.selection nodeID output results world = first.selection nodeID output results world := by
  rw [Runner.selection, Runner.selection, mirrors.edges,
    selectEdge_congr fun condition conditional =>
      mirrors.evaluate condition output results conditional]

theorem Mirrors.runNode (alongside : Alongside Same state other) :
    Alike (Alongside Same) (EndsAlongside Same) (first.runNode state) (second.runNode other) := by
  have sameName := mirrors.nodeID _ _ alongside.current
  obtain ⟨outcome, sameWorld⟩ :=
    mirrors.execute _ _ alongside.current state.currentInput state.world
  rw [Runner.runNode, Runner.runNode, alongside.currentInput, alongside.world, sameName]
  rcases ran : first.executeNode state.current state.currentInput state.world with ⟨run, after⟩
  rcases otherRan : second.executeNode other.current state.currentInput state.world
    with ⟨otherRun, otherAfter⟩
  rw [ran, otherRan] at outcome sameWorld
  dsimp only at outcome sameWorld
  subst sameWorld
  have sameOutput : otherRun.result.output = run.result.output :=
    congrArg (fun outcome => outcome.2.2.1) outcome
  have sameError : otherRun.result.error = run.result.error :=
    congrArg (fun outcome => outcome.2.2.2) outcome
  have samePath (onward : Onward) :
      Visit.path ⟨first.nodeID state.current, otherRun, onward⟩ =
        Visit.path ⟨first.nodeID state.current, run, onward⟩ := by
    rw [Visit.path, Visit.path]
    exact congrArg (fun outcome => (first.nodeID state.current, outcome, onward)) outcome
  dsimp only
  rw [sameError]
  cases run.result.error with
  | some err =>
    dsimp only
    rw [afterFailure_eq_leave, afterFailure_eq_leave]
    dsimp only
    rw [sameName, mirrors.edges]
    refine mirrors.leave ?_ _
    refine { alongside with world := rfl, currentInput := rfl, lastError := rfl, visits := ?_ }
    simp only [List.map_append, List.map_cons, List.map_nil, alongside.visits, samePath]
  | none =>
    dsimp only
    rw [first.afterSuccess_eq_leave _ run rfl, second.afterSuccess_eq_leave _ otherRun
      (mirrors.selection ..)]
    dsimp only
    rw [sameName, sameOutput, alongside.nodeResults]
    refine mirrors.leave ?_ _
    refine
      { alongside with
        world := rfl
        currentInput := sameOutput
        nodeResults := ?_
        lastError := ?_
        visits := ?_ }
    · simp only [succeed, sameName, sameOutput]
    · simp only [succeed, Visit.lastError, alongside.lastError, sameError]
    · simp only [succeed, List.map_append, List.map_cons, List.map_nil, alongside.visits,
        sameName, samePath]

theorem Mirrors.turn (state : LoopState World Node)
    (other : LoopState World OtherNode) (alongside : Alongside Same state other) :
    Alike (Alongside Same) (EndsAlongside Same) (first.turn state) (second.turn other) := by
  have sameName := mirrors.nodeID _ _ alongside.current
  rw [Runner.turn, Runner.turn, mirrors.context, alongside.world]
  rcases first.contextErr state.world with ⟨_ | err, world⟩
  · dsimp only
    rw [sameName, alongside.visited, mirrors.maxRetries]
    have counted : Alongside Same
        { state with
          world
          visited := Function.update state.visited (first.nodeID state.current)
            (state.visited (first.nodeID state.current) + 1) }
        { other with
          world
          visited := Function.update state.visited (first.nodeID state.current)
            (state.visited (first.nodeID state.current) + 1) } :=
      { alongside with world := rfl, visited := rfl }
    split
    · exact .done ⟨counted, rfl, rfl⟩
    · exact mirrors.runNode counted
  · exact .done ⟨{ alongside with world := rfl }, rfl, rfl⟩

end

def SameEnd (finished other : WorkflowResult × List Visit) : Prop :=
  other.1.status = finished.1.status ∧ other.1.output = finished.1.output ∧
    other.2.map Visit.path = finished.2.map Visit.path

theorem EndsAlongside.finish {ended : LoopEnd World Node} {other : LoopEnd World OtherNode}
    (alongside : EndsAlongside Same ended other) :
    SameEnd (first.finish ended, ended.state.visits) (second.finish other, other.state.visits) := by
  rw [SameEnd, Runner.finish, Runner.finish, alongside.status, alongside.state.lastError,
    alongside.state.currentInput]
  split
  · cases ended.state.lastError <;> exact ⟨rfl, rfl, alongside.state.visits⟩
  · exact ⟨rfl, rfl, alongside.state.visits⟩

theorem Mirrors.execute_sameEnd (mirrors : first.Mirrors second Same) (turns : Nat)
    (input : Value) (world : World) :
    Option.Rel SameEnd (first.execute turns input world) (second.execute turns input world) := by
  have started := mirrors.start
  rw [Runner.execute, Runner.execute]
  cases start : first.startNode <;> cases otherStart : second.startNode <;>
    rw [start, otherStart] at started <;> cases started
  · exact .some ⟨rfl, rfl, rfl⟩
  next node other same =>
    have ended := iterate_alike mirrors.turn
      (⟨rfl, same, rfl, rfl, rfl, rfl, rfl⟩ : Alongside Same
        { world, current := node, currentInput := input }
        { world, current := other, currentInput := input }) turns
    dsimp only
    revert ended
    generalize iterate first.turn turns _ = ended
    generalize iterate second.turn turns _ = otherEnded
    intro ended
    cases ended with
    | none => exact .none
    | some alongside => exact .some alongside.finish

end Lockstep

end Runner

/-! ## Converted nodes -/

theorem lookup_foldl_insert {nodes : List WorkflowNode}
    (consistent : ∀ node ∈ nodes, ∀ other ∈ nodes, node.id = other.id → node = other)
    (base : StringMap NodeDef) (nodeID : String) :
    (nodes.foldl (fun nodes node => nodes.insert node.id node.toNodeDef) base).lookup nodeID =
      ((nodes.find? fun node => node.id = nodeID).map WorkflowNode.toNodeDef).or
        (base.lookup nodeID) := by
  induction nodes generalizing base with
  | nil => rfl
  | cons node rest ih =>
    have restConsistent : ∀ node ∈ rest, ∀ other ∈ rest, node.id = other.id → node = other :=
      fun node member other otherMember =>
        consistent node (List.mem_cons_of_mem _ member) other (List.mem_cons_of_mem _ otherMember)
    rw [List.foldl_cons, ih restConsistent]
    by_cases named : node.id = nodeID
    · subst named
      cases later : rest.find? fun other => other.id = node.id with
      | none => simp
      | some other =>
        have sameName : other.id = node.id := by simpa using List.find?_some later
        have same := consistent other (List.mem_cons_of_mem _ (List.mem_of_find?_eq_some later))
          node (List.mem_cons_self ..) sameName
        simp [same]
    · rw [AList.lookup_insert_ne (Ne.symm named)]
      simp [named]

theorem getNode_convertToWorkflowDef {workflow : Workflow}
    (consistent : ∀ node ∈ workflow.nodes, ∀ other ∈ workflow.nodes,
      node.id = other.id → node = other) (nodeID : String) :
    (convertToWorkflowDef workflow).getNode nodeID =
      (workflow.findNodeByID nodeID).map WorkflowNode.toNodeDef := by
  rw [WorkflowDef.getNode, convertToWorkflowDef, lookup_foldl_insert consistent,
    Workflow.findNodeByID]
  simp

/-! ## Where to start -/

/-- Conditional edges do not matter to where the run starts: no edge leads to the first node to
which no unconditional edge leads, or that node is the first one and an edge leads to every
node. -/
def Workflow.StartAgrees (workflow : Workflow) : Prop :=
  ∀ node, workflow.nodes.find? workflow.isStartNode = some node →
    (∀ edge ∈ workflow.edges, edge.target ≠ node.id) ∨
      (workflow.nodes.head? = some node ∧
        ∀ other ∈ workflow.nodes, ∃ edge ∈ workflow.edges, edge.target = other.id)

def Workflow.isFree (workflow : Workflow) (node : WorkflowNode) : Bool :=
  workflow.edges.all fun edge => edge.target ≠ node.id

variable {node : WorkflowNode}

theorem Workflow.isFree_eq_false_iff {workflow : Workflow} :
    workflow.isFree node = false ↔ ∃ edge ∈ workflow.edges, edge.target = node.id := by
  rw [isFree, List.all_eq_false]
  simp

theorem Workflow.isFree_eq_false_of_not_isStartNode {workflow : Workflow}
    (notStart : workflow.isStartNode node = false) : workflow.isFree node = false := by
  obtain ⟨edge, member, unconditional⟩ := List.all_eq_false.mp notStart
  simp only [Bool.not_eq_true, Bool.not_eq_false', Bool.and_eq_true, decide_eq_true_eq]
    at unconditional
  exact isFree_eq_false_iff.mpr ⟨edge, member, unconditional.1⟩

theorem Workflow.StartAgrees.findLoadedStart {workflow : Workflow}
    (agrees : workflow.StartAgrees) : findLoadedStart workflow = workflow.findStartNode := by
  change (workflow.nodes.find? workflow.isFree).or _ = (workflow.nodes.find? _).or _
  cases start : workflow.nodes.find? workflow.isStartNode with
  | none =>
    have none : workflow.nodes.find? workflow.isFree = none := by
      refine List.find?_eq_none.mpr fun node member => ?_
      have notStart := List.find?_eq_none.mp start node member
      simp [isFree_eq_false_of_not_isStartNode (by simpa using notStart)]
    rw [none]
  | some node =>
    rcases agrees node start with free | ⟨first, targeted⟩
    · obtain ⟨-, before, after, split, others⟩ := List.find?_eq_some_iff_append.mp start
      have found : workflow.nodes.find? workflow.isFree = some node := by
        refine List.find?_eq_some_iff_append.mpr
          ⟨List.all_eq_true.mpr (by simpa using free), before, after, split, fun other member => ?_⟩
        simp [isFree_eq_false_of_not_isStartNode (by simpa using others other member)]
      rw [found]
    · have none : workflow.nodes.find? workflow.isFree = none := by
        refine List.find?_eq_none.mpr fun other member => ?_
        simp [isFree_eq_false_iff.mpr (targeted other member)]
      rw [none, first]
      rfl

theorem findStartNode_convertToWorkflowDef {workflow : Workflow}
    (consistent : ∀ node ∈ workflow.nodes, ∀ other ∈ workflow.nodes,
      node.id = other.id → node = other)
    (named : ∀ node ∈ workflow.nodes, node.id ≠ "") (agrees : workflow.StartAgrees) :
    (convertToWorkflowDef workflow).findStartNode =
      workflow.findStartNode.map WorkflowNode.toNodeDef := by
  have loaded := agrees.findLoadedStart
  cases start : workflow.findStartNode with
  | none =>
    have nodes : workflow.nodes = [] := by
      obtain ⟨-, first⟩ := Option.or_eq_none_iff.mp start
      exact List.head?_eq_none_iff.mp first
    rw [start] at loaded
    rw [WorkflowDef.findStartNode]
    simp [convertToWorkflowDef, loaded, nodes, WorkflowDef.leastNode]
  | some node =>
    have member := Workflow.findStartNode_mem start
    have root : (convertToWorkflowDef workflow).rootNodeID = node.id := by
      simp [convertToWorkflowDef, loaded, start]
    have found : workflow.findNodeByID node.id = some node := by
      cases search : workflow.findNodeByID node.id with
      | none => simpa using List.find?_eq_none.mp search node member
      | some other =>
        have sameName : other.id = node.id := by simpa using List.find?_some search
        rw [consistent other (List.mem_of_find?_eq_some search) node member sameName]
    rw [WorkflowDef.findStartNode]
    simp [root, named node member, getNode_convertToWorkflowDef consistent, found]

/-! ## Answers -/

section Services

variable {World : Type}

/-- The node executor, the context and the verdicts are the same for both engines. -/
structure SameServices (registry : AgentServices World) (hydrated : HydratedServices World) :
    Prop where
  execute : hydrated.execute = registry.execute
  context : hydrated.contextErr = registry.contextErr
  wait : hydrated.wait = registry.wait
  verdicts : ∀ condition output results, condition ≠ "" →
    hydrated.evaluate condition output results =
      registry.evaluateCondition condition output results

/-- The registry finds an agent for every node, looking for agents has no effect, and the node
executor makes no difference between that agent and the one of the other engine, of which it
knows a name at most. -/
def Staffed (registry : AgentServices World) (hydrated : HydratedServices World)
    (workflow : Workflow) : Prop :=
  ∀ node ∈ workflow.nodes, ∃ agent others agentID,
    (∀ world, registry.findAgentsForTask node.agent world = (.ok (agent :: others), world)) ∧
    (∀ world, hydrated.agentID node.agent world = (agentID, world)) ∧
    ∀ input,
      registry.execute node input
          { id := agentID, role := node.agent, capabilities := [], config := ∅, status := "" } =
        registry.execute node input agent

theorem attemptNode_outcome {first second : Services World} (wait : second.wait = first.wait)
    {agent other : Agent}
    (execute : ∀ input, second.execute node input other = first.execute node input agent)
    {result otherResult : NodeResult} (same : otherResult.outcome = result.outcome)
    (attempt left : Nat) (world : World) :
    (second.attemptNode node other otherResult attempt left world).1.outcome =
        (first.attemptNode node agent result attempt left world).1.outcome ∧
      (second.attemptNode node other otherResult attempt left world).2 =
        (first.attemptNode node agent result attempt left world).2 := by
  have sameID : otherResult.nodeID = result.nodeID := congrArg (fun outcome => outcome.1) same
  have sameInput : otherResult.input = result.input := congrArg (fun outcome => outcome.2.1) same
  have sameOutput : otherResult.output = result.output :=
    congrArg (fun outcome => outcome.2.2.1) same
  have sameError : otherResult.error = result.error := congrArg (fun outcome => outcome.2.2.2) same
  induction left generalizing attempt world with
  | zero => exact ⟨same, rfl⟩
  | succ left ih =>
    rw [Services.attemptNode_succ, Services.attemptNode_succ, sameInput, execute, wait]
    rcases first.execute node result.input agent world with ⟨err | output, after⟩
    · dsimp only
      split
      · simp [NodeRun.outcome, NodeResult.outcome, sameID, sameOutput]
      · rcases first.wait attempt after with ⟨_ | stopped, later⟩
        · exact ih (attempt + 1) later
        · simp [NodeRun.outcome, NodeResult.outcome, sameID, sameOutput]
    · simp [NodeRun.outcome, NodeResult.outcome, sameID, sameError]

variable {registry : AgentServices World} {hydrated : HydratedServices World}
  {workflow : Workflow}

theorem Staffed.executeNode (staffed : Staffed registry hydrated workflow)
    (same : SameServices registry hydrated) (maxRetries : Int)
    (member : node ∈ workflow.nodes) (input : Value) (world : World) :
    (hydrated.executeNode maxRetries node.toNodeDef input world).1.outcome =
        (registry.executeNode maxRetries node input world).1.outcome ∧
      (hydrated.executeNode maxRetries node.toNodeDef input world).2 =
        (registry.executeNode maxRetries node input world).2 := by
  obtain ⟨agent, others, agentID, found, name, indifferent⟩ := staffed node member
  rw [HydratedServices.executeNode, AgentServices.executeNode]
  simp only [bind, StateT.bind]
  have sameRole : node.toNodeDef.agentRole = node.agent := rfl
  rw [found world, sameRole, name world]
  dsimp only
  refine attemptNode_outcome same.wait (fun input => ?_) ?_ 0 _ world
  · rw [same.execute]
    exact indifferent input
  · rfl

structure Workflow.Portable (workflow : Workflow) : Prop where
  consistent : ∀ node ∈ workflow.nodes, ∀ other ∈ workflow.nodes,
    node.id = other.id → node = other
  named : ∀ node ∈ workflow.nodes, node.id ≠ ""
  start : workflow.StartAgrees

theorem Workflow.Portable.mirrors (portable : workflow.Portable)
    (same : SameServices registry hydrated) (staffed : Staffed registry hydrated workflow)
    (maxRetries : Int) :
    (registryRunner registry maxRetries workflow).Mirrors
      (hydratedRunner hydrated maxRetries (convertToWorkflowDef workflow))
      fun node other => node ∈ workflow.nodes ∧ other = node.toNodeDef where
  maxRetries := rfl
  edges := rfl
  context := same.context
  start := by
    change Option.Rel _ workflow.findStartNode (convertToWorkflowDef workflow).findStartNode
    rw [findStartNode_convertToWorkflowDef portable.consistent portable.named portable.start]
    cases start : workflow.findStartNode with
    | none => exact .none
    | some node => exact .some ⟨Workflow.findStartNode_mem start, rfl⟩
  found nodeID := by
    change Option.Rel _ (workflow.findNodeByID nodeID)
      ((convertToWorkflowDef workflow).getNode nodeID)
    rw [getNode_convertToWorkflowDef portable.consistent]
    cases found : workflow.findNodeByID nodeID with
    | none => exact .none
    | some node => exact .some ⟨List.mem_of_find?_eq_some found, rfl⟩
  nodeID := by
    rintro node _ ⟨-, rfl⟩
    rfl
  evaluate := same.verdicts
  execute := by
    rintro node _ ⟨member, rfl⟩ input world
    exact staffed.executeNode same maxRetries member input world

end Services

def author : Agent :=
  { id := "author", role := "", capabilities := [], config := ∅, status := "" }

/-- Everything is answered with the name of the node, and no condition holds. -/
def namingRegistry (agents : List Agent) : AgentServices Unit where
  contextErr := pure none
  execute node _ _ := pure (.ok (.string node.id))
  wait _ := pure none
  findAgentsForTask _ := pure (.ok agents)
  query _ _ := pure (.ok [])

def namingHydrated : HydratedServices Unit where
  contextErr := pure none
  execute node _ _ := pure (.ok (.string node.id))
  wait _ := pure none
  agentFinder := none
  conditionEval := some fun _ _ => pure (.ok false)

theorem naming_sameServices (agents : List Agent) :
    SameServices (namingRegistry agents) namingHydrated where
  execute := rfl
  context := rfl
  wait := rfl
  verdicts condition output results conditional := by
    funext world
    simp only [AgentServices.evaluateCondition, if_neg conditional]
    rfl

def correcting : Workflow where
  id := "correcting"
  name := "Correcting"
  version := "1"
  nodes := [bareNode "fix", bareNode "plan"]
  edges := [⟨"plan", "fix", "rejected(X)"⟩]

def planning : Workflow := { correcting with nodes := [bareNode "plan"], edges := [] }

def briefly (finished : Option (WorkflowResult × List Runner.Visit)) :
    Option (WorkflowStatus × List String) :=
  finished.map fun finished => (finished.1.status, finished.2.map Runner.Visit.nodeID)

theorem briefly_eq_of_sameEnd {finished other : Option (WorkflowResult × List Runner.Visit)}
    (same : Option.Rel Runner.SameEnd finished other) : briefly other = briefly finished := by
  cases same with
  | none => rfl
  | some same =>
    obtain ⟨status, -, visits⟩ := same
    have names := congrArg (List.map Prod.fst) visits
    rw [List.map_map, List.map_map] at names
    rw [briefly, briefly, Option.map_some, Option.map_some, status]
    exact congrArg (fun names => some (_, names)) names

theorem planning_portable : planning.Portable where
  consistent := by simp [planning]
  named := by simp [planning, bareNode]
  start := by simp [Workflow.StartAgrees, planning]

theorem planning_staffed : Staffed (namingRegistry [author]) namingHydrated planning := by
  intro node _
  exact ⟨author, [], "", fun _ => rfl, fun _ => rfl, fun _ => rfl⟩

end Manglekit.Multiagent

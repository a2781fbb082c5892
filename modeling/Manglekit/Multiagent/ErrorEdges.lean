import Manglekit.Multiagent.Executors

/-!
# Error edges after a success

Edges for failures stand among the other edges, and after a success their conditions are
evaluated like any other.  So they matter, unless an edge without a condition stands before
them.
-/

namespace Manglekit.Multiagent

open Core Engine

def withoutErrorEdges (edges : List WorkflowEdge) : List WorkflowEdge :=
  edges.filter fun edge => !isErrorEdge edge

/-- An edge without a condition stands before every error edge. -/
def Shielded (edges : List WorkflowEdge) : Prop :=
  ∀ before edge after, edges = before ++ edge :: after → isErrorEdge edge = true →
    ∃ earlier ∈ before, earlier.condition = ""

theorem not_isErrorEdge_of_unconditional {edge : WorkflowEdge}
    (unconditional : edge.condition = "") : isErrorEdge edge = false := by
  rw [isErrorEdge, unconditional]
  decide

theorem outgoingEdges_withoutErrorEdges (edges : List WorkflowEdge) (nodeID : String) :
    outgoingEdges (withoutErrorEdges edges) nodeID =
      withoutErrorEdges (outgoingEdges edges nodeID) := by
  simp only [outgoingEdges, withoutErrorEdges, List.filter_filter]
  exact List.filter_congr fun edge _ => Bool.and_comm _ _

section Selection

variable {World Node : Type}

theorem selectEdge_withoutErrorEdges (verdict : String → StateM World (Except GoError Bool))
    {edges : List WorkflowEdge} (shielded : Shielded edges) (world : World) :
    selectEdge verdict (withoutErrorEdges edges) world = selectEdge verdict edges world := by
  induction edges generalizing world with
  | nil => rfl
  | cons edge rest ih =>
    have plain : isErrorEdge edge = false := by
      by_contra error
      obtain ⟨earlier, member, -⟩ := shielded [] edge rest rfl (by simpa using error)
      cases member
    have kept : withoutErrorEdges (edge :: rest) = edge :: withoutErrorEdges rest := by
      simp [withoutErrorEdges, plain]
    rw [kept, selectEdge_cons, selectEdge_cons]
    split
    · rfl
    next conditional =>
      have restShielded : Shielded rest := by
        intro before other after split isError
        obtain ⟨earlier, member, unconditional⟩ :=
          shielded (edge :: before) other after (by rw [split, List.cons_append]) isError
        rcases List.mem_cons.mp member with rfl | later
        · exact absurd unconditional conditional
        · exact ⟨earlier, later, unconditional⟩
      rcases verdict edge.condition world with ⟨_ | _ | _, after⟩
      · rfl
      · exact ih restShielded after
      · rfl

/-- An evaluator that fails at the conditions of error edges and refuses all others. -/
def errorsOnly (condition : String) : Except GoError Bool :=
  if startsWithError condition then .error (.text "unreadable condition") else .ok false

theorem errorsOnly_condition (edge : WorkflowEdge) :
    errorsOnly edge.condition =
      if isErrorEdge edge then .error (.text "unreadable condition") else .ok false := rfl

variable {verdict : String → StateM World (Except GoError Bool)}
  (answers : ∀ condition world, condition ≠ "" →
    (verdict condition world).1 = errorsOnly condition)

include answers

theorem selectEdge_withoutErrorEdges_ok (edges : List WorkflowEdge) (world : World) :
    ∃ selected, (selectEdge verdict (withoutErrorEdges edges) world).1 = .ok selected := by
  induction edges generalizing world with
  | nil => exact ⟨none, rfl⟩
  | cons edge rest ih =>
    by_cases isError : isErrorEdge edge = true
    · simpa [withoutErrorEdges, isError] using ih world
    · have kept : withoutErrorEdges (edge :: rest) = edge :: withoutErrorEdges rest := by
        simp [withoutErrorEdges, isError]
      rw [kept, selectEdge_cons]
      split
      · exact ⟨some edge, rfl⟩
      next conditional =>
        have refused : (verdict edge.condition world).1 = .ok false := by
          rw [answers edge.condition world conditional, errorsOnly_condition, if_neg isError]
        rcases answer : verdict edge.condition world with ⟨_ | _ | _, after⟩ <;>
          simp only [answer, reduceCtorEq, Except.ok.injEq, Bool.true_eq_false] at refused
        exact ih after

theorem selectEdge_error {before after : List WorkflowEdge} {edge : WorkflowEdge}
    (conditional : ∀ earlier ∈ before, earlier.condition ≠ "")
    (isError : isErrorEdge edge = true) (world : World) :
    ∃ err, (selectEdge verdict (before ++ edge :: after) world).1 = .error err := by
  induction before generalizing world with
  | nil =>
    have notEmpty : edge.condition ≠ "" := fun empty => by
      rw [not_isErrorEdge_of_unconditional empty] at isError
      cases isError
    have failed := answers edge.condition world notEmpty
    rw [errorsOnly_condition, if_pos isError] at failed
    rw [List.nil_append, selectEdge_cons, if_neg notEmpty]
    rcases answer : verdict edge.condition world with ⟨_ | _ | _, after⟩ <;>
      simp only [answer, reduceCtorEq] at failed
    exact ⟨_, rfl⟩
  | cons earlier rest ih =>
    obtain ⟨notEmpty, others⟩ := List.forall_mem_cons.mp conditional
    have answered := answers earlier.condition world notEmpty
    rw [List.cons_append, selectEdge_cons, if_neg notEmpty]
    rcases answer : verdict earlier.condition world with ⟨err | _ | _, after⟩
    · exact ⟨err, rfl⟩
    · exact ih others after
    · rw [answer, errorsOnly] at answered
      split at answered <;> cases answered

end Selection

/-! ## Successors -/

section Successors

variable {World Node : Type}

/-- What the source returns: the next node, or the error of a condition. -/
def Runner.successor (runner : Runner World Node) (nodeID : String) (output : Value)
    (previousResults : StringMap Value) (world : World) : Except GoError (Option Node) :=
  (runner.findNextNode nodeID output previousResults world).1.map Successor.node

theorem Runner.successor_eq (runner : Runner World Node) (nodeID : String) (output : Value)
    (previousResults : StringMap Value) (world : World) :
    runner.successor nodeID output previousResults world =
      (selectEdge (fun condition => runner.evaluate condition output previousResults)
        (outgoingEdges runner.edges nodeID) world).1.map
          fun selected => selected.bind fun edge => runner.findNode edge.target := by
  rw [successor, findNextNode_eq]
  rcases selectEdge (fun condition => runner.evaluate condition output previousResults)
    (outgoingEdges runner.edges nodeID) world with ⟨_ | _, after⟩ <;> rfl

end Successors

/-- The successors in the workflow are those in the workflow without its error edges. -/
def RegistryIgnoresErrorEdges (workflow : Workflow) (nodeID : String) : Prop :=
  ∀ (World : Type) (services : AgentServices World) (maxRetries : Int) (output : Value)
    (previousResults : StringMap Value) (world : World),
    (registryRunner services maxRetries workflow).successor nodeID output previousResults world =
      (registryRunner services maxRetries
        { workflow with edges := withoutErrorEdges workflow.edges }).successor nodeID output
          previousResults world

def HydratedIgnoresErrorEdges (workflow : WorkflowDef) (nodeID : String) : Prop :=
  ∀ (World : Type) (services : HydratedServices World) (maxRetries : Int) (output : Value)
    (previousResults : StringMap Value) (world : World),
    (hydratedRunner services maxRetries workflow).successor nodeID output previousResults world =
      (hydratedRunner services maxRetries
        { workflow with edges := withoutErrorEdges workflow.edges }).successor nodeID output
          previousResults world

/-- Nothing else happens: agents are never found and nodes never run. -/
def idle : Services Unit where
  contextErr := pure none
  execute _ _ _ := pure (.ok .nil)
  wait _ := pure none

def failingQueries : AgentServices Unit where
  toServices := idle
  findAgentsForTask _ := pure (.ok [])
  query _ condition := pure ((errorsOnly condition).map fun _ => [])

def failingEvaluator : HydratedServices Unit where
  toServices := idle
  agentFinder := none
  conditionEval := some fun condition _ => pure (errorsOnly condition)

/-- An evaluator that tells the two edge lists apart, unless error edges are never looked at. -/
theorem shielded_of_same {World Node : Type}
    {verdict : String → StateM World (Except GoError Bool)}
    (answers : ∀ condition world, condition ≠ "" →
      (verdict condition world).1 = errorsOnly condition)
    (find : Option WorkflowEdge → Option Node) {edges : List WorkflowEdge} {world : World}
    (same : (selectEdge verdict edges world).1.map find =
      (selectEdge verdict (withoutErrorEdges edges) world).1.map find) : Shielded edges := by
  rintro before edge after rfl isError
  by_contra! conditional
  obtain ⟨err, failed⟩ := selectEdge_error answers conditional isError world
  obtain ⟨selected, chosen⟩ :=
    selectEdge_withoutErrorEdges_ok answers (before ++ edge :: after) world
  rw [failed, chosen] at same
  cases same

/-- Error edges matter only after failures exactly where an edge without a condition stands
before each of them. -/
theorem ignoresErrorEdges_iff_shielded (workflow : Workflow) (definition : WorkflowDef)
    (nodeID : String) :
    (RegistryIgnoresErrorEdges workflow nodeID ↔
        Shielded (outgoingEdges workflow.edges nodeID)) ∧
      (HydratedIgnoresErrorEdges definition nodeID ↔
        Shielded (outgoingEdges definition.edges nodeID)) := by
  refine ⟨⟨fun ignores => ?_, fun shielded => ?_⟩, ⟨fun ignores => ?_, fun shielded => ?_⟩⟩
  · have same := ignores Unit failingQueries 0 .nil ∅ ()
    rw [Runner.successor_eq, Runner.successor_eq] at same
    simp only [registryRunner, outgoingEdges_withoutErrorEdges] at same
    refine shielded_of_same (fun condition world notEmpty => ?_) _ same
    have answered : errorsOnly condition = .ok false ∨
        errorsOnly condition = .error (.text "unreadable condition") := by
      rw [errorsOnly]
      split
      · exact .inr rfl
      · exact .inl rfl
    simp only [AgentServices.evaluateCondition, if_neg notEmpty, failingQueries]
    rcases answered with refused | failed
    · rw [refused]
      rfl
    · rw [failed]
      rfl
  · intro World services maxRetries output previousResults world
    rw [Runner.successor_eq, Runner.successor_eq]
    simp only [registryRunner, outgoingEdges_withoutErrorEdges]
    rw [selectEdge_withoutErrorEdges _ shielded]
    rfl
  · have same := ignores Unit failingEvaluator 0 .nil ∅ ()
    rw [Runner.successor_eq, Runner.successor_eq] at same
    simp only [hydratedRunner, outgoingEdges_withoutErrorEdges] at same
    exact shielded_of_same (fun condition world notEmpty => rfl) _ same
  · intro World services maxRetries output previousResults world
    rw [Runner.successor_eq, Runner.successor_eq]
    simp only [hydratedRunner, outgoingEdges_withoutErrorEdges]
    rw [selectEdge_withoutErrorEdges _ shielded]
    rfl

def bareNode (id : String) : WorkflowNode := ⟨id, "agent", id, ∅⟩

def drafting : Workflow where
  id := "drafting"
  name := "Drafting"
  version := "1"
  nodes := [bareNode "draft", bareNode "publish", bareNode "handle"]
  edges := [⟨"draft", "publish", "approved(X)"⟩, ⟨"draft", "handle", "error(X)"⟩]

/-- The engine knows of an error somewhere and of no approval. -/
def knownError : AgentServices Unit where
  toServices := idle
  findAgentsForTask _ := pure (.ok [])
  query _ condition := pure (.ok (if condition = "error(X)" then [∅] else []))

theorem drafting_takes_errorEdge :
    ((registryRunner knownError 3 drafting).successor "draft" (.string "text") ∅ ()).map
        (Option.map WorkflowNode.id) = .ok (some "handle") ∧
      ((registryRunner knownError 3
        { drafting with edges := withoutErrorEdges drafting.edges }).successor "draft"
          (.string "text") ∅ ()).map (Option.map WorkflowNode.id) = .ok none ∧
      ¬ RegistryIgnoresErrorEdges drafting "draft" := by
  have taken : ((registryRunner knownError 3 drafting).successor "draft" (.string "text") ∅ ()).map
      (Option.map WorkflowNode.id) = .ok (some "handle") := rfl
  have ended : ((registryRunner knownError 3
      { drafting with edges := withoutErrorEdges drafting.edges }).successor "draft"
        (.string "text") ∅ ()).map (Option.map WorkflowNode.id) = .ok none := rfl
  refine ⟨taken, ended, fun ignores => ?_⟩
  rw [ignores Unit knownError 3 (.string "text") ∅ (), ended] at taken
  cases taken

end Manglekit.Multiagent

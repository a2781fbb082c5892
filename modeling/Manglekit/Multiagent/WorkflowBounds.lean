import Manglekit.Iteration.Budget
import Manglekit.Multiagent.WorkflowSession
import Mathlib.Data.String.Basic

/-!
# Workflows end

Every run of a node is counted, and a count above the limit ends the run.  So a run ends on every
graph, with or without cycles, and whatever the nodes, the conditions and the context do.
-/

namespace Manglekit.Multiagent

open Core Engine Iteration Runner

/-- No node is run more often than the limit allows, nor are all of them together. -/
structure Bounded (nodes : Nat) (maxRetries : Int) (visits : List Visit) : Prop where
  each : ∀ nodeID, (visits.map Visit.nodeID).count nodeID ≤ maxRetries.toNat
  total : visits.length ≤ nodes * maxRetries.toNat
  calls : (visits.flatMap fun visit => visit.run.ranOn).length ≤
    nodes * maxRetries.toNat * (maxRetries + 1).toNat

structure Counted (names : List String) (maxRetries : Int) (visited : String → Nat)
    (visits : List Visit) : Prop where
  tallied : Tallied maxRetries.toNat names visited (visits.map Visit.nodeID)
  attempts : ∀ visit ∈ visits, visit.run.ranOn.length ≤ (maxRetries + 1).toNat

theorem length_flatMap_le {Item Part : Type*} {parts : Item → List Part} {items : List Item}
    {bound : Nat} (bounded : ∀ item ∈ items, (parts item).length ≤ bound) :
    (items.flatMap parts).length ≤ items.length * bound := by
  induction items with
  | nil => exact Nat.zero_le _
  | cons item rest ih =>
    obtain ⟨first, others⟩ := List.forall_mem_cons.mp bounded
    rw [List.flatMap_cons, List.length_append, List.length_cons, Nat.succ_mul]
    have := ih others
    omega

section Counting

variable {names : List String} {maxRetries : Int} {visited : String → Nat} {visits : List Visit}

theorem Counted.nil (names : List String) (maxRetries : Int) (visited : String → Nat) :
    Counted names maxRetries visited [] :=
  ⟨.nil .., by simp⟩

section

variable (counted : Counted names maxRetries visited visits)

include counted

theorem Counted.visit {visit : Visit} (member : visit.nodeID ∈ names)
    (within : ((visited visit.nodeID + 1 : Nat) : Int) ≤ maxRetries)
    (attempts : visit.run.ranOn.length ≤ (maxRetries + 1).toNat) :
    Counted names maxRetries (use visited visit.nodeID) (visits ++ [visit]) := by
  refine ⟨?_, fun other old => ?_⟩
  · rw [List.map_append]
    exact counted.tallied.use member (by omega)
  · rcases List.mem_append.mp old with old | new
    · exact counted.attempts other old
    · cases List.mem_singleton.mp new
      exact attempts

theorem Counted.bounded :
    Bounded names.length maxRetries visits where
  each := counted.tallied.within
  total := by simpa using counted.tallied.length_le
  calls := by
    have total : visits.length ≤ names.length * maxRetries.toNat := by
      simpa using counted.tallied.length_le
    exact Nat.le_trans (length_flatMap_le counted.attempts) (Nat.mul_le_mul_right _ total)

end

end Counting

variable {World Node : Type}

/-! ## Runs -/

namespace Runner

/-- The nodes that a run can come to have one of the names, and each is tried only so often. -/
structure Closed (runner : Runner World Node) (names : List String) : Prop where
  start : ∀ node, runner.startNode = some node → runner.nodeID node ∈ names
  found : ∀ nodeID node, runner.findNode nodeID = some node → runner.nodeID node ∈ names
  attempts : ∀ node input world,
    (runner.executeNode node input world).1.ranOn.length ≤ (runner.maxRetries + 1).toNat

variable {runner : Runner World Node} {names : List String}

theorem Ran.counted {before after : LoopState World Node} {visit : Visit}
    (ran : runner.Ran before after visit) (closed : runner.Closed names)
    (current : runner.nodeID before.current ∈ names)
    (counted : Counted names runner.maxRetries before.visited before.visits) :
    Counted names runner.maxRetries after.visited after.visits := by
  obtain ⟨world, run⟩ := ran.run
  rw [ran.visited, ran.visits]
  refine counted.visit (ran.nodeID ▸ current) ran.within ?_
  rw [run]
  exact closed.attempts ..

/-- In every turn the loop uses the name of a node below the limit. -/
structure Counting (runner : Runner World Node) (names : List String)
    (state : LoopState World Node) : Prop where
  current : runner.nodeID state.current ∈ names
  counted : Counted names runner.maxRetries state.visited state.visits

section

variable (closed : runner.Closed names)

include closed

theorem Counting.next {before after : LoopState World Node}
    (counting : runner.Counting names before) (turned : runner.turn before = .next after) :
    runner.Counting names after ∧
      ∃ name ∈ names, before.visited name < runner.maxRetries.toNat ∧
        after.visited = use before.visited name := by
  have turnCase := runner.turn_cases before
  generalize runner.turn before = turn at turnCase turned
  cases turnCase with
  | stopped ended => cases turned
  | ran visit middle ran =>
    obtain ⟨edge, node, -, found, rfl⟩ := leave_eq_next turned
    have within := ran.within
    exact ⟨⟨closed.found _ node found, ran.counted closed counting.current counting.counted⟩,
      visit.nodeID, ran.nodeID ▸ counting.current, by omega, ran.visited⟩

theorem Counting.done {last : LoopState World Node} {ended : LoopEnd World Node}
    (counting : runner.Counting names last) (turned : runner.turn last = .done ended) :
    Bounded names.length runner.maxRetries ended.state.visits := by
  have turnCase := runner.turn_cases last
  generalize runner.turn last = turn at turnCase turned
  cases turnCase with
  | stopped other sameVisits =>
    cases turned
    rw [sameVisits]
    exact counting.counted.bounded
  | ran visit after ran =>
    rw [leave_eq_done turned]
    exact (ran.counted closed counting.current counting.counted).bounded

theorem Closed.execute_bounded (input : Value) (world : World) :
    ∃ result visits,
      runner.execute (names.length * runner.maxRetries.toNat + 1) input world =
          some (result, visits) ∧
        Bounded names.length runner.maxRetries visits := by
  rw [execute]
  cases start : runner.startNode with
  | none => exact ⟨_, _, rfl, (Counted.nil names runner.maxRetries fun _ => 0).bounded⟩
  | some node =>
    have counting : runner.Counting names { world, current := node, currentInput := input } :=
      ⟨closed.start node start, .nil ..⟩
    obtain ⟨ended, iterated⟩ := exists_iterate_of_uses (fun state => state.visited)
      (fun _ _ next (counting : runner.Counting names _) => (counting.next closed next).1)
      (fun _ _ next counting => (counting.next closed next).2) counting
    obtain ⟨last, reached, done⟩ := ends_of_iterate iterated
    have counted : runner.Counting names last :=
      reached.invariant (fun _ _ next counting => (counting.next closed next).1) counting
    dsimp only
    rw [iterated]
    exact ⟨_, _, rfl, counted.done closed done⟩

end

end Runner

theorem registryRunner_closed (services : AgentServices World) (maxRetries : Int)
    (workflow : Workflow) :
    (registryRunner services maxRetries workflow).Closed (workflow.nodes.map WorkflowNode.id) where
  start _ start := List.mem_map_of_mem (Workflow.findStartNode_mem start)
  found _ _ found := List.mem_map_of_mem (List.mem_of_find?_eq_some found)
  attempts node input world := (services.executeNode_spec maxRetries node input world).2

variable {best : Option NodeDef} {node : NodeDef} {before after : SessionState World}

namespace WorkflowDef

theorem foldl_better_mem {entries : List (Sigma fun _ : String => NodeDef)}
    (least : entries.foldl better best = some node) :
    best = some node ∨ ∃ key, ⟨key, node⟩ ∈ entries := by
  induction entries generalizing best with
  | nil => exact .inl least
  | cons entry rest ih =>
    rcases ih least with found | ⟨key, later⟩
    · rw [better.eq_def] at found
      split at found
      · cases found
        exact .inr ⟨entry.1, List.mem_cons_self ..⟩
      · split at found
        · cases found
          exact .inr ⟨entry.1, List.mem_cons_self ..⟩
        · exact .inl found
    · exact .inr ⟨key, List.mem_cons_of_mem _ later⟩

theorem leastNode_mem {entries : List (Sigma fun _ : String => NodeDef)}
    (least : leastNode entries = some node) : ∃ key, ⟨key, node⟩ ∈ entries := by
  rcases foldl_better_mem least with nothing | found
  · cases nothing
  · exact found

variable {workflow : WorkflowDef}

theorem getNode_mem {nodeID : String}
    (found : workflow.getNode nodeID = some node) : ⟨nodeID, node⟩ ∈ workflow.nodes.entries :=
  AList.mem_lookup_iff.mp found

theorem findStartNode_mem (start : workflow.findStartNode = some node) :
    ∃ key, ⟨key, node⟩ ∈ workflow.nodes.entries := by
  rcases Option.or_eq_some_iff.mp start with first | ⟨-, least⟩
  · rcases Option.or_eq_some_iff.mp first with root | ⟨-, free⟩
    · split at root
      · cases root
      · exact ⟨_, getNode_mem root⟩
    · obtain ⟨key, member⟩ := leastNode_mem free
      exact ⟨key, (List.mem_filter.mp member).1⟩
  · exact leastNode_mem least

end WorkflowDef

variable (services : HydratedServices World)

theorem hydratedRunner_closed (maxRetries : Int) (workflow : WorkflowDef) :
    (hydratedRunner services maxRetries workflow).Closed
      (workflow.nodes.entries.map fun entry => entry.2.id) where
  start node start := by
    obtain ⟨key, member⟩ := WorkflowDef.findStartNode_mem start
    exact List.mem_map.mpr ⟨_, member, rfl⟩
  found nodeID node found := List.mem_map.mpr ⟨_, WorkflowDef.getNode_mem found, rfl⟩
  attempts node input world := (services.executeNode_spec maxRetries node input world).2

/-! ## Runs in a session -/

namespace SessionExecutor

variable {executor : SessionExecutor World}

def Counting (executor : SessionExecutor World) (state : SessionState World) : Prop :=
  Counted executor.workflow.nodes.keys executor.maxRetries state.visited state.visits

section

variable {visit : Visit} (ran : executor.Ran before after visit)

include ran

theorem Ran.mem_keys :
    visit.nodeID ∈ executor.workflow.nodes.keys := by
  obtain ⟨node, found, -⟩ := ran.node
  exact AList.mem_keys.mp (AList.lookup_isSome.mp (by
    rw [WorkflowDef.getNode] at found
    simp [found]))

theorem Ran.counting (counting : executor.Counting before) : executor.Counting after := by
  obtain ⟨node, -, world, run⟩ := ran.node
  rw [Counting, ran.visited, ran.visits]
  refine Counted.visit counting ran.mem_keys ran.within ?_
  rw [run]
  exact (executor.services.executeNode_spec ..).2

end

theorem Counting.next (counting : executor.Counting before)
    (turned : executor.turn before = .next after) :
    executor.Counting after ∧
      ∃ key ∈ executor.workflow.nodes.keys, before.visited key < executor.maxRetries.toNat ∧
        after.visited = use before.visited key := by
  obtain ⟨visit, middle, ran, left⟩ := exists_ran_of_next turned
  obtain ⟨nodeID, rfl⟩ := leave_eq_next left
  have within := ran.within
  exact ⟨ran.counting counting, visit.nodeID, ran.mem_keys, by omega, ran.visited⟩

theorem Counting.done {last : SessionState World} {ended : SessionEnd World}
    (counting : executor.Counting last) (turned : executor.turn last = .done ended) :
    Bounded executor.workflow.nodes.keys.length executor.maxRetries ended.state.visits := by
  rcases done_cases turned with ⟨sameVisits, -⟩ | ⟨visit, middle, status, ran, same, -⟩
  · rw [sameVisits]
    exact Counted.bounded counting
  · rw [same]
    exact Counted.bounded (ran.counting counting)

theorem visits_finish (executor : SessionExecutor World) (ended : SessionEnd World) :
    (executor.finish ended).1.visits = ended.state.visits := by
  obtain ⟨status, same⟩ := executor.exists_conclude_eq ended
  simp only [finish, same, SessionState.withStatus]

theorem runSession_bounded (executor : SessionExecutor World) (session : WorkflowInstance)
    (input : Value) (world : World) :
    ∃ outcome after,
      executor.runSession (executor.workflow.nodes.keys.length * executor.maxRetries.toNat + 1)
          session input world = some (outcome, after) ∧
        Bounded executor.workflow.nodes.keys.length executor.maxRetries outcome.visits := by
  rw [runSession]
  cases begun : executor.begin session input world with
  | none => exact ⟨_, _, rfl, (Counted.nil _ _ fun _ => 0).bounded⟩
  | some state =>
    have counting : executor.Counting state := by
      rw [Counting, begin_visits begun]
      exact .nil ..
    obtain ⟨ended, iterated⟩ := exists_iterate_of_uses (fun state => state.visited)
      (fun _ _ next (counting : executor.Counting _) => (counting.next next).1)
      (fun _ _ next counting => (counting.next next).2) counting
    obtain ⟨last, reached, done⟩ := ends_of_iterate iterated
    have counted : executor.Counting last :=
      reached.invariant (fun _ _ next counting => (counting.next next).1) counting
    dsimp only
    rw [iterated]
    exact ⟨_, _, rfl, executor.visits_finish ended ▸ counted.done done⟩

theorem executeWithSession_bounded (executor : SessionExecutor World) (input : Value)
    (world : World) :
    ∃ outcome after,
      executor.executeWithSession
          (executor.workflow.nodes.entries.length * executor.maxRetries.toNat + 1) input world =
            some (outcome, after) ∧
        ∀ run, outcome = .ok run →
          Bounded executor.workflow.nodes.entries.length executor.maxRetries run.visits := by
  have run (session : WorkflowInstance) (world : World) :
      ∃ (outcome : Except GoError SessionOutcome) (after : World),
        (executor.runSession
          (executor.workflow.nodes.entries.length * executor.maxRetries.toNat + 1) session input
            world).map (Prod.map .ok id) = some (outcome, after) ∧
          ∀ run, outcome = .ok run →
            Bounded executor.workflow.nodes.entries.length executor.maxRetries run.visits := by
    obtain ⟨outcome, after, ran, bounded⟩ := executor.runSession_bounded session input world
    rw [AList.keys, List.keys, List.length_map] at ran bounded
    refine ⟨.ok outcome, after, by rw [ran]; rfl, fun run same => ?_⟩
    cases same
    exact bounded
  rw [executeWithSession]
  rcases executor.store.get (executor.sessionID ++ ":" ++ executor.workflow.id) world
    with ⟨missing | session, found⟩
  · dsimp only
    rcases executor.store.create executor.newSession found with ⟨_ | err, created⟩
    · exact run executor.newSession created
    · exact ⟨_, _, rfl, by simp⟩
  · exact run session found

end SessionExecutor

/-! ## The order of the nodes -/

namespace WorkflowDef

variable {entries : List (Sigma fun _ : String => NodeDef)}

def Keyed (entries : List (Sigma fun _ : String => NodeDef)) : Prop :=
  ∀ entry ∈ entries, entry.1 = entry.2.id

theorem foldl_better_isSome (nonempty : best.isSome ∨ entries ≠ []) :
    (entries.foldl better best).isSome := by
  induction entries generalizing best with
  | nil => simpa using nonempty
  | cons entry rest ih =>
    refine ih (.inl ?_)
    rw [better.eq_def]
    split
    · rfl
    · split <;> rfl

section

variable (keyed : Keyed entries)

include keyed

theorem foldl_better_le (least : entries.foldl better best = some node) :
    (∀ earlier, best = some earlier → node.id ≤ earlier.id) ∧
      ∀ entry ∈ entries, node.id ≤ entry.1 := by
  induction entries generalizing best with
  | nil =>
    refine ⟨fun earlier same => ?_, by simp⟩
    rw [List.foldl_nil, same] at least
    cases least
    exact le_rfl
  | cons entry rest ih =>
    obtain ⟨own, others⟩ := List.forall_mem_cons.mp keyed
    obtain ⟨before, later⟩ := ih others least
    rw [better.eq_def] at before
    split at before
    · refine ⟨by simp, List.forall_mem_cons.mpr ⟨?_, later⟩⟩
      exact own ▸ before entry.2 rfl
    next earlier =>
      split at before
      next less =>
        have first : node.id ≤ entry.1 := own ▸ before entry.2 rfl
        refine ⟨?_, List.forall_mem_cons.mpr ⟨first, later⟩⟩
        intro _ same
        cases same
        exact first.trans less.le
      next notLess =>
        have first := before earlier rfl
        refine ⟨?_, List.forall_mem_cons.mpr ⟨first.trans (not_lt.mp notLess), later⟩⟩
        intro _ same
        cases same
        exact first

theorem leastNode_eq_some_iff (nodup : entries.NodupKeys) :
    leastNode entries = some node ↔
      ⟨node.id, node⟩ ∈ entries ∧ ∀ entry ∈ entries, node.id ≤ entry.1 := by
  have own {chosen : NodeDef} (least : leastNode entries = some chosen) :
      ⟨chosen.id, chosen⟩ ∈ entries := by
    obtain ⟨key, member⟩ := leastNode_mem least
    rw [← keyed _ member]
    exact member
  constructor
  · intro least
    exact ⟨own least, (foldl_better_le keyed least).2⟩
  · rintro ⟨member, minimal⟩
    have nonempty : (leastNode entries).isSome :=
      foldl_better_isSome (.inr (List.ne_nil_of_mem member))
    obtain ⟨chosen, least⟩ := Option.isSome_iff_exists.mp nonempty
    have same : node.id = chosen.id :=
      le_antisymm (minimal _ (own least)) ((foldl_better_le keyed least).2 _ member)
    have node_eq : node = chosen := by
      refine nodup.eq_of_mk_mem member ?_
      rw [same]
      exact own least
    rw [node_eq, least]

theorem leastNode_perm (nodup : entries.NodupKeys)
    {others : List (Sigma fun _ : String => NodeDef)} (reordered : entries.Perm others) :
    leastNode entries = leastNode others := by
  have otherKeyed : Keyed others := fun entry member => keyed entry (reordered.mem_iff.mpr member)
  have otherNodup : others.NodupKeys := (List.perm_nodupKeys reordered).mp nodup
  ext node
  rw [leastNode_eq_some_iff keyed nodup, leastNode_eq_some_iff otherKeyed otherNodup]
  simp only [reordered.mem_iff]

end

/-- The same definition, whose nodes a range loop visits in another order. -/
structure Reordered (first second : WorkflowDef) : Prop where
  id : second.id = first.id
  rootNodeID : second.rootNodeID = first.rootNodeID
  edges : second.edges = first.edges
  nodes : first.nodes.entries.Perm second.nodes.entries

variable {first second : WorkflowDef}

theorem Reordered.getNode (reordered : Reordered first second) : second.getNode = first.getNode :=
  funext fun _ => (AList.perm_lookup reordered.nodes).symm

theorem Reordered.findStartNode (reordered : Reordered first second)
    (keyed : Keyed first.nodes.entries) : second.findStartNode = first.findStartNode := by
  have incoming : second.hasIncoming = first.hasIncoming := by
    funext nodeID
    rw [hasIncoming, reordered.edges, hasIncoming]
  have all := leastNode_perm keyed first.nodes.nodupKeys reordered.nodes
  have free := leastNode_perm (fun entry member => keyed entry (List.mem_filter.mp member).1)
    (first.nodes.nodupKeys.sublist List.filter_sublist)
    (reordered.nodes.filter fun entry => !first.hasIncoming entry.1)
  simp only [WorkflowDef.findStartNode, reordered.rootNodeID, reordered.getNode, incoming, all,
    free]

end WorkflowDef

/-- The answers depend on the facts and not on their order. -/
def FactsOnly (evaluator : String → StringMap Value → StateM World (Except GoError Bool)) : Prop :=
  ∀ condition facts others, facts.entries.Perm others.entries →
    evaluator condition facts = evaluator condition others

/-- The same map in another order. -/
def Reorders (order : StringMap Value → StringMap Value) : Prop :=
  ∀ facts : StringMap Value, facts.entries.Perm (order facts).entries

/-- The evaluator sees the facts in the order in which they are iterated. -/
def HydratedServices.iterating (services : HydratedServices World)
    (evaluator : String → StringMap Value → StateM World (Except GoError Bool))
    (order : StringMap Value → StringMap Value) : HydratedServices World :=
  { services with conditionEval := some fun condition facts => evaluator condition (order facts) }

theorem iterating_eq {evaluator : String → StringMap Value → StateM World (Except GoError Bool)}
    (factsOnly : FactsOnly evaluator) {order other : StringMap Value → StringMap Value}
    (reorders : Reorders order) (otherReorders : Reorders other) :
    services.iterating evaluator order = services.iterating evaluator other := by
  have same : (fun condition facts => evaluator condition (order facts)) =
      fun condition facts => evaluator condition (other facts) := by
    funext condition facts
    exact factsOnly condition _ _ ((reorders facts).symm.trans (otherReorders facts))
  rw [HydratedServices.iterating, same, HydratedServices.iterating]

theorem hydratedRunner_reordered (maxRetries : Int)
    {first second : WorkflowDef} (reordered : WorkflowDef.Reordered first second)
    (keyed : WorkflowDef.Keyed first.nodes.entries) :
    hydratedRunner services maxRetries second = hydratedRunner services maxRetries first := by
  simp only [hydratedRunner, reordered.id, reordered.edges, reordered.findStartNode keyed,
    reordered.getNode]

namespace SessionExecutor

variable {reordered : WorkflowDef}

theorem turn_reordered (executor : SessionExecutor World)
    (same : WorkflowDef.Reordered executor.workflow reordered)
    (keyed : WorkflowDef.Keyed executor.workflow.nodes.entries) :
    { executor with workflow := reordered }.turn = executor.turn := by
  have sameRunner : { executor with workflow := reordered }.runner = executor.runner :=
    hydratedRunner_reordered _ _ same keyed
  funext state
  simp only [turn, step, runNode, afterFailure, afterSuccess, moveTo, save, sameRunner,
    same.getNode, same.edges]

theorem executeWithSession_reordered (executor : SessionExecutor World)
    (same : WorkflowDef.Reordered executor.workflow reordered)
    (keyed : WorkflowDef.Keyed executor.workflow.nodes.entries) :
    { executor with workflow := reordered }.executeWithSession = executor.executeWithSession := by
  have begun : { executor with workflow := reordered }.begin = executor.begin := by
    funext session input world
    simp only [begin, same.getNode, same.findStartNode keyed]
  have finished : { executor with workflow := reordered }.finish = executor.finish := by
    funext ended
    simp only [finish, conclude, save, same.id]
  have ran : { executor with workflow := reordered }.runSession = executor.runSession := by
    funext turns session input world
    simp only [runSession, begun, finished, turn_reordered executor same keyed, same.id]
  have fresh : { executor with workflow := reordered }.newSession = executor.newSession := by
    simp only [newSession, same.id]
  funext turns input world
  simp only [executeWithSession, ran, fresh, same.id]

end SessionExecutor

/-- The runs of the executors are bounded, and those on definitions whose nodes go by their own
names are the same in every order in which maps are iterated. -/
theorem workflow_runs_bounded (World : Type) :
    (∀ (services : AgentServices World) (maxRetries : Int) (workflow : Workflow) (input : Value)
      (world : World), ∃ result visits,
        executeWorkflow services maxRetries workflow
            (workflow.nodes.length * maxRetries.toNat + 1) input world = some (result, visits) ∧
          Bounded workflow.nodes.length maxRetries visits) ∧
      (∀ (services : HydratedServices World) (maxRetries : Int) (workflow : WorkflowDef)
        (input : Value) (world : World), ∃ result visits,
          executeHydrated services maxRetries workflow
              (workflow.nodes.entries.length * maxRetries.toNat + 1) input world =
                some (result, visits) ∧
            Bounded workflow.nodes.entries.length maxRetries visits) ∧
      (∀ (executor : SessionExecutor World) (input : Value) (world : World), ∃ outcome after,
        executor.executeWithSession
            (executor.workflow.nodes.entries.length * executor.maxRetries.toNat + 1) input world =
              some (outcome, after) ∧
          ∀ run, outcome = .ok run →
            Bounded executor.workflow.nodes.entries.length executor.maxRetries run.visits) ∧
      ∀ (first second : WorkflowDef)
        (evaluator : String → StringMap Value → StateM World (Except GoError Bool))
        (order other : StringMap Value → StringMap Value),
        WorkflowDef.Keyed first.nodes.entries → WorkflowDef.Reordered first second →
        FactsOnly evaluator → Reorders order → Reorders other →
          (∀ (services : HydratedServices World) (maxRetries : Int),
            executeHydrated (services.iterating evaluator order) maxRetries first =
              executeHydrated (services.iterating evaluator other) maxRetries second) ∧
          ∀ (services : HydratedServices World) (store : SessionStore World) (sessionID : String)
            (maxRetries : Int),
            SessionExecutor.executeWithSession
                ⟨services.iterating evaluator order, store, sessionID, maxRetries, first⟩ =
              SessionExecutor.executeWithSession
                ⟨services.iterating evaluator other, store, sessionID, maxRetries, second⟩ := by
  refine ⟨fun services maxRetries workflow input world => ?_,
    fun services maxRetries workflow input world => ?_, fun executor input world => ?_,
    fun first second evaluator order other keyed reordered factsOnly reorders otherReorders =>
      ⟨fun services maxRetries => ?_, fun services store sessionID maxRetries => ?_⟩⟩
  · have bounded :=
      (registryRunner_closed services maxRetries workflow).execute_bounded input world
    rw [List.length_map] at bounded
    exact bounded
  · have bounded :=
      (hydratedRunner_closed services maxRetries workflow).execute_bounded input world
    rw [List.length_map] at bounded
    exact bounded
  · exact executor.executeWithSession_bounded input world
  · rw [executeHydrated, executeHydrated, hydratedRunner_reordered _ _ reordered keyed,
      iterating_eq services factsOnly reorders otherReorders]
  · rw [iterating_eq services factsOnly reorders otherReorders]
    exact (SessionExecutor.executeWithSession_reordered
      ⟨services.iterating evaluator other, store, sessionID, maxRetries, first⟩ reordered
        keyed).symm

def stage (id : String) : NodeDef := ⟨id, id, "agent", ∅⟩

/-- Two nodes without an edge, the first of which a range loop visits first. -/
def twoStages (first second : String) (different : first ≠ second) : WorkflowDef where
  id := "stages"
  name := "Stages"
  version := "1"
  rootNodeID := ""
  nodes := ⟨[⟨first, stage first⟩, ⟨second, stage second⟩], by simp [different]⟩
  edges := []

def answering : HydratedServices Unit where
  contextErr := pure none
  execute node _ _ := pure (.ok (.string node.id))
  wait _ := pure none
  agentFinder := none
  conditionEval := none

theorem twoStages_orderFree :
    executeHydrated (answering.iterating (fun _ _ => pure (.ok true)) id) 1
        (twoStages "draft" "review" (by decide)) =
      executeHydrated (answering.iterating (fun _ _ => pure (.ok true)) id) 1
        (twoStages "review" "draft" (by decide)) :=
  ((workflow_runs_bounded Unit).2.2.2 (twoStages "draft" "review" (by decide))
    (twoStages "review" "draft" (by decide)) (fun _ _ => pure (.ok true)) id id
    (by simp [WorkflowDef.Keyed, twoStages, stage]) ⟨rfl, rfl, rfl, .swap ..⟩
    (fun _ _ _ _ => rfl) (fun _ => .refl _) (fun _ => .refl _)).1 answering 1

end Manglekit.Multiagent

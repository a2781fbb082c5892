import Manglekit.Multiagent.ErrorEdges
import Manglekit.Multiagent.WorkflowSession

/-!
# Completed nodes of a session

A node counts as completed when it has succeeded, and also when another node becomes the current
one.  The latter happens after failures too, if there is an edge for them.
-/

namespace Manglekit.Multiagent

open Core Engine Iteration Runner

variable {World : Type}

def Runner.Visit.Names (visit : Visit) (name : String) : Prop :=
  name = visit.nodeID ∨ name = visit.run.result.nodeID

def Succeeded (visits : List Visit) (name : String) : Prop :=
  ∃ visit ∈ visits, visit.succeeded ∧ visit.Names name

theorem Succeeded.append {visits : List Visit} {name : String} (succeeded : Succeeded visits name)
    (later : List Visit) : Succeeded (visits ++ later) name := by
  obtain ⟨visit, member, rest⟩ := succeeded
  exact ⟨visit, List.mem_append_left _ member, rest⟩

def Redeemed (visits : List Visit) : Prop :=
  ∀ before visit after edge, visits = before ++ visit :: after →
    visit.onward = .failed (some edge) → Succeeded before visit.nodeID

variable {visit : Visit} {before after middle last start state : SessionState World}
  {ended : SessionEnd World}

theorem redeemed_concat {visits : List Visit} :
    Redeemed (visits ++ [visit]) ↔
      Redeemed visits ∧
        ∀ edge, visit.onward = .failed (some edge) → Succeeded visits visit.nodeID := by
  constructor
  · intro redeemed
    refine ⟨fun before other after edge split failed => ?_, fun edge failed => ?_⟩
    · exact redeemed before other (after ++ [visit]) edge (by simp [split]) failed
    · exact redeemed visits visit [] edge rfl failed
  · rintro ⟨redeemed, last⟩ before other after edge split failed
    rcases List.eq_nil_or_concat after with rfl | ⟨rest, final, rfl⟩
    · obtain ⟨rfl, same⟩ := List.append_inj' split rfl
      cases same
      exact last edge failed
    · have longer : visits ++ [visit] = (before ++ other :: rest) ++ [final] := by
        simpa using split
      obtain ⟨rfl, -⟩ := List.append_inj' longer rfl
      exact redeemed before other rest edge rfl failed

namespace SessionExecutor

variable {executor : SessionExecutor World}

def Truthful (state : SessionState World) : Prop :=
  ∀ name ∈ state.session.completedNodes, Succeeded state.visits name

inductive Point (executor : SessionExecutor World) (session : WorkflowInstance) (input : Value)
    (world : World) : SessionState World → Prop where
  | between {start state : SessionState World} :
      executor.begin session input world = some start → Reaches executor.turn start state →
      Point executor session input world state
  | ended {start last : SessionState World} {ended : SessionEnd World} :
      executor.begin session input world = some start → Reaches executor.turn start last →
      executor.turn last = .done ended → Point executor session input world ended.state

/-! ## Turns -/

theorem Ran.truthful (ran : executor.Ran before after visit) (truthful : Truthful before) :
    Truthful after := by
  intro name listed
  rw [ran.completed] at listed
  rw [ran.visits]
  split at listed
  next succeeded =>
    rcases WorkflowInstance.mem_addOnce.mp listed with old | new
    · exact (truthful name old).append _
    · exact ⟨visit, by simp, Option.isNone_iff_eq_none.mp succeeded, .inr new⟩
  · exact (truthful name listed).append _

section

variable (ran : executor.Ran before middle visit)
  (left : executor.leave middle visit.onward = .next after)

include ran left

theorem Ran.completed_next :
    after.visits = middle.visits ∧
      ∀ name, name ∈ after.session.completedNodes ↔
        name ∈ middle.session.completedNodes ∨ name = visit.nodeID := by
  obtain ⟨nodeID, rfl⟩ := leave_eq_next left
  refine ⟨rfl, fun name => ?_⟩
  have named : middle.session.currentNodeID ≠ "" := by
    rw [ran.current, ← ran.nodeID]
    exact ran.named
  change name ∈ (middle.session.setCurrentNode nodeID).completedNodes ↔ _
  rw [WorkflowInstance.setCurrentNode_completedNodes, if_neg named, WorkflowInstance.mem_addOnce,
    ran.current, ran.nodeID]

/-- A failure is noted as a completion unless the node had succeeded before. -/
theorem Ran.truthful_next_iff (truthful : Truthful before) :
    Truthful after ↔
      ∀ edge, visit.onward = .failed (some edge) → Succeeded before.visits visit.nodeID := by
  obtain ⟨sameVisits, completed⟩ := ran.completed_next left
  have unsuccessful (edge : Option WorkflowEdge) (failed : visit.onward = .failed edge) :
      ¬ visit.succeeded := by
    have error := ran.failed.mpr ⟨edge, failed⟩
    rw [Visit.succeeded]
    exact Option.ne_none_iff_isSome.mpr error
  constructor
  · intro afterwards edge failed
    obtain ⟨other, member, succeeded, names⟩ :=
      afterwards visit.nodeID ((completed _).mpr (.inr rfl))
    rw [sameVisits, ran.visits] at member
    rcases List.mem_append.mp member with old | new
    · exact ⟨other, old, succeeded, names⟩
    · cases List.mem_singleton.mp new
      exact absurd succeeded (unsuccessful _ failed)
  · intro redeemed name listed
    rw [sameVisits]
    rcases (completed name).mp listed with noted | rfl
    · exact ran.truthful truthful name noted
    · rw [ran.visits]
      by_cases succeeded : visit.succeeded
      · exact ⟨visit, by simp, succeeded, .inl rfl⟩
      · have error : visit.run.result.error.isSome := Option.ne_none_iff_isSome.mp succeeded
        obtain ⟨edge, failed⟩ := ran.failed.mp error
        cases edge with
        | none =>
          rw [failed] at left
          cases left
        | some edge => exact (redeemed edge failed).append _

theorem redeemed_next_iff :
    Redeemed after.visits ↔
      Redeemed before.visits ∧
        ∀ edge, visit.onward = .failed (some edge) → Succeeded before.visits visit.nodeID := by
  rw [(ran.completed_next left).1, ran.visits, redeemed_concat]

end

theorem redeemed_done (turned : executor.turn last = .done ended)
    (redeemed : Redeemed last.visits) : Redeemed ended.state.visits := by
  rcases done_cases turned with ⟨visits, -⟩ | ⟨visit, middle, status, ran, same, onward⟩
  · rwa [visits]
  · rw [same]
    change Redeemed middle.visits
    rw [ran.visits]
    exact redeemed_concat.mpr ⟨redeemed, fun edge failed => absurd failed (onward edge)⟩

theorem truthful_done (turned : executor.turn last = .done ended) (truthful : Truthful last) :
    Truthful ended.state := by
  rcases done_cases turned with ⟨visits, completed⟩ | ⟨visit, middle, status, ran, same, -⟩
  · rwa [Truthful, visits, completed]
  · rw [same]
    exact ran.truthful truthful

/-! ## Runs -/

structure Fresh (session : WorkflowInstance) : Prop where
  current : session.currentNodeID = ""
  completed : session.completedNodes = []

theorem Fresh.begin {session : WorkflowInstance} (fresh : Fresh session) {input : Value}
    {world : World} (begun : executor.begin session input world = some start) :
    start.session.completedNodes = [] := by
  rw [SessionExecutor.begin, if_neg (by simp [fresh.current])] at begun
  obtain ⟨node, -, rfl⟩ := Option.map_eq_some_iff.mp begun
  dsimp only
  rw [WorkflowInstance.setCurrentNode_completedNodes, if_pos fresh.current, fresh.completed]

variable {session : WorkflowInstance} {input : Value} {world : World}

theorem truthful_of_redeemed (fresh : Fresh session)
    (redeemed : ∀ state, executor.Point session input world state → Redeemed state.visits)
    (begun : executor.begin session input world = some start)
    (reached : Reaches executor.turn start state) : Truthful state := by
  induction reached with
  | refl =>
    intro name listed
    rw [fresh.begin begun] at listed
    cases listed
  | tail earlier turned ih =>
    obtain ⟨visit, middle, ran, left⟩ := exists_ran_of_next turned
    rw [ran.truthful_next_iff left ih]
    exact ((redeemed_next_iff ran left).mp (redeemed _ (.between begun (.tail earlier turned)))).2

theorem redeemed_of_truthful
    (truthful : ∀ state, executor.Point session input world state → Truthful state)
    (begun : executor.begin session input world = some start)
    (reached : Reaches executor.turn start state) : Redeemed state.visits := by
  induction reached with
  | refl =>
    intro before visit after edge split
    rw [begin_visits begun] at split
    cases (List.append_eq_nil_iff.mp split.symm).2
  | tail earlier turned ih =>
    obtain ⟨visit, middle, ran, left⟩ := exists_ran_of_next turned
    refine (redeemed_next_iff ran left).mpr ⟨ih, ?_⟩
    exact (ran.truthful_next_iff left (truthful _ (.between begun earlier))).mp
      (truthful _ (.between begun (.tail earlier turned)))

theorem truthful_iff_redeemed (fresh : Fresh session) :
    (∀ state, executor.Point session input world state → Truthful state) ↔
      ∀ state, executor.Point session input world state → Redeemed state.visits := by
  constructor
  · intro truthful state point
    cases point with
    | between begun reached => exact redeemed_of_truthful truthful begun reached
    | ended begun reached turned =>
      exact redeemed_done turned (redeemed_of_truthful truthful begun reached)
  · intro redeemed state point
    cases point with
    | between begun reached => exact truthful_of_redeemed fresh redeemed begun reached
    | ended begun reached turned =>
      exact truthful_done turned (truthful_of_redeemed fresh redeemed begun reached)

/-! ## At most once -/

theorem Ran.nodup (ran : executor.Ran before after visit)
    (nodup : before.session.completedNodes.Nodup) : after.session.completedNodes.Nodup := by
  rw [ran.completed]
  split
  · exact WorkflowInstance.nodup_addOnce nodup _
  · exact nodup

theorem nodup_next (turned : executor.turn before = .next after)
    (nodup : before.session.completedNodes.Nodup) : after.session.completedNodes.Nodup := by
  obtain ⟨visit, middle, ran, left⟩ := exists_ran_of_next turned
  obtain ⟨nodeID, rfl⟩ := leave_eq_next left
  change (middle.session.setCurrentNode nodeID).completedNodes.Nodup
  rw [WorkflowInstance.setCurrentNode_completedNodes]
  split
  · exact ran.nodup nodup
  · exact WorkflowInstance.nodup_addOnce (ran.nodup nodup) _

theorem nodup_done (turned : executor.turn last = .done ended)
    (nodup : last.session.completedNodes.Nodup) : ended.state.session.completedNodes.Nodup := by
  rcases done_cases turned with ⟨-, completed⟩ | ⟨visit, middle, status, ran, same, -⟩
  · rwa [completed]
  · rw [same]
    exact ran.nodup nodup

theorem Point.nodup (point : executor.Point session input world state) (fresh : Fresh session) :
    state.session.completedNodes.Nodup := by
  have between {start state : SessionState World}
      (begun : executor.begin session input world = some start)
      (reached : Reaches executor.turn start state) : state.session.completedNodes.Nodup := by
    induction reached with
    | refl =>
      rw [fresh.begin begun]
      exact List.nodup_nil
    | tail _ turned ih => exact nodup_next turned ih
  cases point with
  | between begun reached => exact between begun reached
  | ended begun reached turned => exact nodup_done turned (between begun reached)

/-- The store does not know the session, or knows it as one in which nothing has happened. -/
def StartsNew (executor : SessionExecutor World) (world : World) (session : WorkflowInstance)
    (begun : World) : Prop :=
  (executor.store.get (executor.sessionID ++ ":" ++ executor.workflow.id) world =
      (.ok session, begun) ∧ Fresh session) ∨
    ∃ err found,
      executor.store.get (executor.sessionID ++ ":" ++ executor.workflow.id) world =
        (.error err, found) ∧
      executor.store.create executor.newSession found = (none, begun) ∧
      session = executor.newSession

section

variable {begun : World} (new : executor.StartsNew world session begun)

include new

theorem StartsNew.fresh : Fresh session := by
  rcases new with ⟨-, fresh⟩ | ⟨-, -, -, -, rfl⟩
  · exact fresh
  · exact ⟨rfl, rfl⟩

theorem StartsNew.executeWithSession_eq (turns : Nat) (input : Value) :
    executor.executeWithSession turns input world =
      (executor.runSession turns session input begun).map (Prod.map .ok id) := by
  rw [executeWithSession]
  rcases new with ⟨known, -⟩ | ⟨err, found, unknown, created, rfl⟩
  · rw [known]
  · simp only [unknown, created]

end

end SessionExecutor

/-- Only nodes that have succeeded are ever listed exactly if every node that failed and went on
had succeeded before.  No node is listed twice. -/
theorem completed_succeeded_iff_redeemed {executor : SessionExecutor World}
    {session : WorkflowInstance} {world begun : World}
    (new : executor.StartsNew world session begun) (input : Value) :
    (∀ turns, executor.executeWithSession turns input world =
      (executor.runSession turns session input begun).map (Prod.map .ok id)) ∧
      ((∀ state, executor.Point session input begun state → SessionExecutor.Truthful state) ↔
        ∀ state, executor.Point session input begun state → Redeemed state.visits) ∧
      ∀ state, executor.Point session input begun state →
        state.session.completedNodes.Nodup :=
  ⟨fun turns => new.executeWithSession_eq turns input,
    SessionExecutor.truthful_iff_redeemed new.fresh, fun _ point => point.nodup new.fresh⟩

/-! ## A failure that is listed -/

def SessionStore.cell : SessionStore (Option WorkflowInstance) where
  get _ stored := (stored.elim (.error (.text "instance not found")) .ok, stored)
  create session _ := (none, some session)
  update session _ := (none, some session)

def failingDrafts : HydratedServices (Option WorkflowInstance) where
  contextErr := pure none
  execute node _ _ :=
    pure (if node.id = "draft" then .error (.text "no draft") else .ok (.string node.id))
  wait _ := pure none
  agentFinder := none
  conditionEval := none

def handling (first : String) : SessionExecutor (Option WorkflowInstance) where
  services := failingDrafts
  store := .cell
  sessionID := "first"
  maxRetries := 1
  workflow :=
    convertToWorkflowDef
      { id := "handling"
        name := "Handling"
        version := "1"
        nodes := [bareNode first, bareNode "handle"]
        edges := [⟨"draft", "handle", "error(X)"⟩] }

theorem handling_startsNew (first : String) :
    (handling first).StartsNew none (handling first).newSession
      (some (handling first).newSession) :=
  .inr ⟨_, _, rfl, rfl, rfl⟩

theorem handling_nodup :
    (handling "draft").StartsNew none (handling "draft").newSession
        (some (handling "draft").newSession) ∧
      ∀ state, (handling "draft").Point (handling "draft").newSession .nil
        (some (handling "draft").newSession) state → state.session.completedNodes.Nodup :=
  ⟨handling_startsNew "draft",
    (completed_succeeded_iff_redeemed (handling_startsNew "draft") .nil).2.2⟩

/-- The nodes that are listed at the end of a run, and the names of the nodes that were run, with
whether they succeeded. -/
def listed (first : String) : Option (List String × List (String × String × Bool)) :=
  ((handling first).begin (handling first).newSession .nil (some (handling first).newSession)).bind
    fun start => (iterate (handling first).turn 3 start).map fun ended =>
      (ended.state.session.completedNodes, ended.state.visits.map fun visit =>
        (visit.nodeID, visit.run.result.nodeID, visit.run.result.error.isNone))

theorem handling_lists_failure :
    (handling "draft").StartsNew none (handling "draft").newSession
        (some (handling "draft").newSession) ∧
      ∃ state, (handling "draft").Point (handling "draft").newSession .nil
          (some (handling "draft").newSession) state ∧
        "draft" ∈ state.session.completedNodes ∧ ¬ Succeeded state.visits "draft" := by
  have ran : listed "draft" =
      some (["draft", "handle"], [("draft", "draft", false), ("handle", "handle", true)]) := by
    decide +kernel
  obtain ⟨start, begun, rest⟩ := Option.bind_eq_some_iff.mp ran
  obtain ⟨ended, iterated, same⟩ := Option.map_eq_some_iff.mp rest
  obtain ⟨last, reached, done⟩ := ends_of_iterate iterated
  obtain ⟨completed, visits⟩ := Prod.mk.inj same
  refine ⟨handling_startsNew "draft", ended.state, .ended begun reached done, by simp [completed],
    ?_⟩
  rintro ⟨visit, member, succeeded, names⟩
  have listed := List.mem_map_of_mem (f := fun visit : Visit =>
    (visit.nodeID, visit.run.result.nodeID, visit.run.result.error.isNone)) member
  rw [visits] at listed
  rw [Visit.succeeded] at succeeded
  rw [Visit.Names] at names
  simp only [succeeded, Option.isNone_none, List.mem_cons, Prod.mk.injEq, List.not_mem_nil,
    or_false, Bool.true_eq_false, and_false, and_true, false_or] at listed
  rw [listed.1, listed.2] at names
  revert names
  decide

end Manglekit.Multiagent

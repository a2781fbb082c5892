import Manglekit.Multiagent.ErrorEdges

/-!
# The outcome of a workflow

The status, the error and the output of a finished run are compared with what was run last and
how it went on.  An error that was recovered from is kept to the end, an error that ends the run
is not reported, and an edge to nowhere ends the run like no edge at all.
-/

namespace Manglekit.Multiagent

open Core Engine Iteration Runner

variable {World Node : Type}

variable {before after state : LoopState World Node} {visit : Visit} {visits : List Visit}
  {ended : LoopEnd World Node}

namespace Runner

/-- The outcome says what happened last. -/
structure Consistent (runner : Runner World Node) (result : WorkflowResult)
    (visits : List Visit) : Prop where
  completed : result.status = .completed ↔
    ∃ visit, visits.getLast? = some visit ∧ visit.succeeded ∧ visit.edge? = none
  error : result.error.isSome ↔ result.status = .failed ∨ result.status = .cancelled
  missing : ∀ visit ∈ visits, ∀ edge, visit.edge? = some edge →
    runner.findNode edge.target = none → result.status ≠ .completed

/-- Every failed node has an error edge and every condition can be evaluated.  A run that ends
after a success has seen a failure exactly if it ends at an edge to nowhere. -/
structure Orderly (runner : Runner World Node) (visits : List Visit) : Prop where
  handled : ∀ visit ∈ visits, visit.onward ≠ .failed none
  evaluated : ∀ visit ∈ visits, ∀ err, visit.onward ≠ .unevaluated err
  unselected : ∀ visit, visits.getLast? = some visit → visit.onward = .selected none →
    ∀ earlier ∈ visits, earlier.succeeded
  nowhere : ∀ visit edge, visits.getLast? = some visit → visit.onward = .selected (some edge) →
    runner.findNode edge.target = none → ∃ earlier ∈ visits, ¬ earlier.succeeded

/-- While the loop goes on, every visit has led to another node. -/
structure Underway (runner : Runner World Node) (state : LoopState World Node) : Prop where
  led : ∀ visit ∈ state.visits, ∃ edge node, visit.edge? = some edge ∧
    runner.findNode edge.target = some node
  errors : state.lastError.isSome ↔ ∃ visit ∈ state.visits, ¬ visit.succeeded

variable {runner : Runner World Node}

theorem Ran.not_succeeded_iff (ran : runner.Ran before after visit) :
    ¬ visit.succeeded ↔ ∃ edge, visit.onward = .failed edge := by
  rw [← ran.failed, Visit.succeeded, ← ne_eq, Option.ne_none_iff_isSome]

/-- The last error is set by failures and kept otherwise. -/
theorem Ran.errors (ran : runner.Ran before after visit) (underway : runner.Underway before)
    (evaluated : ∀ err, visit.onward ≠ .unevaluated err) :
    after.lastError.isSome ↔ ∃ earlier ∈ after.visits, ¬ earlier.succeeded := by
  have split : (∃ earlier ∈ after.visits, ¬ earlier.succeeded) ↔
      (∃ earlier ∈ before.visits, ¬ earlier.succeeded) ∨ ¬ visit.succeeded := by
    rw [ran.visits]
    simp [or_and_right, exists_or]
  rw [split, ← underway.errors, ran.not_succeeded_iff, ran.lastError, Visit.lastError]
  cases onward : visit.onward with
  | failed edge => simpa using ran.failed.mpr ⟨edge, onward⟩
  | unevaluated err => exact absurd onward (evaluated err)
  | selected edge => simp

theorem Underway.next (underway : runner.Underway before)
    (turned : runner.turn before = .next after) : runner.Underway after := by
  have turnCase := runner.turn_cases before
  generalize runner.turn before = turn at turnCase turned
  cases turnCase with
  | stopped ended => cases turned
  | ran visit middle ran =>
    obtain ⟨edge, node, taken, found, rfl⟩ := leave_eq_next turned
    refine ⟨fun earlier member => ?_, ran.errors underway fun err onward => ?_⟩
    · rcases List.mem_append.mp (ran.visits ▸ member) with old | new
      · exact underway.led earlier old
      · cases List.mem_singleton.mp new
        exact ⟨edge, node, taken, found⟩
    · simp [Visit.edge?, onward] at taken

theorem Underway.edge?_ne_none (underway : runner.Underway state) (member : visit ∈ state.visits) :
    visit.edge? ≠ none := by
  obtain ⟨edge, -, taken, -⟩ := underway.led visit member
  simp [taken]

theorem Underway.orderly (underway : runner.Underway state) : runner.Orderly state.visits := by
  refine ⟨fun visit member onward => underway.edge?_ne_none member (by rw [Visit.edge?, onward]),
    fun visit member err onward => underway.edge?_ne_none member (by rw [Visit.edge?, onward]),
    fun visit last onward => absurd (by rw [Visit.edge?, onward])
      (underway.edge?_ne_none (List.mem_of_getLast? last)),
    fun visit edge last onward nowhere => ?_⟩
  obtain ⟨taken, node, same, found⟩ := underway.led visit (List.mem_of_getLast? last)
  rw [Visit.edge?, onward] at same
  cases same
  rw [nowhere] at found
  cases found

/-- A failure that is reported is right unless a success without a successor came last. -/
theorem consistent_iff_of_error {result : WorkflowResult}
    (status : result.status = .failed ∨ result.status = .cancelled) (error : result.error.isSome) :
    runner.Consistent result visits ↔
      ∀ visit, visits.getLast? = some visit → visit.succeeded → visit.edge? ≠ none := by
  have notCompleted : result.status ≠ .completed := by
    rcases status with same | same <;> simp [same]
  constructor
  · intro consistent visit last succeeded untaken
    exact notCompleted (consistent.completed.mpr ⟨visit, last, succeeded, untaken⟩)
  · intro unended
    refine ⟨⟨fun same => absurd same notCompleted, ?_⟩, by simp [error, status],
      fun _ _ _ _ _ => notCompleted⟩
    rintro ⟨visit, last, succeeded, untaken⟩
    exact absurd untaken (unended visit last succeeded)

inductive LastVisit (runner : Runner World Node) (visit : Visit) (ended : LoopEnd World Node) :
    Prop where
  | unhandled : visit.onward = .failed none ∨ (∃ err, visit.onward = .unevaluated err) →
      ended.status = .failed → ended.error = none → LastVisit runner visit ended
  | failedNowhere (edge : WorkflowEdge) : visit.onward = .failed (some edge) →
      ended.status = .running → ended.error = none → LastVisit runner visit ended
  | unselected : visit.onward = .selected none → ended.status = .running →
      ended.error = none → LastVisit runner visit ended
  | selectedNowhere (edge : WorkflowEdge) : visit.onward = .selected (some edge) →
      runner.findNode edge.target = none → ended.status = .running →
      ended.error = none → LastVisit runner visit ended

theorem lastVisit_of_leave (left : runner.leave state visit.onward = .done ended) :
    ended.state = state ∧ runner.LastVisit visit ended := by
  cases onward : visit.onward with
  | failed edge =>
    cases edge with
    | none =>
      rw [onward] at left
      cases left
      exact ⟨rfl, .unhandled (.inl onward) rfl rfl⟩
    | some edge =>
      rw [onward] at left
      obtain ⟨-, rfl⟩ := proceed_eq_done left
      exact ⟨rfl, .failedNowhere edge onward rfl rfl⟩
  | unevaluated err =>
    rw [onward] at left
    cases left
    exact ⟨rfl, .unhandled (.inr ⟨err, onward⟩) rfl rfl⟩
  | selected edge =>
    rw [onward] at left
    obtain ⟨nowhere, rfl⟩ := proceed_eq_done left
    cases edge with
    | none => exact ⟨rfl, .unselected onward rfl rfl⟩
    | some edge => exact ⟨rfl, .selectedNowhere edge onward nowhere rfl rfl⟩

theorem finish_of_error (runner : Runner World Node) {err : GoError}
    (running : ended.status = .running) (error : ended.state.lastError = some err) :
    (runner.finish ended).status = .failed ∧ (runner.finish ended).error.isSome := by
  simp [finish, running, error]

theorem finish_of_no_error (runner : Runner World Node) (running : ended.status = .running)
    (error : ended.state.lastError = none) (unset : ended.error = none) :
    (runner.finish ended).status = .completed ∧ (runner.finish ended).error = none := by
  simp [finish, running, error, unset]

theorem finish_of_status (runner : Runner World Node) (set : ended.status ≠ .running) :
    (runner.finish ended).status = ended.status ∧ (runner.finish ended).error = ended.error := by
  simp [finish, set]

theorem Ran.orderly_iff (ran : runner.Ran before after visit) (underway : runner.Underway before) :
    runner.Orderly after.visits ↔
      visit.onward ≠ .failed none ∧ (∀ err, visit.onward ≠ .unevaluated err) ∧
        (visit.onward = .selected none → after.lastError = none) ∧
        ∀ edge, visit.onward = .selected (some edge) → runner.findNode edge.target = none →
          after.lastError ≠ none := by
  have isLast : after.visits.getLast? = some visit := by
    rw [ran.visits, List.getLast?_concat]
  have member : visit ∈ after.visits := List.mem_of_getLast? isLast
  have failures (evaluated : ∀ err, visit.onward ≠ .unevaluated err) :
      after.lastError = none ↔ ∀ earlier ∈ after.visits, earlier.succeeded := by
    rw [← Option.not_isSome_iff_eq_none, ran.errors underway evaluated]
    simp
  constructor
  · intro orderly
    have evaluated := orderly.evaluated visit member
    refine ⟨orderly.handled visit member, evaluated, fun onward => ?_,
      fun edge onward nowhere => ?_⟩
    · exact (failures evaluated).mpr (orderly.unselected visit isLast onward)
    · obtain ⟨earlier, old, failed⟩ := orderly.nowhere visit edge isLast onward nowhere
      exact fun none => failed ((failures evaluated).mp none earlier old)
  · rintro ⟨handled, evaluated, unselected, nowhere⟩
    have cases_visit {earlier : Visit} (old : earlier ∈ after.visits) :
        earlier ∈ before.visits ∨ earlier = visit := by
      simpa [ran.visits] using old
    have same {other : Visit} (last : after.visits.getLast? = some other) : other = visit := by
      rw [isLast] at last
      cases last
      rfl
    refine ⟨fun earlier old => ?_, fun earlier old => ?_, fun other last onward => ?_,
      fun other edge last onward missing => ?_⟩
    · rcases cases_visit old with old | rfl
      · exact underway.orderly.handled earlier old
      · exact handled
    · rcases cases_visit old with old | rfl
      · exact underway.orderly.evaluated earlier old
      · exact evaluated
    · cases same last
      exact (failures evaluated).mp (unselected onward)
    · cases same last
      by_contra! none
      exact nowhere edge onward missing ((failures evaluated).mpr none)

theorem Ran.consistent_iff_of_running (ran : runner.Ran before ended.state visit)
    (underway : runner.Underway before) (running : ended.status = .running)
    (unset : ended.error = none) :
    runner.Consistent (runner.finish ended) ended.state.visits ↔
      ((visit.succeeded ∧ visit.edge? = none) ↔ ended.state.lastError = none) ∧
        (∀ edge, visit.edge? = some edge → runner.findNode edge.target = none →
          ended.state.lastError ≠ none) := by
  have isLast : ended.state.visits.getLast? = some visit := by
    rw [ran.visits, List.getLast?_concat]
  cases error : ended.state.lastError with
  | some err =>
    obtain ⟨status, set⟩ := runner.finish_of_error running error
    rw [consistent_iff_of_error (.inl status) set, isLast]
    simp
  | none =>
    obtain ⟨status, none⟩ := runner.finish_of_no_error running error unset
    constructor
    · intro consistent
      obtain ⟨other, last, succeeded, untaken⟩ := consistent.completed.mp status
      rw [isLast] at last
      cases last
      simp [succeeded, untaken]
    · rintro ⟨ends, -⟩
      obtain ⟨succeeded, untaken⟩ := ends.mpr rfl
      refine ⟨by simp [status, isLast, succeeded, untaken], by simp [status, none], ?_⟩
      intro earlier old edge taken nowhere
      rw [ran.visits] at old
      rcases List.mem_append.mp old with old | new
      · obtain ⟨_, node, led, found⟩ := underway.led earlier old
        rw [taken] at led
        cases led
        rw [nowhere] at found
        cases found
      · cases List.mem_singleton.mp new
        rw [untaken] at taken
        cases taken

theorem Ran.consistent_iff (ran : runner.Ran before after visit) (underway : runner.Underway before)
    (left : runner.leave after visit.onward = .done ended) :
    runner.Consistent (runner.finish ended) ended.state.visits ↔
      runner.Orderly ended.state.visits := by
  obtain ⟨rfl, last⟩ := lastVisit_of_leave left
  rw [ran.orderly_iff underway]
  cases last with
  | unhandled onward status error =>
    have set : ended.status ≠ .running := by simp [status]
    obtain ⟨sameStatus, sameError⟩ := runner.finish_of_status set
    constructor
    · intro consistent
      have set := consistent.error.mpr (.inl (sameStatus.trans status))
      rw [sameError, error] at set
      cases set
    · rintro ⟨handled, evaluated, -⟩
      rcases onward with failed | ⟨err, unevaluated⟩
      · exact absurd failed handled
      · exact absurd unevaluated (evaluated err)
  | failedNowhere edge onward running unset =>
    have failed : ¬ visit.succeeded := ran.not_succeeded_iff.mpr ⟨_, onward⟩
    have error : ended.state.lastError ≠ none := by
      rw [ran.lastError, Visit.lastError, onward]
      exact failed
    rw [ran.consistent_iff_of_running underway running unset]
    simp [onward, failed, error]
  | unselected onward running unset =>
    have succeeded : visit.succeeded := by
      by_contra failed
      obtain ⟨edge, other⟩ := ran.not_succeeded_iff.mp failed
      simp [onward] at other
    rw [ran.consistent_iff_of_running underway running unset]
    simp [Visit.edge?, onward, succeeded]
  | selectedNowhere edge onward nowhere running unset =>
    rw [ran.consistent_iff_of_running underway running unset]
    simp [Visit.edge?, onward, nowhere]

theorem Underway.consistent_iff {last : LoopState World Node} (underway : runner.Underway last)
    (turned : runner.turn last = .done ended) :
    runner.Consistent (runner.finish ended) ended.state.visits ↔
      runner.Orderly ended.state.visits := by
  have turnCase := runner.turn_cases last
  generalize runner.turn last = turn at turnCase turned
  cases turnCase with
  | stopped other sameVisits status error =>
    cases turned
    have set : ended.status ≠ .running := by
      rcases status with same | same <;> simp [same]
    obtain ⟨sameStatus, sameError⟩ := runner.finish_of_status set
    rw [consistent_iff_of_error (sameStatus ▸ status) (sameError ▸ error), sameVisits]
    exact iff_of_true
      (fun visit isLast _ => underway.edge?_ne_none (List.mem_of_getLast? isLast))
      underway.orderly
  | ran visit after ran => exact ran.consistent_iff underway turned

theorem execute_consistent_iff (runner : Runner World Node) {turns : Nat} {input : Value}
    {world : World} {result : WorkflowResult}
    (finished : runner.execute turns input world = some (result, visits)) :
    runner.Consistent result visits ↔ runner.Orderly visits := by
  rw [execute] at finished
  cases start : runner.startNode with
  | none =>
    rw [start] at finished
    cases finished
    exact iff_of_true ⟨by simp, by simp, by simp⟩ ⟨by simp, by simp, by simp, by simp⟩
  | some node =>
    rw [start] at finished
    obtain ⟨ended, iterated, same⟩ := Option.map_eq_some_iff.mp finished
    cases same
    obtain ⟨last, reached, done⟩ := ends_of_iterate iterated
    have underway : runner.Underway last :=
      reached.invariant (fun _ _ turned underway => Underway.next underway turned)
        ⟨by simp, by simp⟩
    exact underway.consistent_iff done

end Runner

/-- The outcome of every finished run of either executor says what happened last exactly if the
run was orderly. -/
theorem outcome_consistent_iff_orderly (maxRetries : Int) (turns : Nat) (input : Value)
    (world : World) (result : WorkflowResult) (visits : List Visit) :
    (∀ (services : AgentServices World) (workflow : Workflow),
      executeWorkflow services maxRetries workflow turns input world = some (result, visits) →
        ((registryRunner services maxRetries workflow).Consistent result visits ↔
          (registryRunner services maxRetries workflow).Orderly visits)) ∧
      ∀ (services : HydratedServices World) (workflow : WorkflowDef),
        executeHydrated services maxRetries workflow turns input world = some (result, visits) →
          ((hydratedRunner services maxRetries workflow).Consistent result visits ↔
            (hydratedRunner services maxRetries workflow).Orderly visits) :=
  ⟨fun services workflow finished =>
      (registryRunner services maxRetries workflow).execute_consistent_iff finished,
    fun services workflow finished =>
      (hydratedRunner services maxRetries workflow).execute_consistent_iff finished⟩

def writer : Agent :=
  { id := "writer", role := "", capabilities := [], config := ∅, status := "" }

def draftsFail : AgentServices Unit where
  contextErr := pure none
  execute node _ _ :=
    pure (if node.id = "draft" then .error (.text "no draft") else .ok (.string node.id))
  wait _ := pure none
  findAgentsForTask _ := pure (.ok [writer])
  query _ _ := pure (.ok [])

/-- A failed draft is handled, a review leads nowhere, and nothing follows a rejection. -/
def reviewing (start : String) : Workflow where
  id := "reviewing"
  name := "Reviewing"
  version := "1"
  nodes := [bareNode start, bareNode "handle"]
  edges := [⟨"draft", "handle", "error(X)"⟩, ⟨"review", "publish", ""⟩]

def summary (workflow : Workflow) :
    Option (WorkflowStatus × Bool × List (String × Bool × Onward)) :=
  (executeWorkflow draftsFail 1 workflow 3 .nil ()).map fun finished =>
    (finished.1.status, finished.1.error.isSome, finished.2.map Visit.brief)

theorem exists_of_summary {workflow : Workflow} {status : WorkflowStatus} {error : Bool}
    {briefs : List (String × Bool × Onward)}
    (same : summary workflow = some (status, error, briefs)) :
    ∃ result visits, executeWorkflow draftsFail 1 workflow 3 .nil () = some (result, visits) ∧
      result.status = status ∧ result.error.isSome = error ∧ visits.map Visit.brief = briefs := by
  obtain ⟨⟨result, visits⟩, finished, rest⟩ := Option.map_eq_some_iff.mp same
  cases rest
  exact ⟨result, visits, finished, rfl, rfl, rfl⟩

theorem exists_of_brief {nodeID : String} {succeeded : Bool} {onward : Onward}
    (same : visits.map Visit.brief = [(nodeID, succeeded, onward)]) :
    ∃ visit, visits = [visit] ∧ (visit.succeeded ↔ succeeded) ∧ visit.onward = onward := by
  obtain ⟨visit, rest, rfl, brief, nothing⟩ := List.map_eq_cons_iff.mp same
  cases List.map_eq_nil_iff.mp nothing
  cases brief
  exact ⟨visit, rfl, by simp [Visit.succeeded], rfl⟩

/-- The run ends with the status, and the outcome contradicts what happened last. -/
def EndsWrong (workflow : Workflow) (status : WorkflowStatus) : Prop :=
  ∃ result visits, executeWorkflow draftsFail 1 workflow 3 .nil () = some (result, visits) ∧
    result.status = status ∧ ¬ (registryRunner draftsFail 1 workflow).Consistent result visits

theorem reviewing_endsWrong :
    EndsWrong (reviewing "draft") .failed ∧ EndsWrong (reviewing "review") .completed ∧
      EndsWrong { reviewing "draft" with edges := [] } .failed := by
  have recovered : summary (reviewing "draft") =
      some (.failed, true, [("draft", false, .failed (some ⟨"draft", "handle", "error(X)"⟩)),
        ("handle", true, .selected none)]) := by decide +kernel
  have nowhere : summary (reviewing "review") =
      some (.completed, false,
        [("review", true, .selected (some ⟨"review", "publish", ""⟩))]) := by decide +kernel
  have unhandled : summary { reviewing "draft" with edges := [] } =
      some (.failed, false, [("draft", false, .failed none)]) := by decide +kernel
  refine ⟨?_, ?_, ?_⟩
  · obtain ⟨result, visits, finished, status, -, briefs⟩ := exists_of_summary recovered
    refine ⟨result, visits, finished, status, fun consistent => ?_⟩
    obtain ⟨draft, rest, rfl, -, others⟩ := List.map_eq_cons_iff.mp briefs
    obtain ⟨handle, rfl, succeeded, onward⟩ := exists_of_brief others
    have completed := consistent.completed.mpr
      ⟨handle, rfl, succeeded.mpr rfl, by rw [Visit.edge?, onward]⟩
    rw [status] at completed
    cases completed
  · obtain ⟨result, visits, finished, status, -, briefs⟩ := exists_of_summary nowhere
    refine ⟨result, visits, finished, status, fun consistent => ?_⟩
    obtain ⟨review, rfl, -, onward⟩ := exists_of_brief briefs
    have missing : ((reviewing "review").findNodeByID "publish").isNone = true := by decide +kernel
    exact consistent.missing review (List.mem_singleton_self review) ⟨"review", "publish", ""⟩
      (by rw [Visit.edge?, onward]) (Option.isNone_iff_eq_none.mp missing) status
  · obtain ⟨result, visits, finished, status, error, -⟩ := exists_of_summary unhandled
    refine ⟨result, visits, finished, status, fun consistent => ?_⟩
    have reported := consistent.error.mpr (.inl status)
    rw [error] at reported
    cases reported

theorem handling_outcome_consistent :
    ∃ result visits,
      executeWorkflow draftsFail 1 (reviewing "handle") 3 .nil () = some (result, visits) ∧
        result.status = .completed ∧
        (registryRunner draftsFail 1 (reviewing "handle")).Consistent result visits := by
  have handled : summary (reviewing "handle") =
      some (.completed, false, [("handle", true, .selected none)]) := by decide +kernel
  obtain ⟨result, visits, finished, status, -, briefs⟩ := exists_of_summary handled
  refine ⟨result, visits, finished, status, ((outcome_consistent_iff_orderly 1 3 .nil () _ _).1
    draftsFail (reviewing "handle") finished).mpr ?_⟩
  obtain ⟨visit, rfl, succeeded, onward⟩ := exists_of_brief briefs
  refine ⟨by simp [onward], by simp [onward], by simp [succeeded], ?_⟩
  intro other edge last taken
  cases last
  simp [onward] at taken

end Manglekit.Multiagent

import Manglekit.Sdk.LoopTrace

/-!
# The retry budget

Alignment errors and steering share one count of retries, and only steering records its
feedback.  A pass either leaves both, or uses one retry, or routes and starts both anew, so the
budget of a run that starts with nothing used is kept, and between two routes the action is
executed once more than it may be retried.
-/

namespace Manglekit.Sdk

open Core Effects

/-! ## Similarity -/

theorem isSemanticallySimilar_comm (host : Host) (first second : String) :
    isSemanticallySimilar host first second = isSemanticallySimilar host second first := by
  unfold isSemanticallySimilar
  simp only [eq_comm (a := second), eq_comm (a := normalizeString host second), or_comm,
    Bool.and_comm]

/-! ## One pass -/

/-- No more retries than allowed, and no more feedback than retries; no feedback was given
twice. -/
structure WithinBudget (host : Host) (params : ExecutionParams) : Prop where
  retries : params.retryCount ≤ defaultMaxRetries
  feedback : params.feedbackHistory.length ≤ params.retryCount
  distinct : params.feedbackHistory.Pairwise fun first second =>
    isSemanticallySimilar host first second = false ∧
      isSemanticallySimilar host second first = false

inductive Spends (host : Host) (before after : ExecutionParams)
    (answer : Except GoError Envelope) : Prop where
  | nothing : after.retryCount = before.retryCount →
      after.feedbackHistory = before.feedbackHistory →
      (∀ result, answer = .ok result → result.hasText keyDecision Outcome.route.text = false ∧
        result.hasText keyDecision Outcome.retry.text = false) →
      Spends host before after answer
  | retry : before.retryCount < defaultMaxRetries →
      after.retryCount = before.retryCount + 1 →
      (after.feedbackHistory = before.feedbackHistory ∨
        ∃ hint, after.feedbackHistory = before.feedbackHistory ++ [hint] ∧
          ∀ previous ∈ before.feedbackHistory,
            isSemanticallySimilar host previous hint = false) →
      (∀ result, answer = .ok result →
        result.hasText keyDecision Outcome.route.text = false) →
      Spends host before after answer
  | route : after.retryCount = 0 → after.feedbackHistory = [] →
      (∃ result, answer = .ok result ∧
        result.hasText keyDecision Outcome.route.text = true) →
      Spends host before after answer

variable {answer : Except GoError Envelope}

theorem WithinBudget.spends {host : Host} {before after : ExecutionParams}
    (within : WithinBudget host before) (spends : Spends host before after answer) :
    WithinBudget host after := by
  obtain ⟨retries, feedback, distinct⟩ := within
  cases spends with
  | nothing sameRetries sameFeedback _ =>
    exact ⟨sameRetries ▸ retries, by rw [sameFeedback, sameRetries]; exact feedback,
      sameFeedback ▸ distinct⟩
  | retry left used recorded _ =>
    rcases recorded with same | ⟨hint, added, novel⟩
    · refine ⟨used ▸ left, ?_, same ▸ distinct⟩
      rw [same, used]
      omega
    · refine ⟨used ▸ left, ?_, ?_⟩
      · rw [added, used, List.length_append, List.length_singleton]
        omega
      · rw [added, List.pairwise_append]
        refine ⟨distinct, List.pairwise_singleton _ _, fun previous member other last => ?_⟩
        rw [List.mem_singleton.mp last]
        exact ⟨novel previous member,
          isSemanticallySimilar_comm host hint previous ▸ novel previous member⟩
  | route reset cleared _ =>
    refine ⟨reset ▸ Nat.zero_le _, by simp [cleared], ?_⟩
    rw [cleared]
    exact List.Pairwise.nil

variable {result : Envelope}

theorem not_route_of_retry (retries : result.hasText keyDecision Outcome.retry.text = true) :
    result.hasText keyDecision Outcome.route.text = false := by
  unfold Envelope.hasText at retries ⊢
  rw [of_decide_eq_true retries]
  decide

variable {params : ExecutionParams} {pass : Pass}

theorem ok_of_backoff {ctx : Context} {given : Envelope}
    (waited : backoff ctx params given = .ok result) : result = given := by
  unfold backoff at waited
  split at waited
  · cases waited
  · exact (Except.ok.inj waited).symm

theorem spends_handleExecutionError (host : Host) (ctx : Context) (err : GoError)
    (payload : Value) (params : ExecutionParams) :
    Spends host params (handleExecutionError ctx err payload params).2
      (handleExecutionError ctx err payload params).1 := by
  unfold handleExecutionError
  split
  · exact .nothing rfl rfl (by simp)
  · split
    · exact .nothing rfl rfl (by simp)
    next left =>
      refine .retry (not_le.mp left) rfl (.inl rfl) fun result waited => ?_
      rw [ok_of_backoff waited]
      exact not_route_of_retry (by simp [Envelope.hasText, Envelope.setMeta, Value.string?])

variable {m : Type → Type} [Monad m] (client : Client m) (ctx : Context) (actionName : String)

omit [Monad m] in
theorem spends_handleRetryDecision (retries : result.hasText keyDecision Outcome.retry.text = true)
    (params : ExecutionParams) :
    Spends client.host params (handleRetryDecision client ctx actionName result params).2
      (handleRetryDecision client ctx actionName result params).1 := by
  unfold handleRetryDecision
  split
  · exact .nothing rfl rfl (by simp)
  next left =>
    dsimp only
    split
    · exact .nothing rfl rfl (by simp)
    next novel =>
      refine .retry (not_le.mp left) rfl (.inr ⟨_, rfl, ?_⟩) fun waitedFor waited => ?_
      · simpa using novel
      · rw [ok_of_backoff waited]
        exact not_route_of_retry retries

theorem Spends.of_same {host : Host} {same after : ExecutionParams}
    (spends : Spends host same after answer)
    (retries : same.retryCount = params.retryCount)
    (feedback : same.feedbackHistory = params.feedbackHistory) :
    Spends host params after answer := by
  cases spends with
  | nothing sameRetries sameFeedback stops =>
    exact .nothing (sameRetries.trans retries) (sameFeedback.trans feedback) stops
  | retry left used recorded stops =>
    rw [retries] at left used
    rw [feedback] at recorded
    exact .retry left used recorded stops
  | route reset cleared routes => exact .route reset cleared routes

theorem updateHistory_yields (payload : Value) (result : Envelope) (params : ExecutionParams) :
    Yields (fun _ _ => True) (updateHistory client ctx payload result params) fun updated =>
      updated.retryCount = params.retryCount ∧
        updated.feedbackHistory = params.feedbackHistory := by
  unfold updateHistory
  split
  · exact .pure _ ⟨rfl, rfl⟩
  · dsimp only
    split
    · split
      · exact .bind (.operation trivial) fun _ _ => .pure _ ⟨rfl, rfl⟩
      · exact .pure _ ⟨rfl, rfl⟩
    · exact .pure _ ⟨rfl, rfl⟩

omit [Monad m] in
theorem spends_decided (result : Envelope) (params : ExecutionParams) :
    Spends client.host params (decided client ctx actionName result params).2
      (decided client ctx actionName result params).1 := by
  unfold decided
  split
  next retries => exact spends_handleRetryDecision client ctx actionName retries params
  next unretried =>
    split
    next routes => exact .route rfl rfl ⟨result, rfl, routes⟩
    next unrouted =>
      split
      · exact .nothing rfl rfl (by simp)
      · refine .nothing rfl rfl fun answered same => ?_
        cases same
        exact ⟨by simpa using unrouted, by simpa using unretried⟩

theorem handleDecision_yields (result : Envelope) (payload : Value) (params : ExecutionParams) :
    Yields (fun _ _ => True) (handleDecision client ctx actionName result payload params)
      fun step => Spends client.host params step.2 step.1 := by
  have spends := spends_decided client ctx actionName result params
  rw [handleDecision_eq]
  split
  · exact .bind (.operation trivial) fun _ _ => .pure _ spends
  · exact .pure _ spends

theorem executeSingleStep_yields (payload : Value) (params : ExecutionParams) :
    Yields (fun _ _ => True) (executeSingleStep client ctx actionName payload params)
      fun step => Spends client.host params step.2 step.1 := by
  unfold executeSingleStep
  split
  · exact .pure _ (.nothing rfl rfl (by simp))
  · refine .bind (.operation trivial) fun env _ => .bind (.operation trivial) fun executed _ => ?_
    cases executed with
    | error err => exact .pure _ (spends_handleExecutionError client.host ctx err payload params)
    | ok executed =>
      refine .bind (.operation trivial) fun result _ =>
        .bind (updateHistory_yields client ctx payload result _) fun updated same =>
          .bind (.operation trivial) fun _ _ => ?_
      refine (handleDecision_yields client ctx actionName result payload updated).imp ?_
      exact fun step spends => spends.of_same same.1 same.2

/-! ## A run -/

def Chained (host : Host) : LoopState → List Pass → Prop
  | _, [] => True
  | state, pass :: later =>
    pass.before = state ∧ Spends host state.params pass.after pass.answer ∧
      match pass.next host with
      | .ok next => Chained host next later
      | .error _ => later = []

theorem chained_tracedPasses {World : Type} (client : Client (Stateful Panic World))
    (ctx : Context) (remaining : Nat) (state : LoopState) (world : World) :
    Chained client.host state (tracedPasses client ctx remaining state world).passes := by
  induction remaining generalizing state world with
  | zero => trivial
  | succ remaining ih =>
    unfold tracedPasses
    split
    · trivial
    · split
      · trivial
      next answer after reached ended =>
        have spends := (executeSingleStep_yields client ctx state.action state.payload
          state.params).result ended
        dsimp only
        split
        next outcome stops => exact ⟨rfl, spends, by rw [stops]⟩
        next next continues =>
          refine ⟨rfl, spends, ?_⟩
          rw [continues]
          exact ih next reached

section Passes

variable {host : Host} {state : LoopState} {passes : List Pass}

theorem Pass.params_next {next : LoopState} (continues : pass.next host = .ok next) :
    next.params.retryCount = pass.after.retryCount ∧
      next.params.feedbackHistory = pass.after.feedbackHistory := by
  obtain ⟨records, same⟩ := Pass.params_of_next continues
  rw [same]
  exact ⟨rfl, rfl⟩

theorem WithinBudget.next {next : LoopState} (within : WithinBudget host pass.after)
    (continues : pass.next host = .ok next) : WithinBudget host next.params := by
  obtain ⟨retries, feedback⟩ := Pass.params_next continues
  obtain ⟨bounded, recorded, distinct⟩ := within
  exact ⟨retries ▸ bounded, by rw [feedback, retries]; exact recorded, feedback ▸ distinct⟩

/-- A pass that goes on without routing uses one retry. -/
theorem retryCount_of_continues {next : LoopState}
    (spends : Spends host pass.before.params pass.after pass.answer)
    (continues : pass.next host = .ok next) (unrouted : pass.decides .route = false) :
    next.params.retryCount = pass.before.params.retryCount + 1 := by
  rw [(Pass.params_next continues).1]
  unfold Pass.next at continues
  unfold Pass.decides at unrouted
  cases spends with
  | retry _ used _ _ => exact used
  | route _ _ routes =>
    obtain ⟨result, answered, routes⟩ := routes
    rw [answered] at unrouted
    exact absurd (routes.symm.trans unrouted) (by decide)
  | nothing _ _ stops =>
    cases answered : pass.answer with
    | error err =>
      rw [answered] at continues
      cases continues
    | ok result =>
      obtain ⟨notRoute, notRetry⟩ := stops result answered
      simp [answered, notRoute, notRetry] at continues

section

variable (chained : Chained host state passes) (within : WithinBudget host state.params)

include chained within

theorem Chained.withinBudget (member : pass ∈ passes) :
    WithinBudget host pass.before.params ∧ WithinBudget host pass.after := by
  induction passes generalizing state with
  | nil => cases member
  | cons first later ih =>
    obtain ⟨rfl, spends, rest⟩ := chained
    have after := within.spends spends
    rcases List.mem_cons.mp member with rfl | later
    · exact ⟨within, after⟩
    · split at rest
      next next continues => exact ih rest (after.next continues) later
      · rw [rest] at later
        cases later

theorem Chained.length_le {segment : List Pass} (begins : segment <+: passes)
    (unrouted : ∀ pass ∈ segment.dropLast, pass.decides .route = false) :
    segment.length + state.params.retryCount ≤ defaultMaxRetries + 1 := by
  induction segment generalizing state passes with
  | nil => exact le_trans (by simp) (Nat.le_succ_of_le within.retries)
  | cons first segment ih =>
    obtain ⟨later, rfl⟩ := begins
    obtain ⟨rfl, spends, rest⟩ := chained
    cases segment with
    | nil => simpa [Nat.add_comm] using within.retries
    | cons second segment =>
      split at rest
      next next continues =>
        have used := retryCount_of_continues spends continues (unrouted first (by simp))
        have bound := ih rest
          ((within.spends spends).next continues) (List.prefix_append _ _)
          fun pass member => unrouted pass (by simp [member])
        simp only [List.length_cons] at bound ⊢
        omega
      · cases rest

theorem Chained.segment_le {segment : List Pass} (inside : segment <:+: passes)
    (unrouted : ∀ pass ∈ segment.dropLast, pass.decides .route = false) :
    segment.length ≤ defaultMaxRetries + 1 := by
  obtain ⟨earlier, later, rfl⟩ := inside
  induction earlier generalizing state with
  | nil =>
    refine le_trans (Nat.le_add_right _ state.params.retryCount) ?_
    exact chained.length_le within (List.prefix_append _ _) unrouted
  | cons first earlier ih =>
    obtain ⟨rfl, spends, rest⟩ := chained
    split at rest
    next next continues =>
      exact ih ((within.spends spends).next continues) rest
    · have empty : segment = [] := by
        change earlier ++ segment ++ later = [] at rest
        simp only [List.append_assoc, List.append_eq_nil_iff] at rest
        exact rest.2.1
      simp [empty]

end

end Passes

/-! ## The whole run -/

section Runs

variable {World : Type}

/-- When the run starts, no state of its session is found. -/
def NoDurableState (client : Client (Stateful Panic World)) (ctx : Context)
    (params : ExecutionParams) (world : World) : Prop :=
  ∀ manager ∈ client.stateManager, ∀ loaded reached state,
    runFrom (loadHistory client ctx params) world = (.ok loaded, reached) →
      (runFrom (manager.hydrate ctx params.sessionID) reached).1 ≠ .ok (.ok (some state))

theorem same_of_loadHistory {client : Client (Stateful Panic World)} {ctx : Context}
    {loaded : ExecutionParams} {world reached : World}
    (loads : runFrom (loadHistory client ctx params) world = (.ok loaded, reached)) :
    loaded.sessionID = params.sessionID ∧ loaded.retryCount = params.retryCount ∧
      loaded.feedbackHistory = params.feedbackHistory := by
  unfold loadHistory at loads
  split at loads
  · split at loads
    · cases loads
    · obtain ⟨history, _, _, returned⟩ := runFrom_bind_ok loads
      cases returned
      exact ⟨rfl, rfl, rfl⟩
  · cases loads
    exact ⟨rfl, rfl, rfl⟩

theorem start_of_noDurableState {client : Client (Stateful Panic World)} {ctx : Context}
    {payload : Value} {world reached : World} {start : Value × ExecutionParams}
    (undurable : NoDurableState client ctx params world)
    (started : runFrom (loadHistory client ctx params >>= hydrate client ctx payload) world =
      (.ok start, reached)) :
    start.2.retryCount = params.retryCount ∧ start.2.feedbackHistory = params.feedbackHistory := by
  obtain ⟨loaded, read, loads, hydrates⟩ := runFrom_bind_ok started
  obtain ⟨session, retries, feedback⟩ := same_of_loadHistory loads
  unfold hydrate at hydrates
  cases managed : client.stateManager with
  | none =>
    simp only [managed] at hydrates
    cases hydrates
    exact ⟨retries, feedback⟩
  | some manager =>
    simp only [managed] at hydrates
    split at hydrates
    · cases hydrates
      exact ⟨retries, feedback⟩
    · obtain ⟨answer, restored, hydration, returned⟩ := runFrom_bind_ok hydrates
      have absent := fun state => undurable manager managed loaded read state loads
      rw [← session, hydration] at absent
      split at returned
      next state => exact absurd rfl (absent state)
      · cases returned
        exact ⟨retries, feedback⟩

def executions (client : Client (Stateful Panic World)) (passes : List Pass) : Nat :=
  passes.countP fun pass => (client.registry.lookup pass.before.action).isSome

end Runs

/-- A client whose only action is never aligned. -/
def misaligned : Client (Stateful Panic Unit) where
  engine :=
    { host := ⟨id, fun _ => none, "", fun _ _ => .ok [], fun _ _ => .ok []⟩
      parseAtom := fun _ => .error (.text "not an atom")
      runtime := ⟨pure false, fun _ _ _ => pure ⟨[], none⟩, fun _ _ _ => pure (.ok false)⟩ }
  host := asciiHost
  registry := AList.singleton "send"
    { metadata := { name := "send" }
      execute := fun _ _ => pure (.error (.alignment { message := "try again" })) }

end Manglekit.Sdk

import Manglekit.Engine.History
import Manglekit.Engine.Reference

/-!
# A gate check beside a reload

A gate check issues several queries, and each of them snapshots the policy anew.
A reload swaps the policy in one section.  The check is consistent with the policy
before or after the swap as long as all its snapshots lie on one side of it.
-/

namespace Manglekit.Engine

open Core Datalog Atomic

section Model

variable {Key : Type} [DecidableEq Key]

omit [DecidableEq Key] in
def reloadPolicySource (mangle : Mangle Key) (ctx : Context) (source : String) :
    RuntimeM Key (Option GoError) :=
  if source = "" then pure (some (.text "policy source cannot be empty"))
  else do
    match ← reloadFromSource mangle ctx source with
    | some err => pure (some (.wrap "failed to reload policy" err))
    | none => pure none

def liveEngine (mangle : Mangle Key) (host : Host) : PolicyEngine (RuntimeM Key) where
  host := host
  parseAtom := mangle.parseAtom
  runtime := queryRuntime mangle

inductive GateCall where
  | assess (actionMeta : ActionMetadata)
  | assessPlan

inductive GateOutcome where
  | verdict (err : Option GoError)
  | decision (decision : Decision) (err : Option GoError)

def GateCall.process (mangle : Mangle Key) (host : Host) (ctx : Context) (input : Envelope) :
    GateCall → RuntimeM Key GateOutcome
  | .assess actionMeta =>
    return .verdict (← Engine.assess (liveEngine mangle host) ctx actionMeta input)
  | .assessPlan => do
    let decided ← Engine.assessPlan (liveEngine mangle host) ctx input
    return .decision decided.1 decided.2

inductive Party where
  | check
  | reload
  deriving DecidableEq

omit [DecidableEq Key] in
def checkPool (mangle : Mangle Key) (start : MangleRuntime Key)
    (check : RuntimeM Key GateOutcome) (ctx : Context) (source : String) :
    Pool Party (MangleRuntime Key) Section Panic (GateOutcome ⊕ Option GoError) where
  state := start
  threads
    | .check => check >>= fun outcome => pure (.inl outcome)
    | .reload => reloadPolicySource mangle ctx source >>= fun failure => pure (.inr failure)

end Model

/-! ## The sections of a check -/

/-- The section only reads settings, which no reload changes. -/
def Section.readsSettings : Section → Bool
  | .registryList | .readLimit | .readTimeout => true
  | _ => false

section Checks

variable {Key : Type} {Result Other : Type}

def MangleRuntime.eraseCache (runtime : MangleRuntime Key) : MangleRuntime Key :=
  { runtime with idbCache := none }

/-- After the readiness test, the sections of a check change nothing but the cache,
and those that read settings depend on nothing else. -/
def GateLike : RuntimeM Key Result → Prop
  | .done _ => True
  | .abort _ => True
  | .step event update next => ∀ state,
      (update state).eraseCache = state.eraseCache ∧ event state ≠ .readReady ∧
        ((event state).readsSettings = true →
          ∀ other, other.settings = state.settings →
            update other = other ∧ next other = next state) ∧
        GateLike (next state)

variable {process : RuntimeM Key Result}

theorem GateLike.bind {continuation : Result → RuntimeM Key Other}
    (first : GateLike process) (second : ∀ result, GateLike (continuation result)) :
    GateLike (process >>= continuation) := by
  rw [Process.bind_eq]
  induction process with
  | done result => exact second result
  | abort fault => trivial
  | step event update next ih =>
    intro state
    obtain ⟨cacheOnly, notReady, settings, rest⟩ := first state
    refine ⟨cacheOnly, notReady, ?_, ih state rest⟩
    intro reads other same
    obtain ⟨unchanged, alike⟩ := settings reads other same
    exact ⟨unchanged, congrArg (·.bind continuation) alike⟩

theorem gateLike_atomically {event : MangleRuntime Key → Section}
    {body : MangleRuntime Key → Result × MangleRuntime Key}
    (cacheOnly : ∀ state, (body state).2.eraseCache = state.eraseCache)
    (policy : ∀ state, event state ≠ .readReady ∧ (event state).readsSettings = false) :
    GateLike (.atomically event body : RuntimeM Key Result) := by
  intro state
  refine ⟨cacheOnly state, (policy state).1, ?_, trivial⟩
  rw [(policy state).2]
  nofun

theorem gateLike_settings {event : MangleRuntime Key → Section} {read : MangleRuntime Key → Result}
    (notReady : ∀ state, event state ≠ .readReady)
    (fromSettings : ∀ state, read state = read state.settings) :
    GateLike (.atomically event fun state => (read state, state) : RuntimeM Key Result) := by
  intro state
  refine ⟨rfl, notReady state, ?_, trivial⟩
  intro _ other same
  refine ⟨rfl, congrArg Process.done ?_⟩
  change read other = read state
  rw [fromSettings other, same, ← fromSettings state]

variable [DecidableEq Key] (mangle : Mangle Key)

omit [DecidableEq Key] in
theorem gateLike_buildEvalOptionsLockedSnapshot :
    GateLike (buildEvalOptionsLockedSnapshot : RuntimeM Key EvalOptions) := by
  refine GateLike.bind (gateLike_atomically (fun _ => rfl) fun _ => ⟨nofun, rfl⟩) fun program => ?_
  intro state
  refine ⟨rfl, nofun, ?_, ?_⟩
  · intro _ other same
    have externals := congrArg MangleRuntime.externalPreds same
    have options (info : ProgramInfo) := congrArg (MangleRuntime.buildEvalOptionsFor · info) same
    change other.externalPreds = state.externalPreds at externals
    change ∀ info, other.buildEvalOptionsFor info = state.buildEvalOptionsFor info at options
    refine ⟨rfl, ?_⟩
    cases program with
    | none => simp only [Process.done_bind, externals, options]
    | some program => simp only [Process.done_bind, options]
  · cases program with
    | none =>
      dsimp only [Process.done_bind]
      split <;> trivial
    | some program => trivial

theorem gateLike_storeSnapshot (facts : List Datalog.Atom) :
    GateLike (storeSnapshot mangle facts) := by
  refine gateLike_atomically (fun runtime => ?_) fun _ => ⟨nofun, rfl⟩
  unfold storeSnapshotBody
  split
  · rfl
  · split_ifs
    · dsimp only
      split <;> rfl
    · rfl

theorem gateLike_cacheInsert (key : Key) (store : Store) : GateLike (cacheInsert key store) := by
  refine GateLike.bind (gateLike_atomically (fun _ => rfl) fun _ => ⟨nofun, rfl⟩)
    fun allocated => ?_
  cases allocated <;> trivial

section

variable (ctx : Context) (facts : List Datalog.Atom)

include ctx facts

theorem gateLike_evaluatedWorkingStore
    (options : EvalOptions) : GateLike (evaluatedWorkingStore mangle ctx facts options) := by
  apply GateLike.bind (gateLike_storeSnapshot mangle facts)
  intro snapshot
  cases snapshot with
  | notReady => trivial
  | hit store => trivial
  | miss program base key =>
    dsimp only [evaluateMiss]
    split
    · trivial
    · apply GateLike.bind
      · exact gateLike_settings (fun _ => nofun) fun _ => rfl
      · intro timeout
        split
        · trivial
        · cases key with
          | none => trivial
          | some key => exact (gateLike_cacheInsert key _).bind fun _ => trivial

theorem gateLike_executeQuery (query : String) :
    GateLike (executeQuery mangle ctx facts query) := by
  unfold executeQuery
  split
  · trivial
  · apply GateLike.bind (gateLike_evaluatedWorkingStore mangle ctx facts {})
    intro answer
    cases answer <;> trivial

theorem gateLike_queryWithSolutions (query : String) :
    GateLike (queryWithSolutions mangle ctx facts query) := by
  unfold queryWithSolutions
  split
  · trivial
  · apply GateLike.bind gateLike_buildEvalOptionsLockedSnapshot
    intro options
    apply GateLike.bind
    · exact gateLike_settings (fun _ => nofun) fun _ => rfl
    · intro limit
      apply GateLike.bind (gateLike_evaluatedWorkingStore mangle ctx facts _)
      intro answer
      cases answer <;> trivial

end

/-! ## The shape of a check -/

omit [DecidableEq Key] in
theorem compositional_gateLike : Effects.Compositional (m := RuntimeM Key) fun _ => GateLike :=
  ⟨fun _ => trivial, GateLike.bind⟩

variable (host : Host)

theorem gateLike_checkHalts (ctx : Context) (actionName entityID : String)
    (facts : List Datalog.Atom) :
    GateLike (checkHalts (liveEngine mangle host) ctx actionName entityID facts) :=
  holds_checkHalts compositional_gateLike (gateLike_queryWithSolutions mangle ctx facts)
    (gateLike_executeQuery mangle ctx facts) actionName entityID

omit [DecidableEq Key] in
/-- The process tests the readiness first, ends there if the test fails, and is
gentle after it. -/
def OpensWithReady (process : RuntimeM Key Result) (rest : Bool → RuntimeM Key Result) : Prop :=
  process = .step (fun _ => .readReady) (fun state => state) (fun state => rest state.ready) ∧
    (∀ ready, GateLike (rest ready)) ∧ ∃ refusal, rest false = .done refusal

omit [DecidableEq Key] in
theorem OpensWithReady.bind_pure
    {rest : Bool → RuntimeM Key Result} (opens : OpensWithReady process rest)
    (wrap : Result → Other) :
    OpensWithReady (process >>= fun result => pure (wrap result))
      fun ready => rest ready >>= fun result => pure (wrap result) := by
  obtain ⟨rfl, gentle, refusal, refused⟩ := opens
  refine ⟨rfl, fun ready => (gentle ready).bind fun _ => trivial, wrap refusal, ?_⟩
  simp only [refused, Process.bind_eq, Process.done_bind, Process.pure_eq_done]

theorem evaluateGateWithTrail_opens (ctx : Context) (actionName entityID : String)
    (env : Envelope) (extraFacts : List Datalog.Atom) :
    ∃ rest, OpensWithReady (evaluateGateWithTrail (liveEngine mangle host) ctx actionName entityID
      env extraFacts) rest := by
  unfold evaluateGateWithTrail
  rcases gateFacts (liveEngine mangle host) actionName entityID env extraFacts with err | facts
  · refine ⟨fun ready => if ready then pure ⟨none, some err⟩ else
      pure ⟨none, some (.alignment
        { message := "policy engine not initialized: fail-closed", actionName })⟩,
      rfl, ?_, _, rfl⟩
    intro ready
    cases ready <;> trivial
  · refine ⟨fun ready => if ready then
        checkHalts (liveEngine mangle host) ctx actionName entityID facts
      else pure ⟨none, some (.alignment
        { message := "policy engine not initialized: fail-closed", actionName })⟩,
      rfl, ?_, _, rfl⟩
    intro ready
    cases ready with
    | false => trivial
    | true => exact gateLike_checkHalts mangle host ctx actionName entityID facts

theorem GateCall.process_opens (ctx : Context) (input : Envelope) (call : GateCall) :
    ∃ rest, OpensWithReady (call.process mangle host ctx input) rest := by
  cases call with
  | assess actionMeta =>
    obtain ⟨rest, opens⟩ := evaluateGateWithTrail_opens mangle host ctx actionMeta.name
      entityInput input _
    exact ⟨_, (opens.bind_pure GateResult.err).bind_pure GateOutcome.verdict⟩
  | assessPlan =>
    obtain ⟨rest, opens⟩ := evaluateGateWithTrail_opens mangle host ctx "" entityInput input []
    exact ⟨_, (opens.bind_pure decisionOf).bind_pure fun decided =>
      GateOutcome.decision decided.1 decided.2⟩

end Checks

/-! ## The reload up to its swap -/

section Reload

variable {Key : Type}

/-- Beside sections that change nothing but the cache, the process reads until it
fails or swaps the target in. -/
def Commits (start target : MangleRuntime Key) :
    RuntimeM Key (GateOutcome ⊕ Option GoError) → Prop
  | .done result => ∃ err, result = .inr (some err)
  | .abort _ => True
  | .step event update next => ∀ state, state.eraseCache = start.eraseCache →
      (update state = state ∧ Commits start target (next state)) ∨
        (event state = .swap ∧ update state = target ∧ next state = .done (.inr none) ∧
          target.ready = true ∧ target.settings = start.settings)

def CommitsAlone (start : MangleRuntime Key)
    (process : RuntimeM Key (GateOutcome ⊕ Option GoError)) : Prop :=
  Commits start (process.exec start).2 process

theorem CommitsAlone.read {start : MangleRuntime Key} {event : MangleRuntime Key → Section}
    {next : MangleRuntime Key → RuntimeM Key (GateOutcome ⊕ Option GoError)}
    (uncached : ∀ state, next state = next state.eraseCache)
    (rest : CommitsAlone start (next start)) :
    CommitsAlone start (.step event (fun state => state) next) := by
  intro state same
  refine .inl ⟨rfl, ?_⟩
  rw [uncached state, same, ← uncached start]
  exact rest

theorem commitsAlone_swap (start : MangleRuntime Key) (units : List SourceUnit)
    (program : Program) (explicit evaluated : Store) :
    CommitsAlone start (.step (fun _ => .swap) (swapBody units program explicit evaluated)
      fun _ => .done (.inr none)) := by
  intro state same
  have uncached : ∀ runtime : MangleRuntime Key, swapBody units program explicit evaluated runtime =
      swapBody units program explicit evaluated runtime.eraseCache := fun _ => rfl
  refine .inr ⟨rfl, ?_, rfl, rfl, rfl⟩
  rw [uncached state, same, ← uncached start]
  rfl

theorem commitsAlone_reload (mangle : Mangle Key) (start : MangleRuntime Key) (ctx : Context)
    (source : String) :
    CommitsAlone start
      (reloadPolicySource mangle ctx source >>= fun failure => pure (.inr failure)) := by
  by_cases empty : source = ""
  · simp only [reloadPolicySource, if_pos empty]
    exact ⟨_, rfl⟩
  · simp only [reloadPolicySource, reloadFromSource, if_neg empty]
    -- The sections in order: persistent units, names, facts, options, swap.
    refine CommitsAlone.read (fun _ => rfl) (CommitsAlone.read (fun _ => rfl) ?_)
    dsimp only [Process.done_bind]
    generalize reloadProgram mangle source _ _ _ = built
    rcases built with err | ⟨units, program⟩
    · exact ⟨_, rfl⟩
    · refine CommitsAlone.read (fun _ => rfl) (CommitsAlone.read (fun _ => rfl) ?_)
      dsimp only [Process.done_bind]
      generalize evaluate mangle ctx start program _ = evaluation
      rcases evaluation with ⟨evaluated, err | none⟩
      · exact commitsAlone_swap start units program _ evaluated
      · exact ⟨_, rfl⟩

end Reload

/-! ## One side of the swap -/

/-- So far the check has only tested whether the engine is ready. -/
def OnlyReady (events : List (Party × Section)) : Prop :=
  ∀ event ∈ events, event.1 = .check → event.2 = .readReady

/-- The check only reads settings. -/
def OnlySettings (events : List (Party × Section)) : Prop :=
  ∀ event ∈ events, event.1 = .check → event.2.readsSettings = true

/-- All sections of the check that depend on the policy lie on one side of the swap. -/
def OneSide (trace : List (Party × Section)) : Prop :=
  ∀ before after, trace = before ++ (.reload, .swap) :: after →
    OnlyReady before ∨ OnlySettings after

theorem OnlyReady.of_append {first second : List (Party × Section)}
    (only : OnlyReady (first ++ second)) : OnlyReady first :=
  fun event member => only event (List.mem_append_left second member)

theorem OnlySettings.of_append {first second : List (Party × Section)}
    (only : OnlySettings (first ++ second)) : OnlySettings first :=
  fun event member => only event (List.mem_append_left second member)

theorem oneSide_of_before {check reload : List (Party × Section)}
    (checking : ∀ event ∈ check, event.1 = .check)
    (reloading : ∀ event ∈ reload, event.1 = .reload) :
    OneSide (check ++ reload) := by
  intro before after split
  refine .inr fun event member fromCheck => ?_
  -- The swap belongs to the reload, and so does everything after it.
  have within : event ∈ reload := by
    rcases List.append_eq_append_iff.mp split with ⟨rest, rfl, rest_eq⟩ | ⟨rest, rfl, rest_eq⟩
    · rw [rest_eq]
      exact List.mem_append_right _ (List.mem_cons_of_mem _ member)
    · cases rest with
      | nil =>
        rw [← List.nil_append reload, ← rest_eq]
        exact List.mem_cons_of_mem _ member
      | cons head tail =>
        obtain ⟨rfl, rfl⟩ := List.cons.inj rest_eq
        cases checking (.reload, .swap) (by simp)
  rw [reloading event within] at fromCheck
  cases fromCheck

section Race

variable {Key : Type} {start target : MangleRuntime Key}
  {check : RuntimeM Key (GateOutcome ⊕ Option GoError)}
  {rest : Bool → RuntimeM Key (GateOutcome ⊕ Option GoError)}

/-- The check has not begun, or is past the readiness test. -/
def Gentle (check process : RuntimeM Key (GateOutcome ⊕ Option GoError)) : Prop :=
  process = check ∨ GateLike process

theorem Gentle.step {process : RuntimeM Key (GateOutcome ⊕ Option GoError)}
    {event : MangleRuntime Key → Section} {update : MangleRuntime Key → MangleRuntime Key}
    {next : MangleRuntime Key → RuntimeM Key (GateOutcome ⊕ Option GoError)}
    (opens : OpensWithReady check rest) (gentle : Gentle check process)
    (pending : process = .step event update next) (state : MangleRuntime Key) :
    (update state).eraseCache = state.eraseCache ∧ GateLike (next state) ∧
      (event state = .readReady → update state = state ∧ next state = rest state.ready) ∧
      ((event state).readsSettings = true → ∀ other, other.settings = state.settings →
        update other = other ∧ next other = next state) := by
  obtain ⟨shape, restGentle, _⟩ := opens
  rcases gentle with rfl | gentle
  · rw [shape] at pending
    cases pending
    exact ⟨rfl, restGentle _, fun _ => ⟨rfl, rfl⟩, nofun⟩
  · subst pending
    obtain ⟨cacheOnly, notReady, settings, nextGentle⟩ := gentle state
    exact ⟨cacheOnly, nextGentle, fun ready => absurd ready notReady, settings⟩

/-- Up to the swap, the rest of the check still ends as the check would have from the
start. -/
structure BeforeSwap (start target : MangleRuntime Key)
    (check : RuntimeM Key (GateOutcome ⊕ Option GoError))
    (rest : Bool → RuntimeM Key (GateOutcome ⊕ Option GoError)) (state : MangleRuntime Key)
    (checking reloading : RuntimeM Key (GateOutcome ⊕ Option GoError))
    (past : List (Party × Section)) : Prop where
  cacheOnly : state.eraseCache = start.eraseCache
  commits : Commits start target reloading
  gentle : Gentle check checking
  old : (checking.exec state).1 = (check.exec start).1
  unread : OnlyReady past → state = start ∧ (checking = check ∨ checking = rest start.ready)

/-- After the swap, a check that had read nothing of the policy ends as from the start
or from the target, and one that reads nothing more ends as it would have in a state
without the swap. -/
structure AfterSwap (start target : MangleRuntime Key)
    (check : RuntimeM Key (GateOutcome ⊕ Option GoError)) (state : MangleRuntime Key)
    (checking reloading : RuntimeM Key (GateOutcome ⊕ Option GoError))
    (before after : List (Party × Section)) : Prop where
  committed : reloading = .done (.inr none)
  gentle : Gentle check checking
  fresh : OnlyReady before → (checking.exec state).1 = (check.exec start).1 ∨
    (checking.exec state).1 = (check.exec target).1
  stale : OnlySettings after → ∃ unswapped : MangleRuntime Key,
    unswapped.settings = state.settings ∧ (checking.exec unswapped).1 = (check.exec start).1

section Steps

variable {state : MangleRuntime Key}
  {checking reloading : RuntimeM Key (GateOutcome ⊕ Option GoError)}
  {past before after : List (Party × Section)}
  {event : MangleRuntime Key → Section} {update : MangleRuntime Key → MangleRuntime Key}
  {next : MangleRuntime Key → RuntimeM Key (GateOutcome ⊕ Option GoError)}

section

variable (opens : OpensWithReady check rest)

include opens

theorem BeforeSwap.check_step
    (invariant : BeforeSwap start target check rest state checking reloading past)
    (pending : checking = .step event update next) :
    BeforeSwap start target check rest (update state) (next state) reloading
      (past ++ [(.check, event state)]) := by
  obtain ⟨cacheOnly, nextGentle, testing, _⟩ := invariant.gentle.step opens pending state
  refine ⟨cacheOnly.trans invariant.cacheOnly, invariant.commits, .inr nextGentle, ?_, ?_⟩
  · rw [← invariant.old, pending, Process.exec_step]
  · intro only
    obtain ⟨unchanged, _⟩ := invariant.unread only.of_append
    obtain ⟨same, continued⟩ := testing (only (.check, event state) (by simp) rfl)
    refine ⟨same.trans unchanged, .inr ?_⟩
    rw [continued, unchanged]

/-- A check that has seen nothing but the readiness when the target is swapped in. -/
theorem exec_after_swap (ready : target.ready = true)
    (unread : checking = check ∨ checking = rest start.ready) :
    (checking.exec target).1 = (check.exec start).1 ∨
      (checking.exec target).1 = (check.exec target).1 := by
  obtain ⟨rfl, _, refusal, refused⟩ := opens
  rcases unread with rfl | rfl
  · exact .inr rfl
  · simp only [Process.exec_step]
    cases start.ready with
    | false =>
      left
      simp only [refused, Process.exec_done]
    | true =>
      right
      rw [ready]

theorem BeforeSwap.reload_step
    (invariant : BeforeSwap start target check rest state checking reloading past)
    (pending : reloading = .step event update next) :
    BeforeSwap start target check rest (update state) checking (next state)
        (past ++ [(.reload, event state)]) ∨
      (event state = .swap ∧
        AfterSwap start target check (update state) checking (next state) past []) := by
  have commits := invariant.commits
  rw [pending] at commits
  rcases commits state invariant.cacheOnly with
    ⟨unchanged, remaining⟩ | ⟨swaps, swapped, finished, ready, settings⟩
  · rw [unchanged]
    exact .inl ⟨invariant.cacheOnly, remaining, invariant.gentle, invariant.old,
      fun only => invariant.unread only.of_append⟩
  · rw [swapped]
    refine .inr ⟨swaps, finished, invariant.gentle, ?_, ?_⟩
    · intro only
      exact exec_after_swap opens ready (invariant.unread only).2
    · intro _
      have same := congrArg MangleRuntime.settings invariant.cacheOnly
      exact ⟨state, same.trans settings.symm, invariant.old⟩

theorem AfterSwap.check_step
    (invariant : AfterSwap start target check state checking reloading before after)
    (pending : checking = .step event update next) :
    AfterSwap start target check (update state) (next state) reloading before
      (after ++ [(.check, event state)]) := by
  obtain ⟨_, nextGentle, _, reading⟩ := invariant.gentle.step opens pending state
  refine ⟨invariant.committed, .inr nextGentle, ?_, ?_⟩
  · intro only
    have ends := invariant.fresh only
    rw [pending, Process.exec_step] at ends
    exact ends
  · intro only
    obtain ⟨unswapped, same, ends⟩ := invariant.stale only.of_append
    have silent := reading (only (.check, event state) (by simp) rfl)
    obtain ⟨unchanged, alike⟩ := silent unswapped same
    rw [pending, Process.exec_step, unchanged, alike] at ends
    rw [(silent state rfl).1]
    exact ⟨unswapped, same, ends⟩

end

end Steps

def CheckRace (start target : MangleRuntime Key)
    (check : RuntimeM Key (GateOutcome ⊕ Option GoError))
    (rest : Bool → RuntimeM Key (GateOutcome ⊕ Option GoError))
    (pool : Pool Party (MangleRuntime Key) Section Panic (GateOutcome ⊕ Option GoError))
    (past : List (Party × Section)) : Prop :=
  BeforeSwap start target check rest pool.state (pool.threads .check) (pool.threads .reload) past ∨
    ∃ before after, past = before ++ (.reload, .swap) :: after ∧
      AfterSwap start target check pool.state (pool.threads .check) (pool.threads .reload) before
        after

theorem CheckRace.advance (opens : OpensWithReady check rest)
    {pool : Pool Party (MangleRuntime Key) Section Panic (GateOutcome ⊕ Option GoError)}
    {past : List (Party × Section)}
    (invariant : CheckRace start target check rest pool past) (moved : Party) :
    CheckRace start target check rest (pool.advance moved) (past ++ pool.emitted moved) := by
  rcases pool.advance_cases moved with
    ⟨unchanged, silent⟩ | ⟨event, update, next, pending, advanced, emitted⟩
  · rw [unchanged, silent, List.append_nil]
    exact invariant
  · rw [advanced, emitted]
    cases moved with
    | check =>
      rcases invariant with unswapped | ⟨before, after, rfl, swapped⟩
      · exact .inl (unswapped.check_step opens pending)
      · refine .inr ⟨before, after ++ [(.check, event pool.state)], ?_, ?_⟩
        · rw [List.append_assoc, List.cons_append]
        · exact swapped.check_step opens pending
    | reload =>
      rcases invariant with unswapped | ⟨before, after, rfl, swapped⟩
      · rcases unswapped.reload_step opens pending with still | ⟨swaps, swapped⟩
        · exact .inl still
        · rw [swaps]
          exact .inr ⟨past, [], rfl, swapped⟩
      · -- The reload is over.
        rw [swapped.committed] at pending
        cases pending

theorem checkRace_run {gate : RuntimeM Key GateOutcome}
    {gateRest : Bool → RuntimeM Key GateOutcome} (opens : OpensWithReady gate gateRest)
    (mangle : Mangle Key) (start : MangleRuntime Key) (ctx : Context) (source : String)
    (schedule : List Party) :
    CheckRace start ((reloadPolicySource mangle ctx source).exec start).2
      (gate >>= fun outcome => pure (.inl outcome))
      (fun ready => gateRest ready >>= fun outcome => pure (.inl outcome))
      ((checkPool mangle start gate ctx source).run schedule)
      ((checkPool mangle start gate ctx source).trace schedule) := by
  apply Pool.run_induction
  · refine .inl ⟨rfl, ?_, .inl rfl, rfl, fun _ => ⟨rfl, .inl rfl⟩⟩
    have commits := commitsAlone_reload mangle start ctx source
    rw [CommitsAlone, Process.bind_eq] at commits
    simp only [Process.pure_eq_done, Process.exec_bind_done] at commits
    exact commits
  · intro reached past moved invariant
    exact invariant.advance (opens.bind_pure Sum.inl) moved

variable [DecidableEq Key]

/-- A check ends as under the old or as under the new policy if all its sections that
depend on the policy lie on one side of the swap. -/
theorem check_sees_one_policy (mangle : Mangle Key) (host : Host) (start : MangleRuntime Key)
    (call : GateCall) (ctx reloadCtx : Context) (input : Envelope) (source : String)
    (schedule : List Party) {outcome : Except Panic (GateOutcome ⊕ Option GoError)}
    (checked : (((checkPool mangle start (call.process mangle host ctx input) reloadCtx
      source).run schedule).threads .check).outcome? = some outcome)
    (reloaded : (((checkPool mangle start (call.process mangle host ctx input) reloadCtx
      source).run schedule).threads .reload).result? = some (.inr none))
    (oneSide : OneSide ((checkPool mangle start (call.process mangle host ctx input) reloadCtx
      source).trace schedule)) :
    outcome = ((call.process mangle host ctx input).exec start).1.map .inl ∨
      outcome = ((call.process mangle host ctx input).exec
        ((reloadPolicySource mangle reloadCtx source).exec start).2).1.map .inl := by
  obtain ⟨rest, opens⟩ := call.process_opens mangle host ctx input
  have alone (state : MangleRuntime Key) :
      ((call.process mangle host ctx input >>= fun result => pure (.inl result) :
        RuntimeM Key (GateOutcome ⊕ Option GoError)).exec state).1 =
      ((call.process mangle host ctx input).exec state).1.map .inl :=
    congrArg Prod.fst (Process.exec_bind_done _ _ state)
  rcases checkRace_run opens mangle start reloadCtx source schedule with
    unswapped | ⟨before, after, events, swapped⟩
  · -- A reload that is over without its swap has failed.
    have commits := unswapped.commits
    rw [Process.result?_eq_some.mp reloaded] at commits
    obtain ⟨err, impossible⟩ := commits
    cases impossible
  · rcases oneSide before after events with unread | settings
    · have ends := swapped.fresh unread
      rw [Process.exec_of_outcome? checked, alone, alone] at ends
      exact ends
    · obtain ⟨unswapped, _, ends⟩ := swapped.stale settings
      rw [Process.exec_of_outcome? checked, alone] at ends
      exact .inl ends

end Race

/-! ## A check that mixes two policies -/

/-- The old policy blocks every action with an untiered halt. -/
def oldPolicy : String := "halt(E, \"old\") :- action_operation(E, A)."

/-- The new one blocks every action with a tiered halt. -/
def newPolicy : String := "halt(E, \"new\", \"T0\") :- action_operation(E, A)."

def underOldPolicy : MangleRuntime Reference.Key :=
  ((reloadPolicySource Reference.mangle {} oldPolicy).exec {}).2

def paymentCheck : RuntimeM Reference.Key GateOutcome :=
  (GateCall.assess { name := "pay" }).process Reference.mangle Reference.host {} {}

def policyRace :
    Pool Party (MangleRuntime Reference.Key) Section Panic (GateOutcome ⊕ Option GoError) :=
  checkPool Reference.mangle underOldPolicy paymentCheck {} newPolicy

def letsThrough : Except Panic GateOutcome → Bool
  | .ok (.verdict err) => err.isNone
  | .ok (.decision decision _) => decide (decision.outcome = .proceed)
  | .error _ => false

def mixedSchedule : List Party :=
  List.replicate 7 .check ++ List.replicate 5 .reload ++ List.replicate 7 .check

def apartSchedule : List Party := List.replicate 15 .check ++ List.replicate 5 .reload

/-- The reload returned without an error. -/
def reloadReturned (schedule : List Party) : Bool :=
  ((policyRace.run schedule).threads .reload).result?.any
    (Sum.elim (fun _ => false) Option.isNone)

theorem reloadReturned_spec {schedule : List Party} (returned : reloadReturned schedule = true) :
    ((policyRace.run schedule).threads .reload).result? = some (.inr none) := by
  obtain ⟨report, found, success⟩ := (Option.any_eq_true _ _).mp returned
  rcases report with outcome | failure
  · cases success
  · rw [found, Option.isNone_iff_eq_none.mp success]

/-- A request that both policies block is let through. -/
theorem mixedPolicies_allow :
    (∃ outcome, ((policyRace.run mixedSchedule).threads .check).result? = some (.inl outcome) ∧
        letsThrough (.ok outcome) = true) ∧
      ((policyRace.run mixedSchedule).threads .reload).result? = some (.inr none) ∧
      letsThrough (paymentCheck.exec underOldPolicy).1 = false ∧
      letsThrough (paymentCheck.exec
        ((reloadPolicySource Reference.mangle {} newPolicy).exec underOldPolicy).2).1 = false := by
  -- One evaluation of the race serves both ends.
  have ended : ((policyRace.run mixedSchedule).threads .check).result?.any
        (Sum.elim (fun outcome => letsThrough (.ok outcome)) fun _ => false) = true ∧
      reloadReturned mixedSchedule = true := by
    decide +kernel
  obtain ⟨checked, returned⟩ := ended
  refine ⟨?_, reloadReturned_spec returned, by decide +kernel, by decide +kernel⟩
  obtain ⟨result, ended, through⟩ := (Option.any_eq_true _ _).mp checked
  rcases result with outcome | failure
  · exact ⟨outcome, ended, through⟩
  · cases through

theorem earlierCheck_sees_one_policy :
    ∃ outcome, ((policyRace.run apartSchedule).threads .check).outcome? = some outcome ∧
      (outcome = (paymentCheck.exec underOldPolicy).1.map .inl ∨
        outcome = (paymentCheck.exec
          ((reloadPolicySource Reference.mangle {} newPolicy).exec
            underOldPolicy).2).1.map .inl) := by
  have ended : ((policyRace.run apartSchedule).threads .check).outcome?.isSome = true ∧
      reloadReturned apartSchedule = true := by
    decide +kernel
  obtain ⟨checkEnded, returned⟩ := ended
  obtain ⟨outcome, checked⟩ := Option.isSome_iff_exists.mp checkEnded
  have oneSide : OneSide (policyRace.trace apartSchedule) := by
    rw [apartSchedule, Pool.trace_append]
    apply oneSide_of_before
    · decide +kernel
    · decide +kernel
  have reloaded := reloadReturned_spec returned
  unfold policyRace paymentCheck at checked reloaded oneSide ⊢
  exact ⟨outcome, checked, check_sees_one_policy Reference.mangle Reference.host underOldPolicy
    (.assess { name := "pay" }) {} {} {} newPolicy apartSchedule checked reloaded oneSide⟩

end Manglekit.Engine

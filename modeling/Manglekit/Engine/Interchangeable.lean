import Manglekit.Engine.CacheTransparency

/-!
# Runtimes that answer alike

Two runtimes that differ only in their caches answer every query alike, as long as the
caches are valid and a query does not depend on whether it has to evaluate: its context
is live and no limit is set.  A query changes nothing but the cache.
-/

namespace Manglekit.Engine

open Core Datalog Atomic

variable {Key : Type}

/-- Evaluations that succeed at all succeed under every context and within every
deadline, unless a limit is set. -/
def Mangle.Unhurried (mangle : Mangle Key) : Prop :=
  ∀ program store (options others : EvalOptions) ctx otherCtx timeout otherTimeout result,
    options.Plain → others.Plain → others.createdFactLimit = none →
    mangle.eval program options ctx timeout store = (result, none) →
    mangle.eval program others otherCtx otherTimeout store = (result, none)

structure Mangle.Dependable (mangle : Mangle Key) : Prop where
  keysInjective : mangle.KeysInjective
  deterministic : mangle.Deterministic
  unhurried : mangle.Unhurried

/-- The two runtimes are equal, and equal but for their valid caches if they have any. -/
def Interchangeable (mangle : Mangle Key) (first second : MangleRuntime Key) : Prop :=
  (first.cacheable = false ∧ first = second) ∨
    (CacheValid mangle first ∧ CacheValid mangle second ∧ first.bypassed = second.bypassed ∧
      first.maxCreatedFacts ≤ 0)

/-- The context is not cancelled while a store is evaluated. -/
def live (ctx : Context) : Bool :=
  (ctx.err .workingStore).isNone && (ctx.err .evaluation).isNone

section Relation

variable {mangle : Mangle Key} {first second third : MangleRuntime Key}

theorem maxCreatedFacts_of_bypassed (same : first.bypassed = second.bypassed) :
    first.maxCreatedFacts = second.maxCreatedFacts := by
  have fields := congrArg (·.maxCreatedFacts) same
  exact fields

section

variable (same : Interchangeable mangle first second)

include same

theorem Interchangeable.eq_of_uncached (uncached : first.cacheable = false) : first = second := by
  rcases same with ⟨_, equal⟩ | ⟨valid, _⟩
  · exact equal
  · simp [valid.cacheable] at uncached

theorem Interchangeable.symm : Interchangeable mangle second first := by
  rcases same with ⟨uncached, rfl⟩ | ⟨valid, otherValid, bypassed, unlimited⟩
  · exact .inl ⟨uncached, rfl⟩
  · exact .inr ⟨otherValid, valid, bypassed.symm,
      (maxCreatedFacts_of_bypassed bypassed).symm.trans_le unlimited⟩

theorem Interchangeable.trans
    (next : Interchangeable mangle second third) : Interchangeable mangle first third := by
  rcases same with ⟨uncached, rfl⟩ | ⟨valid, otherValid, bypassed, unlimited⟩
  · exact next
  · rcases next with ⟨uncached, rfl⟩ | ⟨_, thirdValid, further, _⟩
    · exact .inr ⟨valid, otherValid, bypassed, unlimited⟩
    · exact .inr ⟨valid, thirdValid, bypassed.trans further, unlimited⟩

end

end Relation

section Queries

variable [DecidableEq Key] {mangle : Mangle Key} {runtime other : MangleRuntime Key}
  {ctx : Context} {facts : List Datalog.Atom}

/-! ## Queries change nothing but the cache -/

variable {options : EvalOptions}

theorem evaluateMiss_uncached {program : Program} {base : Store} :
    ((evaluateMiss mangle ctx facts options program base none).exec runtime).2 = runtime := by
  rw [exec_evaluateMiss]
  split
  · rfl
  · split <;> rfl

theorem evaluatedWorkingStore_uncached (uncached : runtime.cacheable = false)
    (options : EvalOptions) :
    ((evaluatedWorkingStore mangle ctx facts options).exec runtime).2 = runtime := by
  rw [exec_evaluatedWorkingStore]
  cases active : runtime.program with
  | none => simp [storeSnapshotBody, active]
  | some program =>
    simp only [storeSnapshotBody, active, uncached, Bool.false_eq_true, if_false]
    exact evaluateMiss_uncached

theorem bypassed_evaluatedWorkingStore (valid : CacheValid mangle runtime)
    (options : EvalOptions) :
    ((evaluatedWorkingStore mangle ctx facts options).exec runtime).2.bypassed =
      runtime.bypassed := by
  rw [exec_evaluatedWorkingStore]
  cases active : runtime.program with
  | none => simp [storeSnapshotBody, active]
  | some program =>
    cases found : (runtime.idbCache.getD []).lookup (requestKey mangle runtime facts) with
    | some store =>
      rw [storeSnapshotBody_hit valid.cacheable active found]
      rfl
    | none =>
      rw [storeSnapshotBody_miss valid.cacheable active found]
      dsimp only
      rw [exec_evaluateMiss]
      split
      · rfl
      · split <;> rfl

theorem interchangeable_evaluatedWorkingStore (same : Interchangeable mangle runtime runtime)
    (plain : CacheValid mangle runtime → options.Plain) :
    Interchangeable mangle runtime
      ((evaluatedWorkingStore mangle ctx facts options).exec runtime).2 := by
  rcases same with ⟨uncached, _⟩ | ⟨valid, _, _, unlimited⟩
  · exact .inl ⟨uncached, (evaluatedWorkingStore_uncached uncached options).symm⟩
  · exact .inr ⟨valid, valid_evaluatedWorkingStore valid (plain valid),
      (bypassed_evaluatedWorkingStore valid options).symm, unlimited⟩

omit [DecidableEq Key] in
theorem exec_reading {Result Other : Type} {process : RuntimeM Key Result}
    {read : Result → RuntimeM Key Other} (reading : ∀ result, ∃ other, read result = .done other)
    (runtime : MangleRuntime Key) :
    ((process >>= read).exec runtime).2 = (process.exec runtime).2 := by
  rw [Process.bind_eq, Process.exec_bind]
  rcases process.exec runtime with ⟨fault | result, after⟩
  · rfl
  · obtain ⟨other, done⟩ := reading result
    simp [done]

theorem interchangeable_executeQuery (same : Interchangeable mangle runtime runtime)
    (query : String) :
    Interchangeable mangle runtime ((executeQuery mangle ctx facts query).exec runtime).2 := by
  unfold executeQuery
  split
  · exact same
  · rw [exec_reading]
    · exact interchangeable_evaluatedWorkingStore same fun _ => plain_default
    · intro answered
      cases answered <;> exact ⟨_, rfl⟩

theorem interchangeable_queryWithSolutions (same : Interchangeable mangle runtime runtime)
    (query : String) :
    Interchangeable mangle runtime
      ((queryWithSolutions mangle ctx facts query).exec runtime).2 := by
  unfold queryWithSolutions
  split
  · exact same
  next ready =>
    simp only [buildEvalOptionsLockedSnapshot, readLimit, Process.bind_eq,
      Process.atomically_bind, Process.step_bind, Process.exec_step]
    have evaluates (options : EvalOptions) (plain : CacheValid mangle runtime → options.Plain) :
        Interchangeable mangle runtime ((evaluatedWorkingStore mangle ctx facts options >>=
          reportEvaluated mangle query).exec runtime).2 := by
      rw [exec_reading]
      · exact interchangeable_evaluatedWorkingStore same plain
      · intro answered
        cases answered <;> exact ⟨_, rfl⟩
    cases active : runtime.program with
    | some program => exact evaluates _ fun valid => valid.plain _ _
    | none =>
      dsimp only
      split
      · exact evaluates _ fun valid => valid.plain _ _
      · exact same

/-! ## Queries under a live context answer alike -/

omit [DecidableEq Key] in
theorem createdFactLimit_queryOptions (unlimited : runtime.maxCreatedFacts ≤ 0) :
    runtime.queryOptions.createdFactLimit = none := by
  unfold MangleRuntime.queryOptions
  split
  · simp [MangleRuntime.evalOptions, EvalOptions.withLimit, unlimited.not_gt,
      MangleRuntime.buildEvalOptionsFor]
  · simp [EvalOptions.withLimit, unlimited.not_gt, MangleRuntime.buildEvalOptionsFor]

theorem answersAfresh_of_live (unhurried : mangle.Unhurried) (valid : CacheValid mangle runtime)
    (injective : mangle.KeysInjective) (uncancelled : live ctx = true) (plain : options.Plain)
    (unlimited : options.createdFactLimit = none) :
    answersAfresh mangle runtime ctx facts options = true := by
  simp only [live, Bool.and_eq_true, Option.isNone_iff_eq_none] at uncancelled
  unfold answersAfresh
  split
  next program store after active hit =>
    cases found : (runtime.idbCache.getD []).lookup (requestKey mangle runtime facts) with
    | none =>
      rw [storeSnapshotBody_miss valid.cacheable active found] at hit
      cases hit
    | some cached =>
      obtain ⟨current, others, otherCtx, otherOptions, otherTimeout, activeCurrent, keyed,
        otherPlain, evaluation⟩ := valid.entries _ (mem_of_lookup found)
      cases active.symm.trans activeCurrent
      obtain ⟨_, _, rfl⟩ := injective _ _ _ _ _ _ keyed
      unfold evalStratifiedWithContext at evaluation ⊢
      split at evaluation
      · cases evaluation
      · rw [uncancelled.1, uncancelled.2]
        have again := unhurried _ _ _ _ _ ctx _ runtime.evalTimeout _ otherPlain plain
          unlimited evaluation
        simp [again]
  · rfl

/-- The process ends alike on runtimes that answer alike, and leaves such runtimes. -/
def AnswersAlike (mangle : Mangle Key) {Result : Type} (process : RuntimeM Key Result)
    (first second : MangleRuntime Key) : Prop :=
  (process.exec first).1 = (process.exec second).1 ∧
    Interchangeable mangle (process.exec first).2 (process.exec second).2

omit [DecidableEq Key] in
theorem answersAlike_of_faithful {Result : Type} {process : RuntimeM Key Result}
    (faithful : Faithful mangle process runtime) (otherFaithful : Faithful mangle process other)
    (bypassed : runtime.bypassed = other.bypassed)
    (unlimited : (process.exec runtime).2.maxCreatedFacts ≤ 0) :
    AnswersAlike mangle process runtime other := by
  have same := faithful.transparent
  have otherSame := otherFaithful.transparent
  unfold Transparent at same otherSame
  rw [bypassed, otherSame] at same
  obtain ⟨result, after⟩ := Prod.mk.inj same
  exact ⟨result.symm, .inr ⟨faithful.valid, otherFaithful.valid, after.symm, unlimited⟩⟩

omit [DecidableEq Key] in
theorem Interchangeable.refl_left (same : Interchangeable mangle runtime other) :
    Interchangeable mangle runtime runtime := same.trans same.symm

omit [DecidableEq Key] in
theorem answersAlike_refl {Result : Type} {process : RuntimeM Key Result}
    (keeps : Interchangeable mangle runtime (process.exec runtime).2) :
    AnswersAlike mangle process runtime runtime :=
  ⟨rfl, keeps.symm.trans keeps⟩

omit [DecidableEq Key] in
theorem maxCreatedFacts_after {after : MangleRuntime Key}
    (unlimited : runtime.maxCreatedFacts ≤ 0) (keeps : Interchangeable mangle runtime after) :
    after.maxCreatedFacts ≤ 0 := by
  rcases keeps with ⟨_, rfl⟩ | ⟨_, _, bypassed, _⟩
  · exact unlimited
  · exact (maxCreatedFacts_of_bypassed bypassed).symm.trans_le unlimited

omit [DecidableEq Key] in
theorem answersAlike_isReady (same : Interchangeable mangle runtime other) :
    AnswersAlike mangle isReady runtime other := by
  refine ⟨?_, same⟩
  rcases same with ⟨_, rfl⟩ | ⟨_, _, bypassed, _⟩
  · rfl
  · have program := congrArg (·.program) bypassed
    simp only [bypassed_program] at program
    simp only [isReady, Process.exec_atomically, MangleRuntime.ready, program]

variable (dependable : mangle.Dependable) (uncancelled : live ctx = true)

include dependable uncancelled

theorem answersAlike_executeQuery (same : Interchangeable mangle runtime other) (query : String) :
    AnswersAlike mangle (executeQuery mangle ctx facts query) runtime other := by
  have keeps : Interchangeable mangle runtime
      ((executeQuery mangle ctx facts query).exec runtime).2 :=
    interchangeable_executeQuery same.refl_left query
  rcases same with ⟨_, rfl⟩ | ⟨valid, otherValid, bypassed, unlimited⟩
  · exact answersAlike_refl keeps
  · have faithful {reached : MangleRuntime Key} (validReached : CacheValid mangle reached) :
        Faithful mangle (executeQuery mangle ctx facts query) reached :=
      faithful_executeQuery dependable.keysInjective dependable.deterministic validReached
        fun _ => answersAfresh_of_live dependable.unhurried validReached dependable.keysInjective
          uncancelled plain_default rfl
    exact answersAlike_of_faithful (faithful valid) (faithful otherValid) bypassed
      (maxCreatedFacts_after unlimited keeps)

theorem answersAlike_queryWithSolutions (same : Interchangeable mangle runtime other)
    (query : String) :
    AnswersAlike mangle (queryWithSolutions mangle ctx facts query) runtime other := by
  have keeps : Interchangeable mangle runtime
      ((queryWithSolutions mangle ctx facts query).exec runtime).2 :=
    interchangeable_queryWithSolutions same.refl_left query
  rcases same with ⟨_, rfl⟩ | ⟨valid, otherValid, bypassed, unlimited⟩
  · exact answersAlike_refl keeps
  · have faithful {reached : MangleRuntime Key} (validReached : CacheValid mangle reached)
        (unlimitedReached : reached.maxCreatedFacts ≤ 0) :
        Faithful mangle (queryWithSolutions mangle ctx facts query) reached :=
      faithful_queryWithSolutions dependable.keysInjective dependable.deterministic validReached
        fun _ => answersAfresh_of_live dependable.unhurried validReached dependable.keysInjective
          uncancelled validReached.plain_queryOptions
          (createdFactLimit_queryOptions unlimitedReached)
    exact answersAlike_of_faithful (faithful valid unlimited)
      (faithful otherValid ((maxCreatedFacts_of_bypassed bypassed).symm.trans_le unlimited))
      bypassed (maxCreatedFacts_after unlimited keeps)

end Queries

/-! ## Loading facts -/

section Facts

variable {mangle : Mangle Key} {runtime other : MangleRuntime Key} {ctx : Context}

theorem settings_loadFacts (facts : List String) :
    ((loadFacts mangle ctx facts).exec runtime).2.settings = runtime.settings := by
  simp only [loadFacts, Process.exec_atomically, loadFactsBody]
  split <;> rfl

theorem addFacts_parses (facts : List String) (stores others : Store × Store) :
    (addFacts mangle facts stores).2 = (addFacts mangle facts others).2 := by
  induction facts generalizing stores others with
  | nil => rfl
  | cons fact rest ih =>
    simp only [addFacts]
    cases mangle.parseAtom fact with
    | error err => rfl
    | ok atom => exact ih _ _

theorem cacheable_loadFacts (facts : List String) :
    ((loadFacts mangle ctx facts).exec runtime).2.cacheable = runtime.cacheable := by
  have kept : ((loadFacts mangle ctx facts).exec runtime).2.settings.cacheable =
      runtime.settings.cacheable := by rw [settings_loadFacts]
  exact kept

theorem answersAlike_loadFacts (same : Interchangeable mangle runtime other) {facts : List String}
    (parses : runtime.cacheable = false ∨ (addFacts mangle facts (.empty, .empty)).2 = none) :
    AnswersAlike mangle (loadFacts mangle ctx facts) runtime other := by
  have settings : ((loadFacts mangle ctx facts).exec runtime).2.settings = runtime.settings :=
    settings_loadFacts facts
  rcases same with ⟨uncached, rfl⟩ | ⟨valid, otherValid, bypassed, unlimited⟩
  · exact ⟨rfl, .inl ⟨(cacheable_loadFacts facts).trans uncached, rfl⟩⟩
  · replace parses := parses.resolve_left (by simp [valid.cacheable])
    have faithful {reached : MangleRuntime Key} (validReached : CacheValid mangle reached) :
        Faithful mangle (loadFacts mangle ctx facts) reached :=
      faithful_loadFacts validReached (.inl ((addFacts_parses facts _ _).trans parses))
    have limit := congrArg (·.maxCreatedFacts) settings
    exact answersAlike_of_faithful (faithful valid) (faithful otherValid) bypassed
      (le_of_eq_of_le limit unlimited)

end Facts

end Manglekit.Engine

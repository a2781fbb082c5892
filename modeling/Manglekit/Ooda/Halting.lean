import Manglekit.Ooda.Loops

/-!
# Acting on a halt

No loop looks at the outcome of a decision.  Whoever can be invoked is invoked, so a run is
safe only if the frame is never left with a halt while there is somebody to invoke.
-/

namespace Manglekit.Ooda

open Core Effects Loop

variable {World East : Type} {components : Components World East}

def halts (decision : Option Decision) : Bool := decision.any (·.outcome = Outcome.halt.text)

def canAct (components : Components World East) (decision : Option Decision) : Bool :=
  components.executor.isSome ||
    (components.dispatcher.isSome && decision.any (·.action.isSome))

def harmful (components : Components World East) (decision : Option Decision) : Bool :=
  halts decision && canAct components decision

def settledDecisions (log : List Event) : List (Option Decision) :=
  log.filterMap fun event =>
    match event with
    | .settled decision => some decision
    | .invoked _ => none

def invokedDecisions (log : List Event) : List (Option Decision) :=
  log.filterMap fun event =>
    match event with
    | .settled _ => none
    | .invoked decision => some decision

def Heeds (components : Components World East) (log : List Event) : Prop :=
  ∀ decision ∈ settledDecisions log, harmful components decision = false

def ActsOnNoHalt (log : List Event) : Prop :=
  ∀ decision ∈ invokedDecisions log, halts decision = false

instance (log : List Event) : Decidable (Heeds components log) :=
  inferInstanceAs (Decidable (∀ decision ∈ settledDecisions log, _ = false))

instance (log : List Event) : Decidable (ActsOnNoHalt log) :=
  inferInstanceAs (Decidable (∀ decision ∈ invokedDecisions log, _ = false))

/-- While no harmful decision has been settled, there is none in the frame, and nobody was
invoked under a halt. -/
def Unharmed (components : Components World East) (run : Run World East) : Prop :=
  Heeds components run.log →
    harmful components run.frame.decision = false ∧ ActsOnNoHalt run.log

/-! ## The rules of the loop -/

def Reaches (property : Run World East → Prop) {Answer : Type} (part : Loop World East Answer)
    (run : Run World East) : Prop :=
  EndsIn property part.run run

def Kept (property : Run World East → Prop) {Answer : Type} (part : Loop World East Answer) :
    Prop :=
  ∀ run, property run → Reaches property part run

variable {part : Loop World East Answer} {log : List Event} {decision : Option Decision}
  (message : String)

section Rules

variable {property : Run World East → Prop} {Answer Other : Type} {run : Run World East}

theorem kept_pure (answer : Answer) : Kept property (pure answer : Loop World East Answer) :=
  keeps_pure property _

theorem kept_throw (err : GoError) : Kept property (throw err : Loop World East Answer) :=
  keeps_pure property _

theorem kept_panicking (panic : Panic) : Kept property (panicking panic : Loop World East Answer) :=
  keeps_throw property panic

theorem Reaches.bind {part : Loop World East Answer} {next : Answer → Loop World East Other}
    (reaches : Reaches property part run) (continues : ∀ answer, Kept property (next answer)) :
    Reaches property (part >>= next) run := by
  unfold Reaches
  rw [ExceptT.run_bind]
  refine EndsIn.bind reaches fun ended => ?_
  cases ended with
  | ok answer => exact continues answer
  | error err => exact keeps_pure property _

theorem Reaches.attempt (reaches : Reaches property part run) :
    Reaches property (attempt part) run := by
  unfold Reaches Loop.attempt
  rw [ExceptT.run_lift, ← bind_pure_comp]
  exact EndsIn.bind reaches fun _ => keeps_pure property _

theorem Kept.bind {part : Loop World East Answer} {next : Answer → Loop World East Other}
    (kept : Kept property part) (continues : ∀ answer, Kept property (next answer)) :
    Kept property (part >>= next) :=
  fun run holds => (kept run holds).bind continues

theorem Kept.attempt (kept : Kept property part) : Kept property (attempt part) :=
  fun run holds => (kept run holds).attempt

theorem kept_orFail (answer : Except GoError Answer) :
    Kept property (orFail message answer : Loop World East Answer) := by
  cases answer with
  | ok answer => exact kept_pure answer
  | error err => exact kept_throw _

theorem kept_orFail? (err : Option GoError) :
    Kept property (orFail? message err : Loop World East Unit) := by
  cases err with
  | none => exact kept_pure ()
  | some err => exact kept_throw _

theorem Reaches.within (reaches : Reaches property part run) :
    Reaches property (within message part) run :=
  reaches.attempt.bind fun answer => kept_orFail message answer

theorem Kept.within (kept : Kept property part) : Kept property (within message part) :=
  fun run holds => (kept run holds).within message

theorem kept_readFrame_bind {next : CognitiveFrame East → Loop World East Answer}
    (continues : ∀ run, property run → Reaches property (next run.frame) run) :
    Kept property (readFrame >>= next) :=
  fun run holds => continues run holds

end Rules

/-! ## What the steps of a loop do -/

section Steps

variable {run : Run World East} {Answer : Type}

theorem heeds_settled :
    Heeds components (log ++ [.settled decision]) ↔
      Heeds components log ∧ harmful components decision = false := by
  simp [Heeds, settledDecisions, or_imp, forall_and]

theorem heeds_invoked : Heeds components (log ++ [.invoked decision]) ↔ Heeds components log := by
  simp [Heeds, settledDecisions]

theorem actsOnNoHalt_settled : ActsOnNoHalt (log ++ [.settled decision]) ↔ ActsOnNoHalt log := by
  simp [ActsOnNoHalt, invokedDecisions]

theorem actsOnNoHalt_invoked :
    ActsOnNoHalt (log ++ [.invoked decision]) ↔ ActsOnNoHalt log ∧ halts decision = false := by
  simp [ActsOnNoHalt, invokedDecisions, or_imp, forall_and]

theorem kept_update {change : CognitiveFrame East → CognitiveFrame East}
    (same : ∀ frame, harmful components (change frame).decision =
      harmful components frame.decision) :
    Kept (Unharmed components) (update change : Loop World East Unit) := by
  intro run unharmed heeds
  obtain ⟨harmless, acts⟩ := unharmed heeds
  exact ⟨(same run.frame).trans harmless, acts⟩

theorem kept_enter (phase : Phase) :
    Kept (Unharmed components) (enter phase : Loop World East Unit) :=
  kept_update fun _ => rfl

theorem kept_ask (question : World → Answer × World) :
    Kept (Unharmed components) (ask question : Loop World East Answer) :=
  fun _ unharmed => unharmed

theorem kept_call (foreign : Foreign World East Answer) :
    Kept (Unharmed components) (call foreign) := by
  intro run unharmed heeds
  obtain ⟨before, harmless⟩ := heeds_settled.mp heeds
  exact ⟨harmless, actsOnNoHalt_settled.mpr (unharmed before).2⟩

theorem kept_settle (decision : Option Decision) :
    Kept (Unharmed components) (settle decision : Loop World East Unit) := by
  intro run unharmed heeds
  obtain ⟨before, harmless⟩ := heeds_settled.mp heeds
  exact ⟨harmless, actsOnNoHalt_settled.mpr (unharmed before).2⟩

theorem reaches_invoke (possible : canAct components run.frame.decision = true)
    (unharmed : Unharmed components run) :
    Reaches (Unharmed components) invoke run := by
  intro heeds
  obtain ⟨harmless, acts⟩ := unharmed (heeds_invoked.mp heeds)
  have noHalt : halts run.frame.decision = false := by
    simpa [harmful, possible] using harmless
  exact ⟨harmless, actsOnNoHalt_invoked.mpr ⟨acts, noHalt⟩⟩

end Steps

/-! ## The act phase -/

theorem harmful_recordViolation (actionName : String) (frame : CognitiveFrame East) :
    harmful components (recordViolation actionName frame).decision =
      harmful components frame.decision := by
  unfold recordViolation
  split
  · rfl
  next decided =>
    rw [decided]
    rfl

theorem kept_dispatch (dispatcher : Dispatcher World) (actionName : String)
    (args : StringMap Value) :
    Kept (Unharmed components) (dispatch dispatcher actionName args : Loop World East String) := by
  unfold dispatch
  split
  · refine (kept_ask _).bind fun answer => ?_
    cases answer with
    | ok result => exact kept_pure result
    | error err => exact kept_throw err
  · exact kept_throw _

theorem reaches_executeAction {run : Run World East} {decision : Decision}
    (decided : run.frame.decision = some decision) (unharmed : Unharmed components run) :
    Reaches (Unharmed components) (executeAction components decision) run := by
  unfold executeAction
  split
  next dispatcher action dispatches acts =>
    have possible : canAct components run.frame.decision = true := by
      simp [canAct, dispatches, decided, acts]
    refine (reaches_invoke possible unharmed).bind fun _ => ?_
    refine (kept_dispatch dispatcher action.name action.arguments).attempt.bind fun answer => ?_
    cases answer with
    | ok result => exact kept_pure _
    | error err =>
      exact (kept_update (harmful_recordViolation action.name)).bind fun _ => kept_throw err
  next executor executes _ =>
    have possible : canAct components run.frame.decision = true := by simp [canAct, executes]
    refine (reaches_invoke possible unharmed).bind fun _ => ?_
    refine (kept_call _).bind fun answer => ?_
    cases answer with
    | ok result => exact kept_pure result
    | error err => exact kept_throw err
  · exact kept_throw _ run unharmed
  · exact kept_pure _ run unharmed

theorem kept_commitResult (result : Option Value) :
    Kept (Unharmed components) (commitResult components result) := by
  refine kept_readFrame_bind fun run unharmed => ?_
  dsimp only
  split
  · split_ifs
    · exact unharmed
    · split
      · exact kept_panicking _ run unharmed
      · exact (kept_ask _).bind (fun _ => kept_pure ()) run unharmed
  · exact unharmed

theorem kept_act : Kept (Unharmed components) (act components) := by
  refine (kept_enter .act).bind fun _ => kept_readFrame_bind fun run unharmed => ?_
  cases decided : run.frame.decision with
  | none => exact unharmed
  | some decision =>
    refine ((reaches_executeAction decided unharmed).within _).bind fun result => ?_
    exact (kept_update fun _ => by rfl).bind fun _ => kept_commitResult result

theorem kept_rollback : Kept (Unharmed components) (rollback components) := by
  refine kept_readFrame_bind fun run unharmed => ?_
  split
  next executor result executes _ =>
    have possible : canAct components run.frame.decision = true := by simp [canAct, executes]
    refine (reaches_invoke possible unharmed).bind fun _ => ?_
    exact (kept_call _).bind fun _ => kept_pure ()
  · exact unharmed

variable (ctx : Context)

theorem kept_retrying (remaining attempted : Nat) (lastErr : Option GoError) :
    Kept (Unharmed components) (retrying components ctx remaining attempted lastErr) := by
  induction remaining generalizing attempted lastErr with
  | zero =>
    cases lastErr with
    | none => exact kept_pure ()
    | some err => exact kept_throw err
  | succ remaining ih =>
    refine (kept_update fun _ => by rfl).bind fun _ => ?_
    split
    · exact kept_throw _
    · refine kept_act.attempt.bind fun answer => ?_
      cases answer with
      | ok _ => exact kept_pure ()
      | error err => exact kept_rollback.bind fun _ => ih _ _

theorem kept_actWithRetry : Kept (Unharmed components) (actWithRetry components ctx) :=
  kept_readFrame_bind fun run unharmed => kept_retrying ctx _ _ _ run unharmed

theorem kept_actWithSimpleRetry : Kept (Unharmed components) (actWithSimpleRetry components ctx) :=
  kept_readFrame_bind fun run unharmed => kept_retrying ctx _ _ _ run unharmed

/-! ## The other phases -/

theorem kept_capture (weight : Rat) :
    Kept (Unharmed components) (capture weight : Loop World East Unit) :=
  kept_update fun _ => rfl

theorem kept_addAtoms (atoms : List Atom) :
    Kept (Unharmed components) (addAtoms atoms : Loop World East Unit) :=
  kept_update fun _ => rfl

theorem kept_addRecalled (answer : Except GoError (List Atom)) :
    Kept (Unharmed components) (addRecalled answer : Loop World East Unit) := by
  cases answer with
  | ok atoms => exact kept_addAtoms atoms
  | error err => exact kept_pure ()

theorem kept_observe : Kept (Unharmed components) (observe : Loop World East Unit) := by
  refine (kept_enter .observe).bind fun _ => kept_readFrame_bind fun run unharmed => ?_
  split_ifs
  · exact unharmed
  · exact kept_capture 1 run unharmed

theorem kept_observeWithValidation :
    Kept (Unharmed components) (observeWithValidation : Loop World East Unit) := by
  refine (kept_enter .observe).bind fun _ => kept_readFrame_bind fun run unharmed => ?_
  split_ifs
  · exact kept_throw _ run unharmed
  · exact kept_capture _ run unharmed

theorem kept_recallKnowledge : Kept (Unharmed components) (recallKnowledge components) := by
  unfold recallKnowledge
  split
  · exact kept_pure ()
  · refine kept_readFrame_bind fun run => ?_
    exact (kept_ask _).bind (fun _ => (kept_orFail _ _).bind fun _ => kept_addAtoms _) run

theorem kept_recallSession : Kept (Unharmed components) (recallSession components) := by
  unfold recallSession
  split
  · exact kept_pure ()
  · refine kept_readFrame_bind fun run unharmed => ?_
    split_ifs
    · exact unharmed
    · exact (kept_ask _).bind (fun _ => (kept_orFail _ _).bind fun _ => kept_addAtoms _) run
        unharmed

theorem kept_recallMemory : Kept (Unharmed components) (recallMemory components) := by
  unfold recallMemory
  split
  · exact kept_pure ()
  · refine kept_readFrame_bind fun run => ?_
    exact (kept_call _).bind (fun _ => (kept_orFail _ _).bind fun _ => kept_addAtoms _) run

theorem kept_orient : Kept (Unharmed components) (orient components) :=
  (kept_enter .orient).bind fun _ => kept_recallKnowledge.bind fun _ =>
    kept_recallSession.bind fun _ => kept_recallMemory

theorem kept_orientForTool : Kept (Unharmed components) (orientForTool components) := by
  refine (kept_enter .orient).bind fun _ => Kept.bind ?_ fun _ => ?_
  · unfold tryMemory
    split
    · exact kept_pure ()
    · exact kept_readFrame_bind fun run => (kept_call _).bind (fun _ => kept_addRecalled _) run
  · unfold tryKnowledge
    split
    · exact kept_pure ()
    · exact kept_readFrame_bind fun run => (kept_ask _).bind (fun _ => kept_addRecalled _) run

theorem kept_decide : Kept (Unharmed components) (decide components) := by
  refine (kept_enter .decide).bind fun _ => ?_
  split
  · exact kept_pure ()
  · exact (kept_call _).bind fun _ => (kept_orFail _ _).bind fun _ => kept_settle _

theorem kept_storeVerifyStatus : Kept (Unharmed components) (storeVerifyStatus components) := by
  refine kept_readFrame_bind fun run unharmed => ?_
  split
  · split_ifs
    · exact unharmed
    · refine (kept_ask _).bind (fun _ => ?_) run unharmed
      split_ifs
      · exact (kept_ask _).bind fun _ => kept_pure ()
      · exact kept_pure ()
  · exact unharmed

theorem kept_verify : Kept (Unharmed components) (verify components) := by
  refine (kept_enter .verify).bind fun _ => kept_storeVerifyStatus.bind fun _ => ?_
  split
  · exact kept_pure ()
  · exact (kept_call _).bind fun _ => (kept_orFail _ _).bind fun _ => kept_update fun _ => by rfl

theorem kept_verifySchema : Kept (Unharmed components) (verifySchema components) := by
  refine kept_readFrame_bind fun run unharmed => ?_
  split
  · refine Kept.bind ?_ (fun _ => ?_) run unharmed
    · unfold verifyOutput
      split
      · exact kept_pure ()
      · refine (kept_call _).bind fun answer => ?_
        cases answer with
        | ok trail => exact kept_update fun _ => by rfl
        | error err => exact kept_throw _
    · split_ifs
      · exact kept_throw _
      · exact kept_pure ()
  · exact unharmed

theorem kept_commit : Kept (Unharmed components) (commit components message) := by
  unfold commit
  split
  · exact kept_pure ()
  · exact (kept_call _).bind fun err => kept_orFail? message err

/-! ## The loops -/

theorem kept_run : Kept (Unharmed components) (Ooda.run components ctx) := by
  refine (kept_observe.within _).bind fun _ => (kept_orient.within _).bind fun _ =>
    (kept_decide.within _).bind fun _ => Kept.bind ?_ fun _ =>
    (kept_verify.within _).bind fun _ => kept_commit _
  refine (kept_actWithRetry ctx).attempt.bind fun answer => ?_
  cases answer with
  | ok _ => exact kept_pure ()
  | error err => exact kept_readFrame_bind fun run => kept_throw _ run

theorem kept_runOODA : Kept (Unharmed components) (Ooda.runOODA components ctx) :=
  (kept_observeWithValidation.within _).bind fun _ => (kept_orientForTool.within _).bind fun _ =>
    (kept_decide.within _).bind fun _ => ((kept_actWithSimpleRetry ctx).within _).bind fun _ =>
    (kept_verifySchema.within _).bind fun _ => (kept_commit _).bind fun _ =>
    kept_update fun _ => by rfl

section East

variable (steering : Steering East)

theorem kept_planWithEAST : Kept (Unharmed components) (planWithEAST components) := by
  refine (kept_enter .plan).bind fun _ => ?_
  split
  · exact kept_pure ()
  · exact (kept_call _).bind fun err => kept_orFail? _ err

theorem kept_steer : Kept (Unharmed components) (steer components) := by
  unfold steer
  split
  · exact kept_pure ()
  · refine kept_readFrame_bind fun run => (kept_ask _).bind (fun answer => ?_) run
    split
    · exact kept_pure ()
    · exact (kept_ask _).bind fun _ => kept_pure ()

theorem kept_decideWithEAST : Kept (Unharmed components) (decideWithEAST components steering) := by
  refine (kept_enter .decide).bind fun _ => ?_
  split
  · exact kept_pure ()
  · exact (kept_update fun _ => by rfl).bind fun _ => (kept_call _).bind fun _ =>
      (kept_update fun _ => by rfl).bind fun _ => (kept_orFail _ _).bind fun _ => kept_settle _

theorem kept_validateAgainstRules :
    Kept (Unharmed components) (validateAgainstRules components) := by
  unfold validateAgainstRules
  split
  · exact kept_pure _
  · refine (kept_call _).bind fun _ => (kept_orFail _ _).bind fun trail =>
      (kept_update fun _ => by rfl).bind fun _ => ?_
    cases trail with
    | none => exact kept_panicking _
    | some trail => exact kept_pure _

theorem kept_finish (status : VerifyStatus) :
    Kept (Unharmed components) (finish components status) := by
  refine (kept_update fun _ => by rfl).bind fun _ => ?_
  split
  · exact kept_pure ()
  · exact (kept_call _).bind fun _ => kept_pure ()

theorem kept_refining (maxRetries : Int) (remaining attempted : Nat) :
    Kept (Unharmed components) (refining components steering maxRetries remaining attempted) := by
  induction remaining generalizing attempted with
  | zero => exact (kept_update fun _ => by rfl).bind fun _ => kept_throw _
  | succ remaining ih =>
    refine (kept_update fun _ => by rfl).bind fun _ =>
      (kept_validateAgainstRules.within _).bind fun audit =>
      (kept_update fun _ => by rfl).bind fun _ => kept_readFrame_bind fun run unharmed => ?_
    split
    · exact (kept_update fun _ => by rfl).bind (fun _ => kept_throw _) run unharmed
    · split_ifs
      · exact kept_finish _ run unharmed
      · exact kept_finish _ run unharmed
      · exact (kept_update fun _ => by rfl).bind (fun _ =>
          ((kept_decideWithEAST steering).within _).bind fun _ =>
          (kept_act.within _).bind fun _ => ih _) run unharmed

theorem kept_runOODAEAST : Kept (Unharmed components) (Ooda.runOODAEAST components steering) := by
  refine Kept.bind (Kept.within _ ?_) fun _ => Kept.bind (Kept.within _ ?_) fun _ =>
    (kept_planWithEAST.within _).bind fun _ => kept_steer.bind fun _ =>
    ((kept_decideWithEAST steering).within _).bind fun _ => (kept_act.within _).bind fun _ => ?_
  · exact kept_observeWithValidation.bind fun _ => kept_update fun _ => by rfl
  · exact kept_orient.bind fun _ => kept_update fun _ => by rfl
  · refine (kept_enter .postAct).bind fun _ => kept_readFrame_bind fun run => ?_
    exact kept_refining steering _ _ _ run

end East

/-- In every run of every loop: if the frame starts with no harmful decision and is never left
with one, then nobody is invoked under a halt. -/
theorem never_acts_on_halt (components : Components World East) (steering : Steering East)
    (ctx : Context) (driver : Driver) (frame : CognitiveFrame East) (world : World)
    (harmless : harmful components frame.decision = false)
    (heeds : Heeds components
      (runFrom (driver.loop components steering ctx).run ⟨frame, world, []⟩).2.log) :
    ActsOnNoHalt (runFrom (driver.loop components steering ctx).run ⟨frame, world, []⟩).2.log := by
  have start : Unharmed components ⟨frame, world, []⟩ :=
    fun _ => ⟨harmless, fun _ member => absurd member List.not_mem_nil⟩
  cases driver with
  | run => exact (kept_run ctx _ start heeds).2
  | runOODA => exact (kept_runOODA ctx _ start heeds).2
  | runOODAEAST => exact (kept_runOODAEAST steering _ start heeds).2

/-- A frame with an input, whose brain always decides on this outcome, with an executor. -/
def deciding (outcome : String) : Components Unit Unit where
  brain := some
    { evaluate := fun frame world => (.ok (some { outcome }), frame, world)
      verify := fun frame world => (.ok (some (newAuditTrail "" "" "")), frame, world) }
  executor := some
    { execute := fun _ frame world => (.ok (some (.string "done")), frame, world)
      rollback := fun _ frame world => (none, frame, world) }

def idle : Steering Unit where
  measureSaliency _ := id
  orient frame := (frame.east, frame.context)
  injectParadox := id
  evaluated _ := id
  updateEntropy _ frame := frame.east
  chaotic _ := false
  calm _ := true

def question : CognitiveFrame Unit := { input := "deploy", maxRetries := 2, east := () }

def logOf (outcome : String) (driver : Driver) : List Event :=
  (runFrom (driver.loop (deciding outcome) idle {}).run ⟨question, (), []⟩).2.log

theorem proceeding_run_acts :
    harmful (deciding "PROCEED") question.decision = false ∧
      Heeds (deciding "PROCEED") (logOf "PROCEED" .runOODAEAST) ∧
      ActsOnNoHalt (logOf "PROCEED" .runOODAEAST) ∧
      (invokedDecisions (logOf "PROCEED" .runOODAEAST)).length = 1 := by
  have heeds : Heeds (deciding "PROCEED") (logOf "PROCEED" .runOODAEAST) := by decide +kernel
  exact ⟨rfl, heeds, never_acts_on_halt (deciding "PROCEED") idle {} .runOODAEAST question ()
    rfl heeds, by decide +kernel⟩

/-- Each loop invokes the executor on a halt. -/
theorem halting_brain_ignored :
    ¬ ActsOnNoHalt (logOf "HALT" .run) ∧ ¬ ActsOnNoHalt (logOf "HALT" .runOODA) ∧
      ¬ ActsOnNoHalt (logOf "HALT" .runOODAEAST) := by
  decide +kernel

end Manglekit.Ooda

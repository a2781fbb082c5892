import Manglekit.Ooda.Frame
import Mathlib.Data.List.Infix

/-!
# The three loops

`Run`, `RunOODA` and `RunOODAEAST` share the act phase.  They differ in how they observe and
orient, in how they retry, and in whether a retry decides anew.
-/

namespace Manglekit.Ooda

open Core Loop

variable {World East : Type} (components : Components World East)

/-! ## Acting -/

/-- The dispatcher calls the tool of this name, or else `SafeStop`, and then fails. -/
def dispatch (dispatcher : Dispatcher World) (actionName : String) (args : StringMap Value) :
    Loop World East String := do
  match dispatcher.tools actionName with
  | some tool =>
    match ← ask (tool args) with
    | .ok result => return result
    | .error err => throw err
  | none => throw (.text ("SOVEREIGN VIOLATION: action '" ++ actionName
      ++ "' not found in registry - capability mismatch"))

def sovereignViolation (actionName : String) (trail : AuditTrail) : AuditTrail :=
  trail.addRule "SOVEREIGN_VIOLATION" ("Unknown action: " ++ actionName) "" "dispatch" tierUnknown

/-- The frame shares the trail of its decision if the decide phase has set it. -/
def recordViolation (actionName : String) (frame : CognitiveFrame East) : CognitiveFrame East :=
  match frame.decision with
  | none => frame
  | some decision =>
    let trail := decision.auditTrail.map (sovereignViolation actionName)
    { frame with
      decision := some { decision with auditTrail := trail }
      auditTrail := if frame.auditTrail = decision.auditTrail then trail else frame.auditTrail }

def executeWithDispatcher (dispatcher : Dispatcher World) (action : ActionEnvelope) :
    Loop World East (Option Value) := do
  invoke
  match ← attempt (dispatch dispatcher action.name action.arguments) with
  | .ok result => return some (.string result)
  | .error err => do
    update (recordViolation action.name)
    throw err

def executeAction (decision : Decision) : Loop World East (Option Value) :=
  match components.dispatcher, decision.action, components.executor with
  | some dispatcher, some action, _ => executeWithDispatcher dispatcher action
  | _, _, some executor => do
    invoke
    match ← call (executor.execute decision) with
    | .ok result => return result
    | .error err => throw err
  | none, some action, none =>
    throw (.text ("dispatcher not configured but action '" ++ action.name
      ++ "' specified in decision"))
  | _, none, none => return none

/-- The result goes to the session, under the name of the action that the frame now has. -/
def commitResult (result : Option Value) : Loop World East Unit := do
  let frame ← readFrame
  match components.transientStore, result with
  | some store, some result =>
    if frame.sessionID = "" then return ()
    else
      match frame.decision.bind (·.action) with
      | none => panicking .nilDereference
      | some action => do
        let sessionID := if action.sessionID ≠ "" then action.sessionID else frame.sessionID
        let _ ← ask (store.put sessionID ("action_result_" ++ action.name)
          ⟨"action", action.name, result.sprint, "session"⟩)
        return ()
  | _, _ => return ()

def act : Loop World East Unit := do
  enter .act
  match (← readFrame).decision with
  | none => return ()
  | some decision =>
    let result ← within "execution failed" (executeAction components decision)
    update fun frame => { frame with actionResult := result }
    commitResult components result

def rollback : Loop World East Unit := do
  match components.executor, (← readFrame).actionResult with
  | some executor, some result => do
    invoke
    let _ ← call (executor.rollback result)
    return ()
  | _, _ => return ()

/-- Up to `remaining` attempts, with a pause before each but the first. -/
def retrying (ctx : Context) : (remaining attempted : Nat) → Option GoError → Loop World East Unit
  | 0, _, lastErr =>
    match lastErr with
    | none => return ()
    | some err => throw err
  | remaining + 1, attempted, _ => do
    update fun frame => { frame with retryCount := attempted }
    match if attempted = 0 then none else ctx.err (.backoff attempted) with
    | some err => throw err
    | none =>
      match ← attempt (act components) with
      | .ok _ => return ()
      | .error err => do
        rollback components
        retrying ctx remaining (attempted + 1) (some err)

def actWithRetry (ctx : Context) : Loop World East Unit := do
  retrying components ctx ((← readFrame).maxRetries + 1).toNat 0 none

def simpleRetries (frame : CognitiveFrame East) : Int :=
  if frame.maxRetries ≤ 0 then 3 else frame.maxRetries

def actWithSimpleRetry (ctx : Context) : Loop World East Unit := do
  retrying components ctx (simpleRetries (← readFrame) + 1).toNat 0 none

/-! ## The other phases -/

def capture (weight : Rat) : Loop World East Unit :=
  update fun frame => { frame with
    context := frame.context ++ [⟨frame.id, "raw_input", frame.input, weight⟩] }

def addAtoms (atoms : List Atom) : Loop World East Unit :=
  update fun frame => { frame with context := frame.context ++ atoms }

def observe : Loop World East Unit := do
  enter .observe
  if (← readFrame).input = "" then return () else capture 1

def observeWithValidation : Loop World East Unit := do
  enter .observe
  if (← readFrame).input = "" then throw (.text "empty input") else capture (3 / 10)

def graphID (frame : CognitiveFrame East) : String :=
  if frame.workflowID ≠ "" then frame.workflowID else "default"

def recallKnowledge : Loop World East Unit :=
  match components.knowledgeStore with
  | none => return ()
  | some search => do
    let frame ← readFrame
    addAtoms (← orFail "failed to recall from knowledge store"
      (← ask (search frame.input 10 (graphID frame))))

def recallSession : Loop World East Unit :=
  match components.transientStore with
  | none => return ()
  | some store => do
    let frame ← readFrame
    if frame.sessionID = "" then return ()
    else do
      let atoms ← orFail "failed to recall from transient store"
        (← ask (store.toAtoms frame.sessionID))
      addAtoms (atoms.map fun atom => { atom with weight := 0 })

def recallMemory : Loop World East Unit :=
  match components.memory with
  | none => return ()
  | some memory => do
    addAtoms (← orFail "failed to recall from memory"
      (← call (memory.recalls (← readFrame).input)))

def orient : Loop World East Unit := do
  enter .orient
  recallKnowledge components
  recallSession components
  recallMemory components

def addRecalled : Except GoError (List Atom) → Loop World East Unit
  | .ok atoms => addAtoms atoms
  | .error _ => return ()

def tryMemory : Loop World East Unit :=
  match components.memory with
  | none => return ()
  | some memory => do addRecalled (← call (memory.recalls (← readFrame).input))

def tryKnowledge : Loop World East Unit :=
  match components.knowledgeStore with
  | none => return ()
  | some search => do
    let frame ← readFrame
    addRecalled (← ask (search frame.input 5 (graphID frame)))

def orientForTool : Loop World East Unit := do
  enter .orient
  tryMemory components
  tryKnowledge components

def decide : Loop World East Unit := do
  enter .decide
  match components.brain with
  | none => return ()
  | some brain => settle (← orFail "brain evaluation failed" (← call brain.evaluate))

def mentions (text part : String) : Bool :=
  Decidable.decide (part.toList <:+: text.toList.map components.toLower)

def errorLike (text : String) : Bool :=
  mentions components text "error" || mentions components text "failed"

def flagRetry (store : TransientStore World) (sessionID : String) : Loop World East Unit := do
  let _ ← ask (store.put sessionID "needs_retry" ⟨"workflow", "retry", "true", "session"⟩)
  return ()

def storeVerifyStatus : Loop World East Unit := do
  let frame ← readFrame
  match components.transientStore, frame.actionResult, frame.decision.bind (·.action) with
  | some store, some result, some action =>
    if frame.sessionID = "" then return ()
    else do
      let failed := errorLike components result.sprint
      let _ ← ask (store.put frame.sessionID ("verify_status_" ++ action.name)
        ⟨"verify", action.name, if failed then "failed" else "success", "session"⟩)
      if failed then flagRetry store frame.sessionID else return ()
  | _, _, _ => return ()

def verify : Loop World East Unit := do
  enter .verify
  storeVerifyStatus components
  match components.brain with
  | none => return ()
  | some brain => do
    let auditTrail ← orFail "verification failed" (← call brain.verify)
    update fun frame => { frame with auditTrail }

def schemaError (actionName : String) (err : GoError) : GoError :=
  if components.isInvalidOutput err then
    .text ("[TIER_1] SCHEMA_VALIDATION: action '" ++ actionName
      ++ "' output failed schema validation: " ++ err.error)
  else .wrap "schema verification failed" err

def verifyOutput (actionName : String) : Loop World East Unit :=
  match components.brain with
  | none => return ()
  | some brain => do
    match ← call brain.verify with
    | .ok auditTrail => update fun frame => { frame with auditTrail }
    | .error err => throw (schemaError components actionName err)

def verifySchema : Loop World East Unit := do
  let frame ← readFrame
  match frame.decision.bind (·.action), frame.actionResult with
  | some action, some result => do
    verifyOutput components action.name
    if errorLike components result.sprint then
      throw (.text ("action '" ++ action.name ++ "' returned error-like result: "
        ++ result.sprint))
    else return ()
  | _, _ => return ()

def commit (message : String) : Loop World East Unit := do
  match components.memory with
  | none => return ()
  | some memory => orFail? message (← call memory.commit)

/-! ## `Run` and `RunOODA` -/

def withinRetries (part : Loop World East Unit) : Loop World East Unit := do
  match ← attempt part with
  | .ok _ => return ()
  | .error err => do
    let retries := (← readFrame).retryCount
    throw (.wrap ("act phase failed after " ++ toString retries ++ " retries") err)

def run (ctx : Context) : Loop World East Unit := do
  within "observe phase failed" observe
  within "orient phase failed" (orient components)
  within "decide phase failed" (decide components)
  withinRetries (actWithRetry components ctx)
  within "verify phase failed" (verify components)
  commit components "failed to commit to memory"

def runOODA (ctx : Context) : Loop World East Unit := do
  within "observe failed" observeWithValidation
  within "orient failed" (orientForTool components)
  within "decide failed" (decide components)
  within "act failed" (actWithSimpleRetry components ctx)
  within "verify failed" (verifySchema components)
  commit components "commit failed"
  update fun frame => { frame with status := .passed }

/-! ## `RunOODAEAST` -/

structure Steering (East : Type) where
  measureSaliency : String → East → East
  /-- Entropy, activity, trust and magnitude of a frame, with the atoms that are not pruned. -/
  orient : CognitiveFrame East → East × List Atom
  injectParadox : East → East
  /-- The success of the logic after an evaluation. -/
  evaluated : (succeeded : Bool) → East → East
  updateEntropy : (violations : Nat) → CognitiveFrame East → East
  /-- The entropy is above the chaos threshold. -/
  chaotic : East → Bool
  /-- The entropy is low enough to accept a warning. -/
  calm : East → Bool

variable (steering : Steering East)

def observeWithSaliency : Loop World East Unit := do
  observeWithValidation
  update fun frame => { frame with east := steering.measureSaliency frame.input frame.east }

def orientWithEAST : Loop World East Unit := do
  orient components
  update fun frame =>
    { frame with east := (steering.orient frame).1, context := (steering.orient frame).2 }

def planWithEAST : Loop World East Unit := do
  enter .plan
  match components.brain.bind (·.plan) with
  | none => return ()
  | some plan => orFail? "planning failed" (← call plan)

/-- The path is asked for, and only logged. -/
def steer : Loop World East Unit := do
  match components.reasoningPort with
  | none => return ()
  | some reason => do
    let id := (← readFrame).id
    match ← ask (reason ("fast_path(" ++ id ++ ")")) with
    | .ok (_ + 1) => return ()
    | _ => do
      let _ ← ask (reason ("slow_path(" ++ id ++ ")"))
      return ()

def decideWithEAST : Loop World East Unit := do
  enter .decide
  match components.brain with
  | none => return ()
  | some brain => do
    update fun frame => { frame with east := steering.injectParadox frame.east }
    let answer ← call brain.evaluate
    update fun frame => { frame with east := steering.evaluated answer.isOk frame.east }
    settle (← orFail "brain evaluation failed" answer)

def isViolation (rule : RuleInference) : Bool :=
  ["halt", "deny", "violation", "prohibited"].any (mentions components rule.ruleName)

def mapCoreTier (tier : Tier) : TrustTier :=
  if tier = tierT0Axiom then .tier0Kernel
  else if tier = tierT1Governance then .tier1Admin
  else if tier = tierT2Playbook then .tier2AI
  else .tier3User

def tierOrder : TrustTier → Nat
  | .tier0Kernel => 0
  | .tier1Admin => 1
  | .tier2AI => 2
  | .tier3User => 3
  | .unset => 4

def classifyViolations (trail : AuditTrail) : TrustTier :=
  trail.matchedRules.foldl (fun worst rule =>
    if isViolation components rule ∧ tierOrder (mapCoreTier rule.tier) < tierOrder worst then
      mapCoreTier rule.tier
    else worst) .tier3User

def tierEntropy : TrustTier → Rat
  | .tier0Kernel => 1
  | .tier1Admin => 1 / 2
  | .tier2AI => 1 / 5
  | .tier3User => 1 / 10
  | .unset => 0

def judge (trail : AuditTrail) : AuditResult :=
  let worst := classifyViolations components trail
  let violation := trail.matchedRules.find? (isViolation components)
  { pass := violation.isNone ∧ worst ≠ .tier0Kernel ∧ worst ≠ .tier1Admin
    violationTier := worst
    conflictPath := (violation.map (·.sourceFile)).getD ""
    entropyDelta := tierEntropy worst }

/-- A brain that returns no trail makes this panic. -/
def validateAgainstRules : Loop World East AuditResult := do
  match components.brain with
  | none => return { pass := true }
  | some brain => do
    let auditTrail ← orFail "datalog validation failed" (← call brain.verify)
    update fun frame => { frame with auditTrail }
    match auditTrail with
    | none => panicking .nilDereference
    | some trail => return judge components trail

def shouldTerminate (audit : AuditResult) (retryCount maxRetries : Int) (east : East) :
    Option GoError :=
  if audit.violationTier = .tier0Kernel then some (.text "T0 violation: immediate halt")
  else if retryCount ≥ maxRetries then some (.text "max refinement iterations exceeded")
  else if steering.chaotic east then
    some (.text "chaos threshold exceeded: entropy too high")
  else none

def finish (status : VerifyStatus) : Loop World East Unit := do
  update fun frame => { frame with status }
  match components.memory with
  | none => return ()
  | some memory => do
    let _ ← call memory.commit
    return ()

def refining (maxRetries : Int) : (remaining attempted : Nat) → Loop World East Unit
  | 0, _ => do
    update fun frame => { frame with status := .failed }
    throw (.text "max refinement iterations exceeded")
  | remaining + 1, attempted => do
    update fun frame => { frame with retryCount := attempted + 1 }
    let audit ← within "validation failed" (validateAgainstRules components)
    update fun frame =>
      { frame with east := steering.updateEntropy (if audit.pass then 0 else 1) frame }
    let frame ← readFrame
    match shouldTerminate steering audit frame.retryCount maxRetries frame.east with
    | some err => do
      update fun frame => { frame with status := .failed }
      throw err
    | none =>
      if audit.pass then finish components .passed
      else if steering.calm frame.east ∧ audit.violationTier = .tier3User then
        finish components .warning
      else do
        update fun frame =>
          { frame with refinementFeedback := some (audit, attempted + 1) }
        within "re-decide failed" (decideWithEAST components steering)
        within "re-act failed" (act components)
        refining maxRetries remaining (attempted + 1)

def eastPostAct : Loop World East Unit := do
  enter .postAct
  let maxRetries := simpleRetries (← readFrame)
  refining components steering maxRetries maxRetries.toNat 0

def runOODAEAST : Loop World East Unit := do
  within "observe failed" (observeWithSaliency steering)
  within "orient failed" (orientWithEAST components steering)
  within "plan failed" (planWithEAST components)
  steer components
  within "decide failed" (decideWithEAST components steering)
  within "act failed" (act components)
  eastPostAct components steering

inductive Driver where
  | run
  | runOODA
  | runOODAEAST

def Driver.loop (ctx : Context) : Driver → Loop World East Unit
  | .run => Ooda.run components ctx
  | .runOODA => Ooda.runOODA components ctx
  | .runOODAEAST => Ooda.runOODAEAST components steering

end Manglekit.Ooda

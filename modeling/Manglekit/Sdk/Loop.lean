import Manglekit.Engine.Steering
import Manglekit.Supervisor.Action
import Mathlib.Data.List.Infix

/-!
# The execution loop of a client

A client runs a registered action step by step.  Each step builds an envelope,
executes the action on it, asks the policy for a steering decision, and then
finishes, retries the action, or routes the result to another one.

The stores behind a client and the actions are effects of the monad.
-/

namespace Manglekit.Sdk

open Core

/-! ## What travels through a run -/

structure Message where
  role : String
  content : String
  deriving DecidableEq, Repr

inductive MemoryMode where
  | none
  | transient
  | persist
  deriving DecidableEq, Repr

structure AuditRecord where
  step : Nat
  rules : List RuleInference := []
  outcome : String
  timestamp : String := ""
  latencyMs : Nat := 0
  factCount : Nat := 0
  matchedCount : Nat := 0
  deriving DecidableEq, Repr

structure ExecutionContext where
  retryCount : Nat
  feedbackHistory : List String
  currentHistory : List Message
  deriving DecidableEq, Repr

structure SessionState where
  sessionID : String
  activeEnvelope : Envelope
  executionCtx : ExecutionContext
  logicalFacts : List String
  auditRecords : List AuditRecord

/-- The parameters of one run.  The history store is determined by the memory mode. -/
structure ExecutionParams where
  sessionID : String := ""
  memoryMode : MemoryMode := .none
  metadata : StringMap String := ∅
  fwdFacts : List String := []
  fwdLabels : List String := []
  fwdMeta : Metadata := ∅
  maxSteps : Int := 0
  auditRecords : List AuditRecord := []
  currentHistory : List Message := []
  feedbackHistory : List String := []
  lastFeedback : String := ""
  retryCount : Nat := 0

abbrev ExecuteOption := ExecutionParams → ExecutionParams

def withSessionID (id : String) : ExecuteOption := fun params =>
  { params with sessionID := id, memoryMode := .persist }

def withTransientMemory : ExecuteOption := fun params => { params with memoryMode := .transient }

def withMetadata (key value : String) : ExecuteOption := fun params =>
  { params with metadata := params.metadata.insert key value }

def withMaxSteps (steps : Int) : ExecuteOption := fun params =>
  if 0 < steps then { params with maxSteps := steps } else params

/-- Values that are not strings are printed. -/
def withMetadataMap (metadata : Metadata) : ExecuteOption := fun params =>
  { params with
    metadata := params.metadata.assignWith (fun value => value.string?.getD value.sprint) metadata }

/-! ## The client -/

/-- History and semantic memory.  `memorize` hands an exchange to a background write. -/
structure AgentMemory (m : Type → Type) where
  read : Context → String → m (List Message × Option GoError)
  append : Context → String → List Message → m (Option GoError)
  recallText : Context → String → m (Except GoError String)
  recallWithFacts : Option (Context → String → m (Except GoError (String × Metadata))) := none
  memorize : String → String → m Unit

structure StateManager (m : Type → Type) where
  hydrate : Context → String → m (Except GoError (Option SessionState))
  extractFacts : Context → Envelope → m (Except GoError (List String))
  checkpoint : Context → SessionState → m (Option GoError)

/-- JSON, the verb `%s` on arbitrary values, times, and Unicode classes. -/
structure Host where
  marshalHistory : List Message → Except GoError String
  formatString : Option Value → String
  formatTime : String → String
  isPunct : Char → Bool
  isSpace : Char → Bool
  toLower : Char → Char

/-- Unicode cut down to ASCII; no history is kept and no value is printed. -/
def asciiHost : Host where
  marshalHistory _ := .ok "[]"
  formatString value := (value.bind Value.string?).getD ""
  formatTime := id
  isPunct char := !char.isAlphanum && !char.isWhitespace
  isSpace := Char.isWhitespace
  toLower := Char.toLower

structure Client (m : Type → Type) where
  engine : Engine.PolicyEngine m
  host : Host
  registry : StringMap (Supervisor.Action m)
  agentMemory : Option (AgentMemory m) := none
  stateManager : Option (StateManager m) := none
  maxSteps : Int := 0
  steeringEnabled : Bool := false

def defaultMaxSteps : Int := 10

def defaultMaxRetries : Nat := 3

def safelyStringify (value : Value) : String :=
  match value with
  | .nil => ""
  | value => value.sprint

/-! ## Feedback -/

/-- Lower case, without punctuation, single spaces. -/
def normalizeString (host : Host) (text : String) : List Char :=
  let kept := (text.toList.filter fun char => !host.isPunct char).map host.toLower
  [' '].intercalate ((kept.splitOnP host.isSpace).filter fun word => !word.isEmpty)

def isSemanticallySimilar (host : Host) (first second : String) : Bool :=
  let normalFirst := normalizeString host first
  let normalSecond := normalizeString host second
  decide (first = second) || decide (normalFirst = normalSecond) ||
    (!normalFirst.isEmpty && !normalSecond.isEmpty &&
      decide (normalSecond <:+: normalFirst ∨ normalFirst <:+: normalSecond))

/-! ## The envelope of a step -/

def forwardedEnvelope (contentType : ContentType) (payload : Value) (params : ExecutionParams) :
    Envelope :=
  let env := newEnvelope payload
  { env with
    contentType
    facts := env.facts ++ params.fwdFacts
    securityLabels := env.securityLabels ++ params.fwdLabels
    metadata := env.metadata.assignMissing params.fwdMeta }

def injectFeedback (env : Envelope) (params : ExecutionParams) : Envelope :=
  let env :=
    if params.feedbackHistory = [] then env
    else env.setMeta keyPrevFeedback (.string ("; ".intercalate params.feedbackHistory))
  if params.lastFeedback = "" then env
  else
    (env.setFeedback params.lastFeedback).setMeta "mangle_feedback" (.string params.lastFeedback)

def injectHistory (host : Host) (env : Envelope) (params : ExecutionParams) : Envelope :=
  if params.currentHistory = [] ∨ params.memoryMode = .none then env
  else
    match host.marshalHistory params.currentHistory with
    | .error _ => env
    | .ok text => env.setMeta keyHistory (.string text)

/-- The metadata around what memory recalled: feedback and history are below it, the
options of the run and the facts of the context above. -/
def injected (host : Host) (ctx : Context) (env : Envelope) (params : ExecutionParams)
    (recalled : Metadata) : Envelope :=
  let env := injectHistory host (injectFeedback env params) params
  { env with
    metadata := ((env.metadata.assignAll recalled).assignWith .string params.metadata).assignWith
      .string ctx.contextFacts }

variable {m : Type → Type} [Monad m]

/-- What memory adds to the metadata if the policy requires memory for the payload.
Errors are only logged. -/
def recallContext (client : Client m) (ctx : Context) (payload : Value) (env : Envelope) :
    m Metadata :=
  match client.agentMemory with
  | none => return ∅
  | some memory => do
    match ← Engine.checkRequirement client.engine ctx env "memory" with
    | .error _ | .ok false => return ∅
    | .ok true =>
      let found ←
        match memory.recallWithFacts with
        | some recallWithFacts => recallWithFacts ctx (safelyStringify payload)
        | none => do
          let recalled ← memory.recallText ctx (safelyStringify payload)
          pure (recalled.map fun contextData => (contextData, ∅))
      match found with
      | .error _ => return ∅
      | .ok (contextData, facts) =>
        return if contextData = "" then facts
          else facts.insert keyContext (.string contextData)

def injectContext (client : Client m) (ctx : Context) (env : Envelope) (payload : Value)
    (params : ExecutionParams) : m Envelope := do
  let recalled ← recallContext client ctx payload
    (injectHistory client.host (injectFeedback env params) params)
  return injected client.host ctx env params recalled

/-! ## One step -/

omit [Monad m] in
def backoff (ctx : Context) (params : ExecutionParams) (result : Envelope) :
    Except GoError Envelope :=
  match ctx.err (.backoff params.retryCount) with
  | some err => .error err
  | none => .ok result

def handleExecutionError (ctx : Context) (err : GoError) (payload : Value)
    (params : ExecutionParams) : Except GoError Envelope × ExecutionParams :=
  match err.asAlignment with
  | none => (.error err, params)
  | some alignment =>
    if defaultMaxRetries ≤ params.retryCount then
      (.error (.wrap "max retries exceeded" err), params)
    else
      let retried :=
        { params with retryCount := params.retryCount + 1, lastFeedback := alignment.message }
      (backoff ctx retried
        ((newEnvelope payload).setMeta keyDecision (.string Outcome.retry.text)), retried)

/-- Steering decides only where the action left the decision open. -/
def steer (client : Client m) (ctx : Context) (result : Envelope) : m Envelope := do
  if client.steeringEnabled ∧
      ((result.metadata.lookup keyDecision).isNone ∨ result.hasText keyDecision "") then
    match ← Engine.evaluateSteering client.engine ctx result with
    | .error _ => return result
    | .ok steering =>
      let decided := result.setMeta keyDecision (.string steering.decision.text)
      return { decided with
        metadata := decided.metadata.assignWith .string steering.metadata }
  else
    return result

/-- The whole history is written back; errors are only logged. -/
def updateHistory (client : Client m) (ctx : Context) (payload : Value) (result : Envelope)
    (params : ExecutionParams) : m ExecutionParams :=
  if params.memoryMode = .none then return params
  else do
    let updated :=
      { params with
        currentHistory := params.currentHistory ++
          [⟨"user", safelyStringify payload⟩, ⟨"assistant", safelyStringify result.payload⟩] }
    match client.agentMemory with
    | some memory =>
      if params.sessionID ≠ "" ∧ params.memoryMode = .persist then
        let _ ← memory.append ctx params.sessionID updated.currentHistory
    | none => pure ()
    return updated

/-- The decision is the empty string or `PROCEED`.  A result without a decision does
not count. -/
def proceeds (result : Envelope) : Bool :=
  result.hasText keyDecision "" || result.hasText keyDecision Outcome.proceed.text

def checkpoint (client : Client m) (ctx : Context) (result : Envelope) (params : ExecutionParams) :
    m Unit :=
  match client.stateManager with
  | none => return ()
  | some manager =>
    if params.sessionID ≠ "" ∧ proceeds result then do
      let facts ← manager.extractFacts ctx result
      let _ ← manager.checkpoint ctx
        { sessionID := params.sessionID
          activeEnvelope := result
          executionCtx := ⟨params.retryCount, params.feedbackHistory, params.currentHistory⟩
          logicalFacts := facts.toOption.getD []
          auditRecords := params.auditRecords }
      return ()
    else return ()

def asyncMemorize (client : Client m) (input output : Value) : m Unit :=
  match client.agentMemory with
  | none => return ()
  | some memory => memory.memorize (safelyStringify input) (safelyStringify output)

omit [Monad m] in
/-- A retry that steering asked for.  Feedback that was given before ends the run. -/
def handleRetryDecision (client : Client m) (ctx : Context) (actionName : String)
    (result : Envelope) (params : ExecutionParams) : Except GoError Envelope × ExecutionParams :=
  if defaultMaxRetries ≤ params.retryCount then
    (.error (.text ("max retries exceeded for action " ++ actionName)), params)
  else
    let hint := result.getFeedback
    if params.feedbackHistory.any fun previous =>
        isSemanticallySimilar client.host previous hint then
      (.error (.text ("semantic thrashing detected: feedback loop on "
        ++ client.engine.host.quote hint)), params)
    else
      let retried :=
        { params with
          retryCount := params.retryCount + 1
          lastFeedback := hint
          feedbackHistory := params.feedbackHistory ++ [hint] }
      (backoff ctx retried result, retried)

/-- A missing reason is not the empty string, so it is printed as it is. -/
def buildHaltError (host : Host) (result : Envelope) : GoError :=
  let reason :=
    if !result.hasText "reason" "" then result.metadata.lookup "reason"
    else if !result.hasText "violation_msg" "" then result.metadata.lookup "violation_msg"
    else some (.string "blueprint violation")
  .text ("action halted by blueprint: " ++ host.formatString reason)

def handleDecision (client : Client m) (ctx : Context) (actionName : String) (result : Envelope)
    (payload : Value) (params : ExecutionParams) :
    m (Except GoError Envelope × ExecutionParams) := do
  if proceeds result then asyncMemorize client payload result.payload
  if result.hasText keyDecision Outcome.retry.text then
    return handleRetryDecision client ctx actionName result params
  else if result.hasText keyDecision Outcome.route.text then
    return (.ok result, { params with retryCount := 0, feedbackHistory := [] })
  else if result.hasText keyDecision Outcome.halt.text then
    return (.error (buildHaltError client.host result), params)
  else
    return (.ok result, params)

omit [Monad m] in
def decided (client : Client m) (ctx : Context) (actionName : String) (result : Envelope)
    (params : ExecutionParams) : Except GoError Envelope × ExecutionParams :=
  if result.hasText keyDecision Outcome.retry.text then
    handleRetryDecision client ctx actionName result params
  else if result.hasText keyDecision Outcome.route.text then
    (.ok result, { params with retryCount := 0, feedbackHistory := [] })
  else if result.hasText keyDecision Outcome.halt.text then
    (.error (buildHaltError client.host result), params)
  else (.ok result, params)

theorem handleDecision_eq (client : Client m) (ctx : Context) (actionName : String)
    (result : Envelope) (payload : Value) (params : ExecutionParams) :
    handleDecision client ctx actionName result payload params =
      if proceeds result then do
        asyncMemorize client payload result.payload
        return decided client ctx actionName result params
      else return decided client ctx actionName result params := by
  unfold handleDecision decided
  split_ifs <;> rfl

def executeSingleStep (client : Client m) (ctx : Context) (actionName : String) (payload : Value)
    (params : ExecutionParams) : m (Except GoError Envelope × ExecutionParams) :=
  match client.registry.lookup actionName with
  | none => return (.error (.text ("action not found: " ++ actionName)), params)
  | some action => do
    let env ← injectContext client ctx
      (forwardedEnvelope action.metadata.inputContentType payload params) payload params
    match ← action.execute ctx env with
    | .error err => return handleExecutionError ctx err payload params
    | .ok executed =>
      let result ← steer client ctx executed
      let updated ← updateHistory client ctx payload result { params with lastFeedback := "" }
      checkpoint client ctx result updated
      handleDecision client ctx actionName result payload updated

/-! ## The loop -/

omit [Monad m] in
/-- A missing decision counts as `PROCEED` in the record. -/
def auditRecord (host : Host) (step : Nat) (result : Envelope) : AuditRecord :=
  let text := ((result.metadata.lookup keyDecision).bind Value.string?).getD ""
  let outcome := if text = "" then Outcome.proceed.text else text
  match result.metadata.lookup "manglekit.audit_trail" with
  | some (.trail trail) =>
    { step
      rules := trail.matchedRules
      outcome
      timestamp := host.formatTime trail.timestamp
      latencyMs := trail.latencyMs
      factCount := trail.factCount
      matchedCount := trail.matchedCount }
  | _ => { step, outcome }

/-- The steps of a run, `remaining` of them at most. -/
def runSteps (client : Client m) (ctx : Context) : (remaining step : Nat) → String → Value →
    ExecutionParams → m (Except GoError Envelope)
  | 0, _, _, _, _ => return .error (.text "max steps exceeded")
  | remaining + 1, step, action, payload, params =>
    match ctx.err (.step step) with
    | some err => return .error err
    | none => do
      match ← executeSingleStep client ctx action payload params with
      | (.error err, _) => return .error err
      | (.ok result, updated) =>
        let recorded :=
          { updated with
            auditRecords := updated.auditRecords ++ [auditRecord client.host step result] }
        if result.hasText keyDecision Outcome.route.text then
          match (result.metadata.lookup keyNextStep).bind Value.string? with
          | none | some "" => return .error (.text "route decision missing next_step")
          | some next => runSteps client ctx remaining (step + 1) next result.payload recorded
        else if result.hasText keyDecision Outcome.retry.text then
          runSteps client ctx remaining (step + 1) action payload recorded
        else return .ok result

section Runs

variable [MonadExceptOf Panic m]

/-- A persistent run without a memory reads from a nil store. -/
def loadHistory (client : Client m) (ctx : Context) (params : ExecutionParams) :
    m ExecutionParams :=
  if params.memoryMode = .persist ∧ params.sessionID ≠ "" then
    match client.agentMemory with
    | none => throw Panic.nilDereference
    | some memory => do
      let history ← memory.read ctx params.sessionID
      return { params with currentHistory := history.1 }
  else return params

omit [MonadExceptOf Panic m] in
def hydrate (client : Client m) (ctx : Context) (payload : Value) (params : ExecutionParams) :
    m (Value × ExecutionParams) :=
  match client.stateManager with
  | none => return (payload, params)
  | some manager =>
    if params.sessionID = "" then return (payload, params)
    else do
      match ← manager.hydrate ctx params.sessionID with
      | .ok (some state) =>
        return (state.activeEnvelope.payload,
          { params with
            currentHistory := state.executionCtx.currentHistory
            feedbackHistory := state.executionCtx.feedbackHistory
            retryCount := state.executionCtx.retryCount })
      | _ => return (payload, params)

omit [Monad m] [MonadExceptOf Panic m] in
def stepLimit (client : Client m) (params : ExecutionParams) : Nat :=
  if 0 < params.maxSteps then params.maxSteps.toNat
  else if 0 < client.maxSteps then client.maxSteps.toNat
  else defaultMaxSteps.toNat

def runLoopInternal (client : Client m) (ctx : Context) (startAction : String) (payload : Value)
    (params : ExecutionParams) : m (Except GoError Envelope) := do
  let loaded ← loadHistory client ctx params
  let start ← hydrate client ctx payload loaded
  runSteps client ctx (stepLimit client start.2) 0 startAction start.1 start.2

end Runs

end Manglekit.Sdk

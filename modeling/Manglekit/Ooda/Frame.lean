import Manglekit.Core.Envelope
import Manglekit.Effects.Unwinding

/-!
# Cognitive frames

A frame carries an input through the phases of a loop.  The components of the frame are the
caller's: they see the frame, may change it, and answer as they like.  What is kept of a run
beside the frame is which decisions the frame was left with, and under which decision a tool,
the dispatcher or the executor was invoked.
-/

namespace Manglekit.Ooda

open Core

structure Atom where
  subject : String
  predicate : String
  object : String
  weight : Rat := 0

structure ActionEnvelope where
  name : String
  arguments : StringMap Value := ∅
  sessionID : String := ""

structure Decision where
  outcome : String
  auditTrail : Option AuditTrail := none
  action : Option ActionEnvelope := none

inductive Phase where
  | observe
  | orient
  | plan
  | decide
  | verify
  | act
  | postAct
  deriving DecidableEq, Repr

inductive VerifyStatus where
  | pending
  | passed
  | failed
  | warning
  deriving DecidableEq, Repr

inductive TrustTier where
  | unset
  | tier0Kernel
  | tier1Admin
  | tier2AI
  | tier3User
  deriving DecidableEq, Repr

structure AuditResult where
  pass : Bool
  violationTier : TrustTier := .unset
  conflictPath : String := ""
  entropyDelta : Rat := 0
  deriving DecidableEq, Repr

/-- A frame.  `East` is the steering state: the numbers of EAST and what they put into the raw
context. -/
structure CognitiveFrame (East : Type) where
  id : String := ""
  input : String := ""
  sessionID : String := ""
  workflowID : String := ""
  phase : Phase := .observe
  context : List Atom := []
  decision : Option Decision := none
  auditTrail : Option AuditTrail := none
  actionResult : Option Value := none
  refinementFeedback : Option (AuditResult × Int) := none
  status : VerifyStatus := .pending
  maxRetries : Int := 0
  retryCount : Int := 0
  east : East

/-! ## Components -/

section Components

variable (World East : Type)

abbrev Foreign (Answer : Type) := CognitiveFrame East → World → Answer × CognitiveFrame East × World

structure Memory where
  recalls : String → Foreign World East (Except GoError (List Atom))
  commit : Foreign World East (Option GoError)

/-- `plan` is there if the brain is a planner. -/
structure Brain where
  evaluate : Foreign World East (Except GoError (Option Decision))
  verify : Foreign World East (Except GoError (Option AuditTrail))
  plan : Option (Foreign World East (Option GoError)) := none

structure Executor where
  execute : Decision → Foreign World East (Except GoError (Option Value))
  rollback : Value → Foreign World East (Option GoError)

structure TransientFact where
  subject : String
  predicate : String
  object : String
  graph : String

structure TransientStore where
  toAtoms : String → World → Except GoError (List Atom) × World
  put : String → String → TransientFact → World → Option GoError × World

structure Dispatcher where
  tools : String → Option (StringMap Value → World → Except GoError String × World)

structure Components where
  memory : Option (Memory World East) := none
  brain : Option (Brain World East) := none
  executor : Option (Executor World East) := none
  dispatcher : Option (Dispatcher World) := none
  knowledgeStore : Option (String → Nat → String → World → Except GoError (List Atom) × World) :=
    none
  transientStore : Option (TransientStore World) := none
  /-- How many results a Datalog query of the reasoning port has. -/
  reasoningPort : Option (String → World → Except GoError Nat × World) := none
  toLower : Char → Char := Char.toLower
  /-- The errors that say that an output does not fit its schema. -/
  isInvalidOutput : GoError → Bool := fun _ => false

end Components

/-! ## Runs -/

inductive Event where
  /-- A component or a decide phase has left the frame with this decision. -/
  | settled (decision : Option Decision)
  /-- A tool, the dispatcher or the executor is invoked while the frame has this decision. -/
  | invoked (decision : Option Decision)

structure Run (World East : Type) where
  frame : CognitiveFrame East
  world : World
  log : List Event := []

abbrev Loop (World East : Type) := ExceptT GoError (Effects.Stateful Panic (Run World East))

variable {World East : Type}

namespace Loop

def update (change : CognitiveFrame East → CognitiveFrame East) : Loop World East Unit :=
  modify fun run => { run with frame := change run.frame }

def readFrame : Loop World East (CognitiveFrame East) := do return (← get).frame

/-- Ask a component that is not given the frame. -/
def ask {Answer : Type} (question : World → Answer × World) : Loop World East Answer :=
  modifyGet fun run => ((question run.world).1, { run with world := (question run.world).2 })

/-- Call a component with the frame.  It may change all of the frame but the number of
retries, on which the loops depend to end. -/
def call {Answer : Type} (foreign : Foreign World East Answer) : Loop World East Answer :=
  modifyGet fun run =>
    let (answer, frame, world) := foreign run.frame run.world
    (answer, ⟨{ frame with maxRetries := run.frame.maxRetries }, world,
      run.log ++ [.settled frame.decision]⟩)

def settle (decision : Option Decision) : Loop World East Unit :=
  modify fun run => { run with
    frame := { run.frame with
      decision
      auditTrail := match decision with
        | some decision => decision.auditTrail
        | none => run.frame.auditTrail }
    log := run.log ++ [.settled decision] }

def invoke : Loop World East Unit :=
  modify fun run => { run with log := run.log ++ [.invoked run.frame.decision] }

def enter (phase : Phase) : Loop World East Unit := update fun frame => { frame with phase }

def panicking {Answer : Type} (panic : Panic) : Loop World East Answer :=
  ExceptT.lift (throw panic)

def attempt {Answer : Type} (part : Loop World East Answer) :
    Loop World East (Except GoError Answer) :=
  ExceptT.lift part.run

def orFail {Answer : Type} (message : String) : Except GoError Answer → Loop World East Answer
  | .ok answer => pure answer
  | .error err => throw (.wrap message err)

def orFail? (message : String) : Option GoError → Loop World East Unit
  | none => pure ()
  | some err => throw (.wrap message err)

def within {Answer : Type} (message : String) (part : Loop World East Answer) :
    Loop World East Answer := do
  orFail message (← attempt part)

end Loop

end Manglekit.Ooda

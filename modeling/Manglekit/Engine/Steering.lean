import Manglekit.Engine.Gate

/-!
# Steering

After an execution, and to find the entry point of a request, the engine is asked
for corrections and routes.  A correction outranks a route, and among several of
either kind the most authoritative tier decides.
-/

namespace Manglekit.Engine

open Core

abbrev SteeringMatch := HaltMatch

/-- What steering decides, and the metadata that goes with it.  An error comes with
`PROCEED` and no metadata. -/
structure Steering where
  decision : Outcome
  metadata : StringMap String

def tieredMatch (variableName : String) (solution : Solution) : Option SteeringMatch :=
  match solution.lookup variableName with
  | none => none
  | some text =>
    let tier := (solution.lookup "Tier").getD ""
    some ⟨text, if tier = "" then tierUnknown else tier⟩

def untieredMatch (variableName : String) (solution : Solution) : Option SteeringMatch :=
  (solution.lookup variableName).map fun text => ⟨text, tierUnknown⟩

def queryTiered (pred variableName : String) : String :=
  pred ++ "(\"" ++ entityInput ++ "\", " ++ variableName ++ ", Tier)"

def queryUntiered (pred variableName : String) : String :=
  pred ++ "(" ++ variableName ++ ")"

variable {m : Type → Type} [Monad m]

/-- The matches of one kind: the tiered ones, or the untiered ones if there are none.
Any error ends the steering. -/
def steeringMatches (engine : PolicyEngine m) (ctx : Context) (facts : List Datalog.Atom)
    (pred variableName : String) : m (Except GoError (List SteeringMatch)) := do
  let tiered ← engine.runtime.queryWithSolutions ctx facts (queryTiered pred variableName)
  match tiered.err with
  | some err => return .error (.wrap (pred ++ " query failed") err)
  | none =>
    match tiered.reported.filterMap (tieredMatch variableName) with
    | first :: rest => return .ok (first :: rest)
    | [] =>
      let untiered ← engine.runtime.queryWithSolutions ctx facts
        (queryUntiered pred variableName)
      match untiered.err with
      | some err => return .error (.wrap (pred ++ " query failed") err)
      | none => return .ok (untiered.reported.filterMap (untieredMatch variableName))

def resolveSteering (retries routes : List SteeringMatch) : Steering :=
  match retries, routes with
  | first :: rest, _ => ⟨.retry, AList.singleton keyFeedback (bestMatch first rest).reason⟩
  | [], first :: rest => ⟨.route, AList.singleton keyNextStep (bestMatch first rest).reason⟩
  | [], [] => ⟨.proceed, ∅⟩

/-- Labels play no part in steering. -/
def evaluateSteering (engine : PolicyEngine m) (ctx : Context) (input : Envelope) :
    m (Except GoError Steering) := do
  if ← engine.runtime.isReady then
    match toMangleFacts engine entityInput input.payload input.contentType with
    | .error err => return .error (.wrap "failed to convert input to facts" err)
    | .ok payloadFacts =>
      match appendEnvelopeFacts engine payloadFacts input "" with
      | (_, some err) => return .error (.wrap "envelope fact parsing error" err)
      | (facts, none) =>
        match ← steeringMatches engine ctx facts predRetry "Hint" with
        | .error err => return .error err
        | .ok retries =>
          match ← steeringMatches engine ctx facts predRoute "Target" with
          | .error err => return .error err
          | .ok routes => return .ok (resolveSteering retries routes)
  else
    return .ok ⟨.proceed, ∅⟩

/-- Whether the policy requires something for the payload.  Labels, facts and
metadata of the envelope play no part. -/
def checkRequirement (engine : PolicyEngine m) (ctx : Context) (input : Envelope)
    (reqName : String) : m (Except GoError Bool) :=
  match toMangleFacts engine entityInput input.payload input.contentType with
  | .error err => return .error (.wrap "fact conversion failed" err)
  | .ok facts =>
    engine.runtime.executeQuery ctx facts
      ("requires(\"" ++ entityInput ++ "\", \"" ++ reqName ++ "\")")

end Manglekit.Engine

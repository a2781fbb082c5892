import Manglekit.Sdk.Loop

/-!
# Durable sessions

The state manager keeps the state of every session with a provider.  A state that is
read back primes the engine with its logical facts.
-/

namespace Manglekit.Sdk

open Core

/-- A raw state as a provider returns it.  For a value of any other type, `other` is
what marshalling it gives. -/
inductive RawState (Data : Type) where
  | bytes (data : Data)
  | string (data : Data)
  | state (state : SessionState)
  | other (data : Except GoError Data)

structure StateCodec (Data : Type) where
  marshal : SessionState → Except GoError Data
  unmarshal : Data → Except GoError SessionState

structure StateProvider (m : Type → Type) (Data : Type) where
  get : Context → String → m (Except GoError (Option (RawState Data)))
  set : Context → String → Data → m (Option GoError)

structure DurableStateManager (m : Type → Type) (Data : Type) where
  provider : StateProvider m Data
  codec : StateCodec Data
  loadFacts : Context → List String → m (Option GoError)

def SessionState.validate (state : SessionState) : Option GoError :=
  if state.sessionID = "" then some (.text "session_id cannot be empty")
  else if state.activeEnvelope.identified then none
  else some (.text "active_envelope must have a valid ID")

section Reconstruct

variable {Data : Type}

def StateCodec.unmarshalRaw (codec : StateCodec Data) : RawState Data → Except GoError SessionState
  | .bytes data =>
    (codec.unmarshal data).mapError (.wrap "failed to unmarshal state from bytes")
  | .string data =>
    (codec.unmarshal data).mapError (.wrap "failed to unmarshal state from string")
  | .state state => .ok state
  | .other (.error err) => .error (.wrap "failed to marshal raw state" err)
  | .other (.ok data) => (codec.unmarshal data).mapError (.wrap "failed to unmarshal state")

def StateCodec.reconstruct (codec : StateCodec Data) (raw : RawState Data) :
    Except GoError SessionState :=
  match codec.unmarshalRaw raw with
  | .error err => .error err
  | .ok state =>
    match state.validate with
    | some err => .error (.wrap "invalid state" err)
    | none => .ok state

def StateCodec.primedFacts (codec : StateCodec Data) (raw : Option (RawState Data)) : List String :=
  match raw.map codec.reconstruct with
  | some (.ok state) => state.logicalFacts
  | _ => []

end Reconstruct

namespace DurableStateManager

variable {m : Type → Type} [Monad m] {Data : Type} (manager : DurableStateManager m Data)

/-- A failure to prime the engine is only logged. -/
def hydrate (ctx : Context) (sessionID : String) : m (Except GoError (Option SessionState)) :=
  if sessionID = "" then return .error (.text "session_id cannot be empty")
  else do
    match ← manager.provider.get ctx sessionID with
    | .error err => return .error (.wrap "failed to get state from provider" err)
    | .ok none => return .ok none
    | .ok (some raw) =>
      match manager.codec.reconstruct raw with
      | .error err => return .error err
      | .ok state =>
        if state.logicalFacts ≠ [] then
          let _ ← manager.loadFacts ctx state.logicalFacts
          return .ok (some state)
        else return .ok (some state)

def checkpoint (ctx : Context) (state : SessionState) : m (Option GoError) :=
  match state.validate with
  | some err => return some (.wrap "invalid state" err)
  | none =>
    match manager.codec.marshal state with
    | .error err => return some (.wrap "failed to marshal state" err)
    | .ok data => do
      match ← manager.provider.set ctx state.sessionID data with
      | some err => return some (.wrap "failed to save state to provider" err)
      | none => return none

omit [Monad m] in
def extractFacts (envelope : Envelope) : List String := envelope.facts

def stateManager : StateManager m where
  hydrate := manager.hydrate
  extractFacts _ envelope := return .ok (extractFacts envelope)
  checkpoint := manager.checkpoint

end DurableStateManager

end Manglekit.Sdk

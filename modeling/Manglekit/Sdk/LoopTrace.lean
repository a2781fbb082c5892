import Manglekit.Sdk.Loop

/-!
# The passes of a run

A run passes through the body of its loop until a pass neither retries nor routes.  Here a run
is told with its passes: the state in which each began, what the step answered, and the
parameters that it left.
-/

namespace Manglekit.Sdk

open Core Effects

structure LoopState where
  step : Nat
  action : String
  payload : Value
  params : ExecutionParams

structure Pass where
  before : LoopState
  answer : Except GoError Envelope
  after : ExecutionParams

def Pass.decides (pass : Pass) (outcome : Outcome) : Bool :=
  match pass.answer with
  | .ok result => result.hasText keyDecision outcome.text
  | .error _ => false

def Pass.next (host : Host) (pass : Pass) : Except (Except GoError Envelope) LoopState :=
  match pass.answer with
  | .error err => .error (.error err)
  | .ok result =>
    let recorded :=
      { pass.after with
        auditRecords := pass.after.auditRecords ++ [auditRecord host pass.before.step result] }
    if result.hasText keyDecision Outcome.route.text then
      match (result.metadata.lookup keyNextStep).bind Value.string? with
      | none | some "" => .error (.error (.text "route decision missing next_step"))
      | some next => .ok ⟨pass.before.step + 1, next, result.payload, recorded⟩
    else if result.hasText keyDecision Outcome.retry.text then
      .ok ⟨pass.before.step + 1, pass.before.action, pass.before.payload, recorded⟩
    else .error (.ok result)

theorem Pass.params_of_next {host : Host} {pass : Pass} {next : LoopState}
    (continues : pass.next host = .ok next) :
    ∃ records, next.params = { pass.after with auditRecords := records } := by
  unfold Pass.next at continues
  split at continues
  · cases continues
  · dsimp only at continues
    split at continues
    · split at continues
      · cases continues
      · cases continues
      · cases continues
        exact ⟨_, rfl⟩
    · split at continues
      · cases continues
        exact ⟨_, rfl⟩
      · cases continues

section Traced

variable {World : Type}

structure RunTrace (World : Type) where
  ended : Except Panic (Except GoError Envelope) × World
  passes : List Pass

/-- A pass in which the action panics is not one of the passes. -/
def tracedPasses (client : Client (Stateful Panic World)) (ctx : Context) :
    (remaining : Nat) → LoopState → World → RunTrace World
  | 0, _, world => ⟨(.ok (.error (.text "max steps exceeded")), world), []⟩
  | remaining + 1, state, world =>
    match ctx.err (.step state.step) with
    | some err => ⟨(.ok (.error err), world), []⟩
    | none =>
      match runFrom (executeSingleStep client ctx state.action state.payload state.params)
          world with
      | (.error panic, reached) => ⟨(.error panic, reached), []⟩
      | (.ok (answer, after), reached) =>
        let pass : Pass := ⟨state, answer, after⟩
        match pass.next client.host with
        | .error outcome => ⟨(.ok outcome, reached), [pass]⟩
        | .ok next =>
          let later := tracedPasses client ctx remaining next reached
          ⟨later.ended, pass :: later.passes⟩

def tracedRun (client : Client (Stateful Panic World)) (ctx : Context) (startAction : String)
    (payload : Value) (params : ExecutionParams) (world : World) : RunTrace World :=
  match runFrom (loadHistory client ctx params >>= hydrate client ctx payload) world with
  | (.error panic, reached) => ⟨(.error panic, reached), []⟩
  | (.ok start, reached) =>
    tracedPasses client ctx (stepLimit client start.2) ⟨0, startAction, start.1, start.2⟩ reached

end Traced

end Manglekit.Sdk

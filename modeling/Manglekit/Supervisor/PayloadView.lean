import Manglekit.Engine.GateFacts
import Manglekit.Engine.Reflection
import Manglekit.Stratified.Tests
import Manglekit.Supervisor.FailClosed

/-!
# What the pre-check sees of a payload

The engine converts the whole payload of an envelope.  The supervisor renders the
tagged fields of a struct as strings and hands the engine an envelope without a
payload.  A policy that sees other facts may come to another verdict, and there is
always one that does.
-/

namespace Manglekit.Supervisor

open Core Engine Stratified

/-- A halt of the entity that is not explicitly advisory, among derived facts. -/
def BlockingHalt (entityID : String) (derived : Set Datalog.Atom) : Prop :=
  haltFact entityID [] ∈ derived ∨ (∃ reason, haltFact entityID [reason] ∈ derived) ∨
    ∃ reason tier, haltFact entityID [reason, tier] ∈ derived ∧ ¬ AdvisoryTerm tier

/-- The policy derives a halt of the entity that blocks from the facts of a check. -/
def Derives (policy : Program Datalog.Atom) (entityID : String) (facts : List Datalog.Atom) :
    Prop :=
  BlockingHalt entityID (policy.perfect {atom | atom ∈ facts})

/-! ## The facts of a direct assessment -/

def operationFacts (actionName : String) : List Datalog.Atom :=
  if actionName = "" then []
  else [⟨"action_operation", [.const (.string entityInput), .const (.string actionName)]⟩]

/-- The facts over which `Assess` queries the engine, unless it fails before. -/
def assessedFacts (engine : PolicyEngine Id) (actionMeta : ActionMetadata) (input : Envelope) :
    Option (List Datalog.Atom) :=
  if engine.runtime.isReady.run then
    (gateFacts engine actionMeta.name entityInput input (operationFacts actionMeta.name)).toOption
  else none

variable {engine : PolicyEngine Id} {facts : List Datalog.Atom} {actionMeta : ActionMetadata}

theorem assessedFacts_eq_some_iff {input : Envelope} :
    assessedFacts engine actionMeta input = some facts ↔
      engine.runtime.isReady.run = true ∧
        gateFacts engine actionMeta.name entityInput input (operationFacts actionMeta.name) =
          .ok facts := by
  unfold assessedFacts
  split_ifs with ready <;> simp [ready, toOption_eq_some_iff]

theorem assessInternal_of_assessed {input : Envelope}
    (assessed : assessedFacts engine actionMeta input = some facts) (ctx : Context) :
    assessInternal engine ctx actionMeta input =
      checkHalts engine ctx actionMeta.name entityInput facts := by
  obtain ⟨ready, converted⟩ := assessedFacts_eq_some_iff.mp assessed
  change evaluateGateWithTrail engine ctx actionMeta.name entityInput input
    (operationFacts actionMeta.name) = _
  unfold evaluateGateWithTrail
  rw [converted]
  exact if_pos ready

/-- The facts of a verification: the labels, then the atoms of the payload, the explicit
facts and the name of the action, then the metadata. -/
theorem askedFacts_eq_some_iff {host : Host} {ctx : Context} {pc : PreCheckContext}
    (threaded : ctx.preCheck = some pc) (atoms : List Atom) (facts : List Datalog.Atom) :
    askedFacts host engine ctx atoms = some facts ↔
      atoms.length ≤ maxFactsPerVerify ∧ engine.runtime.isReady.run = true ∧
        ∃ labelFacts explicit, Reads engine (labelsToFacts pc.labels) labelFacts ∧
          Reads engine (assessmentEnvelope host (some pc) atoms).facts explicit ∧
          facts = labelFacts ++ explicit ++ metadataFactsOf engine.host pc.metadata := by
  have early : earlyResult ctx atoms = none ↔ atoms.length ≤ maxFactsPerVerify := by
    simp [earlyResult, threaded]
  unfold askedFacts
  by_cases few : atoms.length ≤ maxFactsPerVerify
  · rw [early.mpr few, threaded]
    simp only [few, true_and]
    split_ifs with ready
    · simp only [toOption_eq_some_iff, gateFacts_eq_ok_iff, ready, true_and]
      constructor
      · rintro ⟨payloadFacts, labelFacts, explicit, converted, labels, read, rfl⟩
        obtain rfl : [] = payloadFacts := Except.ok.inj converted
        exact ⟨labelFacts, explicit, labels, read, by simp [assessmentEnvelope]⟩
      · rintro ⟨labelFacts, explicit, labels, read, rfl⟩
        exact ⟨[], labelFacts, explicit, rfl, labels, read, by simp [assessmentEnvelope]⟩
    · simp [ready]
  · simp only [few, false_and, iff_false]
    cases refused : earlyResult ctx atoms with
    | none => exact absurd (early.mp refused) few
    | some result => simp

/-! ## Every policy on the two views -/

namespace Deployment

variable (deployment : Deployment)

def AssessDerives (policy : Program Datalog.Atom) (input : Envelope) : Prop :=
  ∃ facts, assessedFacts (deployment.engine []) deployment.metadata input = some facts ∧
    Derives policy entityInput facts

def PreCheckDerives (policy : Program Datalog.Atom) (ctx : Context) (input : Envelope) : Prop :=
  ∃ facts, deployment.inputAsked ctx input = some facts ∧ Derives policy entityInput facts

/-- Whenever the engine can assess the envelope, the pre-check asks about the same
set of facts, or about facts that block by themselves. -/
def SeesPayload (ctx : Context) (input : Envelope) : Prop :=
  ∀ assessed, assessedFacts (deployment.engine []) deployment.metadata input = some assessed →
    ∃ asked, deployment.inputAsked ctx input = some asked ∧
      (BlockingHalt entityInput {atom | atom ∈ asked} ∨ ∀ atom, atom ∈ assessed ↔ atom ∈ asked)

theorem exists_untested_halt (test : Test Datalog.Atom) :
    ∃ head, (∀ derived, head ∈ derived → BlockingHalt entityInput derived) ∧ ¬ test.Tests head := by
  have distinct : haltFact entityInput [] ≠ haltFact entityInput [.const (.string "halt")] := by
    simp [haltFact]
  rcases test.exists_untested distinct with untested | untested
  · exact ⟨_, fun _ derived => .inl derived, untested⟩
  · exact ⟨_, fun _ derived => .inr (.inl ⟨_, derived⟩), untested⟩

end Deployment

/-! ## Payloads that both see alike -/

section TaggedTexts

variable {fields : List (FieldType × Value)}

end TaggedTexts

/-! ## A field that the pre-check does not see -/

theorem derives_iff_of_evaluate {policy : List Datalog.Clause} {fuel : Nat} {store : Datalog.Store}
    (finished : Datalog.evaluate policy fuel (Datalog.Store.empty.addAll facts) = some store)
    (entityID : String) :
    Derives (Datalog.meaning policy) entityID facts ↔ HardHalt entityID store := by
  have given : (Datalog.Store.empty.addAll facts).toSet = {atom | atom ∈ facts} := by
    ext atom
    simp
  rw [Derives, ← given, ← Datalog.evaluate_perfect finished]
  rfl

def asciiReflector : Reflector where
  toLower text := String.ofList (text.toList.map Char.toLower)
  recordFacts _ _ _ _ := []

/-- The action `send` under a policy, with the conversions of the engine. -/
def reflectingSend (policy : List Datalog.Clause) : Deployment where
  host := Reference.host
  engine _ := storeEngine (reflectingHost Reference.host asciiReflector) Reference.parseAtom
    (Reference.evaluated policy)
  metadata := { name := "send" }
  respond _ env := .ok (.ok env)

/-- A payload of one field, named for JSON and not for the policy. -/
def transferRequest : Envelope :=
  { payload := .struct [({ mangle := "", exported := true, name := "Account", json := "account" },
      .string "frozen")] }

def frozenPolicy : List Datalog.Clause :=
  [⟨Reference.stringAtom "halt" ["Req", "frozen account", "T1"],
    [.atom (Reference.stringAtom "account" ["Req", "frozen"])]⟩]

end Manglekit.Supervisor

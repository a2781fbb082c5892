import Manglekit.Engine.GateFacts
import Manglekit.Sdk.EntryPoints
import Manglekit.Supervisor.FailClosed

/-!
# What the gate learns on the different ways to an action

The gate judges labels, explicit facts and metadata.  A call by name that is given the
caller's envelope forwards all of them; the other entry points only take the payload
along, and at most the printed metadata.
-/

namespace Manglekit.Sdk

open Core Supervisor

/-! ## What the gate is told -/

section GateFacts

variable (host : Engine.Host)

def valueFacts (key : String) (value : Option Value) : Set Datalog.Atom :=
  {atom | ∃ found ∈ value, atom ∈ Engine.metadataAtoms host key found}

def metadataFacts (metadata : Metadata) : Set Datalog.Atom :=
  {atom | ∃ entry ∈ metadata.entries, atom ∈ Engine.metadataAtoms host entry.1 entry.2}

theorem mem_metadataFacts {metadata : Metadata} {atom : Datalog.Atom} :
    atom ∈ metadataFacts host metadata ↔
      ∃ key, atom ∈ valueFacts host key (metadata.lookup key) := by
  constructor
  · rintro ⟨⟨key, value⟩, present, member⟩
    exact ⟨key, value, AList.mem_lookup_iff.mpr present, member⟩
  · rintro ⟨key, value, found, member⟩
    exact ⟨⟨key, value⟩, AList.mem_lookup_iff.mp found, member⟩

def keyOf (atom : Datalog.Atom) : String :=
  match atom.args with
  | [key, _] => ((Engine.constantToString key).toOption).getD ""
  | _ => "retry_count"

theorem keyOf_metadataAtoms {key : String} {value : Value} {atom : Datalog.Atom}
    (member : atom ∈ Engine.metadataAtoms host key value) : keyOf atom = key := by
  unfold Engine.metadataAtoms at member
  split at member
  · obtain ⟨element, _, rfl⟩ := List.mem_map.mp member
    rfl
  · rcases List.mem_cons.mp member with rfl | attempt
    · rfl
    · split_ifs at attempt with retries
      · obtain rfl := List.mem_singleton.mp attempt
        exact retries.symm
      · cases attempt

theorem metadataFacts_eq_iff (first second : Metadata) :
    metadataFacts host first = metadataFacts host second ↔
      ∀ key, valueFacts host key (first.lookup key) = valueFacts host key (second.lookup key) := by
  have included {source target : Metadata}
      (same : metadataFacts host source = metadataFacts host target) (key : String) :
      valueFacts host key (source.lookup key) ⊆ valueFacts host key (target.lookup key) := by
    rintro atom ⟨value, found, member⟩
    have present : atom ∈ metadataFacts host target := by
      rw [← same]
      exact (mem_metadataFacts host).mpr ⟨key, value, found, member⟩
    obtain ⟨other, otherValue, otherFound, otherMember⟩ := (mem_metadataFacts host).mp present
    obtain rfl : other = key :=
      (keyOf_metadataAtoms host otherMember).symm.trans (keyOf_metadataAtoms host member)
    exact ⟨otherValue, otherFound, otherMember⟩
  constructor
  · intro same key
    exact Set.Subset.antisymm (included same key) (included same.symm key)
  · intro same
    ext atom
    simp only [mem_metadataFacts, same]

structure SameGateFacts (first second : Envelope) : Prop where
  labels : first.securityLabels = second.securityLabels
  facts : first.facts = second.facts
  metadata : metadataFacts host first.metadata = metadataFacts host second.metadata

/-! ## When an entry point forwards an envelope -/

/-- The metadata that an entry point passes on as options: printed, or not at all. -/
def EntryPoint.passed (env : Envelope) (key : String) : EntryPoint → Option Value
  | .execute => none
  | .executePlan | .actionProxy =>
    (env.metadata.lookup key).map fun value => .string (value.string?.getD value.sprint)

/-- Labels and facts come only from an envelope inside the payload, so they must be
those of the envelope itself.  A metadata value that no fact of the context replaces
must stand for the same facts after it was printed or dropped.  `recalled` and `direct`
are what memory recalls on the way and on a call by name. -/
structure EntryPoint.Forwards (entry : EntryPoint) (ctx : Context) (env : Envelope)
    (recalled direct : Metadata) : Prop where
  labels : (unpacked env.payload).securityLabels = env.securityLabels
  facts : (unpacked env.payload).facts = env.facts
  metadata : ∀ key, ctx.contextFacts.lookup key = none →
    valueFacts host key ((entry.passed env key).or
        ((recalled.lookup key).or ((unpacked env.payload).metadata.lookup key))) =
      valueFacts host key ((direct.lookup key).or (env.metadata.lookup key))

theorem EntryPoint.lookup_options (entry : EntryPoint) (env : Envelope) (key : String) :
    ((applyOptions (entry.options env)).metadata.lookup key).map .string =
      entry.passed env key := by
  cases entry with
  | execute => rfl
  | executePlan | actionProxy =>
    simp only [applyOptions, EntryPoint.options, List.foldl_cons, List.foldl_nil,
      withMetadataMap, StringMap.lookup_assignWith, AList.lookup_empty, Option.or_none,
      Option.map_map, EntryPoint.passed, Function.comp_def]

theorem unpacked_toValue (env : Envelope) (text : String) :
    (unpacked (env.toValue text)).securityLabels = env.securityLabels ∧
      (unpacked (env.toValue text)).facts = env.facts ∧
      ∀ key, (unpacked (env.toValue text)).metadata.lookup key = env.metadata.lookup key := by
  obtain ⟨metadata, asserted, lookups⟩ := envelope?_toValue env text
  unfold unpacked
  rw [asserted]
  exact ⟨rfl, rfl, lookups⟩

/-- What the two envelopes tell the gate is the same exactly if the entry point forwards
the envelope. -/
theorem sameGateFacts_shown_iff (sdkHost : Host) (ctx : Context) (contentType : ContentType)
    (entry : EntryPoint) (env : Envelope) (text : String) (recalled direct : Metadata) :
    SameGateFacts host
        (shown sdkHost ctx contentType (startOf env.payload (entry.options env)) recalled)
        (shown sdkHost ctx contentType (startOf (env.toValue text) []) direct) ↔
      entry.Forwards host ctx env recalled direct := by
  have freshEntry := entry.fresh_options env
  have nothingEntry := entry.options_forwardNothing env
  have freshDirect : Fresh (applyOptions []) := ⟨rfl, rfl, rfl, rfl⟩
  have nothingDirect : ForwardsNothing [] := ⟨rfl, rfl, rfl⟩
  obtain ⟨labels, facts, lookups⟩ := unpacked_toValue env text
  obtain ⟨entryLabels, entryFacts⟩ := shown_labels_facts env.payload freshEntry nothingEntry
    sdkHost ctx contentType recalled
  obtain ⟨directLabels, directFacts⟩ := shown_labels_facts (env.toValue text) freshDirect
    nothingDirect sdkHost ctx contentType direct
  have entryLookup := lookup_shown env.payload freshEntry nothingEntry sdkHost ctx contentType
    recalled
  have directLookup := lookup_shown (env.toValue text) freshDirect nothingDirect sdkHost ctx
    contentType direct
  constructor
  · intro same
    refine ⟨?_, ?_, fun key absent => ?_⟩
    · rw [← entryLabels, same.labels, directLabels, labels]
    · rw [← entryFacts, same.facts, directFacts, facts]
    · have perKey := (metadataFacts_eq_iff host _ _).mp same.metadata key
      rw [entryLookup, directLookup, lookups, entry.lookup_options, absent] at perKey
      exact perKey
  · intro forwards
    refine ⟨?_, ?_, (metadataFacts_eq_iff host _ _).mpr fun key => ?_⟩
    · rw [entryLabels, forwards.labels, directLabels, labels]
    · rw [entryFacts, forwards.facts, directFacts, facts]
    · rw [entryLookup, directLookup, lookups, entry.lookup_options]
      -- A fact of the context replaces the value on both sides.
      cases absent : ctx.contextFacts.lookup key with
      | some replaced => rfl
      | none => exact forwards.metadata key absent

/-- An envelope that has nothing but texts as metadata is forwarded by plans and proxies. -/
theorem forwards_of_texts {entry : EntryPoint} (passes : entry ≠ .execute) (ctx : Context)
    {env : Envelope} (plain : env.payload.envelope? = none) (labels : env.securityLabels = [])
    (facts : env.facts = [])
    (texts : ∀ key, ∀ value ∈ env.metadata.lookup key, ∃ text, value = .string text) :
    entry.Forwards host ctx env ∅ ∅ := by
  have empty : unpacked env.payload = {} := by
    rw [unpacked, plain]
    rfl
  refine ⟨?_, ?_, fun key _ => ?_⟩
  · rw [empty, labels]
  · rw [empty, facts]
  · have passed : entry.passed env key = env.metadata.lookup key := by
      have printed : (env.metadata.lookup key).map
          (fun value => Value.string (value.string?.getD value.sprint)) =
            env.metadata.lookup key := by
        cases found : env.metadata.lookup key with
        | none => rfl
        | some value =>
          obtain ⟨text, rfl⟩ := texts key value found
          rfl
      cases entry with
      | execute => exact absurd rfl passes
      | executePlan | actionProxy => exact printed
    simp [passed, empty]

end GateFacts

section Judgement

open Engine

variable {deployment : Deployment} {first second : Envelope}

end Judgement

/-! ## A label that gets lost -/

/-- An engine that answers the same whatever has happened. -/
def pureEngine {m : Type → Type} [Monad m] (engine : Engine.PolicyEngine Id) :
    Engine.PolicyEngine m where
  host := engine.host
  parseAtom := engine.parseAtom
  runtime :=
    { isReady := pure engine.runtime.isReady.run
      queryWithSolutions ctx facts query :=
        pure (engine.runtime.queryWithSolutions ctx facts query).run
      executeQuery ctx facts query := pure (engine.runtime.executeQuery ctx facts query).run }

/-- A client under whose policy the supervised action of the deployment is registered. -/
def clientOf (deployment : Deployment) : Client Recorded where
  engine := pureEngine (deployment.engine [])
  host := asciiHost
  registry := AList.singleton deployment.metadata.name
    { metadata := deployment.metadata
      execute := deployment.action.execute }
  steeringEnabled := true

/-- Secret data must not be sent, and requests that ask for it are routed to `send`. -/
def secretPolicy : List Datalog.Clause :=
  [⟨Engine.Reference.stringAtom "halt" ["Req", "secret data", "T1"],
      [.atom (Engine.Reference.stringAtom "label" ["secret"])]⟩,
    ⟨Engine.Reference.stringAtom "route" ["send"],
      [.atom (Engine.Reference.stringAtom "meta" ["entry", "yes"])]⟩]

def secretRequest : Envelope :=
  { securityLabels := ["secret"], metadata := AList.singleton "entry" (.string "yes") }

def ranOn (call : Recorded (Except GoError Envelope)) : List Envelope := (call.run.run []).2

end Manglekit.Sdk

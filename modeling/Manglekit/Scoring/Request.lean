import Manglekit.Core.Envelope
import Manglekit.Scoring.Decision

/-!
# Scored requests

An envelope is copied by value, but its metadata are a map and its facts a slice of an array,
which the copy shares with the envelope of the caller.
-/

namespace Manglekit.Scoring

open Core

structure Memory where
  maps : Nat → Metadata
  mapCount : Nat
  arrays : Nat → List String
  arrayCount : Nat

structure Slice where
  array : Nat
  length : Nat

def Slice.elements (slice : Slice) (memory : Memory) : List String :=
  (memory.arrays slice.array).take slice.length

structure SharedEnvelope where
  payload : Value
  metadata : Option Nat
  securityLabels : List String
  facts : Slice

def SharedEnvelope.lookup (env : SharedEnvelope) (memory : Memory) (key : String) : Option Value :=
  env.metadata.bind fun address => (memory.maps address).lookup key

namespace Memory

def newMap (memory : Memory) : Nat × Memory :=
  (memory.mapCount,
    { memory with
      maps := Function.update memory.maps memory.mapCount ∅
      mapCount := memory.mapCount + 1 })

def newArray (memory : Memory) (elements : List String) : Nat × Memory :=
  (memory.arrayCount,
    { memory with
      arrays := Function.update memory.arrays memory.arrayCount elements
      arrayCount := memory.arrayCount + 1 })

/-- `append`.  It writes behind the slice if there is room, and else into a new array with
some spare room. -/
def append (spare : Nat) (slice : Slice) (items : List String) (memory : Memory) :
    Slice × Memory :=
  let array := memory.arrays slice.array
  let grown := array.take slice.length ++ items
  if slice.length + items.length ≤ array.length then
    (⟨slice.array, slice.length + items.length⟩,
      { memory with
        arrays := Function.update memory.arrays slice.array (grown ++ array.drop grown.length) })
  else
    let (address, memory) := memory.newArray (grown ++ List.replicate spare "")
    (⟨address, slice.length + items.length⟩, memory)

end Memory

structure Thresholds (Num : Type) where
  auto : Num
  margin : Num
  review : Num

section Numbers

-- Numbers need no laws, so they may be floats.

variable {Num : Type} [Zero Num] [LT Num] [LE Num] [DecidableLT Num] [DecidableLE Num]

def Thresholds.flags (t : Thresholds Num) : Option (Decision Num) → StringMap String
  | none => (∅ : StringMap String).insert "unobserved_distribution" "true"
  | some d =>
    let flags : StringMap String := ∅
    let flags := if d.top < t.review then flags.insert "below_review" "true" else flags
    let flags := if d.top < t.auto then flags.insert "below_auto" "true" else flags
    if t.auto ≤ d.top ∧ d.margin < t.margin then flags.insert "thin_margin" "true" else flags

/-- The verb `%q` and `strconv.FormatFloat` with three decimals. -/
structure Format (Num : Type) where
  quote : String → String
  formatProb : Num → String

variable (format : Format Num) (spare : Nat)

def scoringFacts : Option (Decision Num) → List String
  | none => []
  | some d =>
    ["confidence(" ++ format.quote (format.formatProb d.top) ++ ").",
      "margin_value(" ++ format.quote (format.formatProb d.margin) ++ ").",
      "entropy_value(" ++ format.quote (format.formatProb d.entropy) ++ ")."]

def scoringMetadata (t : Thresholds Num) (decision : Option (Decision Num))
    (metadata : Metadata) : Metadata :=
  let metadata := metadata.assignWith Value.string (t.flags decision)
  match decision with
  | none => metadata
  | some d => metadata.insert "choice" (.string d.choice)

def requestEnvelope (payload : SharedEnvelope ⊕ Value) (memory : Memory) :
    SharedEnvelope × Memory :=
  match payload with
  | .inl env =>
    match env.metadata with
    | some _ => (env, memory)
    | none =>
      let (address, memory) := memory.newMap
      ({ env with metadata := some address }, memory)
  | .inr value =>
    let (address, memory) := memory.newMap
    let (array, memory) := memory.newArray []
    (⟨value, some address, [], ⟨array, 0⟩⟩, memory)

def request (payload : SharedEnvelope ⊕ Value) (decision : Option (Decision Num))
    (t : Thresholds Num) (memory : Memory) : SharedEnvelope × Memory :=
  let (env, memory) := requestEnvelope payload memory
  let address := env.metadata.getD 0
  let memory :=
    { memory with
      maps := Function.update memory.maps address
        (scoringMetadata t decision (memory.maps address)) }
  match decision with
  | none => (env, memory)
  | some _ =>
    let (facts, memory) := memory.append spare env.facts (scoringFacts format decision)
    ({ env with facts }, memory)

/-! ## Pure updates -/

def scoringKeys : List String :=
  ["below_review", "below_auto", "thin_margin", "unobserved_distribution", "choice"]

def due (t : Thresholds Num) : Option (Decision Num) → String → Option Value
  | none, key => if key = "unobserved_distribution" then some (.string "true") else none
  | some d, key =>
    if key = "choice" then some (.string d.choice)
    else if key = "below_review" ∧ d.top < t.review ∨ key = "below_auto" ∧ d.top < t.auto ∨
        key = "thin_margin" ∧ t.auto ≤ d.top ∧ d.margin < t.margin then
      some (.string "true")
    else none

def IsScoringFact (fact : String) : Prop :=
  ∃ opening ∈ ["confidence(", "margin_value(", "entropy_value("], ∃ rest, fact = opening ++ rest

variable (t : Thresholds Num) (decision : Option (Decision Num)) (env : SharedEnvelope)
  (memory : Memory)

/-- The call changes nothing of the caller's envelope, and the returned one says what the
decision says and, beside it, what the given one does. -/
structure PureUpdate (result : SharedEnvelope × Memory) : Prop where
  callerMetadata : ∀ key, env.lookup result.2 key = env.lookup memory key
  callerFacts : env.facts.elements result.2 = env.facts.elements memory
  metadata : ∀ key ∈ scoringKeys, result.1.lookup result.2 key = due t decision key
  facts : ∀ fact, IsScoringFact fact →
    (fact ∈ result.1.facts.elements result.2 ↔ fact ∈ scoringFacts format decision)
  otherMetadata : ∀ key, key ∉ scoringKeys →
    result.1.lookup result.2 key = env.lookup memory key
  otherFacts : ∃ added, (∀ fact ∈ added, IsScoringFact fact) ∧
    result.1.facts.elements result.2 = env.facts.elements memory ++ added
  payload : result.1.payload = env.payload
  labels : result.1.securityLabels = env.securityLabels

structure Allocated : Prop where
  map : ∀ address, env.metadata = some address → address < memory.mapCount
  array : env.facts.array < memory.arrayCount
  within : env.facts.length ≤ (memory.arrays env.facts.array).length

structure Compatible : Prop where
  metadata : env.metadata ≠ none → ∀ key ∈ scoringKeys, env.lookup memory key = due t decision key
  facts : ∀ fact ∈ env.facts.elements memory, IsScoringFact fact →
    fact ∈ scoringFacts format decision

variable {format spare t decision env memory}

theorem due_eq_none {key : String} (other : key ∉ scoringKeys) : due t decision key = none := by
  simp only [scoringKeys, List.mem_cons, List.not_mem_nil, or_false, not_or] at other
  cases decision <;> simp [due, other]

theorem lookup_scoringMetadata (metadata : Metadata) (key : String) :
    (scoringMetadata t decision metadata).lookup key =
      (due t decision key).or (metadata.lookup key) := by
  cases decision with
  | none =>
    simp only [scoringMetadata, Thresholds.flags, StringMap.lookup_assignWith, due,
      StringMap.lookup_insert_if, AList.lookup_empty]
    split <;> rfl
  | some d =>
    simp only [scoringMetadata, Thresholds.flags, StringMap.lookup_assignWith, due,
      StringMap.lookup_insert_if]
    grind [StringMap.lookup_insert_if, AList.lookup_empty]

omit [LT Num] [LE Num] [DecidableLT Num] [DecidableLE Num] in
theorem isScoringFact_of_mem {fact : String} (member : fact ∈ scoringFacts format decision) :
    IsScoringFact fact := by
  cases decision with
  | none => simp [scoringFacts] at member
  | some d =>
    simp only [scoringFacts, List.mem_cons, List.not_mem_nil, or_false] at member
    rcases member with rfl | rfl | rfl <;> exact ⟨_, by simp, _, String.append_assoc⟩

section Appending

variable {slice : Slice} {items : List String} (used : slice.array < memory.arrayCount)
  (within : slice.length ≤ (memory.arrays slice.array).length)

theorem Memory.append_maps : (memory.append spare slice items).2.maps = memory.maps := by
  rw [append]
  split <;> rfl

include within

theorem Memory.append_elements :
    (memory.append spare slice items).1.elements (memory.append spare slice items).2 =
      slice.elements memory ++ items := by
  have length : ((memory.arrays slice.array).take slice.length ++ items).length =
      slice.length + items.length := by simp [within]
  rw [append]
  split
  · simp only [Slice.elements, Function.update_self]
    exact List.take_left' length
  · simp only [Slice.elements, newArray, Function.update_self]
    exact List.take_left' length

include used

/-- The slice itself reads the same afterwards. -/
theorem Memory.elements_append :
    slice.elements (memory.append spare slice items).2 = slice.elements memory := by
  rw [append]
  split
  · simp [Slice.elements, within]
  · simp [Slice.elements, newArray, used.ne]

end Appending

section Requests

variable (format spare t decision)

/-- The given metadata are read under the address that is written to. -/
theorem requestEnvelope_spec (env : SharedEnvelope) (memory : Memory) :
    ∃ address after, requestEnvelope (.inl env) memory =
        ({ env with metadata := some address }, after) ∧
      (env.metadata = some address ∨ env.metadata = none) ∧
      (∀ key, (after.maps address).lookup key = env.lookup memory key) ∧
      after.arrays = memory.arrays ∧ after.arrayCount = memory.arrayCount := by
  obtain ⟨payload, metadata, labels, facts⟩ := env
  cases metadata with
  | some address => exact ⟨address, memory, rfl, .inl rfl, fun _ => rfl, rfl, rfl⟩
  | none =>
    refine ⟨memory.mapCount, _, rfl, .inr rfl, fun key => ?_, rfl, rfl⟩
    simp [SharedEnvelope.lookup]

theorem request_metadata (env : SharedEnvelope) (memory : Memory) (key : String) :
    let result := request format spare (.inl env) decision t memory
    result.1.lookup result.2 key = (due t decision key).or (env.lookup memory key) ∧
      (env.metadata ≠ none →
        env.lookup result.2 key = (due t decision key).or (env.lookup memory key)) := by
  intro result
  obtain ⟨address, after, entered, own, read, -⟩ := requestEnvelope_spec env memory
  have stored : result.1.metadata = some address ∧
      result.2.maps address = scoringMetadata t decision (after.maps address) := by
    simp only [result, request, entered, Option.getD_some]
    cases decision <;> simp [Memory.append_maps]
  have written : (result.2.maps address).lookup key =
      (due t decision key).or (env.lookup memory key) := by
    rw [stored.2, lookup_scoringMetadata, read]
  refine ⟨by simpa [SharedEnvelope.lookup, stored.1] using written, fun given => ?_⟩
  simpa [SharedEnvelope.lookup, own.resolve_right given] using written

theorem request_facts (allocated : Allocated env memory) :
    let result := request format spare (.inl env) decision t memory
    result.1.facts.elements result.2 = env.facts.elements memory ++ scoringFacts format decision ∧
      env.facts.elements result.2 = env.facts.elements memory := by
  obtain ⟨address, after, entered, -, -, arrays, counted⟩ := requestEnvelope_spec env memory
  have within := allocated.within
  have used := allocated.array
  have kept : env.facts.elements after = env.facts.elements memory := by
    simp only [Slice.elements, arrays]
  rw [← arrays] at within
  rw [← counted] at used
  simp only [request, entered, Option.getD_some]
  cases decision with
  | none => simpa [scoringFacts, Slice.elements] using kept
  | some d =>
    rw [← kept]
    exact ⟨Memory.append_elements within, Memory.elements_append used within⟩

theorem request_pure_iff (allocated : Allocated env memory) :
    PureUpdate format t decision env memory
        (request format spare (.inl env) decision t memory) ↔
      Compatible format t decision env memory := by
  have facts := request_facts format spare t decision allocated
  have metadata := request_metadata format spare t decision env memory
  have copied : (request format spare (.inl env) decision t memory).1.payload = env.payload ∧
      (request format spare (.inl env) decision t memory).1.securityLabels =
        env.securityLabels := by
    obtain ⟨address, after, entered, -⟩ := requestEnvelope_spec env memory
    simp only [request, entered]
    cases decision <;> exact ⟨rfl, rfl⟩
  constructor
  · intro pure
    refine ⟨fun given key scoring => ?_, fun fact member scoring => ?_⟩
    · rw [← pure.callerMetadata key, (metadata key).2 given, ← (metadata key).1,
        pure.metadata key scoring]
    · rw [← pure.facts fact scoring, facts.1]
      exact List.mem_append_left _ member
  · intro compatible
    have same : ∀ key ∈ scoringKeys,
        (due t decision key).or (env.lookup memory key) = due t decision key := by
      intro key scoring
      cases shared : env.metadata with
      | none => simp [SharedEnvelope.lookup, shared]
      | some address => simp [compatible.metadata (by simp [shared]) key scoring]
    exact
      { callerMetadata := fun key => by
          by_cases given : env.metadata = none
          · simp [SharedEnvelope.lookup, given]
          · rw [(metadata key).2 given]
            by_cases scoring : key ∈ scoringKeys
            · rw [same key scoring, compatible.metadata given key scoring]
            · rw [due_eq_none scoring, Option.none_or]
        callerFacts := facts.2
        metadata := fun key scoring => by rw [(metadata key).1, same key scoring]
        facts := fun fact scoring => by
          rw [facts.1, List.mem_append]
          exact ⟨fun found => found.elim (fun old => compatible.facts fact old scoring) id, .inr⟩
        otherMetadata := fun key other => by
          rw [(metadata key).1, due_eq_none other, Option.none_or]
        otherFacts := ⟨_, fun fact => isScoringFact_of_mem, facts.1⟩
        payload := copied.1
        labels := copied.2 }

end Requests

end Numbers

section Runs

def plainFormat : Format Int := ⟨id, toString⟩

def billing : Decision Int := ⟨"billing", (∅ : StringMap Int).insert "billing" 9, 5, 1⟩

def thresholds : Thresholds Int := ⟨8, 2, 3⟩

/-- An empty memory but for one map and one array without room. -/
def memory : Memory := ⟨fun _ => ∅, 1, fun _ => [], 1⟩

theorem bare_request_pure :
    PureUpdate plainFormat thresholds (some billing) ⟨.nil, none, ["pii"], ⟨0, 0⟩⟩ memory
      (request plainFormat 0 (.inl ⟨.nil, none, ["pii"], ⟨0, 0⟩⟩) (some billing) thresholds
        memory) :=
  (request_pure_iff _ _ _ _ ⟨by simp, by decide, by decide⟩).mpr
    ⟨fun given => absurd rfl given, by simp [Slice.elements, memory]⟩

/-- The choice is written into the map of the caller, and a flag of an earlier call stays. -/
theorem shared_request_impure :
    let env : SharedEnvelope := ⟨.nil, some 0, [], ⟨0, 0⟩⟩
    let first := request plainFormat 0 (.inl env) none thresholds memory
    let second := request plainFormat 0 (.inl first.1) (some billing) thresholds first.2
    env.lookup memory "choice" = none ∧
      env.lookup second.2 "choice" = some (.string "billing") ∧
      second.1.lookup second.2 "unobserved_distribution" = some (.string "true") ∧
      due thresholds (some billing) "unobserved_distribution" = none :=
  ⟨rfl, rfl, rfl, rfl⟩

end Runs

end Manglekit.Scoring

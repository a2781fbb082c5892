import Manglekit.Engine.Gate

/-!
# The facts of a gate check, part by part

A check collects the facts of the payload, those its caller adds, the labels, the
explicit facts and the metadata.  It succeeds exactly if every text among them
parses.
-/

namespace Manglekit.Engine

open Core

theorem toOption_eq_some_iff {ε α : Type} {result : Except ε α} {value : α} :
    result.toOption = some value ↔ result = .ok value := by
  cases result <;> simp [Except.toOption]

variable {m : Type → Type} (engine : PolicyEngine m)

def Reads (texts : List String) (atoms : List Datalog.Atom) : Prop :=
  texts.map engine.parseAtom = atoms.map .ok

theorem reads_nil (atoms : List Datalog.Atom) : Reads engine [] atoms ↔ atoms = [] := by
  simp [Reads, eq_comm]

theorem reads_cons (text : String) (texts : List String) (atoms : List Datalog.Atom) :
    Reads engine (text :: texts) atoms ↔
      ∃ atom rest, engine.parseAtom text = .ok atom ∧ Reads engine texts rest ∧
        atoms = atom :: rest := by
  cases atoms with
  | nil => simp [Reads]
  | cons first others =>
    simp only [Reads, List.map_cons, List.cons.injEq]
    constructor
    · rintro ⟨parsed, rest⟩
      exact ⟨first, others, parsed, rest, rfl, rfl⟩
    · rintro ⟨atom, rest, parsed, read, rfl, rfl⟩
      exact ⟨parsed, read⟩

variable {atom : Datalog.Atom} {atoms : List Datalog.Atom}

theorem Reads.parsed {texts : List String}
    (read : Reads engine texts atoms) (member : atom ∈ atoms) :
    ∃ text ∈ texts, engine.parseAtom text = .ok atom := by
  have result : .ok atom ∈ texts.map engine.parseAtom := by
    rw [read]
    exact List.mem_map_of_mem member
  exact List.mem_map.mp result

theorem parseAtoms_eq_iff (describe : String → GoError → GoError) (texts : List String)
    (atoms : List Datalog.Atom) :
    parseAtoms engine describe texts = (atoms, none) ↔ Reads engine texts atoms := by
  induction texts generalizing atoms with
  | nil => simp [parseAtoms, reads_nil, eq_comm]
  | cons text rest ih =>
    rw [reads_cons, parseAtoms]
    cases parsed : engine.parseAtom text with
    | error err => simp
    | ok atom =>
      rcases others : parseAtoms engine describe rest with ⟨read, failure⟩
      simp only [Prod.mk.injEq, ← ih, others, Except.ok.injEq]
      constructor
      · rintro ⟨rfl, rfl⟩
        exact ⟨atom, read, rfl, ⟨rfl, rfl⟩, rfl⟩
      · rintro ⟨_, _, rfl, ⟨rfl, rfl⟩, rfl⟩
        exact ⟨rfl, rfl⟩

variable {contentType : ContentType}

theorem toMangleFacts_eq_ok_iff {entityID : String} {input : Value}
    {texts : List String} (present : input ≠ .nil)
    (converted : (if contentType = .json then engine.host.flatten entityID input
      else engine.host.toFacts entityID input) = .ok texts) (atoms : List Datalog.Atom) :
    toMangleFacts engine entityID input contentType = .ok atoms ↔ Reads engine texts atoms := by
  unfold toMangleFacts
  split
  · exact absurd rfl present
  · simp only [converted]
    rw [← parseAtoms_eq_iff engine
      (fun fact err => .wrap ("failed to parse fact '" ++ fact ++ "'") err)]
    rcases parseAtoms engine _ texts with ⟨read, failure⟩
    cases failure <;> simp

theorem parsed_of_mem_toMangleFacts {entityID : String} {input : Value}
    (converted : toMangleFacts engine entityID input contentType = .ok atoms)
    (member : atom ∈ atoms) : ∃ text, engine.parseAtom text = .ok atom := by
  by_cases absent : input = .nil
  · subst absent
    obtain rfl : [] = atoms := Except.ok.inj converted
    cases member
  · cases conversion : (if contentType = .json then engine.host.flatten entityID input
        else engine.host.toFacts entityID input) with
    | error err =>
      unfold toMangleFacts at converted
      split at converted
      · exact absurd rfl absent
      · simp [conversion] at converted
    | ok texts =>
      obtain ⟨text, -, parsed⟩ :=
        ((toMangleFacts_eq_ok_iff engine absent conversion atoms).mp converted).parsed engine member
      exact ⟨text, parsed⟩

def metadataFactsOf (host : Host) (metadata : Metadata) : List Datalog.Atom :=
  metadata.entries.flatMap fun entry => metadataAtoms host entry.1 entry.2

theorem symbol_of_mem_metadataFactsOf {host : Host} {metadata : Metadata}
    (member : atom ∈ metadataFactsOf host metadata) :
    atom.symbol = "meta" ∨ atom.symbol = "attempt" := by
  obtain ⟨entry, -, fact⟩ := List.mem_flatMap.mp member
  unfold metadataAtoms at fact
  split at fact
  · obtain ⟨element, -, rfl⟩ := List.mem_map.mp fact
    exact .inl rfl
  · rcases List.mem_cons.mp fact with rfl | attempt
    · exact .inl rfl
    · split_ifs at attempt
      · obtain rfl := List.mem_singleton.mp attempt
        exact .inr rfl
      · cases attempt

theorem appendEnvelopeFacts_eq_iff (facts : List Datalog.Atom) (env : Envelope)
    (actionName : String) (collected : List Datalog.Atom) :
    appendEnvelopeFacts engine facts env actionName = (collected, none) ↔
      ∃ explicit, Reads engine env.facts explicit ∧
        collected = facts ++ explicit ++ metadataFactsOf engine.host env.metadata := by
  unfold appendEnvelopeFacts
  dsimp only
  generalize (fun fact err => GoError.wrap _ err : String → GoError → GoError) = describe
  simp only [← parseAtoms_eq_iff engine describe]
  rcases parseAtoms engine describe env.facts with ⟨explicit, failure⟩
  cases failure with
  | none => simp [metadataFactsOf, eq_comm]
  | some err => simp

theorem gateFacts_eq_ok_iff (actionName entityID : String) (env : Envelope)
    (extraFacts facts : List Datalog.Atom) :
    gateFacts engine actionName entityID env extraFacts = .ok facts ↔
      ∃ payloadFacts labelFacts explicit,
        toMangleFacts engine entityID env.payload env.contentType = .ok payloadFacts ∧
        Reads engine (labelsToFacts env.securityLabels) labelFacts ∧
        Reads engine env.facts explicit ∧
        facts = payloadFacts ++ extraFacts ++ labelFacts ++ explicit
          ++ metadataFactsOf engine.host env.metadata := by
  unfold gateFacts
  cases toMangleFacts engine entityID env.payload env.contentType with
  | error err => simp
  | ok payloadFacts =>
    simp only [← parseAtoms_eq_iff engine (fun _ err => err) (labelsToFacts _), Except.ok.injEq]
    rcases parseAtoms engine (fun _ err => err) (labelsToFacts env.securityLabels) with
      ⟨labelFacts, failure⟩
    cases failure with
    | some err => simp
    | none =>
      have appended := appendEnvelopeFacts_eq_iff engine
        (payloadFacts ++ extraFacts ++ labelFacts) env actionName facts
      rcases collecting : appendEnvelopeFacts engine
        (payloadFacts ++ extraFacts ++ labelFacts) env actionName with ⟨collected, failure⟩
      rw [collecting] at appended
      cases failure with
      | some err =>
        simp only [Prod.mk.injEq, reduceCtorEq, and_false, false_iff] at appended
        simp only [collecting, reduceCtorEq, false_iff, Prod.mk.injEq, and_true]
        rintro ⟨_, _, explicit, rfl, rfl, read, rfl⟩
        exact appended ⟨explicit, read, rfl⟩
      | none =>
        simp only [Prod.mk.injEq, and_true] at appended
        simp only [collecting, Except.ok.injEq, appended, Prod.mk.injEq, and_true]
        constructor
        · rintro ⟨explicit, read, rfl⟩
          exact ⟨payloadFacts, labelFacts, explicit, rfl, rfl, read, rfl⟩
        · rintro ⟨_, _, explicit, rfl, rfl, read, rfl⟩
          exact ⟨explicit, read, rfl⟩

theorem gateFacts_congr {other : PolicyEngine m} (hosts : engine.host = other.host)
    (parsers : engine.parseAtom = other.parseAtom) (actionName entityID : String)
    (env : Envelope) (extraFacts : List Datalog.Atom) :
    gateFacts engine actionName entityID env extraFacts =
      gateFacts other actionName entityID env extraFacts := by
  have parsed (describe : String → GoError → GoError) (texts : List String) :
      parseAtoms engine describe texts = parseAtoms other describe texts := by
    induction texts with
    | nil => rfl
    | cons text rest ih =>
      simp only [parseAtoms, parsers, ih]
  simp only [gateFacts, toMangleFacts, appendEnvelopeFacts, hosts, parsed]

end Manglekit.Engine

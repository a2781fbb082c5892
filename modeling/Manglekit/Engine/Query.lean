import Manglekit.Engine.Gate

/-!
# Answering a query from an evaluated store

A query with variables visits the facts of its predicate and unifies them with
the query by hand; a boolean query looks the query atom up.
-/

namespace Manglekit.Engine

open Core

def constantToString : Datalog.Term → Except GoError String
  | .const (.string value) => .ok value
  | .const (.name symbol) => .ok symbol
  | .const (.number value) => .ok (toString value)
  | .const (.float text) => .ok text
  | .const (.compound type _) => .error (.text ("unsupported constant type: " ++ toString type))
  | .var symbol => .ok symbol

/-- Unify the arguments of a fact with those of the query.  A repeated variable
keeps its last value. -/
def unifyArgs : List Datalog.Term → List Datalog.Term → Solution →
    Except GoError (Option Solution)
  | .var symbol :: queryArgs, arg :: args, solution =>
    match constantToString arg with
    | .error err => .error (.wrap "error converting term" err)
    | .ok text => unifyArgs queryArgs args (solution.insert symbol text)
  | .const constant :: queryArgs, arg :: args, solution =>
    if Datalog.Term.const constant = arg then unifyArgs queryArgs args solution else .ok none
  | _, _, solution => .ok (some solution)

/-- Report the facts that unify, in order, up to the first conversion error. -/
def reportSolutions (queryAtom : Datalog.Atom) : List Datalog.Atom → QueryRun
  | [] => ⟨[], none⟩
  | fact :: rest =>
    match unifyArgs queryAtom.args fact.args ∅ with
    | .error err => ⟨[], some err⟩
    | .ok none => reportSolutions queryAtom rest
    | .ok (some solution) =>
      let run := reportSolutions queryAtom rest
      ⟨solution :: run.reported, run.err⟩

def parseQuery (parseAtom : String → Except GoError Datalog.Atom) (query : String) :
    Except GoError Datalog.Atom :=
  match parseAtom query with
  | .ok atom => .ok atom
  | .error err => .error (.wrap ("failed to parse query '" ++ query ++ "'") err)

/-- Every visited fact has the arity of the query, so the length check of the
source never fails. -/
def solutionsIn (parseAtom : String → Except GoError Datalog.Atom) (store : Datalog.Store)
    (query : String) : QueryRun :=
  match parseQuery parseAtom query with
  | .error err => ⟨[], some err⟩
  | .ok queryAtom => reportSolutions queryAtom (store.getFacts queryAtom.predicate)

def holdsIn (parseAtom : String → Except GoError Datalog.Atom) (store : Datalog.Store)
    (query : String) : Except GoError Bool :=
  match parseQuery parseAtom query with
  | .error err => .error err
  | .ok queryAtom => .ok (store.contains queryAtom)

def storeRuntime (parseAtom : String → Except GoError Datalog.Atom)
    (evaluated : List Datalog.Atom → Datalog.Store) : QueryRuntime Id where
  isReady := true
  queryWithSolutions _ facts query := solutionsIn parseAtom (evaluated facts) query
  executeQuery _ facts query := holdsIn parseAtom (evaluated facts) query

/-! ## What a query reports -/

variable {facts : List Datalog.Atom} {queryAtom : Datalog.Atom}

/-- A query that ends without an error has reported exactly the facts that
unify with it. -/
theorem mem_reported_iff
    (success : (reportSolutions queryAtom facts).err = none) (solution : Solution) :
    solution ∈ (reportSolutions queryAtom facts).reported ↔
      ∃ fact ∈ facts, unifyArgs queryAtom.args fact.args ∅ = .ok (some solution) := by
  induction facts with
  | nil => simp [reportSolutions]
  | cons fact rest ih =>
    unfold reportSolutions at success ⊢
    cases unified : unifyArgs queryAtom.args fact.args ∅ with
    | error err => simp [unified] at success
    | ok answer =>
      cases answer with
      | none =>
        simp only [unified] at success ⊢
        simp [ih success, unified]
      | some found =>
        simp only [unified] at success ⊢
        simp [ih success, unified, eq_comm]

/-- A query ends without an error if it can convert every fact it visits. -/
theorem err_eq_none_iff (queryAtom : Datalog.Atom) (facts : List Datalog.Atom) :
    (reportSolutions queryAtom facts).err = none ↔
      ∀ fact ∈ facts, ∃ answer, unifyArgs queryAtom.args fact.args ∅ = .ok answer := by
  induction facts with
  | nil => simp [reportSolutions]
  | cons fact rest ih =>
    unfold reportSolutions
    rcases unified : unifyArgs queryAtom.args fact.args ∅ with err | answer
    · simp [unified]
    · cases answer <;> simp [unified, ih]

theorem unifies_of_success
    (success : (reportSolutions queryAtom facts).err = none) {fact : Datalog.Atom}
    (member : fact ∈ facts) :
    ∃ answer, unifyArgs queryAtom.args fact.args ∅ = .ok answer :=
  (err_eq_none_iff queryAtom facts).mp success fact member

variable {args : List Datalog.Term}

theorem mem_getFacts_mk {store : Datalog.Store} {symbol pred : String}
    {arity : Nat} : ⟨symbol, args⟩ ∈ store.getFacts ⟨pred, arity⟩ ↔
      (⟨symbol, args⟩ : Datalog.Atom) ∈ store ∧ symbol = pred ∧ args.length = arity := by
  simp [Datalog.Atom.predicate]

/-! ## Queries about an entity -/

section Entity

variable (entityID variableName : String)

theorem unifyArgs_tiered (arity : args.length = 3) (solution : Solution) :
    unifyArgs [.const (.string entityID), .var variableName, .var "Tier"] args ∅ =
        .ok (some solution) ↔
      ∃ value tier text tierText, args = [.const (.string entityID), value, tier] ∧
        constantToString value = .ok text ∧ constantToString tier = .ok tierText ∧
        solution = ((∅ : Solution).insert variableName text).insert "Tier" tierText := by
  obtain ⟨subject, value, tier, rfl⟩ := List.length_eq_three.mp arity
  simp only [unifyArgs]
  by_cases same : Datalog.Term.const (.string entityID) = subject
  · subst same
    rcases converted : constantToString value with err | text
    · simp [converted]
    · rcases convertedTier : constantToString tier with err | tierText
      · simp [convertedTier]
      · simp [converted, convertedTier, eq_comm]
  · simp [same, Ne.symm same, eq_comm]

theorem unifyArgs_tiered_ok_iff (arity : args.length = 3) :
    (∃ answer, unifyArgs [.const (.string entityID), .var variableName, .var "Tier"] args ∅ =
        .ok answer) ↔
      ∀ value tier, args = [.const (.string entityID), value, tier] →
        (∃ text, constantToString value = .ok text) ∧ ∃ text, constantToString tier = .ok text := by
  obtain ⟨subject, value, tier, rfl⟩ := List.length_eq_three.mp arity
  simp only [unifyArgs]
  by_cases same : Datalog.Term.const (.string entityID) = subject
  · subst same
    rcases converted : constantToString value with err | text
    · simp [converted]
    · rcases convertedTier : constantToString tier with err | tierText
      · simp [convertedTier]
      · simp [converted, convertedTier]
  · simp [same, Ne.symm same]

theorem mem_collected_tiered_iff {Found : Type} {store : Datalog.Store} {pred : String}
    {collect : Solution → Option Found} {shape : String → String → Found}
    (collects : ∀ text tier,
      collect (((∅ : Solution).insert variableName text).insert "Tier" tier) =
        some (shape text tier))
    (success : (reportSolutions ⟨pred, [.const (.string entityID), .var variableName, .var "Tier"]⟩
      (store.getFacts ⟨pred, 3⟩)).err = none) (found : Found) :
    found ∈ (reportSolutions ⟨pred, [.const (.string entityID), .var variableName, .var "Tier"]⟩
        (store.getFacts ⟨pred, 3⟩)).reported.filterMap collect ↔
      ∃ value tier text tierText, ⟨pred, [.const (.string entityID), value, tier]⟩ ∈ store ∧
        constantToString value = .ok text ∧ constantToString tier = .ok tierText ∧
        found = shape text tierText := by
  simp only [List.mem_filterMap, mem_reported_iff success]
  constructor
  · rintro ⟨solution, ⟨⟨symbol, args⟩, visited, unified⟩, collected⟩
    obtain ⟨stored, rfl, arity⟩ := mem_getFacts_mk.mp visited
    obtain ⟨value, tier, text, tierText, rfl, converted, convertedTier, rfl⟩ :=
      (unifyArgs_tiered entityID variableName arity solution).mp unified
    refine ⟨value, tier, text, tierText, stored, converted, convertedTier, ?_⟩
    exact (Option.some.inj ((collects text tierText).symm.trans collected)).symm
  · rintro ⟨value, tier, text, tierText, stored, converted, convertedTier, rfl⟩
    have unified := (unifyArgs_tiered entityID variableName rfl _).mpr
      ⟨value, tier, text, tierText, rfl, converted, convertedTier, rfl⟩
    exact ⟨_, ⟨_, mem_getFacts_mk.mpr ⟨stored, rfl, rfl⟩, unified⟩, collects text tierText⟩

end Entity

end Manglekit.Engine

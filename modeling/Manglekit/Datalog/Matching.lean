import Manglekit.Datalog.Syntax

/-!
# Matching clause bodies against a store

Premises are solved from left to right over partial bindings.  For a safe
clause the solutions are exactly the valuations that satisfy every premise:
positive premises in the growing store, negated ones in a frozen one.
-/

namespace Datalog

abbrev Bindings := List (String × Constant)

namespace Bindings

/-- Unbound variables read as an arbitrary constant; safe clauses have none
where it matters. -/
def valuation (bindings : Bindings) : Valuation :=
  fun symbol => (bindings.lookup symbol).getD (.string "")

def Agrees (bindings : Bindings) (valuation : Valuation) : Prop :=
  ∀ symbol constant, bindings.lookup symbol = some constant → valuation symbol = constant

def Covers (bindings : Bindings) (symbols : List String) : Prop :=
  ∀ symbol ∈ symbols, ∃ constant, bindings.lookup symbol = some constant

theorem lookup_cons_of_ne {Value : Type} {bindings : List (String × Value)}
    {symbol other : String} {value : Value} (different : other ≠ symbol) :
    List.lookup other ((symbol, value) :: bindings) = bindings.lookup other := by
  simp [List.lookup_cons, beq_eq_false_iff_ne.mpr different]

theorem agrees_nil (valuation : Valuation) : Agrees [] valuation := by
  intro symbol constant found
  simp at found

theorem valuation_eq_of_covers {bindings : Bindings} {valuation : Valuation}
    {symbols : List String} (covered : bindings.Covers symbols)
    (agrees : bindings.Agrees valuation) :
    ∀ symbol ∈ symbols, bindings.valuation symbol = valuation symbol := by
  intro symbol member
  obtain ⟨constant, found⟩ := covered symbol member
  simp [Bindings.valuation, found, agrees symbol constant found]

theorem agrees_valuation (bindings : Bindings) : bindings.Agrees bindings.valuation := by
  intro symbol constant found
  simp [valuation, found]

end Bindings

def Term.vars : Term → List String
  | .const _ => []
  | .var symbol => [symbol]

def Atom.vars (atom : Atom) : List String := atom.args.flatMap Term.vars

variable {first second : Valuation} {before after : Bindings} {frozen : Set Atom}
  {bound : List String} {store : Store}

theorem Term.value_congr (term : Term)
    (agree : ∀ symbol ∈ term.vars, first symbol = second symbol) :
    term.value first = term.value second := by
  cases term with
  | const constant => rfl
  | var symbol => exact agree symbol (by simp [Term.vars])

theorem Atom.ground_congr (atom : Atom)
    (agree : ∀ symbol ∈ atom.vars, first symbol = second symbol) :
    atom.ground first = atom.ground second := by
  unfold Atom.ground
  congr 1
  apply List.map_congr_left
  intro term member
  have equal : term.value first = term.value second := by
    apply Term.value_congr
    intro symbol occurs
    exact agree symbol (List.mem_flatMap.mpr ⟨term, member, occurs⟩)
  rw [equal]

def matchTerm : Term → Term → Bindings → Option Bindings
  | .const expected, .const found, bindings =>
    if expected = found then some bindings else none
  | .var symbol, .const found, bindings =>
    match bindings.lookup symbol with
    | none => some ((symbol, found) :: bindings)
    | some bound => if bound = found then some bindings else none
  | _, .var _, _ => none

def matchArgs : List Term → List Term → Bindings → Option Bindings
  | [], [], bindings => some bindings
  | pattern :: patterns, found :: rest, bindings =>
    (matchTerm pattern found bindings).bind (matchArgs patterns rest)
  | _, _, _ => none

/-- What a successful match establishes: earlier bindings are kept, the
pattern's variables are bound, and every agreeing valuation grounds the
pattern to the fact. -/
structure Matched (patterns found : List Term) (before after : Bindings) : Prop where
  kept : ∀ symbol constant, before.lookup symbol = some constant →
    after.lookup symbol = some constant
  covered : after.Covers (patterns.flatMap Term.vars)
  grounds : ∀ valuation, after.Agrees valuation →
    patterns.map (fun term => Term.const (term.value valuation)) = found

theorem matchTerm_sound {pattern found : Term}
    (matched : matchTerm pattern found before = some after) :
    Matched [pattern] [found] before after := by
  cases found with
  | var symbol => cases pattern <;> simp [matchTerm] at matched
  | const constant =>
    cases pattern with
    | const expected =>
      simp only [matchTerm, Option.ite_none_right_eq_some, Option.some.injEq] at matched
      obtain ⟨rfl, rfl⟩ := matched
      exact ⟨fun _ _ kept => kept, by simp [Term.vars, Bindings.Covers], by simp [Term.value]⟩
    | var symbol =>
      simp only [matchTerm] at matched
      split at matched
      next unbound =>
        cases matched
        refine ⟨?_, by simp [Term.vars, Bindings.Covers], ?_⟩
        · intro other value found
          by_cases same : other = symbol
          · subst same
            simp [unbound] at found
          · rw [Bindings.lookup_cons_of_ne same]
            exact found
        · intro valuation agrees
          simp [Term.value, agrees symbol constant (by simp)]
      next bound foundBinding =>
        simp only [Option.ite_none_right_eq_some, Option.some.injEq] at matched
        obtain ⟨rfl, rfl⟩ := matched
        refine ⟨fun _ _ kept => kept, ?_, ?_⟩
        · intro other occurs
          rw [show other = symbol by simpa [Term.vars] using occurs]
          exact ⟨bound, foundBinding⟩
        · intro valuation agrees
          simp [Term.value, agrees symbol bound foundBinding]

theorem matchArgs_sound {patterns found : List Term}
    (matched : matchArgs patterns found before = some after) :
    Matched patterns found before after := by
  induction patterns generalizing found before with
  | nil =>
    cases found with
    | nil =>
      simp only [matchArgs, Option.some.injEq] at matched
      subst matched
      exact ⟨fun _ _ kept => kept, by simp [Bindings.Covers], by simp⟩
    | cons head tail => simp [matchArgs] at matched
  | cons pattern patterns ih =>
    cases found with
    | nil => simp [matchArgs] at matched
    | cons head tail =>
      obtain ⟨middle, first, rest⟩ := Option.bind_eq_some_iff.mp matched
      have headMatched := matchTerm_sound first
      have tailMatched := ih rest
      refine ⟨fun symbol constant found =>
        tailMatched.kept _ _ (headMatched.kept _ _ found), ?_, ?_⟩
      · intro symbol occurs
        rw [List.flatMap_cons, List.mem_append] at occurs
        rcases occurs with inHead | inTail
        · obtain ⟨constant, found⟩ := headMatched.covered symbol (by simpa using inHead)
          exact ⟨constant, tailMatched.kept _ _ found⟩
        · exact tailMatched.covered symbol inTail
      · intro valuation agrees
        have headGround := headMatched.grounds valuation
          (fun symbol constant found => agrees _ _ (tailMatched.kept _ _ found))
        have tailGround := tailMatched.grounds valuation agrees
        simp only [List.map_cons, List.map_nil, List.cons.injEq, and_true] at headGround
        rw [List.map_cons, headGround, tailGround]

theorem matchTerm_complete (pattern : Term) {valuation : Valuation}
    (agrees : before.Agrees valuation) :
    ∃ after, matchTerm pattern (.const (pattern.value valuation)) before = some after ∧
      after.Agrees valuation := by
  cases pattern with
  | const constant => exact ⟨before, by simp [matchTerm, Term.value], agrees⟩
  | var symbol =>
    cases found : before.lookup symbol with
    | none =>
      refine ⟨(symbol, valuation symbol) :: before, by simp [matchTerm, found, Term.value], ?_⟩
      intro other constant bound
      by_cases same : other = symbol
      · subst same
        simpa using bound
      · rw [Bindings.lookup_cons_of_ne same] at bound
        exact agrees other constant bound
    | some bound =>
      have equal := agrees symbol bound found
      exact ⟨before, by simp [matchTerm, found, Term.value, equal], agrees⟩

theorem matchArgs_complete (patterns : List Term) {valuation : Valuation}
    (agrees : before.Agrees valuation) :
    ∃ after, matchArgs patterns
        (patterns.map fun term => .const (term.value valuation)) before = some after ∧
      after.Agrees valuation := by
  induction patterns generalizing before with
  | nil => exact ⟨before, rfl, agrees⟩
  | cons pattern patterns ih =>
    obtain ⟨middle, first, middleAgrees⟩ := matchTerm_complete pattern agrees
    obtain ⟨after, rest, afterAgrees⟩ := ih middleAgrees
    exact ⟨after, by simp [matchArgs, first, rest], afterAgrees⟩

namespace Premise

/-- Satisfaction of a ground premise: positive atoms in the store, negated
ones against the frozen set. -/
def Holds (store frozen : Set Atom) (valuation : Valuation) : Premise → Prop
  | .atom pattern => pattern.ground valuation ∈ store
  | .negAtom pattern => pattern.ground valuation ∉ frozen
  | .eq left right => left.value valuation = right.value valuation
  | .ineq left right => left.value valuation ≠ right.value valuation

/-- Variables that must be bound before the premise is reached. -/
def needs : Premise → List String
  | .atom _ => []
  | .negAtom pattern => pattern.vars
  | .eq left right => left.vars ++ right.vars
  | .ineq left right => left.vars ++ right.vars

def binds : Premise → List String
  | .atom pattern => pattern.vars
  | _ => []

def solve (store frozen : Store) (bindings : Bindings) : Premise → List Bindings
  | .atom pattern => store.facts.filterMap fun fact =>
    if fact.symbol = pattern.symbol then matchArgs pattern.args fact.args bindings else none
  | .negAtom pattern =>
    if pattern.ground bindings.valuation ∈ frozen then [] else [bindings]
  | .eq left right =>
    if left.value bindings.valuation = right.value bindings.valuation then [bindings] else []
  | .ineq left right =>
    if left.value bindings.valuation = right.value bindings.valuation then [] else [bindings]

variable {premise : Premise}

/-- Over covered variables an agreeing valuation and the bindings themselves
make a premise that binds nothing hold alike. -/
theorem holds_congr {store : Set Atom}
    (agree : ∀ symbol ∈ premise.needs ++ premise.binds, first symbol = second symbol) :
    premise.Holds store frozen first ↔ premise.Holds store frozen second := by
  cases premise with
  | atom pattern =>
    have equal := Atom.ground_congr pattern
      fun symbol occurs => agree symbol (List.mem_append_right _ occurs)
    simp only [Holds, equal]
  | negAtom pattern =>
    have equal := Atom.ground_congr pattern
      fun symbol occurs => agree symbol (List.mem_append_left _ occurs)
    simp only [Holds, equal]
  | eq left right | ineq left right =>
    have leftEqual := Term.value_congr left fun symbol occurs =>
      agree symbol (List.mem_append_left _ (List.mem_append_left _ occurs))
    have rightEqual := Term.value_congr right fun symbol occurs =>
      agree symbol (List.mem_append_left _ (List.mem_append_right _ occurs))
    simp only [Holds, leftEqual, rightEqual]

structure Solves (store frozen : Set Atom) (before after : Bindings) (premise : Premise) :
    Prop where
  kept : ∀ symbol constant, before.lookup symbol = some constant →
    after.lookup symbol = some constant
  covered : after.Covers premise.binds
  holds : ∀ valuation, after.Agrees valuation → premise.Holds store frozen valuation

theorem Solves.covers_append {store : Set Atom}
    (solved : premise.Solves store frozen before after) (covered : before.Covers bound) :
    after.Covers (bound ++ premise.binds) := by
  intro symbol occurs
  rcases List.mem_append.mp occurs with earlier | fresh
  · obtain ⟨constant, found⟩ := covered symbol earlier
    exact ⟨constant, solved.kept _ _ found⟩
  · exact solved.covered symbol fresh

theorem solves_of_holds {store : Set Atom} {bindings : Bindings}
    (test : premise.binds = []) (covered : bindings.Covers premise.needs)
    (holds : premise.Holds store frozen bindings.valuation) :
    premise.Solves store frozen bindings bindings := by
  refine ⟨fun _ _ kept => kept, by simp [test, Bindings.Covers], ?_⟩
  intro valuation agrees
  refine (holds_congr ?_).mp holds
  rw [test, List.append_nil]
  exact Bindings.valuation_eq_of_covers covered agrees

theorem solve_sound {frozen : Store} (covered : before.Covers premise.needs)
    (member : after ∈ premise.solve store frozen before) :
    premise.Solves store.toSet frozen.toSet before after := by
  cases premise with
  | atom pattern =>
    obtain ⟨fact, stored, found⟩ := List.mem_filterMap.mp member
    simp only [Option.ite_none_right_eq_some] at found
    obtain ⟨sameSymbol, matched⟩ := found
    have established := matchArgs_sound matched
    refine ⟨established.kept, established.covered, ?_⟩
    intro valuation agrees
    have equal : pattern.ground valuation = fact := by
      rw [Atom.ground, established.grounds valuation agrees, ← sameSymbol]
    change pattern.ground valuation ∈ store.toSet
    rw [equal]
    exact stored
  | negAtom pattern =>
    simp only [solve] at member
    split at member
    · simp at member
    next absent =>
      rw [List.mem_singleton.mp member]
      exact solves_of_holds rfl covered absent
  | eq left right =>
    simp only [solve] at member
    split at member
    next equal =>
      rw [List.mem_singleton.mp member]
      exact solves_of_holds rfl covered equal
    · simp at member
  | ineq left right =>
    simp only [solve] at member
    split at member
    · simp at member
    next different =>
      rw [List.mem_singleton.mp member]
      exact solves_of_holds rfl covered different

theorem solve_complete {frozen : Store} {valuation : Valuation}
    (covered : before.Covers premise.needs) (agrees : before.Agrees valuation)
    (holds : premise.Holds store.toSet frozen.toSet valuation) :
    ∃ after ∈ premise.solve store frozen before, after.Agrees valuation := by
  have atBindings (test : premise.binds = []) :
      premise.Holds store.toSet frozen.toSet before.valuation := by
    refine (holds_congr ?_).mpr holds
    rw [test, List.append_nil]
    exact Bindings.valuation_eq_of_covers covered agrees
  cases premise with
  | atom pattern =>
    obtain ⟨after, matched, afterAgrees⟩ := matchArgs_complete pattern.args agrees
    refine ⟨after, List.mem_filterMap.mpr ⟨pattern.ground valuation, holds, ?_⟩, afterAgrees⟩
    simpa [Atom.ground] using matched
  | negAtom pattern =>
    have absent : pattern.ground before.valuation ∉ frozen := atBindings rfl
    exact ⟨before, by simp [solve, absent], agrees⟩
  | eq left right =>
    have equal : left.value before.valuation = right.value before.valuation := atBindings rfl
    exact ⟨before, by simp [solve, equal], agrees⟩
  | ineq left right =>
    have different : left.value before.valuation ≠ right.value before.valuation := atBindings rfl
    exact ⟨before, by simp [solve, different], agrees⟩

end Premise

theorem Atom.ground_of_no_vars {atom : Atom} (closed : ∀ symbol, symbol ∉ atom.vars)
    (valuation : Valuation) : atom.ground valuation = atom := by
  have each : ∀ term ∈ atom.args, Term.const (term.value valuation) = term := by
    intro term member
    cases term with
    | const constant => rfl
    | var symbol =>
      exact absurd (List.mem_flatMap.mpr ⟨_, member, by simp [Term.vars]⟩) (closed symbol)
  simp [Atom.ground, List.map_congr_left each]

/-- Every premise finds what it needs bound by the premises before it, and
the head only uses bound variables. -/
def SafeFrom (bound : List String) (head : Atom) : List Premise → Prop
  | [] => ∀ symbol ∈ head.vars, symbol ∈ bound
  | premise :: rest =>
    (∀ symbol ∈ premise.needs, symbol ∈ bound) ∧ SafeFrom (bound ++ premise.binds) head rest

instance decidableSafeFrom (bound : List String) (head : Atom) :
    (premises : List Premise) → Decidable (SafeFrom bound head premises)
  | [] => inferInstanceAs (Decidable (∀ symbol ∈ head.vars, symbol ∈ bound))
  | premise :: rest =>
    have := decidableSafeFrom (bound ++ premise.binds) head rest
    inferInstanceAs (Decidable (_ ∧ _))

def solveAll (store frozen : Store) : List Premise → Bindings → List Bindings
  | [], bindings => [bindings]
  | premise :: rest, bindings =>
    (premise.solve store frozen bindings).flatMap (solveAll store frozen rest)

section

variable {head : Atom} {premises : List Premise} (safe : SafeFrom bound head premises)
  (covered : before.Covers bound)

include safe covered

theorem solveAll_sound {frozen : Store} (member : after ∈ solveAll store frozen premises before) :
    (∀ symbol constant, before.lookup symbol = some constant →
        after.lookup symbol = some constant) ∧
      after.Covers head.vars ∧
      ∀ valuation, after.Agrees valuation →
        ∀ premise ∈ premises, premise.Holds store.toSet frozen.toSet valuation := by
  induction premises generalizing bound before with
  | nil =>
    rw [solveAll, List.mem_singleton] at member
    subst member
    exact ⟨fun _ _ kept => kept, fun symbol occurs => covered symbol (safe symbol occurs), by simp⟩
  | cons premise rest ih =>
    obtain ⟨middle, solved, remaining⟩ := List.mem_flatMap.mp member
    have first := Premise.solve_sound
      (fun symbol needed => covered symbol (safe.1 symbol needed)) solved
    obtain ⟨kept, headCovered, holds⟩ := ih safe.2 (first.covers_append covered) remaining
    refine ⟨fun symbol constant found => kept _ _ (first.kept _ _ found), headCovered, ?_⟩
    intro valuation agrees other occurs
    rcases List.mem_cons.mp occurs with rfl | later
    · exact first.holds valuation fun symbol constant found => agrees _ _ (kept _ _ found)
    · exact holds valuation agrees other later

theorem solveAll_complete {frozen : Store} {valuation : Valuation}
    (agrees : before.Agrees valuation)
    (holds : ∀ premise ∈ premises, premise.Holds store.toSet frozen.toSet valuation) :
    ∃ after ∈ solveAll store frozen premises before, after.Agrees valuation := by
  induction premises generalizing bound before with
  | nil => exact ⟨before, by simp [solveAll], agrees⟩
  | cons premise rest ih =>
    have needed : before.Covers premise.needs :=
      fun symbol occurs => covered symbol (safe.1 symbol occurs)
    obtain ⟨middle, solved, middleAgrees⟩ :=
      Premise.solve_complete needed agrees (holds premise (by simp))
    have first := Premise.solve_sound needed solved
    obtain ⟨after, remaining, afterAgrees⟩ := ih safe.2
      (first.covers_append covered) middleAgrees
      (fun other later => holds other (List.mem_cons_of_mem _ later))
    exact ⟨after, List.mem_flatMap.mpr ⟨middle, solved, remaining⟩, afterAgrees⟩

end

def Clause.Safe (clause : Clause) : Prop := SafeFrom [] clause.head clause.premises

instance (clause : Clause) : Decidable clause.Safe :=
  inferInstanceAs (Decidable (SafeFrom [] clause.head clause.premises))

def Clause.fire (store frozen : Store) (clause : Clause) : List Atom :=
  (solveAll store frozen clause.premises []).map fun bindings =>
    clause.head.ground bindings.valuation

theorem Clause.mem_fire {frozen : Store} {clause : Clause} {atom : Atom} (safe : clause.Safe) :
    atom ∈ clause.fire store frozen ↔
      ∃ valuation, (∀ premise ∈ clause.premises,
          premise.Holds store.toSet frozen.toSet valuation) ∧
        clause.head.ground valuation = atom := by
  have nothingBound : Bindings.Covers [] [] := by simp [Bindings.Covers]
  constructor
  · intro member
    obtain ⟨bindings, solved, rfl⟩ := List.mem_map.mp member
    obtain ⟨_, _, holds⟩ := solveAll_sound safe nothingBound solved
    exact ⟨bindings.valuation, holds _ bindings.agrees_valuation, rfl⟩
  · rintro ⟨valuation, holds, rfl⟩
    obtain ⟨bindings, solved, agrees⟩ :=
      solveAll_complete safe nothingBound (Bindings.agrees_nil valuation) holds
    obtain ⟨_, headCovered, _⟩ := solveAll_sound safe nothingBound solved
    refine List.mem_map.mpr ⟨bindings, solved, Atom.ground_congr _ ?_⟩
    exact Bindings.valuation_eq_of_covers headCovered agrees

end Datalog

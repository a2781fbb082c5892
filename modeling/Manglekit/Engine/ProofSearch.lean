import Manglekit.Datalog.Matching
import Manglekit.Engine.Explain

/-!
# What the proof search finds

The search never fails on a stored fact, so its choices depend neither on the depth nor on
the number of steps: it always takes the first match of the first rule that has one.  A test
with an unbound variable is passed over, and the matches are therefore called loose.
-/

namespace Manglekit.Engine

open Core Datalog

/-! ## Substitutions that grow -/

variable {before after subst : Substitution} {patterns actuals : List Term} {fact : Datalog.Atom}

section Substitutions

def Extends (before after : Substitution) : Prop :=
  ∀ symbol term, before.lookup symbol = some term → after.lookup symbol = some term

def Closed (subst : Substitution) : Prop :=
  ∀ symbol term, subst.lookup symbol = some term → isGroundTerm term = true

def Covered (subst : Substitution) (symbols : List String) : Prop :=
  ∀ symbol ∈ symbols, ∃ term, subst.lookup symbol = some term

theorem Extends.refl (subst : Substitution) : Extends subst subst := fun _ _ found => found

theorem Extends.trans {first second third : Substitution} (earlier : Extends first second)
    (later : Extends second third) : Extends first third :=
  fun symbol term found => later symbol term (earlier symbol term found)

theorem applySubstTerm_of_ground {term : Term} (ground : isGroundTerm term = true)
    (subst : Substitution) : applySubstTerm subst term = term := by
  cases term with
  | const constant => rfl
  | var symbol => simp [isGroundTerm] at ground

section

variable (closed : Closed before) (grown : Extends before after)

include closed grown

theorem applySubstTerm_of_extends (term : Term) :
    applySubstTerm after (applySubstTerm before term) = applySubstTerm after term := by
  cases term with
  | const constant => rfl
  | var symbol =>
    rcases found : before.lookup symbol with _ | bound
    · simp [applySubstTerm, found]
    · have applied : applySubstTerm before (.var symbol) = bound := by
        simp [applySubstTerm, found]
      have appliedAfter : applySubstTerm after (.var symbol) = bound := by
        simp [applySubstTerm, grown symbol bound found]
      rw [applied, appliedAfter, applySubstTerm_of_ground (closed symbol bound found)]

theorem applySubstToArgs_of_extends (args : List Term) :
    applySubstToArgs (applySubstToArgs args before) after = applySubstToArgs args after := by
  simp only [applySubstToArgs, List.map_map, Function.comp_def,
    applySubstTerm_of_extends closed grown]

end

theorem applySubstToArgs_of_covered {args : List Term}
    (covered : Covered before (args.flatMap Term.vars)) (grown : Extends before after) :
    applySubstToArgs args after = applySubstToArgs args before := by
  refine List.map_congr_left fun arg member => ?_
  cases arg with
  | const constant => rfl
  | var symbol =>
    obtain ⟨term, found⟩ := covered symbol (List.mem_flatMap.mpr ⟨_, member, by simp [Term.vars]⟩)
    simp [applySubstTerm, found, grown symbol term found]

theorem applySubstToArgs_of_ground {args : List Term} (ground : isGround args = true)
    (subst : Substitution) : applySubstToArgs args subst = args := by
  have fixed : ∀ arg ∈ args, applySubstTerm subst arg = id arg := fun arg member =>
    applySubstTerm_of_ground (List.all_eq_true.mp ground arg member) subst
  rw [applySubstToArgs, List.map_congr_left fixed, List.map_id]

theorem vars_applySubstTerm (closed : Closed subst) (term : Term) :
    ∀ symbol ∈ (applySubstTerm subst term).vars, symbol ∈ term.vars := by
  cases term with
  | const constant => simp [applySubstTerm]
  | var name =>
    rcases found : subst.lookup name with _ | bound
    · simp [applySubstTerm, found]
    · have ground := closed name bound found
      cases bound with
      | const constant => simp [applySubstTerm, found, Term.vars]
      | var other => simp [isGroundTerm] at ground

end Substitutions

/-! ## Unification with a fact -/

structure Unified (patterns actuals : List Term) (before after : Substitution) : Prop where
  kept : Extends before after
  covered : Covered after (patterns.flatMap Term.vars)
  applied : applySubstToArgs patterns after = actuals
  fresh : ∀ symbol term, after.lookup symbol = some term →
    before.lookup symbol = some term ∨ symbol ∈ patterns.flatMap Term.vars ∧ term ∈ actuals

theorem unifyTerm_sound {pattern actual : Term}
    (unified : unifyTerm pattern actual before = some after) :
    Unified [pattern] [actual] before after := by
  cases pattern with
  | const constant =>
    simp only [unifyTerm, Option.ite_none_right_eq_some, Option.some.injEq] at unified
    obtain ⟨rfl, rfl⟩ := unified
    exact ⟨.refl _, by simp [Covered, Term.vars], rfl, fun _ _ found => .inl found⟩
  | var symbol =>
    simp only [unifyTerm] at unified
    split at unified
    next bound found =>
      simp only [Option.ite_none_right_eq_some, Option.some.injEq] at unified
      obtain ⟨rfl, rfl⟩ := unified
      exact ⟨.refl _, by simp [Covered, Term.vars, found],
        by simp [applySubstToArgs, applySubstTerm, found], fun _ _ found => .inl found⟩
    next unbound =>
      cases unified
      refine ⟨fun other term found => ?_, by simp [Covered, Term.vars],
        by simp [applySubstToArgs, applySubstTerm], fun other term found => ?_⟩
      · have different : other ≠ symbol := by
          rintro rfl
          simp [unbound] at found
        rwa [Bindings.lookup_cons_of_ne different]
      · by_cases same : other = symbol
        · subst same
          exact .inr ⟨by simp [Term.vars], by simpa [eq_comm] using found⟩
        · rw [Bindings.lookup_cons_of_ne same] at found
          exact .inl found

theorem Unified.append {morePatterns moreActuals : List Term} {middle : Substitution}
    (first : Unified patterns actuals before middle)
    (second : Unified morePatterns moreActuals middle after) :
    Unified (patterns ++ morePatterns) (actuals ++ moreActuals) before after where
  kept := first.kept.trans second.kept
  covered symbol occurs := by
    rw [List.flatMap_append, List.mem_append] at occurs
    rcases occurs with earlier | later
    · obtain ⟨term, found⟩ := first.covered symbol earlier
      exact ⟨term, second.kept symbol term found⟩
    · exact second.covered symbol later
  applied := by
    rw [applySubstToArgs, List.map_append]
    exact congrArg₂ (· ++ ·)
      ((applySubstToArgs_of_covered first.covered second.kept).trans first.applied)
      second.applied
  fresh symbol term found := by
    rw [List.flatMap_append, List.mem_append, List.mem_append]
    rcases second.fresh symbol term found with earlier | ⟨occurs, member⟩
    · exact (first.fresh symbol term earlier).imp id fun new => ⟨.inl new.1, .inl new.2⟩
    · exact .inr ⟨.inr occurs, .inr member⟩

theorem unifyAtomArgs_sound (lengths : patterns.length = actuals.length)
    (unified : unifyAtomArgs patterns actuals before = some after) :
    Unified patterns actuals before after := by
  induction patterns generalizing actuals before with
  | nil =>
    obtain rfl : actuals = [] := List.length_eq_zero_iff.mp lengths.symm
    obtain rfl := Option.some.inj unified
    exact ⟨.refl _, by simp [Covered], rfl, fun _ _ found => .inl found⟩
  | cons pattern patterns ih =>
    cases actuals with
    | nil => simp at lengths
    | cons actual actuals =>
      obtain ⟨middle, first, rest⟩ := Option.bind_eq_some_iff.mp unified
      exact (unifyTerm_sound first).append (ih (Nat.succ.inj lengths) rest)

theorem Unified.closed (unified : Unified patterns actuals before after) (closed : Closed before)
    (ground : isGround actuals = true) : Closed after := by
  intro symbol term found
  rcases unified.fresh symbol term found with earlier | ⟨-, member⟩
  · exact closed symbol term earlier
  · exact List.all_eq_true.mp ground term member

/-- A pattern without variables unifies with itself only. -/
theorem unifyAtomArgs_of_ground (ground : isGround patterns = true)
    (lengths : patterns.length = actuals.length) (subst : Substitution) :
    unifyAtomArgs patterns actuals subst = if patterns = actuals then some subst else none := by
  induction patterns generalizing actuals with
  | nil =>
    obtain rfl : actuals = [] := List.length_eq_zero_iff.mp lengths.symm
    rfl
  | cons pattern patterns ih =>
    cases actuals with
    | nil => simp at lengths
    | cons actual actuals =>
      simp only [isGround, List.all_cons, Bool.and_eq_true] at ground
      cases pattern with
      | var symbol => simp [isGroundTerm] at ground
      | const constant =>
        have rest := ih ground.2 (Nat.succ.inj lengths)
        by_cases same : Term.const constant = actual
        · simp [unifyAtomArgs, unifyTerm, same, rest]
        · simp [unifyAtomArgs, unifyTerm, same]

/-! ## Matching is complete -/

/-- An extension of the bindings by constants that turns the patterns into the arguments. -/
structure Matching (patterns actuals : List Term) (before solution : Substitution) : Prop where
  closed : Closed solution
  kept : Extends before solution
  applied : applySubstToArgs patterns solution = actuals

variable {solution : Substitution}

/-- The bindings made for one argument stay below every solution. -/
theorem unifyTerm_complete {pattern actual : Term}
    (ground : isGroundTerm actual = true) (kept : Extends before solution)
    (applied : applySubstTerm solution pattern = actual) :
    ∃ after, unifyTerm pattern actual before = some after ∧ Extends after solution := by
  cases pattern with
  | const constant => exact ⟨before, by simpa [unifyTerm, applySubstTerm] using applied, kept⟩
  | var symbol =>
    have bound : solution.lookup symbol = some actual := by
      rcases found : solution.lookup symbol with _ | term
      · simp [← applied, applySubstTerm, found, isGroundTerm] at ground
      · simpa [applySubstTerm, found] using applied
    rcases found : before.lookup symbol with _ | term
    · refine ⟨(symbol, actual) :: before, by simp [unifyTerm, found], fun other term held => ?_⟩
      by_cases same : other = symbol
      · subst same
        simpa [bound] using held
      · exact kept other term (by rwa [Bindings.lookup_cons_of_ne same] at held)
    · obtain rfl : term = actual := Option.some.inj ((kept symbol term found).symm.trans bound)
      exact ⟨before, by simp [unifyTerm, found], kept⟩

theorem unifyAtomArgs_complete (ground : isGround actuals = true)
    (kept : Extends before solution) (applied : applySubstToArgs patterns solution = actuals) :
    ∃ after, unifyAtomArgs patterns actuals before = some after ∧ Extends after solution := by
  subst applied
  induction patterns generalizing before with
  | nil => exact ⟨before, rfl, kept⟩
  | cons pattern patterns ih =>
    simp only [applySubstToArgs, isGround, List.map_cons, List.all_cons, Bool.and_eq_true] at ground
    obtain ⟨middle, first, below⟩ := unifyTerm_complete ground.1 kept rfl
    obtain ⟨after, rest, least⟩ := ih below ground.2
    exact ⟨after, by simpa [applySubstToArgs, unifyAtomArgs, first] using rest, least⟩

theorem unifyAtomArgs_least (lengths : patterns.length = actuals.length)
    (ground : isGround actuals = true) (closed : Closed before) :
    ((unifyAtomArgs patterns actuals before).isSome ↔
      ∃ solution, Matching patterns actuals before solution) ∧
    ∀ after, unifyAtomArgs patterns actuals before = some after →
      Matching patterns actuals before after ∧
      ∀ solution, Matching patterns actuals before solution → Extends after solution := by
  have sound : ∀ after, unifyAtomArgs patterns actuals before = some after →
      Matching patterns actuals before after := fun after success =>
    have unified := unifyAtomArgs_sound lengths success
    ⟨unified.closed closed ground, unified.kept, unified.applied⟩
  refine ⟨⟨fun success => ?_, fun ⟨solution, solves⟩ => ?_⟩, fun after success =>
    ⟨sound after success, fun solution solves => ?_⟩⟩
  · obtain ⟨after, success⟩ := Option.isSome_iff_exists.mp success
    exact ⟨after, sound after success⟩
  · obtain ⟨after, success, -⟩ := unifyAtomArgs_complete ground solves.kept solves.applied
    simp [success]
  · obtain ⟨other, found, least⟩ := unifyAtomArgs_complete ground solves.kept solves.applied
    rw [success] at found
    exact Option.some.inj found ▸ least

/-- A repeated variable beside one that is bound already. -/
theorem repeated_variable_matched :
    unifyAtomArgs [.var "X", .var "Y", .var "X"]
        [.const (.number 1), .const (.number 2), .const (.number 1)]
        [("Y", .const (.number 2))] =
      some [("X", .const (.number 1)), ("Y", .const (.number 2))] ∧
    ∀ solution, Matching [.var "X", .var "Y", .var "X"]
        [.const (.number 1), .const (.number 2), .const (.number 1)]
        [("Y", .const (.number 2))] solution →
      Extends [("X", .const (.number 1)), ("Y", .const (.number 2))] solution := by
  have closed : Closed [("Y", .const (.number 2))] := by
    intro symbol term found
    rw [List.lookup_cons] at found
    split at found
    · obtain rfl := Option.some.inj found
      rfl
    · simp at found
  refine ⟨by decide, fun solution => ((unifyAtomArgs_least ?_ ?_ closed).2 _ ?_).2 solution⟩ <;>
    decide

/-! ## Loose matches -/

variable {premise : Datalog.Atom} {rest : List Premise} {premises : List Premise}

section Matches

variable (store : Store)

def GroundStore : Prop := ∀ fact ∈ store, isGround fact.args = true

instance : Decidable (GroundStore store) :=
  inferInstanceAs (Decidable (∀ fact ∈ store.facts, isGround fact.args = true))

/-- The ways to unify a premise with a stored fact, in the order of the store. -/
def candidates (premise : Datalog.Atom) (subst : Substitution) : List Substitution :=
  (store.getFacts premise.predicate).filterMap fun fact =>
    unifyAtomArgs (applySubstToArgs premise.args subst) fact.args subst

/-- Whether a test fails with its variables bound.  With an unbound one it never does. -/
def refuted (subst : Substitution) : Premise → Bool
  | .atom _ => false
  | .negAtom premise =>
    isGround (applySubstToArgs premise.args subst) &&
      store.contains ⟨premise.symbol, applySubstToArgs premise.args subst⟩
  | .eq left right =>
    isGroundTerm (applySubstTerm subst left) && isGroundTerm (applySubstTerm subst right) &&
      decide (applySubstTerm subst left ≠ applySubstTerm subst right)
  | .ineq left right =>
    isGroundTerm (applySubstTerm subst left) && isGroundTerm (applySubstTerm subst right) &&
      decide (applySubstTerm subst left = applySubstTerm subst right)

/-- All ways to match the premises, in the order of the search.  Tests only have to hold
where they stand. -/
def looseMatches : List Premise → Substitution → List Substitution
  | [], subst => [subst]
  | .atom premise :: rest, subst =>
    (candidates store premise subst).flatMap (looseMatches rest)
  | test :: rest, subst => if refuted store subst test then [] else looseMatches rest subst

structure RuleMatch where
  clause : SourceClause
  head : Substitution
  final : Substitution
  deriving DecidableEq

def ruleMatches (fact : Datalog.Atom) (clause : SourceClause) : List RuleMatch :=
  if clause.head.predicate ≠ fact.predicate ∨ clause.isFact then []
  else
    match unifyAtomArgs clause.head.args fact.args [] with
    | none => []
    | some head => (looseMatches store clause.premises head).map (⟨clause, head, ·⟩)

def firstMatch (rules : List SourceClause) (fact : Datalog.Atom) : Option RuleMatch :=
  (rules.flatMap (ruleMatches store fact)).head?

variable {store}

theorem getFacts_args (visited : fact ∈ store.getFacts premise.predicate) :
    fact ∈ store ∧ fact.symbol = premise.symbol ∧
      (applySubstToArgs premise.args subst).length = fact.args.length := by
  obtain ⟨stored, same⟩ := Store.mem_getFacts.mp visited
  obtain ⟨sameSymbol, sameArity⟩ := PredicateSym.mk.inj same
  exact ⟨stored, sameSymbol, by simp [applySubstToArgs, sameArity]⟩

variable (store) in
structure Chosen (premise fact : Datalog.Atom) (before after : Substitution) : Prop where
  stored : fact ∈ store
  kept : Extends before after
  closed : Closed after
  covered : Covered after premise.vars
  applied : (⟨premise.symbol, applySubstToArgs premise.args after⟩ : Datalog.Atom) = fact
  fresh : ∀ symbol term, after.lookup symbol = some term →
    before.lookup symbol = some term ∨ symbol ∈ premise.vars

variable (ground : GroundStore store)
include ground

theorem chosen_of_unify (closed : Closed before) (visited : fact ∈ store.getFacts premise.predicate)
    (unified : unifyAtomArgs (applySubstToArgs premise.args before) fact.args before = some after) :
    Chosen store premise fact before after := by
  obtain ⟨stored, sameSymbol, lengths⟩ := getFacts_args visited
  have unification := unifyAtomArgs_sound lengths unified
  refine ⟨stored, unification.kept, unification.closed closed (ground fact stored),
    fun symbol occurs => ?_, ?_, fun symbol term found => ?_⟩
  · rcases found : before.lookup symbol with _ | term
    · obtain ⟨arg, member, inArg⟩ := List.mem_flatMap.mp occurs
      refine unification.covered symbol (List.mem_flatMap.mpr ⟨applySubstTerm before arg,
        List.mem_map_of_mem member, ?_⟩)
      cases arg with
      | const constant => simp [Term.vars] at inArg
      | var name =>
        obtain rfl : symbol = name := by simpa [Term.vars] using inArg
        simp [applySubstTerm, found, Term.vars]
    · exact ⟨term, unification.kept symbol term found⟩
  · rw [← applySubstToArgs_of_extends closed unification.kept, unification.applied, ← sameSymbol]
  · refine (unification.fresh symbol term found).imp id fun new => ?_
    obtain ⟨_, member, inArg⟩ := List.mem_flatMap.mp new.1
    obtain ⟨arg, argMember, rfl⟩ := List.mem_map.mp member
    exact List.mem_flatMap.mpr ⟨arg, argMember, vars_applySubstTerm closed arg symbol inArg⟩

omit ground in
theorem filterMap_of_nodup {α β : Type} [DecidableEq α] {items : List α} (nodup : items.Nodup)
    (wanted : α) (answer : β) :
    (items.filterMap fun item => if item = wanted then some answer else none) =
      if wanted ∈ items then [answer] else [] := by
  induction items with
  | nil => rfl
  | cons item rest ih =>
    obtain ⟨fresh, distinct⟩ := List.nodup_cons.mp nodup
    by_cases same : item = wanted
    · subst same
      simp [ih distinct, fresh]
    · simp [same, Ne.symm same, ih distinct]

omit ground in
/-- A premise without variables is matched by itself. -/
theorem candidates_of_ground {subst : Substitution}
    (closed : isGround (applySubstToArgs premise.args subst) = true) :
    candidates store premise subst =
      if store.contains ⟨premise.symbol, applySubstToArgs premise.args subst⟩ then [subst]
      else [] := by
  have visits : (⟨premise.symbol, applySubstToArgs premise.args subst⟩ : Datalog.Atom) ∈
      store.getFacts premise.predicate ↔
        (⟨premise.symbol, applySubstToArgs premise.args subst⟩ : Datalog.Atom) ∈ store := by
    simp [Store.mem_getFacts, Datalog.Atom.predicate, applySubstToArgs]
  have unifies : ∀ fact ∈ store.getFacts premise.predicate,
      unifyAtomArgs (applySubstToArgs premise.args subst) fact.args subst =
        if fact = ⟨premise.symbol, applySubstToArgs premise.args subst⟩ then some subst
        else none := by
    intro fact visited
    obtain ⟨-, sameSymbol, lengths⟩ := getFacts_args visited
    rw [unifyAtomArgs_of_ground closed lengths]
    refine if_congr ⟨fun same => ?_, fun same => by rw [same]⟩ rfl rfl
    rw [same, ← sameSymbol]
  have nodup : (store.getFacts premise.predicate).Nodup := store.distinct.filter _
  rw [candidates, List.filterMap_congr unifies, filterMap_of_nodup nodup]
  simp [Store.contains, visits]

omit ground in
theorem mem_candidates_iff {before after : Substitution} :
    after ∈ candidates store premise before ↔
      ∃ fact ∈ store.getFacts premise.predicate,
        unifyAtomArgs (applySubstToArgs premise.args before) fact.args before = some after := by
  simp only [candidates, List.mem_filterMap]

/-- What a loose match establishes: it binds the variables of the positive premises only. -/
structure Grown (premises : List Premise) (before after : Substitution) : Prop where
  kept : Extends before after
  closed : Closed after
  fresh : ∀ symbol term, after.lookup symbol = some term →
    before.lookup symbol = some term ∨ symbol ∈ premises.flatMap Premise.binds

omit ground in
theorem Grown.skip {premise : Premise} {before after : Substitution}
    (grown : Grown rest before after) : Grown (premise :: rest) before after :=
  ⟨grown.kept, grown.closed, fun symbol term bound =>
    (grown.fresh symbol term bound).imp id (List.mem_append_right _)⟩

theorem grown_of_looseMatch (closed : Closed before)
    (found : after ∈ looseMatches store premises before) : Grown premises before after := by
  induction premises generalizing before with
  | nil =>
    obtain rfl := List.mem_singleton.mp found
    exact ⟨.refl _, closed, fun _ _ bound => .inl bound⟩
  | cons premise rest ih =>
    cases premise with
    | atom premise =>
      obtain ⟨middle, candidate, later⟩ := List.mem_flatMap.mp found
      obtain ⟨fact, visited, unified⟩ := mem_candidates_iff.mp candidate
      have chosen := chosen_of_unify ground closed visited unified
      have grown := ih chosen.closed later
      refine ⟨chosen.kept.trans grown.kept, grown.closed, fun symbol term bound => ?_⟩
      rw [List.flatMap_cons, List.mem_append]
      rcases grown.fresh symbol term bound with earlier | new
      · exact (chosen.fresh symbol term earlier).imp id .inl
      · exact .inr (.inr new)
    | _ =>
      simp only [looseMatches] at found
      split at found
      · simp at found
      · exact (ih closed found).skip

end Matches

section FirstMatch

variable {rules : List SourceClause} {store : Store}

theorem firstMatch_spec {found : RuleMatch} (first : firstMatch store rules fact = some found) :
    found.clause ∈ rules ∧ found.clause.head.predicate = fact.predicate ∧
      unifyAtomArgs found.clause.head.args fact.args [] = some found.head ∧
      found.final ∈ looseMatches store found.clause.premises found.head := by
  obtain ⟨clause, member, listed⟩ := List.mem_flatMap.mp (List.mem_of_mem_head? first)
  unfold ruleMatches at listed
  split at listed
  · simp at listed
  next applies =>
    split at listed
    · simp at listed
    next head unified =>
      obtain ⟨final, matched, rfl⟩ := List.mem_map.mp listed
      exact ⟨member, not_not.mp (not_or.mp applies).1, unified, matched⟩

variable (ground : GroundStore store)
include ground

/-- The substitution of a match grounds the head, and binds only the variables of the head
and of the positive premises. -/
structure MatchSpec (fact : Datalog.Atom) (found : RuleMatch) : Prop where
  closed : Closed found.final
  head : (⟨found.clause.head.symbol,
    applySubstToArgs found.clause.head.args found.final⟩ : Datalog.Atom) = fact
  bound : ∀ symbol term, found.final.lookup symbol = some term →
    symbol ∈ found.clause.head.vars ∨ symbol ∈ found.clause.premises.flatMap Premise.binds

theorem matchSpec (stored : fact ∈ store) {found : RuleMatch}
    (first : firstMatch store rules fact = some found) : MatchSpec fact found := by
  obtain ⟨-, samePredicate, unified, matched⟩ := firstMatch_spec first
  obtain ⟨sameSymbol, lengths⟩ := PredicateSym.mk.inj samePredicate
  have unification := unifyAtomArgs_sound lengths unified
  have closed := unification.closed (by simp [Closed]) (ground fact stored)
  have grown := grown_of_looseMatch ground closed matched
  refine ⟨grown.closed, ?_, fun symbol term found => ?_⟩
  · rw [applySubstToArgs_of_covered unification.covered grown.kept, unification.applied, sameSymbol]
  · refine (grown.fresh symbol term found).imp_left fun inHead => ?_
    exact (unification.fresh symbol term inHead).elim (by simp) fun new => new.1

end FirstMatch

/-! ## The search -/

variable {facts : List Datalog.Atom}

section Search

/-- The result of an action, whatever the number of steps made before. -/
def Always {α : Type} (action : ProverM α) (holds : α → Prop) : Prop :=
  ∀ steps, holds (action.run steps).1

theorem Always.pure {α : Type} {holds : α → Prop} {result : α} (fact : holds result) :
    Always (pure result) holds := fun _ => fact

theorem Always.bind {α β : Type} {action : ProverM α} {next : α → ProverM β}
    {between : α → Prop} {holds : β → Prop} (first : Always action between)
    (second : ∀ result, between result → Always (next result) holds) :
    Always (action >>= next) holds := fun steps =>
  second _ (first steps) (action.run steps).2

/-- The fact that a node proves; tests prove none. -/
def Derivation.proved : Derivation → Option Datalog.Atom
  | .rule atom _ _ _ => some atom
  | .fact atom => some atom
  | .negation _ => none
  | .eq _ _ => none
  | .ineq _ _ => none
  | .depthLimit atom => some atom

/-- A child stands for a premise of a match: it proves the premise, or records the test. -/
def Answers (final : Substitution) : Premise → Derivation → Prop
  | .atom premise, child =>
    child.proved = some ⟨premise.symbol, applySubstToArgs premise.args final⟩
  | .negAtom _, .negation _ => True
  | .eq _ _, .eq _ _ => True
  | .ineq _ _, .ineq _ _ => True
  | _, _ => False

def testNode (subst : Substitution) : Premise → Derivation
  | .atom premise => .fact premise
  | .negAtom premise => .negation ⟨premise.symbol, applySubstToArgs premise.args subst⟩
  | .eq left right => .eq (applySubstTerm subst left) (applySubstTerm subst right)
  | .ineq left right => .ineq (applySubstTerm subst left) (applySubstTerm subst right)

section Tests

variable {test : Premise} (isTest : ∀ premise, test ≠ .atom premise)
include isTest

theorem solvePremises_test (store : Store) (prover : Datalog.Atom → ProverM (Option Derivation))
    (rest : List Premise) (subst : Substitution) :
    solvePremises store prover (test :: rest) subst =
      if refuted store subst test then pure none
      else followedBy (testNode subst test) (solvePremises store prover rest subst) := by
  cases test with
  | atom premise => exact absurd rfl (isTest premise)
  | _ => rfl

theorem looseMatches_test (store : Store) (rest : List Premise) (subst : Substitution) :
    looseMatches store (test :: rest) subst =
      if refuted store subst test then [] else looseMatches store rest subst := by
  cases test with
  | atom premise => exact absurd rfl (isTest premise)
  | _ => rfl

theorem answers_testNode (final subst : Substitution) :
    Answers final test (testNode subst test) := by
  cases test with
  | atom premise => exact absurd rfl (isTest premise)
  | _ => trivial

theorem proved_testNode (subst : Substitution) : (testNode subst test).proved = none := by
  cases test with
  | atom premise => exact absurd rfl (isTest premise)
  | _ => rfl

end Tests

/-- The search finds the given first match, with children of the given kind. -/
def Solves (good : Derivation → Prop) (premises : List Premise) :
    Option Substitution → Option (List Derivation) → Prop
  | none, result => result = none
  | some final, result => ∃ children, result = some children ∧
      List.Forall₂ (Answers final) premises children ∧ ∀ child ∈ children, good child

variable {store : Store} {prover : Datalog.Atom → ProverM (Option Derivation)}
  {good : Derivation → Prop}

theorem always_followedBy {premise : Premise} {first : Option Substitution} {child : Derivation}
    {action : ProverM (Option (List Derivation))}
    (answers : ∀ final ∈ first, Answers final premise child) (goodChild : good child)
    (solved : Always action (Solves good rest first)) :
    Always (followedBy child action) (Solves good (premise :: rest) first) := by
  refine Always.bind solved fun result solves => Always.pure ?_
  cases first with
  | none =>
    obtain rfl : result = none := solves
    rfl
  | some final =>
    obtain ⟨children, rfl, aligned, allGood⟩ := solves
    exact ⟨child :: children, rfl, .cons (answers final rfl) aligned,
      List.forall_mem_cons.mpr ⟨goodChild, allGood⟩⟩

variable (ground : GroundStore store)
  (proves : ∀ fact ∈ store, Always (prover fact) fun result =>
    ∃ child, result = some child ∧ child.proved = some fact ∧ good child)
  (tests : ∀ child : Derivation, child.proved = none → good child)
include ground proves tests

omit tests in
theorem always_tryCandidates {subst : Substitution} (closed : Closed subst)
    (continues : ∀ trial, Closed trial → Always (solvePremises store prover rest trial)
      (Solves good rest (looseMatches store rest trial).head?))
    (visited : ∀ fact ∈ facts, fact ∈ store.getFacts premise.predicate) :
    Always (tryCandidates prover (solvePremises store prover rest)
        (applySubstToArgs premise.args subst) subst facts)
      (Solves good (.atom premise :: rest) ((facts.filterMap fun fact =>
        unifyAtomArgs (applySubstToArgs premise.args subst) fact.args subst).flatMap
          (looseMatches store rest)).head?) := by
  induction facts with
  | nil => exact Always.pure rfl
  | cons fact facts ih =>
    have further := ih fun other member => visited other (List.mem_cons_of_mem _ member)
    rcases unified : unifyAtomArgs (applySubstToArgs premise.args subst) fact.args subst
      with _ | trial
    · simpa [tryCandidates, List.filterMap_cons, unified] using further
    · have chosen := chosen_of_unify ground closed (visited fact List.mem_cons_self) unified
      simp only [tryCandidates, List.filterMap_cons, unified, List.flatMap_cons]
      refine Always.bind (proves fact chosen.stored) ?_
      rintro _ ⟨child, rfl, proved, goodChild⟩
      refine Always.bind (continues trial chosen.closed) fun result solves => ?_
      rcases matched : looseMatches store rest trial with _ | ⟨final, others⟩
      · obtain rfl : result = none := by simpa [matched, Solves] using solves
        simpa using further
      · obtain ⟨children, rfl, aligned, allGood⟩ : ∃ children, result = some children ∧
            List.Forall₂ (Answers final) rest children ∧ ∀ child ∈ children, good child := by
          simpa [matched, Solves] using solves
        refine Always.pure ⟨child :: children, rfl, .cons ?_ aligned,
          List.forall_mem_cons.mpr ⟨goodChild, allGood⟩⟩
        have grown := grown_of_looseMatch ground chosen.closed
          (show final ∈ looseMatches store rest trial by simp [matched])
        rw [Answers, proved, applySubstToArgs_of_covered chosen.covered grown.kept, chosen.applied]

theorem always_solvePremises (closed : Closed subst) :
    Always (solvePremises store prover premises subst)
      (Solves good premises (looseMatches store premises subst).head?) := by
  induction premises generalizing subst with
  | nil => exact Always.pure ⟨[], rfl, .nil, by simp⟩
  | cons premise rest ih =>
    cases premise with
    | atom premise =>
      simp only [solvePremises, looseMatches]
      split
      next groundPremise =>
        rw [candidates_of_ground groundPremise]
        split
        next contained =>
          refine Always.bind (proves _ (of_decide_eq_true contained)) ?_
          rintro _ ⟨child, rfl, proved, goodChild⟩
          rw [List.flatMap_singleton]
          refine always_followedBy (fun final found => ?_) goodChild (ih closed)
          have grown := grown_of_looseMatch ground closed (List.mem_of_mem_head? found)
          rw [Answers, proved, ← applySubstToArgs_of_extends closed grown.kept,
            applySubstToArgs_of_ground groundPremise]
        · exact Always.pure rfl
      · exact always_tryCandidates ground proves closed
          (fun trial closedTrial => ih closedTrial) fun fact member => member
    | _ =>
      rw [solvePremises_test (by simp), looseMatches_test (by simp)]
      split
      · exact Always.pure rfl
      · exact always_followedBy (fun final _ => answers_testNode (by simp) final subst)
          (tests _ (proved_testNode (by simp) subst)) (ih closed)

/-- The search fires the given first match. -/
def Fires (good : Derivation → Prop) (fact : Datalog.Atom) :
    Option RuleMatch → Option Derivation → Prop
  | none, result => result = none
  | some found, result => ∃ children,
      result = some (.rule fact found.clause found.head children) ∧
        List.Forall₂ (Answers found.final) found.clause.premises children ∧
        ∀ child ∈ children, good child

theorem always_tryRules (groundFact : isGround fact.args = true) (rules : List SourceClause) :
    Always (tryRules store prover fact rules) (Fires good fact (firstMatch store rules fact)) := by
  induction rules with
  | nil => exact Always.pure rfl
  | cons clause rules ih =>
    have skipped (none : ruleMatches store fact clause = []) :
        firstMatch store (clause :: rules) fact = firstMatch store rules fact := by
      simp [firstMatch, none]
    rw [tryRules]
    split
    next other => rwa [skipped (by simp only [ruleMatches, if_pos other])]
    next applies =>
      rcases unified : unifyAtomArgs clause.head.args fact.args [] with _ | head
      · rwa [skipped (by simp only [ruleMatches, if_neg applies, unified])]
      · simp only
        have lengths : clause.head.args.length = fact.args.length := by
          have same := not_not.mp (not_or.mp applies).1
          exact (PredicateSym.mk.inj same).2
        have closed : Closed head := (unifyAtomArgs_sound lengths unified).closed
          (by simp [Closed]) groundFact
        have listed : ruleMatches store fact clause =
            (looseMatches store clause.premises head).map (⟨clause, head, ·⟩) := by
          simp only [ruleMatches, if_neg applies, unified]
        refine Always.bind (always_solvePremises ground proves tests closed) fun result solves => ?_
        rcases matched : looseMatches store clause.premises head with _ | ⟨final, others⟩
        · obtain rfl : result = none := by simpa [matched, Solves] using solves
          rwa [skipped (by rw [listed, matched, List.map_nil])]
        · obtain ⟨children, rfl, aligned, allGood⟩ : ∃ children, result = some children ∧
              List.Forall₂ (Answers final) clause.premises children ∧
              ∀ child ∈ children, good child := by
            simpa [matched, Solves] using solves
          have first : firstMatch store (clause :: rules) fact = some ⟨clause, head, final⟩ := by
            simp [firstMatch, listed, matched]
          rw [first]
          exact Always.pure ⟨children, rfl, aligned, allGood⟩

end Search

/-! ## Reconstructed proofs -/

section Reconstructed

variable (rules : List SourceClause) (store : Store)

/-- The proofs that the search can return: each rule is the first match of its fact, and each
base fact has no match. -/
inductive Reconstructed : Derivation → Prop
  | rule {fact : Datalog.Atom} {found : RuleMatch} {children : List Derivation}
      (stored : fact ∈ store) (first : firstMatch store rules fact = some found)
      (aligned : List.Forall₂ (Answers found.final) found.clause.premises children)
      (below : ∀ child ∈ children, Reconstructed child) :
      Reconstructed (.rule fact found.clause found.head children)
  | fact {fact : Datalog.Atom} (stored : fact ∈ store)
      (unmatched : firstMatch store rules fact = none) : Reconstructed (.fact fact)
  | depthLimit {fact : Datalog.Atom} (stored : fact ∈ store) : Reconstructed (.depthLimit fact)
  | test {child : Derivation} (unproved : child.proved = none) : Reconstructed child

variable {rules store}

theorem run_prove_succ (levels : Nat) (fact : Datalog.Atom) (steps : Nat) :
    ((prove rules store (levels + 1) fact).run steps).1 =
      if maxExplainSteps < steps + 1 then some (.depthLimit fact)
      else
        match ((tryRules store (prove rules store levels) fact rules).run (steps + 1)).1 with
        | some derivation => some derivation
        | none => if store.contains fact then some (.fact fact) else none := by
  rw [prove]
  change ((if maxExplainSteps < steps + 1 then Pure.pure (some (Derivation.depthLimit fact))
    else _ : ProverM (Option Derivation)).run (steps + 1)).1 = _
  split
  · rfl
  · change ((match ((tryRules store (prove rules store levels) fact rules).run (steps + 1)).1 with
      | some derivation => Pure.pure (some derivation)
      | none => _ : ProverM (Option Derivation)).run _).1 = _
    split <;> rfl

theorem always_prove (ground : GroundStore store) (stored : fact ∈ store) (levels : Nat) :
    Always (prove rules store levels fact) fun result =>
      ∃ tree, result = some tree ∧ tree.proved = some fact ∧ Reconstructed rules store tree := by
  induction levels generalizing fact with
  | zero => exact fun steps => ⟨_, rfl, rfl, .depthLimit stored⟩
  | succ levels ih =>
    have searched := always_tryRules ground (fun fact stored => ih stored)
      (fun child unproved => .test unproved) (ground fact stored) rules
    intro steps
    rw [run_prove_succ]
    split
    · exact ⟨_, rfl, rfl, .depthLimit stored⟩
    · specialize searched (steps + 1)
      rcases matched : firstMatch store rules fact with _ | found
      · rw [matched] at searched
        rw [show _ = none from searched]
        exact ⟨_, by simp [Store.contains, stored], rfl, .fact stored matched⟩
      · rw [matched] at searched
        obtain ⟨children, fired, aligned, below⟩ := searched
        rw [fired]
        exact ⟨_, rfl, rfl, .rule stored matched aligned below⟩

theorem via_prove_iff (ground : GroundStore store) (stored : fact ∈ store) {levels steps : Nat}
    {tree : Derivation} (proved : ((prove rules store (levels + 1) fact).run steps).1 = some tree) :
    tree.via = .depthLimit ↔ maxExplainSteps ≤ steps := by
  rw [run_prove_succ] at proved
  split at proved
  next exhausted =>
    obtain rfl := Option.some.inj proved
    exact ⟨fun _ => Nat.lt_succ_iff.mp exhausted, fun _ => rfl⟩
  next budget =>
    have searched : Always (tryRules store (prove rules store levels) fact rules)
        (Fires (Reconstructed rules store) fact (firstMatch store rules fact)) :=
      always_tryRules ground (fun fact stored => always_prove ground stored levels)
        (fun child unproved => .test unproved) (ground fact stored) rules
    specialize searched (steps + 1)
    have within : ¬ maxExplainSteps ≤ steps := fun exhausted =>
      budget (Nat.lt_succ_iff.mpr exhausted)
    refine iff_of_false ?_ within
    rcases matched : firstMatch store rules fact with _ | found
    · rw [matched] at searched
      rw [show _ = none from searched] at proved
      obtain rfl : Derivation.fact fact = tree := by
        simpa [Store.contains, stored] using proved
      exact Via.noConfusion
    · rw [matched] at searched
      obtain ⟨children, fired, -, -⟩ := searched
      rw [fired] at proved
      obtain rfl := Option.some.inj proved
      exact Via.noConfusion

theorem always_explainFacts (ground : GroundStore store) (stored : ∀ fact ∈ facts, fact ∈ store) :
    Always (explainFacts rules store facts) fun trees =>
      List.Forall₂ (fun fact tree => tree.proved = some fact ∧ Reconstructed rules store tree)
        facts trees := by
  induction facts with
  | nil => exact Always.pure .nil
  | cons fact facts ih =>
    refine Always.bind (always_prove ground (stored fact List.mem_cons_self) _) ?_
    rintro _ ⟨tree, rfl, proved⟩
    refine Always.bind (ih fun other member =>
      stored other (List.mem_cons_of_mem _ member)) fun trees others => ?_
    exact Always.pure (.cons proved others)

variable {queryAtom : Datalog.Atom}

theorem explainedFacts_stored (explained : fact ∈ explainedFacts store queryAtom) : fact ∈ store :=
  (Store.mem_getFacts.mp (List.mem_of_mem_filter explained)).1

theorem explainAtom_spec (ground : GroundStore store) (queryAtom : Datalog.Atom) :
    List.Forall₂ (fun fact tree => tree.proved = some fact ∧ Reconstructed rules store tree)
      (explainedFacts store queryAtom) (explainAtom rules store queryAtom) :=
  always_explainFacts ground (fun _ explained => explainedFacts_stored explained) 0

theorem reconstructed_of_mem_explainAtom (ground : GroundStore store)
    {tree : Derivation} (explained : tree ∈ explainAtom rules store queryAtom) :
    Reconstructed rules store tree := by
  have spec : List.Forall₂ _ _ (explainAtom rules store queryAtom) :=
    explainAtom_spec ground queryAtom
  have each := spec.flip.imp fun tree fact proof => And.symm proof
  exact ((List.forall₂_and_left _ _).mp each).1 tree explained

end Reconstructed

end Manglekit.Engine

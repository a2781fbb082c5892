import Manglekit.Datalog.Matching
import Manglekit.Stratified.PerfectModel

/-!
# Stratified evaluation of clause lists

`meaning` reads a list of clauses as the stratified program of its ground
instances.  `evaluate` is a naive evaluator, one stratum after another, that
gives up when a stratum is not saturated within its fuel.  Whatever it returns
is the perfect model.
-/

namespace Datalog

open Stratified

/-- A stratum for every predicate; predicates outside the table are extensional. -/
abbrev Ranks := List (PredicateSym × Nat)

def Ranks.rank (ranks : Ranks) (predicate : PredicateSym) : Nat :=
  (ranks.lookup predicate).getD 0

def Premise.demand (ranks : Ranks) : Premise → Nat
  | .atom pattern => ranks.rank pattern.predicate
  | .negAtom pattern => ranks.rank pattern.predicate + 1
  | _ => 0

def Clause.demand (ranks : Ranks) (clause : Clause) : Nat :=
  clause.premises.foldl (fun bound premise => max bound (premise.demand ranks))
    (ranks.rank clause.head.predicate)

def raise (ranks : Ranks) (clauses : List Clause) : Ranks :=
  clauses.foldl
    (fun current clause => (clause.head.predicate, clause.demand current) :: current) ranks

def raiseTimes (clauses : List Clause) : Nat → Ranks → Ranks
  | 0, ranks => ranks
  | rounds + 1, ranks => raiseTimes clauses rounds (raise ranks clauses)

/-- Candidate strata.  Whether they stratify the clauses is checked afterwards. -/
def ranksOf (clauses : List Clause) : Ranks := raiseTimes clauses clauses.length []

/-- Positive premises lie no higher than the head, negated ones strictly below. -/
def Stratifies (ranks : Ranks) (clauses : List Clause) : Prop :=
  ∀ clause ∈ clauses, ∀ premise ∈ clause.premises,
    premise.demand ranks ≤ ranks.rank clause.head.predicate

instance (ranks : Ranks) (clauses : List Clause) : Decidable (Stratifies ranks clauses) :=
  inferInstanceAs (Decidable (∀ clause ∈ clauses, ∀ premise ∈ clause.premises,
    premise.demand ranks ≤ ranks.rank clause.head.predicate))

def Premise.Guard (frozen : Set Atom) (valuation : Valuation) : Premise → Prop
  | .atom _ => True
  | premise => premise.Holds ∅ frozen valuation

def Clause.instance (clause : Clause) (valuation : Valuation) : Rule Atom where
  head := clause.head.ground valuation
  premises := {fact | ∃ pattern, Premise.atom pattern ∈ clause.premises ∧
    pattern.ground valuation = fact}
  guard frozen := ∀ premise ∈ clause.premises, premise.Guard frozen valuation

theorem Clause.instance_satisfied (clause : Clause) (valuation : Valuation)
    (store frozen : Set Atom) :
    ((clause.instance valuation).guard frozen ∧ (clause.instance valuation).premises ⊆ store) ↔
      ∀ premise ∈ clause.premises, premise.Holds store frozen valuation := by
  constructor
  · rintro ⟨guarded, premises⟩ premise member
    cases premise with
    | atom pattern => exact premises ⟨pattern, member, rfl⟩
    | negAtom pattern | eq left right | ineq left right => exact guarded _ member
  · intro holds
    constructor
    · intro premise member
      cases premise with
      | atom pattern => exact trivial
      | negAtom pattern | eq left right | ineq left right => exact holds _ member
    · rintro fact ⟨pattern, member, rfl⟩
      exact holds _ member

theorem Premise.guard_congr {premise : Premise} {first second : Set Atom}
    {valuation : Valuation} {ranks : Ranks} {bound : Nat}
    (demanded : premise.demand ranks ≤ bound)
    (agree : ∀ fact : Atom, ranks.rank fact.predicate < bound → (fact ∈ first ↔ fact ∈ second)) :
    premise.Guard first valuation ↔ premise.Guard second valuation := by
  cases premise with
  | negAtom pattern =>
    have below : ranks.rank (pattern.ground valuation).predicate < bound := by
      rw [Atom.ground_predicate]
      exact demanded
    simp only [Guard, Holds, agree _ below]
  | _ => rfl

def groundProgram (ranks : Ranks) (clauses : List Clause) (stratified : Stratifies ranks clauses) :
    Program Atom where
  rules := {rule | ∃ clause ∈ clauses, ∃ valuation, clause.instance valuation = rule}
  stratum fact := ranks.rank fact.predicate
  premise_le := by
    rintro _ ⟨clause, member, valuation, rfl⟩ _ ⟨pattern, occurs, rfl⟩
    have bound := stratified clause member _ occurs
    simpa [Clause.instance, Premise.demand] using bound
  guard_congr := by
    rintro _ ⟨clause, member, valuation, rfl⟩ first second agree
    have each : ∀ premise ∈ clause.premises,
        premise.Guard first valuation ↔ premise.Guard second valuation := by
      intro premise occurs
      refine Premise.guard_congr (stratified clause member premise occurs) ?_
      simpa [Clause.instance] using agree
    exact ⟨fun guarded premise occurs => (each premise occurs).mp (guarded premise occurs),
      fun guarded premise occurs => (each premise occurs).mpr (guarded premise occurs)⟩

/-- The program without rules: its models are its inputs. -/
def emptyProgram : Program Atom where
  rules := ∅
  stratum _ := 0
  premise_le := by simp
  guard_congr := by simp

/-- The meaning of a clause list; lists without a stratification mean nothing. -/
def meaning (clauses : List Clause) : Program Atom :=
  if stratified : Stratifies (ranksOf clauses) clauses then
    groundProgram (ranksOf clauses) clauses stratified
  else emptyProgram

def stratumClauses (ranks : Ranks) (clauses : List Clause) (index : Nat) : List Clause :=
  clauses.filter fun clause => decide (ranks.rank clause.head.predicate = index)

def saturate (clauses : List Clause) (frozen : Store) : Nat → Store → Option Store
  | 0, _ => none
  | fuel + 1, store =>
    let derived := clauses.flatMap (Clause.fire store frozen)
    if ∀ atom ∈ derived, atom ∈ store then some store
    else saturate clauses frozen fuel (store.addAll derived)

/-- Close the strata below the index, the lowest first. -/
def evaluateStrata (ranks : Ranks) (clauses : List Clause) (fuel : Nat) :
    Nat → Store → Option Store
  | 0, store => some store
  | index + 1, store =>
    (evaluateStrata ranks clauses fuel index store).bind fun reached =>
      saturate (stratumClauses ranks clauses index) reached fuel reached

def height (ranks : Ranks) (clauses : List Clause) : Nat :=
  clauses.foldl (fun bound clause => max bound (ranks.rank clause.head.predicate + 1)) 0

def evaluate (clauses : List Clause) (fuel : Nat) (store : Store) : Option Store :=
  let ranks := ranksOf clauses
  if Stratifies ranks clauses ∧ ∀ clause ∈ clauses, clause.Safe then
    evaluateStrata ranks clauses fuel (height ranks clauses) store
  else none

section Correctness

variable {ranks : Ranks} {clauses : List Clause} {stratified : Stratifies ranks clauses}

theorem saturate_spec (safe : ∀ clause ∈ clauses, clause.Safe) {index fuel : Nat}
    {frozen start store result : Store}
    (saturated : saturate (stratumClauses ranks clauses index) frozen fuel store = some result)
    (lower : start.toSet ⊆ store.toSet)
    (upper : ∀ atom ∈ store, (groundProgram ranks clauses stratified).Derives index
      frozen.toSet start.toSet atom) (atom : Atom) :
    atom ∈ result ↔ (groundProgram ranks clauses stratified).Derives index
      frozen.toSet start.toSet atom := by
  induction fuel generalizing store with
  | zero => simp [saturate] at saturated
  | succ fuel ih =>
    have fired : ∀ {fact : Atom},
        fact ∈ (stratumClauses ranks clauses index).flatMap (Clause.fire store frozen) ↔
          ∃ clause ∈ clauses, ranks.rank clause.head.predicate = index ∧ ∃ valuation,
            (∀ premise ∈ clause.premises, premise.Holds store.toSet frozen.toSet valuation) ∧
            clause.head.ground valuation = fact := by
      intro fact
      simp only [stratumClauses, List.mem_flatMap, List.mem_filter, decide_eq_true_eq, and_assoc]
      refine exists_congr fun clause => and_congr_right fun member => and_congr_right fun _ => ?_
      exact Clause.mem_fire (safe clause member)
    simp only [saturate] at saturated
    split at saturated
    next closed =>
      cases saturated
      clear ih
      refine ⟨upper atom, fun derived => ?_⟩
      induction derived with
      | given membership => exact lower membership
      | @rule rule member stratumEq guarded _ premises =>
        obtain ⟨clause, occurs, valuation, rfl⟩ := member
        refine closed _ (fired.mpr ⟨clause, occurs, ?_, valuation, ?_, rfl⟩)
        · simpa [groundProgram, Clause.instance] using stratumEq
        · exact (clause.instance_satisfied valuation _ _).mp ⟨guarded, premises⟩
    · refine ih saturated (fun fact member => ?_) (fun fact member => ?_)
      · exact Store.mem_addAll.mpr (.inl (lower member))
      · rcases Store.mem_addAll.mp member with earlier | derived
        · exact upper fact earlier
        · obtain ⟨clause, occurs, rankEq, valuation, holds, rfl⟩ := fired.mp derived
          have satisfied := (clause.instance_satisfied valuation _ _).mpr holds
          have member : clause.instance valuation ∈
              (groundProgram ranks clauses stratified).rules :=
            ⟨clause, occurs, valuation, rfl⟩
          refine .rule member ?_ satisfied.1 fun fact premise => upper fact (satisfied.2 premise)
          simpa [groundProgram, Clause.instance] using rankEq

theorem evaluateStrata_spec (safe : ∀ clause ∈ clauses, clause.Safe) {index fuel : Nat}
    {store result : Store}
    (evaluated : evaluateStrata ranks clauses fuel index store = some result) :
    result.toSet = (groundProgram ranks clauses stratified).level store.toSet index := by
  induction index generalizing result with
  | zero =>
    cases evaluated
    rfl
  | succ index ih =>
    obtain ⟨reached, earlier, saturated⟩ := Option.bind_eq_some_iff.mp evaluated
    have reachedSet := ih earlier
    ext atom
    rw [Store.mem_toSet, saturate_spec safe saturated (Set.Subset.refl _)
      (fun atom member => .given member), reachedSet]
    rfl

theorem le_foldl_height (list : List Clause) (bound : Nat) :
    bound ≤ list.foldl
      (fun bound clause => max bound (ranks.rank clause.head.predicate + 1)) bound := by
  induction list generalizing bound with
  | nil => exact le_refl bound
  | cons head tail ih =>
    exact le_trans (le_max_left _ _) (ih _)

theorem rank_lt_height {clause : Clause} (member : clause ∈ clauses) :
    ranks.rank clause.head.predicate < height ranks clauses := by
  unfold height
  generalize 0 = bound
  induction clauses generalizing bound with
  | nil => simp at member
  | cons head tail ih =>
    rcases List.mem_cons.mp member with rfl | inTail
    · exact lt_of_lt_of_le (lt_of_lt_of_le (Nat.lt_succ_self _) (le_max_right _ _))
        (le_foldl_height tail _)
    · exact ih inTail _

theorem perfect_eq_level_height (facts : Set Atom) :
    (groundProgram ranks clauses stratified).perfect facts =
      (groundProgram ranks clauses stratified).level facts (height ranks clauses) := by
  apply Set.Subset.antisymm
  · rintro atom ⟨index, member⟩
    rcases Nat.le_total index (height ranks clauses) with below | above
    · exact Program.level_mono _ facts below member
    · induction above with
      | refl => exact member
      | @step middle above ih =>
        refine ih ?_
        cases member with
        | given earlier => exact earlier
        | rule occurs stratumEq _ _ =>
          obtain ⟨clause, inClauses, valuation, rfl⟩ := occurs
          have low : ranks.rank clause.head.predicate < height ranks clauses :=
            rank_lt_height inClauses
          have high : height ranks clauses ≤ middle := above
          simp only [groundProgram, Clause.instance, Atom.ground_predicate] at stratumEq
          omega
  · exact Program.level_subset_perfect _ facts _

end Correctness

variable {clauses : List Clause}

theorem evaluate_perfect {fuel : Nat} {store result : Store}
    (evaluated : evaluate clauses fuel store = some result) :
    result.toSet = (meaning clauses).perfect store.toSet := by
  simp only [evaluate] at evaluated
  split at evaluated
  next checked =>
    rw [meaning, dif_pos checked.1, perfect_eq_level_height]
    exact evaluateStrata_spec checked.2 evaluated
  · cases evaluated

theorem mem_perfect_of_fact {fact : Atom} {facts : Set Atom}
    (stratified : Stratifies (ranksOf clauses) clauses) (member : ⟨fact, []⟩ ∈ clauses)
    (safe : Clause.Safe ⟨fact, []⟩) : fact ∈ (meaning clauses).perfect facts := by
  rw [meaning, dif_pos stratified]
  let valuation : Valuation := fun _ => .string ""
  have closed : fact.ground valuation = fact :=
    Atom.ground_of_no_vars (fun symbol occurs => absurd (safe symbol occurs) (by simp)) valuation
  have occurs : Clause.instance ⟨fact, []⟩ valuation ∈
      (groundProgram (ranksOf clauses) clauses stratified).rules :=
    ⟨_, member, valuation, rfl⟩
  rw [← closed]
  apply Program.perfect_closed _ facts occurs
  · simp [Clause.instance]
  · simp [Clause.instance]

theorem origin_of_mem_perfect {fact : Atom} {facts : Set Atom}
    (membership : fact ∈ (meaning clauses).perfect facts) :
    fact ∈ facts ∨ ∃ clause ∈ clauses, ∃ valuation, clause.head.ground valuation = fact := by
  refine ((meaning clauses).mem_or_head_of_mem_perfect membership).imp_right ?_
  rintro ⟨rule, occurs, rfl⟩
  unfold meaning at occurs
  split at occurs
  · obtain ⟨clause, member, valuation, rfl⟩ := occurs
    exact ⟨clause, member, valuation, rfl⟩
  · exact absurd occurs (Set.notMem_empty rule)

end Datalog

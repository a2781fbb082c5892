import Manglekit.Engine.ProofSearch
import Manglekit.Engine.Reference

/-!
# Solutions as substitution instances

A query asks for the stored facts that are its substitution instances.  Both the search for
solutions and the search for facts to explain compare the constants only: where a variable
is repeated, the first keeps its last value and the second does not look at it.  Compound
values cannot be reported at all.
-/

namespace Manglekit.Engine

open Core Datalog

/-! ## Substitution instances -/

variable {queryAtom fact : Datalog.Atom} {patterns : List Term}

section Instances

def blank : String := "_"

def Admits (assignment : String → Term) : Term → Term → Prop
  | .const constant, arg => arg = .const constant
  | .var symbol, arg => symbol = blank ∨ arg = assignment symbol

def InstanceBy (assignment : String → Term) (queryAtom fact : Datalog.Atom) : Prop :=
  List.Forall₂ (Admits assignment) queryAtom.args fact.args

def IsInstance (queryAtom fact : Datalog.Atom) : Prop :=
  ∃ assignment, InstanceBy assignment queryAtom fact

open Classical in
noncomputable def instancesIn (store : Store) (queryAtom : Datalog.Atom) : List Datalog.Atom :=
  (store.getFacts queryAtom.predicate).filter fun fact => decide (IsInstance queryAtom fact)

/-- The solution prints an assignment for the variables of the query, and applied to the query
this assignment gives the fact. -/
def Reports (queryAtom : Datalog.Atom) (solution : Solution) (fact : Datalog.Atom) : Prop :=
  ∃ assignment, InstanceBy assignment queryAtom fact ∧
    (∀ symbol ∈ queryAtom.vars, symbol ≠ blank → ∃ text,
      constantToString (assignment symbol) = .ok text ∧ solution.lookup symbol = some text) ∧
    ∀ symbol text, solution.lookup symbol = some text → symbol ∈ queryAtom.vars

structure ReportsInstances (parseAtom : String → Except GoError Datalog.Atom)
    (rules : List SourceClause) (store : Store) (query : String) (queryAtom : Datalog.Atom) :
    Prop where
  succeeds : (solutionsIn parseAtom store query).err = none
  reported : List.Forall₂ (Reports queryAtom) (solutionsIn parseAtom store query).reported
    (instancesIn store queryAtom)
  explained : ∃ explanation, explainIn parseAtom rules store query = .ok explanation ∧
    explanation.derivations.map (·.proved) = (instancesIn store queryAtom).map some

/-- Compound constants have no text. -/
def Printable (term : Term) : Prop := ∃ text, constantToString term = .ok text

/-- No compound value stands for a variable, unless a constant before it differs. -/
def Convertible : List Term → List Term → Prop
  | .var _ :: patterns, arg :: args => Printable arg ∧ Convertible patterns args
  | .const constant :: patterns, arg :: args =>
    Term.const constant = arg → Convertible patterns args
  | _, _ => True

def RepeatsAgree (patterns args : List Term) : Prop :=
  ∀ first ∈ patterns.zip args, ∀ second ∈ patterns.zip args, ∀ symbol, symbol ≠ blank →
    first.1 = .var symbol → second.1 = .var symbol → first.2 = second.2

def ConstantsAgree (patterns args : List Term) : Prop :=
  ∀ pair ∈ patterns.zip args, ∀ constant, pair.1 = .const constant → pair.2 = .const constant

theorem hasConstants_iff :
    hasConstants queryAtom fact = true ↔ ConstantsAgree queryAtom.args fact.args := by
  simp only [hasConstants, ConstantsAgree, List.all_eq_true]
  refine forall₂_congr fun pair _ => ?_
  obtain ⟨pattern, arg⟩ := pair
  cases pattern <;> simp [eq_comm]

theorem isInstance_iff (lengths : queryAtom.args.length = fact.args.length) :
    IsInstance queryAtom fact ↔
      ConstantsAgree queryAtom.args fact.args ∧ RepeatsAgree queryAtom.args fact.args := by
  simp only [IsInstance, InstanceBy, List.forall₂_iff_zip, lengths, true_and]
  constructor
  · rintro ⟨assignment, admits⟩
    refine ⟨?_, ?_⟩
    · rintro ⟨pattern, arg⟩ member constant rfl
      exact admits member
    · rintro ⟨_, first⟩ firstMember ⟨_, second⟩ secondMember symbol named rfl rfl
      exact ((admits firstMember).resolve_left named).trans
        ((admits secondMember).resolve_left named).symm
  · rintro ⟨constants, repeats⟩
    -- A variable is assigned the argument at its first place.
    refine ⟨fun symbol => ((queryAtom.args.zip fact.args).find? fun pair =>
      decide (pair.1 = .var symbol)).elim (.var symbol) (·.2), fun {pattern arg} member => ?_⟩
    cases pattern with
    | const constant => exact constants (.const constant, arg) member constant rfl
    | var symbol =>
      refine or_iff_not_imp_left.mpr fun named => ?_
      have occurs : ((queryAtom.args.zip fact.args).find? fun pair =>
          decide (pair.1 = .var symbol)).isSome := by
        rw [List.find?_isSome]
        exact ⟨_, member, by simp⟩
      obtain ⟨first, found⟩ := Option.isSome_iff_exists.mp occurs
      beta_reduce
      rw [found]
      exact repeats (.var symbol, arg) member first (List.mem_of_find?_eq_some found) symbol
        named rfl (by simpa using List.find?_some found)

end Instances

/-! ## What is reported -/

section Reported

/-- What a successful unification establishes: the solution binds each variable to the text
of one of its values. -/
structure Unifies (patterns args : List Term) (before after : Solution) : Prop where
  kept : ∀ symbol text, before.lookup symbol = some text →
    ∃ text, after.lookup symbol = some text
  bound : ∀ pair ∈ patterns.zip args, ∀ symbol, pair.1 = .var symbol →
    ∃ text, after.lookup symbol = some text
  texts : ∀ symbol text, after.lookup symbol = some text →
    before.lookup symbol = some text ∨
      ∃ pair ∈ patterns.zip args, pair.1 = .var symbol ∧ constantToString pair.2 = .ok text

variable {args : List Term}

theorem unifyArgs_sound {before after : Solution}
    (unified : unifyArgs patterns args before = .ok (some after)) :
    Unifies patterns args before after := by
  induction patterns generalizing args before with
  | nil =>
    obtain rfl : before = after := by simpa [unifyArgs] using unified
    exact ⟨fun _ text found => ⟨text, found⟩, by simp, fun _ _ found => .inl found⟩
  | cons pattern patterns ih =>
    cases args with
    | nil =>
      obtain rfl : before = after := by cases pattern <;> simpa [unifyArgs] using unified
      exact ⟨fun _ text found => ⟨text, found⟩, by simp, fun _ _ found => .inl found⟩
    | cons arg args =>
      cases pattern with
      | const constant =>
        simp only [unifyArgs] at unified
        split at unified
        · have rest := ih unified
          refine ⟨rest.kept, ?_, fun symbol text found => ?_⟩
          · rw [List.zip_cons_cons, List.forall_mem_cons]
            exact ⟨by simp, rest.bound⟩
          · refine (rest.texts symbol text found).imp id ?_
            rintro ⟨pair, member, read⟩
            exact ⟨pair, List.mem_cons_of_mem _ member, read⟩
        · simp at unified
      | var symbol =>
        simp only [unifyArgs] at unified
        split at unified
        · simp at unified
        next text converted =>
          have rest := ih unified
          obtain ⟨last, here⟩ := rest.kept symbol text (AList.lookup_insert before)
          refine ⟨fun other otherText found => ?_, ?_, fun other otherText found => ?_⟩
          · by_cases same : other = symbol
            · exact ⟨last, same ▸ here⟩
            · refine rest.kept other otherText ?_
              rwa [AList.lookup_insert_ne same]
          · rw [List.zip_cons_cons, List.forall_mem_cons]
            refine ⟨?_, rest.bound⟩
            rintro other same
            obtain rfl := Term.var.inj same
            exact ⟨last, here⟩
          · rw [List.zip_cons_cons]
            rcases rest.texts other otherText found with earlier | ⟨pair, member, read⟩
            · by_cases same : other = symbol
              · subst same
                rw [AList.lookup_insert] at earlier
                obtain rfl := Option.some.inj earlier
                exact .inr ⟨_, List.mem_cons_self, rfl, converted⟩
              · rw [AList.lookup_insert_ne same] at earlier
                exact .inl earlier
            · exact .inr ⟨pair, List.mem_cons_of_mem _ member, read⟩

theorem unifyArgs_answers (before : Solution) (convertible : Convertible patterns args) :
    ∃ answer, unifyArgs patterns args before = .ok answer ∧
      (answer.isSome ↔ ConstantsAgree patterns args) := by
  induction patterns generalizing args before with
  | nil => exact ⟨_, rfl, by simp [ConstantsAgree]⟩
  | cons pattern patterns ih =>
    cases args with
    | nil => cases pattern <;> exact ⟨_, rfl, by simp [ConstantsAgree]⟩
    | cons arg args =>
      simp only [ConstantsAgree, List.zip_cons_cons, List.forall_mem_cons]
      cases pattern with
      | const constant =>
        by_cases same : Term.const constant = arg
        · obtain ⟨answer, unified, agrees⟩ := ih before (convertible same)
          refine ⟨answer, by simpa [unifyArgs, same] using unified, ?_⟩
          subst same
          simpa [ConstantsAgree] using agrees
        · exact ⟨none, by simp [unifyArgs, same], by simp [Ne.symm same]⟩
      | var symbol =>
        obtain ⟨⟨text, converted⟩, rest⟩ := convertible
        obtain ⟨answer, unified, agrees⟩ := ih (before.insert symbol text) rest
        exact ⟨answer, by simpa [unifyArgs, converted] using unified,
          by simpa [ConstantsAgree] using agrees⟩

theorem convertible_of_unifyArgs {before : Solution} {answer : Option Solution}
    (unified : unifyArgs patterns args before = .ok answer) : Convertible patterns args := by
  induction patterns generalizing args before with
  | nil => trivial
  | cons pattern patterns ih =>
    cases args with
    | nil => cases pattern <;> trivial
    | cons arg args =>
      cases pattern with
      | const constant =>
        intro same
        refine @ih args before ?_
        simpa [unifyArgs, same] using unified
      | var symbol =>
        rcases converted : constantToString arg with err | text
        · simp [unifyArgs, converted] at unified
        · refine ⟨⟨text, converted⟩, @ih args (before.insert symbol text) ?_⟩
          simpa [unifyArgs, converted] using unified

theorem err_eq_none_iff_convertible {facts : List Datalog.Atom} :
    (reportSolutions queryAtom facts).err = none ↔
      ∀ fact ∈ facts, Convertible queryAtom.args fact.args := by
  rw [err_eq_none_iff]
  refine forall₂_congr fun fact _ => ⟨fun ⟨_, unified⟩ => convertible_of_unifyArgs unified,
    fun convertible => ?_⟩
  obtain ⟨answer, unified, -⟩ := unifyArgs_answers ∅ convertible
  exact ⟨answer, unified⟩

theorem reports_of_unified {solution : Solution}
    (lengths : queryAtom.args.length = fact.args.length)
    (unified : unifyArgs queryAtom.args fact.args ∅ = .ok (some solution))
    (isInstance : IsInstance queryAtom fact) : Reports queryAtom solution fact := by
  obtain ⟨assignment, admits⟩ := isInstance
  have unifies := unifyArgs_sound unified
  have read (symbol : String) (text : String) (found : solution.lookup symbol = some text) :
      ∃ pair ∈ queryAtom.args.zip fact.args, pair.1 = .var symbol ∧
        constantToString pair.2 = .ok text :=
    (unifies.texts symbol text found).resolve_left (by simp)
  refine ⟨assignment, admits, fun symbol occurs named => ?_, fun symbol text found => ?_⟩
  · obtain ⟨arg, member, inArg⟩ := List.mem_flatMap.mp occurs
    obtain rfl : arg = .var symbol := by
      cases arg with
      | const constant => simp [Term.vars] at inArg
      | var name => simpa [Term.vars, eq_comm] using inArg
    obtain ⟨index, bound, isVar⟩ := List.mem_iff_getElem.mp member
    have visited : (Term.var symbol, fact.args[index]) ∈ queryAtom.args.zip fact.args :=
      List.mem_iff_getElem.mpr ⟨index, by simp; omega, by simp [isVar]⟩
    obtain ⟨text, found⟩ := unifies.bound _ visited symbol rfl
    obtain ⟨⟨_, value⟩, placed, rfl, converted⟩ := read symbol text found
    have same : value = assignment symbol :=
      ((List.forall₂_iff_zip.mp admits).2 placed).resolve_left named
    exact ⟨text, same ▸ converted, found⟩
  · obtain ⟨⟨_, value⟩, placed, rfl, -⟩ := read symbol text found
    exact List.mem_flatMap.mpr ⟨_, (List.of_mem_zip placed).1, by simp [Term.vars]⟩

open Classical in
theorem reportSolutions_instances {facts : List Datalog.Atom}
    (lengths : ∀ fact ∈ facts, queryAtom.args.length = fact.args.length)
    (convertible : ∀ fact ∈ facts, Convertible queryAtom.args fact.args)
    (repeats : ∀ fact ∈ facts, ConstantsAgree queryAtom.args fact.args →
      RepeatsAgree queryAtom.args fact.args) :
    List.Forall₂ (Reports queryAtom) (reportSolutions queryAtom facts).reported
      (facts.filter fun fact => decide (IsInstance queryAtom fact)) := by
  induction facts with
  | nil => exact .nil
  | cons fact rest ih =>
    rw [List.forall_mem_cons] at lengths convertible repeats
    have later := ih lengths.2 convertible.2 repeats.2
    obtain ⟨answer, unified, agrees⟩ := unifyArgs_answers ∅ convertible.1
    have isInstance : answer.isSome ↔ IsInstance queryAtom fact := by
      rw [agrees, isInstance_iff lengths.1]
      exact ⟨fun constants => ⟨constants, repeats.1 constants⟩, And.left⟩
    cases answer with
    | none =>
      have other : ¬ IsInstance queryAtom fact := by simpa using isInstance.not.mp
      rw [List.filter_cons_of_neg (by simpa using other)]
      simpa [reportSolutions, unified] using later
    | some solution =>
      have matching : IsInstance queryAtom fact := isInstance.mp rfl
      rw [List.filter_cons_of_pos (by simpa using matching)]
      simpa [reportSolutions, unified] using ⟨reports_of_unified lengths.1 unified matching, later⟩

end Reported

/-! ## What is explained -/

section Explained

variable {rules : List SourceClause} {store : Store}

theorem always_tryRules_proved (prover : Datalog.Atom → ProverM (Option Derivation))
    (fact : Datalog.Atom) (rules : List SourceClause) :
    Always (tryRules store prover fact rules) fun result =>
      ∀ derivation ∈ result, derivation.proved = some fact := by
  induction rules with
  | nil => exact Always.pure (by simp)
  | cons clause rules ih =>
    rw [tryRules]
    split
    · exact ih
    · split
      · exact ih
      next subst _ =>
        have searched : Always (solvePremises store prover clause.premises subst)
            fun _ => True := fun _ => trivial
        refine Always.bind searched fun result _ => ?_
        cases result with
        | none => exact ih
        | some children => exact Always.pure (by simp [Derivation.proved])

theorem always_prove_proved (levels : Nat) (fact : Datalog.Atom) :
    Always (prove rules store levels fact) fun result =>
      ∀ derivation ∈ result, derivation.proved = some fact := by
  cases levels with
  | zero =>
    rintro steps derivation cut
    obtain rfl : Derivation.depthLimit fact = derivation := Option.some.inj cut
    rfl
  | succ levels =>
    rintro steps derivation found
    rw [run_prove_succ] at found
    split at found
    · obtain rfl := Option.some.inj found
      rfl
    · split at found
      next fired =>
        obtain rfl := Option.some.inj found
        exact always_tryRules_proved (prove rules store levels) fact rules _ _ fired
      · split at found
        · obtain rfl := Option.some.inj found
          rfl
        · simp at found

theorem always_explainFacts_proved (facts : List Datalog.Atom) :
    Always (explainFacts rules store facts) fun derivations =>
      derivations.map (·.proved) = facts.map some := by
  induction facts with
  | nil => exact Always.pure rfl
  | cons fact rest ih =>
    rw [explainFacts]
    refine Always.bind (always_prove_proved maxExplainDepth fact) fun result proved => ?_
    refine Always.bind ih fun derivations others => Always.pure ?_
    rw [List.map_cons, List.map_cons, others]
    cases result with
    | none => rfl
    | some derivation => rw [Option.getD_some, proved derivation rfl]

end Explained

/-- A query reports and explains its substitution instances exactly if all values of its
variables can be printed and no fact differs from it in a repeated variable only. -/
theorem reports_instances_iff {parseAtom : String → Except GoError Datalog.Atom}
    (rules : List SourceClause) (store : Store) {query : String} {queryAtom : Datalog.Atom}
    (parses : parseAtom query = .ok queryAtom) :
    ReportsInstances parseAtom rules store query queryAtom ↔
      ∀ fact ∈ store.getFacts queryAtom.predicate, Convertible queryAtom.args fact.args ∧
        (ConstantsAgree queryAtom.args fact.args → RepeatsAgree queryAtom.args fact.args) := by
  classical
  have solutions : solutionsIn parseAtom store query =
      reportSolutions queryAtom (store.getFacts queryAtom.predicate) := by
    simp [solutionsIn, parseQuery, parses]
  have explains : explainIn parseAtom rules store query = .ok ⟨query,
      !(explainAtom rules store queryAtom).isEmpty, explainAtom rules store queryAtom⟩ := by
    simp [explainIn, parses]
  have proved : (explainAtom rules store queryAtom).map (·.proved) =
      (explainedFacts store queryAtom).map some :=
    always_explainFacts_proved (explainedFacts store queryAtom) 0
  have lengths : ∀ fact ∈ store.getFacts queryAtom.predicate,
      queryAtom.args.length = fact.args.length := fun fact visited =>
    (PredicateSym.mk.inj (Store.mem_getFacts.mp visited).2).2.symm
  constructor
  · rintro ⟨succeeds, -, explanation, explained, sameFacts⟩ fact visited
    refine ⟨err_eq_none_iff_convertible.mp (solutions ▸ succeeds) fact visited,
      fun constants => ?_⟩
    obtain rfl := Except.ok.inj (explains.symm.trans explained)
    have same : explainedFacts store queryAtom = instancesIn store queryAtom :=
      (List.map_injective_iff.mpr (Option.some_injective _)) (proved.symm.trans sameFacts)
    have listed : fact ∈ explainedFacts store queryAtom :=
      List.mem_filter.mpr ⟨visited, hasConstants_iff.mpr constants⟩
    rw [same, instancesIn, List.mem_filter] at listed
    exact ((isInstance_iff (lengths fact visited)).mp (of_decide_eq_true listed.2)).2
  · intro condition
    have convertible := fun fact visited => (condition fact visited).1
    have repeats := fun fact visited => (condition fact visited).2
    refine ⟨?_, ?_, _, explains, ?_⟩
    · rw [solutions, err_eq_none_iff_convertible]
      exact convertible
    · rw [solutions]
      exact reportSolutions_instances lengths convertible repeats
    · rw [proved]
      congr 1
      refine List.filter_congr fun fact visited => ?_
      rw [Bool.eq_iff_iff, hasConstants_iff, decide_eq_true_iff,
        isInstance_iff (lengths fact visited)]
      exact ⟨fun constants => ⟨constants, repeats fact visited constants⟩, And.left⟩

/-! ## A concrete query -/

section Concrete

/-- The query asks for loops, and the only edge is none.  It is reported with the value of the
second place, and explained. -/
theorem repeated_variable_overwritten :
    let store := Store.empty.addAll [Reference.stringAtom "edge" ["a", "b"]]
    let queryAtom : Datalog.Atom := ⟨"edge", [.var "X", .var "X"]⟩
    Reference.parseAtom "edge(X, X)" = .ok queryAtom ∧
      ¬ IsInstance queryAtom (Reference.stringAtom "edge" ["a", "b"]) ∧
      (solutionsIn Reference.parseAtom store "edge(X, X)").reported.map (·.lookup "X") =
        [some "b"] ∧
      ¬ Reference.stringAtom "edge" ["b", "b"] ∈ store ∧
      (explainAtom [] store queryAtom).map (·.proved) =
        [some (Reference.stringAtom "edge" ["a", "b"])] := by
  refine ⟨by decide +kernel, ?_, by decide +kernel, by decide +kernel, by decide +kernel⟩
  rintro ⟨assignment, admits⟩
  simp only [InstanceBy, Reference.stringAtom, List.map_cons, List.map_nil,
    List.forall₂_cons, Admits] at admits
  obtain ⟨first, second, -⟩ := admits
  have same := (first.resolve_left (by decide)).trans (second.resolve_left (by decide)).symm
  simp at same

/-- Here the fact that differs in the repeated variable also differs in a constant. -/
theorem loops_from_one_node :
    ReportsInstances Reference.parseAtom []
      (Store.empty.addAll [Reference.stringAtom "link" ["a", "b", "b"],
        Reference.stringAtom "link" ["c", "d", "e"]])
      "link(\"a\", X, X)" ⟨"link", [.const (.string "a"), .var "X", .var "X"]⟩ := by
  refine (reports_instances_iff _ _ (by decide +kernel)).mpr ?_
  have visited : (Store.empty.addAll [Reference.stringAtom "link" ["a", "b", "b"],
      Reference.stringAtom "link" ["c", "d", "e"]]).getFacts ⟨"link", 3⟩ =
        [Reference.stringAtom "link" ["a", "b", "b"],
          Reference.stringAtom "link" ["c", "d", "e"]] := by decide +kernel
  intro fact member
  rw [show (⟨"link", [.const (.string "a"), .var "X", .var "X"]⟩ : Datalog.Atom).predicate =
    ⟨"link", 3⟩ from rfl, visited] at member
  simp only [List.mem_cons, List.not_mem_nil, or_false] at member
  rcases member with rfl | rfl
  · simp [Reference.stringAtom, Convertible, Printable, constantToString, ConstantsAgree,
      RepeatsAgree]
  · simp [Reference.stringAtom, Convertible, ConstantsAgree]

end Concrete

end Manglekit.Engine

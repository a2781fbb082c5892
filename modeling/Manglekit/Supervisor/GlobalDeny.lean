import Manglekit.Ai.StreamParity

/-!
# Denials without an entity

The standard library declares `deny(Reason)` and `halt(Reason)` for a whole request, and
derives the second from the first.  The gate reads the one argument of `halt` as an
entity: it asks for `halt("Req")`, and whatever reason a policy gives goes unseen.
-/

namespace Manglekit.Supervisor

open Core Engine

/-! ## What a gate check sees of a store -/

variable {facts : List Datalog.Atom}

section Seen

/-- The facts `halt(entity, reason, tier)`, in the order a query visits them. -/
def tieredFacts (entityID : String) (store : Datalog.Store) : List Datalog.Atom :=
  (store.getFacts ⟨predHalt, 3⟩).filter fun fact =>
    decide (fact.args.head? = some (.const (.string entityID)))

def printable (fact : Datalog.Atom) : Bool :=
  fact.args.all fun term => (constantToString term).isOk

/-- The query for tiered halts ends at the first that cannot be printed. -/
def seenHalts (entityID : String) (store : Datalog.Store) : List Datalog.Atom :=
  (tieredFacts entityID store).takeWhile printable

variable {entityID : String}

theorem unify_halt3_cases (entityID : String) {args : List Datalog.Term} (arity : args.length = 3) :
    (args.head? ≠ some (.const (.string entityID)) ∧
      unifyArgs (haltFact entityID [.var "Reason", .var "Tier"]).args args ∅ = .ok none) ∨
    ((args.head? = some (.const (.string entityID)) ∧
      ¬ args.all fun term => (constantToString term).isOk) ∧
      ∃ err, unifyArgs (haltFact entityID [.var "Reason", .var "Tier"]).args args ∅ = .error err) ∨
    ∃ reason tier reasonText tierText, args = [.const (.string entityID), reason, tier] ∧
      constantToString reason = .ok reasonText ∧ constantToString tier = .ok tierText ∧
      unifyArgs (haltFact entityID [.var "Reason", .var "Tier"]).args args ∅ =
        .ok (some (((∅ : Solution).insert "Reason" reasonText).insert "Tier" tierText)) := by
  obtain ⟨subject, reason, tier, rfl⟩ := List.length_eq_three.mp arity
  by_cases same : Datalog.Term.const (.string entityID) = subject
  · subst same
    cases reasonConverted : constantToString reason with
    | error err =>
      refine .inr (.inl ⟨⟨rfl, ?_⟩, .wrap "error converting term" err, ?_⟩)
      · simp [reasonConverted, Except.isOk, Except.toBool]
      · simp only [haltFact, unifyArgs, if_true, reasonConverted]
    | ok reasonText =>
      cases tierConverted : constantToString tier with
      | error err =>
        refine .inr (.inl ⟨⟨rfl, ?_⟩, .wrap "error converting term" err, ?_⟩)
        · simp [tierConverted, Except.isOk, Except.toBool]
        · simp only [haltFact, unifyArgs, if_true, reasonConverted, tierConverted]
      | ok tierText =>
        refine .inr (.inr ⟨reason, tier, reasonText, tierText, rfl, reasonConverted,
          tierConverted, ?_⟩)
        simp only [haltFact, unifyArgs, if_true, reasonConverted, tierConverted]
  · refine .inl ⟨?_, ?_⟩
    · simpa using Ne.symm same
    · simp only [haltFact, unifyArgs, if_neg same]

theorem mem_collected_iff (visited : ∀ fact ∈ facts, fact.predicate = ⟨predHalt, 3⟩)
    (halt : HaltMatch) :
    halt ∈ (reportSolutions (haltFact entityID [.var "Reason", .var "Tier"])
        facts).reported.filterMap haltMatch3 ↔
      ∃ reason tier reasonText tierText,
        haltFact entityID [reason, tier] ∈ (facts.filter fun fact =>
          decide (fact.args.head? = some (.const (.string entityID)))).takeWhile printable ∧
        constantToString reason = .ok reasonText ∧ constantToString tier = .ok tierText ∧
        halt = ⟨reasonText, if tierText = "" then tierUnknown else tierText⟩ := by
  induction facts with
  | nil => simp [reportSolutions]
  | cons fact rest ih =>
    have later := ih fun other member => visited other (List.mem_cons_of_mem _ member)
    obtain ⟨symbol, args⟩ := fact
    obtain ⟨rfl, arity⟩ := Datalog.PredicateSym.mk.inj (visited _ List.mem_cons_self)
    rcases unify_halt3_cases entityID arity with ⟨other, unified⟩ |
      ⟨⟨same, unprintable⟩, err, unified⟩ |
      ⟨reason, tier, reasonText, tierText, rfl, reasonConverted, tierConverted, unified⟩
    · simpa [reportSolutions, unified, other] using later
    · simp [reportSolutions, unified, same, printable, unprintable]
    · have printed : printable ⟨predHalt, [.const (.string entityID), reason, tier]⟩ = true := by
        have named : constantToString (.const (.string entityID)) = .ok entityID := rfl
        simp [printable, named, reasonConverted, tierConverted, Except.isOk, Except.toBool]
      simp only [reportSolutions, unified, List.filterMap_cons, haltMatch3_solution,
        List.mem_cons, later, List.filter_cons, List.head?_cons, decide_true, if_true,
        List.takeWhile_cons, printed]
      constructor
      · rintro (rfl | ⟨_, _, _, _, seen, found⟩)
        · exact ⟨reason, tier, reasonText, tierText, .inl rfl, reasonConverted, tierConverted, rfl⟩
        · exact ⟨_, _, _, _, .inr seen, found⟩
      · rintro ⟨_, _, _, _, here | seen, reasonFound, tierFound, rfl⟩
        · cases here
          cases reasonConverted.symm.trans reasonFound
          cases tierConverted.symm.trans tierFound
          exact .inl rfl
        · exact .inr ⟨_, _, _, _, seen, reasonFound, tierFound, rfl⟩

theorem reportSolutions_eq_nil {queryAtom : Datalog.Atom}
    (others : ∀ fact ∈ facts, unifyArgs queryAtom.args fact.args ∅ = .ok none) :
    reportSolutions queryAtom facts = ⟨[], none⟩ := by
  induction facts with
  | nil => rfl
  | cons fact rest ih =>
    obtain ⟨other, others⟩ := List.forall_mem_cons.mp others
    simp [reportSolutions, other, ih others]

end Seen

section Answers

variable {host : Host} {parseAtom : String → Except GoError Datalog.Atom}
  {evaluated : List Datalog.Atom → Datalog.Store} {entityID : String} {ctx : Context}
  {facts : List Datalog.Atom}

theorem mem_tieredHalts_iff_seen (parses : ParsesHaltQueries parseAtom entityID)
    (halt : HaltMatch) :
    halt ∈ (answersOf (storeEngine host parseAtom evaluated) ctx entityID facts).tieredHalts ↔
      ∃ reason tier reasonText tierText,
        haltFact entityID [reason, tier] ∈ seenHalts entityID (evaluated facts) ∧
        constantToString reason = .ok reasonText ∧ constantToString tier = .ok tierText ∧
        halt = ⟨reasonText, if tierText = "" then tierUnknown else tierText⟩ := by
  have run : (answersOf (storeEngine host parseAtom evaluated) ctx entityID facts).tiered = _ :=
    solutionsIn_halt3 parses (evaluated facts)
  rw [GateAnswers.tieredHalts, run]
  exact mem_collected_iff (fun fact member => (Datalog.Store.mem_getFacts.mp member).2) halt

theorem exists_printed_of_seen {store : Datalog.Store} {fact : Datalog.Atom}
    (seen : fact ∈ seenHalts entityID store) :
    ∃ reason tier reasonText tierText, fact = haltFact entityID [reason, tier] ∧
      constantToString reason = .ok reasonText ∧ constantToString tier = .ok tierText := by
  have printed : printable fact = true := List.mem_takeWhile_imp seen
  obtain ⟨visited, about⟩ := List.mem_filter.mp (List.takeWhile_subset _ seen)
  obtain ⟨symbol, args⟩ := fact
  obtain ⟨rfl, arity⟩ := Datalog.PredicateSym.mk.inj (Datalog.Store.mem_getFacts.mp visited).2
  rcases unify_halt3_cases entityID arity with ⟨other, -⟩ | ⟨⟨-, unprintable⟩, -⟩ |
    ⟨reason, tier, reasonText, tierText, rfl, reasonConverted, tierConverted, -⟩
  · exact absurd (of_decide_eq_true about) other
  · exact absurd printed unprintable
  · exact ⟨reason, tier, reasonText, tierText, rfl, reasonConverted, tierConverted⟩

theorem tieredHalts_eq_nil_iff_seen (parses : ParsesHaltQueries parseAtom entityID) :
    (answersOf (storeEngine host parseAtom evaluated) ctx entityID facts).tieredHalts = [] ↔
      seenHalts entityID (evaluated facts) = [] := by
  rw [List.eq_nil_iff_forall_not_mem, List.eq_nil_iff_forall_not_mem]
  simp only [mem_tieredHalts_iff_seen parses]
  constructor
  · intro none fact seen
    obtain ⟨reason, tier, reasonText, tierText, rfl, converted⟩ := exists_printed_of_seen seen
    exact none _ ⟨reason, tier, reasonText, tierText, seen, converted.1, converted.2, rfl⟩
  · rintro none halt ⟨reason, tier, reasonText, tierText, seen, -⟩
    exact none _ seen

theorem inputAdvised_iff_seen (parses : ParsesHaltQueries parseAtom entityID) :
    (answersOf (storeEngine host parseAtom evaluated) ctx entityID facts).InputAdvised ↔
      seenHalts entityID (evaluated facts) ≠ [] ∧
        ∀ reason tier, haltFact entityID [reason, tier] ∈ seenHalts entityID (evaluated facts) →
          AdvisoryTerm tier := by
  rw [GateAnswers.InputAdvised, Ne, tieredHalts_eq_nil_iff_seen parses]
  refine and_congr_right fun _ => ?_
  simp only [mem_tieredHalts_iff_seen parses]
  constructor
  · intro advisory reason tier seen
    obtain ⟨_, _, reasonText, tierText, same, reasonConverted, tierConverted⟩ :=
      exists_printed_of_seen seen
    cases same
    exact ⟨tierText, tierConverted, (advisory_reported tierText).mp
      (advisory _ ⟨reason, tier, reasonText, tierText, seen, reasonConverted, tierConverted, rfl⟩)⟩
  · rintro advisory halt ⟨reason, tier, reasonText, tierText, seen, -, tierConverted, rfl⟩
    obtain ⟨text, converted, isAdvisory⟩ := advisory reason tier seen
    cases tierConverted.symm.trans converted
    exact (advisory_reported tierText).mpr isAdvisory

theorem untiered_passes_iff (parses : ParsesHaltQueries parseAtom entityID) :
    ((answersOf (storeEngine host parseAtom evaluated) ctx entityID facts).untiered.err = none ∧
      (answersOf (storeEngine host parseAtom evaluated) ctx entityID facts).untieredHalts = []) ↔
      ∀ reason, haltFact entityID [reason] ∉ evaluated facts := by
  constructor
  · rintro ⟨success, none⟩ reason stored
    exact untieredHalts_ne_nil parses success stored none
  · intro none
    have run : (answersOf (storeEngine host parseAtom evaluated) ctx entityID facts).untiered =
        ⟨[], Option.none⟩ := by
      refine (solutionsIn_halt2 parses _).trans (reportSolutions_eq_nil fun fact member => ?_)
      obtain ⟨stored, predicate⟩ := Datalog.Store.mem_getFacts.mp member
      obtain ⟨symbol, args⟩ := fact
      obtain ⟨rfl, arity⟩ := Datalog.PredicateSym.mk.inj predicate
      obtain ⟨subject, reason, rfl⟩ := List.length_eq_two.mp arity
      have other : Datalog.Term.const (.string entityID) ≠ subject := by
        rintro rfl
        exact none reason stored
      simp only [haltFact, unifyArgs, if_neg other]
    simp [GateAnswers.untieredHalts, run]

/-- A store in which a check finds no halt of the entity. -/
structure Unhalted (entityID : String) (store : Datalog.Store) : Prop where
  seen : seenHalts entityID store = []
  untiered : ∀ reason, haltFact entityID [reason] ∉ store
  legacy : haltFact entityID [] ∉ store

theorem clean_iff_unhalted (parses : ParsesHaltQueries parseAtom entityID) :
    (answersOf (storeEngine host parseAtom evaluated) ctx entityID facts).Clean ↔
      Unhalted entityID (evaluated facts) := by
  constructor
  · intro clean
    refine ⟨(tieredHalts_eq_nil_iff_seen parses).mp clean.tiered,
      (untiered_passes_iff parses).mp ⟨clean.succeeds, clean.untiered⟩, ?_⟩
    simpa [denied_of_haltFact parses] using clean.denied
  · intro unhalted
    obtain ⟨succeeds, none⟩ := (untiered_passes_iff parses).mpr unhalted.untiered
    refine ⟨(tieredHalts_eq_nil_iff_seen parses).mpr unhalted.seen, succeeds, none, ?_⟩
    simp [denied_of_haltFact parses, unhalted.legacy]

end Answers

/-! ## Enforcement -/

/-- A fact `deny(reason)`. -/
def denyFact (reason : String) : Datalog.Atom := ⟨"deny", [.const (.string reason)]⟩

/-- The request is denied as a whole.  A fact `halt(reason)` has the form of a halt without
arguments of an entity of that name. -/
def GlobalDeny (reason : String) (store : Datalog.Store) : Prop :=
  denyFact reason ∈ store ∨ haltFact reason [] ∈ store

/-- Evaluations are closed under the rule `halt(Reason) :- deny(Reason)`. -/
def AliasesDeny (evaluated : List Datalog.Atom → Datalog.Store) : Prop :=
  ∀ facts reason, denyFact reason ∈ evaluated facts → haltFact reason [] ∈ evaluated facts

theorem GlobalDeny.halt {evaluated : List Datalog.Atom → Datalog.Store} {reason : String}
    (denied : GlobalDeny reason (evaluated facts)) (aliases : AliasesDeny evaluated) :
    haltFact reason [] ∈ evaluated facts :=
  denied.elim (aliases facts reason) id

namespace Deployment

variable (deployment : Deployment) (evaluated : List Datalog.Atom → Datalog.Store)

/-- If the request is denied as a whole for this reason, then `Assess` denies it and the
inner action is not run.  The two may be asked about different facts. -/
structure EnforcesGlobalDeny (ctx : Context) (input : Envelope) (reason : String) : Prop where
  assess : ∀ facts, assessedFacts (deployment.engine []) deployment.metadata input = some facts →
    GlobalDeny reason (evaluated facts) →
      Engine.assess (deployment.engine []) ctx deployment.metadata input ≠ none
  execute : ∀ facts, deployment.inputAsked ctx input = some facts →
    GlobalDeny reason (evaluated facts) → ¬ deployment.Runs ctx input

/-- The reason is the name of the request itself, or the request is halted by a fact about it
anyway; and the supervisor does not let the halts that it sees pass for their tiers. -/
structure HaltsRequest (ctx : Context) (input : Envelope) (reason : String) : Prop where
  assess : ∀ facts, assessedFacts (deployment.engine []) deployment.metadata input = some facts →
    GlobalDeny reason (evaluated facts) →
      reason = entityInput ∨ ¬ Unhalted entityInput (evaluated facts)
  execute : ∀ facts, deployment.inputAsked ctx input = some facts →
    GlobalDeny reason (evaluated facts) →
      (reason = entityInput ∨ ¬ Unhalted entityInput (evaluated facts)) ∧
        (seenHalts entityInput (evaluated facts) = [] ∨
          ∃ reason tier, haltFact entityInput [reason, tier] ∈
            seenHalts entityInput (evaluated facts) ∧ ¬ AdvisoryTerm tier)

variable {deployment evaluated}

section Gate

variable {parseAtom : String → Except GoError Datalog.Atom}
  (policy : deployment.engine [] = storeEngine deployment.host parseAtom evaluated)
  (parses : ParsesHaltQueries parseAtom entityInput) {ctx : Context} {input : Envelope}
  {facts : List Datalog.Atom}

include policy parses

theorem assess_denies_iff
    (assessed : assessedFacts (deployment.engine []) deployment.metadata input = some facts) :
    Engine.assess (deployment.engine []) ctx deployment.metadata input ≠ none ↔
      ¬ Unhalted entityInput (evaluated facts) := by
  rw [Ai.assess_ne_none_iff assessed ctx, policy, clean_iff_unhalted parses]

theorem not_runs_iff (asked : deployment.inputAsked ctx input = some facts) :
    ¬ deployment.Runs ctx input ↔ ¬ Unhalted entityInput (evaluated facts) ∧
      (seenHalts entityInput (evaluated facts) = [] ∨
        ∃ reason tier, haltFact entityInput [reason, tier] ∈
          seenHalts entityInput (evaluated facts) ∧ ¬ AdvisoryTerm tier) := by
  rw [runs_iff_passesInput, policy]
  simp only [asked, Option.some.injEq, exists_eq_left', GateAnswers.passesInput_iff_advised,
    clean_iff_unhalted parses, inputAdvised_iff_seen parses]
  push Not
  tauto

end Gate

/-- A global denial is enforced exactly if a halt of the request stands behind it. -/
theorem globalDeny_enforced_iff {parseAtom : String → Except GoError Datalog.Atom}
    (policy : deployment.engine [] = storeEngine deployment.host parseAtom evaluated)
    (parses : ParsesHaltQueries parseAtom entityInput) (aliases : AliasesDeny evaluated)
    (ctx : Context) (input : Envelope) (reason : String) :
    deployment.EnforcesGlobalDeny evaluated ctx input reason ↔
      deployment.HaltsRequest evaluated ctx input reason := by
  -- A reason that names the request is itself a halt of it.
  have named : ∀ facts, GlobalDeny reason (evaluated facts) →
      ((reason = entityInput ∨ ¬ Unhalted entityInput (evaluated facts)) ↔
        ¬ Unhalted entityInput (evaluated facts)) := by
    intro facts denied
    refine or_iff_right_of_imp ?_
    rintro rfl unhalted
    exact unhalted.legacy (denied.halt aliases)
  constructor
  · intro enforces
    refine ⟨fun facts assessed denied => ?_, fun facts asked denied => ?_⟩
    · rw [named facts denied, ← assess_denies_iff policy parses assessed]
      exact enforces.assess facts assessed denied
    · rw [named facts denied, ← not_runs_iff policy parses asked]
      exact enforces.execute facts asked denied
  · intro halts
    refine ⟨fun facts assessed denied => ?_, fun facts asked denied => ?_⟩
    · rw [assess_denies_iff policy parses assessed, ← named facts denied]
      exact halts.assess facts assessed denied
    · rw [not_runs_iff policy parses asked, ← named facts denied]
      exact halts.execute facts asked denied

end Deployment

/-! ## Policies that deny a request as a whole -/

def denyAlias : Datalog.Clause :=
  ⟨⟨predHalt, [.var "Reason"]⟩, [.atom ⟨"deny", [.var "Reason"]⟩]⟩

theorem reference_aliasesDeny {policy : List Datalog.Clause}
    (stratified : Datalog.Stratifies (Datalog.ranksOf policy) policy)
    (member : denyAlias ∈ policy) : AliasesDeny (Reference.evaluated policy) := by
  intro facts reason
  unfold Reference.evaluated
  cases finished : Datalog.evaluate policy 8 (Datalog.Store.empty.addAll facts) with
  | none => simp
  | some store =>
    intro denied
    rw [Option.getD_some, ← Datalog.Store.mem_toSet, Datalog.evaluate_perfect finished,
      Datalog.meaning, dif_pos stratified] at denied ⊢
    have rule : denyAlias.instance (fun _ => .string reason) ∈
        (Datalog.groundProgram (Datalog.ranksOf policy) policy stratified).rules :=
      ⟨denyAlias, member, _, rfl⟩
    refine Stratified.Program.perfect_closed _ _ rule ?_ ?_
    · intro premise occurs
      cases List.mem_singleton.mp occurs
      trivial
    · rintro fact ⟨pattern, occurs, rfl⟩
      cases List.mem_singleton.mp occurs
      exact denied

def deniedFor (reason : String) : List Datalog.Clause :=
  [denyAlias, ⟨denyFact reason, [.atom (Reference.stringAtom "label" ["secret"])]⟩]

theorem reasonNamedRequest_enforced :
    (sendUnder (deniedFor "Req")).inputAsked {} secretInput = some secretFacts ∧
      GlobalDeny "Req" (Reference.evaluated (deniedFor "Req") secretFacts) ∧
      (sendUnder (deniedFor "Req")).EnforcesGlobalDeny (Reference.evaluated (deniedFor "Req")) {}
        secretInput "Req" := by
  have asked : (sendUnder (deniedFor "Req")).inputAsked {} secretInput = some secretFacts := by
    decide +kernel
  refine ⟨asked, .inl (by decide +kernel), ?_⟩
  refine (Deployment.globalDeny_enforced_iff rfl reference_parsesHaltQueries
    (reference_aliasesDeny (by decide +kernel) (by decide +kernel)) {} secretInput "Req").mpr ?_
  refine ⟨fun _ _ _ => .inl rfl, fun facts found _ => ⟨.inl rfl, .inl ?_⟩⟩
  cases asked.symm.trans found
  decide +kernel

/-- The policy denies the request as a whole, and the inner action runs. -/
theorem globalDeny_ignored :
    ¬ (sendUnder (deniedFor "secret data")).EnforcesGlobalDeny
      (Reference.evaluated (deniedFor "secret data")) {} secretInput "secret data" := by
  intro enforces
  have asked : (sendUnder (deniedFor "secret data")).inputAsked {} secretInput =
      some secretFacts := by decide +kernel
  refine enforces.execute secretFacts asked (.inl (by decide +kernel)) ?_
  exact List.ne_nil_of_length_pos (by decide +kernel)

end Manglekit.Supervisor

import Manglekit.Supervisor.PayloadView

/-!
# What the post-check sees of a result

The post-check asks about the tagged fields of the result's payload, and for the
rest about the labels, facts and metadata of the request.  Whatever else the result
carries is not judged.
-/

namespace Manglekit.Supervisor

open Core Engine Stratified

/-! ## Verdicts on sets of derived facts -/

def Prints (atom : Datalog.Atom) : Prop :=
  ∀ term ∈ atom.args, ∃ text, constantToString term = .ok text

def HaltsPrint (facts : Set Datalog.Atom) : Prop :=
  ∀ atom ∈ facts, atom.symbol = predHalt → Prints atom

def BindingTerm (tier : Datalog.Term) : Prop :=
  ∃ text, constantToString tier = .ok text ∧ Binding text

/-- No halt of the entity, with or without a tier. -/
def NoHalt (entityID : String) (derived : Set Datalog.Atom) : Prop :=
  (∀ reason tier, haltFact entityID [reason, tier] ∉ derived) ∧
    (∀ reason, haltFact entityID [reason] ∉ derived) ∧ haltFact entityID [] ∉ derived

def InputPasses (entityID : String) (derived : Set Datalog.Atom) : Prop :=
  ((∃ reason tier, haltFact entityID [reason, tier] ∈ derived) ∧
      ∀ reason tier, haltFact entityID [reason, tier] ∈ derived → AdvisoryTerm tier) ∨
    NoHalt entityID derived

def OutputPasses (entityID : String) (derived : Set Datalog.Atom) : Prop :=
  ((∃ reason tier, haltFact entityID [reason, tier] ∈ derived ∧ AdvisoryTerm tier) ∧
      ∀ reason tier, haltFact entityID [reason, tier] ∈ derived → ¬ BindingTerm tier) ∨
    NoHalt entityID derived

section StoreVerdicts

theorem unifyArgs_ok_of_prints (queryArgs args : List Datalog.Term) (solution : Solution)
    (prints : ∀ term ∈ args, ∃ text, constantToString term = .ok text) :
    ∃ answer, unifyArgs queryArgs args solution = .ok answer := by
  induction queryArgs generalizing args solution with
  | nil => exact ⟨some solution, by cases args <;> rfl⟩
  | cons queryArg queryArgs ih =>
    cases args with
    | nil => exact ⟨some solution, by cases queryArg <;> rfl⟩
    | cons arg args =>
      obtain ⟨⟨text, converted⟩, others⟩ := List.forall_mem_cons.mp prints
      cases queryArg with
      | var symbol =>
        simp only [unifyArgs, converted]
        exact ih args _ others
      | const constant =>
        simp only [unifyArgs]
        split_ifs
        · exact ih args _ others
        · exact ⟨none, rfl⟩

theorem reportSolutions_success (queryAtom : Datalog.Atom) {facts : List Datalog.Atom}
    (prints : ∀ fact ∈ facts, Prints fact) : (reportSolutions queryAtom facts).err = none := by
  induction facts with
  | nil => rfl
  | cons fact rest ih =>
    obtain ⟨first, others⟩ := List.forall_mem_cons.mp prints
    obtain ⟨answer, unified⟩ := unifyArgs_ok_of_prints queryAtom.args fact.args ∅ first
    unfold reportSolutions
    cases answer <;> simp [unified, ih others]

variable {host : Host} {parseAtom : String → Except GoError Datalog.Atom}
  {evaluated : List Datalog.Atom → Datalog.Store} {entityID : String} {ctx : Context}
  {facts : List Datalog.Atom}

section

variable (parses : ParsesHaltQueries parseAtom entityID)

include parses

theorem haltQueriesSucceed_of_haltsPrint {store : Datalog.Store} (prints : HaltsPrint store.toSet) :
    HaltQueriesSucceed parseAtom store entityID := by
  have visited (arity : Nat) : ∀ fact ∈ store.getFacts ⟨predHalt, arity⟩, Prints fact := by
    intro fact member
    obtain ⟨stored, predicate⟩ := Datalog.Store.mem_getFacts.mp member
    exact prints fact stored (congrArg Datalog.PredicateSym.symbol predicate)
  refine ⟨?_, ?_⟩
  · simp only [solutionsIn, parseQuery, parses.halt3]
    exact reportSolutions_success _ (visited 3)
  · simp only [solutionsIn, parseQuery, parses.halt2]
    exact reportSolutions_success _ (visited 2)

theorem untieredHalts_eq_nil_iff
    (success : (solutionsIn parseAtom (evaluated facts) (queryHalt2 entityID)).err = none) :
    (answersOf (storeEngine host parseAtom evaluated) ctx entityID facts).untieredHalts = [] ↔
      ∀ reason, haltFact entityID [reason] ∉ evaluated facts := by
  constructor
  · intro none reason stored
    exact untieredHalts_ne_nil parses success stored none
  · intro none
    rw [List.eq_nil_iff_forall_not_mem]
    intro halt member
    obtain ⟨solution, reported, -⟩ := List.mem_filterMap.mp member
    change solution ∈ (solutionsIn parseAtom (evaluated facts) (queryHalt2 entityID)).reported
      at reported
    rw [solutionsIn_halt2 parses] at success reported
    obtain ⟨⟨symbol, args⟩, visited, unified⟩ := (mem_reported_iff success solution).mp reported
    obtain ⟨stored, predicate⟩ := Datalog.Store.mem_getFacts.mp visited
    simp only [Datalog.Atom.predicate, Datalog.PredicateSym.mk.injEq] at predicate
    obtain ⟨rfl, arity⟩ := predicate
    obtain ⟨reason, text, rfl, -, -⟩ := (unify_halt2 args arity solution).mp unified
    exact none reason stored

theorem denied_eq_false_iff :
    (answersOf (storeEngine host parseAtom evaluated) ctx entityID facts).denied = .ok false ↔
      haltFact entityID [] ∉ evaluated facts := by
  rw [denied_of_haltFact parses]
  simp

theorem tieredHalts_eq_nil_iff
    (success : (solutionsIn parseAtom (evaluated facts) (queryHalt3 entityID)).err = none) :
    (answersOf (storeEngine host parseAtom evaluated) ctx entityID facts).tieredHalts = [] ↔
      ∀ reason tier, haltFact entityID [reason, tier] ∉ evaluated facts := by
  rw [← not_iff_not, ← ne_eq, tieredHalts_ne_nil_iff parses success]
  push Not
  rfl

theorem passesInput_iff_inputPasses (prints : HaltsPrint (evaluated facts).toSet) :
    (answersOf (storeEngine host parseAtom evaluated) ctx entityID facts).PassesInput ↔
      InputPasses entityID (evaluated facts).toSet := by
  have success := haltQueriesSucceed_of_haltsPrint parses prints
  have untiered : (answersOf (storeEngine host parseAtom evaluated) ctx entityID
      facts).untiered.err = none := success.halt2
  unfold GateAnswers.PassesInput InputPasses NoHalt
  rw [tieredHalts_ne_nil_iff parses success.halt3, all_tieredHalts_advisory_iff parses
    success.halt3, tieredHalts_eq_nil_iff parses success.halt3, untieredHalts_eq_nil_iff parses
    success.halt2, denied_eq_false_iff parses]
  simp only [untiered, true_and]
  rfl

/-- The tiered halts that are collected with a property of the tier, where an empty
tier counts as the unknown one. -/
theorem exists_tieredHalts_iff
    (success : (solutionsIn parseAtom (evaluated facts) (queryHalt3 entityID)).err = none)
    {property : Tier → Prop}
    (reported : ∀ text, property (if text = "" then tierUnknown else text) ↔ property text) :
    (∃ halt ∈ (answersOf (storeEngine host parseAtom evaluated) ctx entityID facts).tieredHalts,
        property halt.tier) ↔
      ∃ reason tier, haltFact entityID [reason, tier] ∈ evaluated facts ∧
        ∃ text, constantToString tier = .ok text ∧ property text := by
  simp only [mem_tieredHalts_iff parses success]
  constructor
  · rintro ⟨halt, ⟨reason, tier, reasonText, tierText, stored, -, converted, rfl⟩, holds⟩
    exact ⟨reason, tier, stored, tierText, converted, (reported tierText).mp holds⟩
  · rintro ⟨reason, tier, stored, text, converted, holds⟩
    obtain ⟨reasonText, tierText, reasonConverted, tierConverted⟩ :=
      tiered_converts parses success stored
    obtain rfl : tierText = text := Except.ok.inj (tierConverted.symm.trans converted)
    exact ⟨_, ⟨reason, tier, reasonText, tierText, stored, reasonConverted, tierConverted, rfl⟩,
      (reported tierText).mpr holds⟩

end

theorem binding_reported (text : String) :
    Binding (if text = "" then tierUnknown else text) ↔ Binding text := by
  split_ifs with empty
  · subst empty
    decide
  · rfl

theorem passesOutput_iff_outputPasses (parses : ParsesHaltQueries parseAtom entityID)
    (prints : HaltsPrint (evaluated facts).toSet) :
    (answersOf (storeEngine host parseAtom evaluated) ctx entityID facts).PassesOutput ↔
      OutputPasses entityID (evaluated facts).toSet := by
  have success := haltQueriesSucceed_of_haltsPrint parses prints
  have untiered : (answersOf (storeEngine host parseAtom evaluated) ctx entityID
      facts).untiered.err = none := success.halt2
  have answered : ¬ ∃ err, (answersOf (storeEngine host parseAtom evaluated) ctx entityID
      facts).denied = .error err ∧ AdvisoryError err := by
    rw [denied_of_haltFact parses]
    simp
  have noneBinding : (∀ halt ∈ (answersOf (storeEngine host parseAtom evaluated) ctx entityID
      facts).tieredHalts, ¬ Binding halt.tier) ↔
        ∀ reason tier, haltFact entityID [reason, tier] ∈ evaluated facts → ¬ BindingTerm tier := by
    have exists_iff := not_congr (@exists_tieredHalts_iff host parseAtom evaluated entityID ctx
      facts parses success.halt3 Binding binding_reported)
    push Not at exists_iff
    rw [exists_iff]
    simp only [BindingTerm, not_exists, not_and]
  unfold GateAnswers.PassesOutput OutputPasses NoHalt
  rw [exists_tieredHalts_iff parses success.halt3 advisory_reported, noneBinding,
    tieredHalts_eq_nil_iff parses success.halt3, untieredHalts_eq_nil_iff parses success.halt2,
    denied_eq_false_iff parses]
  simp only [untiered, answered, reduceCtorEq, false_and, exists_false, false_or, or_false,
    true_and]
  rfl

end StoreVerdicts

theorem bindingTerm_governance : BindingTerm (.const (.string tierT1Governance)) :=
  ⟨tierT1Governance, rfl, .inr rfl⟩

theorem advisoryTerm_user : AdvisoryTerm (.const (.string tierT3User)) :=
  ⟨tierT3User, rfl, .inr rfl⟩

theorem not_bindingTerm_of_advisoryTerm {tier : Datalog.Term} (advisory : AdvisoryTerm tier) :
    ¬ BindingTerm tier := by
  rintro ⟨text, converted, binding⟩
  obtain ⟨other, again, isAdvisory⟩ := advisory
  obtain rfl : text = other := Except.ok.inj (converted.symm.trans again)
  rcases binding with rfl | rfl <;> exact absurd isAdvisory (by decide)

theorem not_outputPasses_of_binding {entityID : String} {derived : Set Datalog.Atom}
    {reason tier : Datalog.Term} (halted : haltFact entityID [reason, tier] ∈ derived)
    (binding : BindingTerm tier) : ¬ OutputPasses entityID derived := by
  rintro (⟨-, noneBinding⟩ | ⟨noneTiered, -, -⟩)
  · exact noneBinding reason tier halted binding
  · exact noneTiered reason tier halted

/-! ## Policies with their evaluation -/

/-- A policy with an evaluator that computes its model.  The halts it adds can be
reported. -/
structure Policy where
  program : Program Datalog.Atom
  evaluated : List Datalog.Atom → Datalog.Store
  computes : ∀ facts, (evaluated facts).toSet = program.perfect {atom | atom ∈ facts}
  reports : ∀ facts, HaltsPrint {atom | atom ∈ facts} → HaltsPrint (evaluated facts).toSet

variable {atom : Datalog.Atom} {ctx : Context} {result : Envelope}

namespace Policy

theorem mem_evaluated (policy : Policy) {facts : List Datalog.Atom} (given : atom ∈ facts) :
    atom ∈ policy.evaluated facts := by
  change atom ∈ (policy.evaluated facts).toSet
  rw [policy.computes]
  exact policy.program.subset_perfect _ given

theorem evaluated_congr (policy : Policy) {facts others : List Datalog.Atom}
    (same : ∀ atom, atom ∈ facts ↔ atom ∈ others) :
    (policy.evaluated facts).toSet = (policy.evaluated others).toSet := by
  have sets : {atom | atom ∈ facts} = {atom | atom ∈ others} := Set.ext same
  rw [policy.computes, policy.computes, sets]

open Classical in
noncomputable def ofTests (tests : List (Datalog.Atom × Test Datalog.Atom))
    (independent : Independent tests) (prints : ∀ entry ∈ tests, Prints entry.1) : Policy where
  program := Program.ofTests tests independent
  evaluated facts := (Datalog.Store.empty.addAll facts).addAll
    ((tests.filter fun entry => entry.2.Holds {atom | atom ∈ facts}).map (·.1))
  computes facts := by
    ext atom
    simp only [Program.perfect_ofTests, Datalog.Store.mem_toSet, Datalog.Store.mem_addAll,
      Datalog.Store.not_mem_empty, false_or, List.mem_map, List.mem_filter, decide_eq_true_eq,
      Set.mem_union, Set.mem_ofPred_eq]
    refine or_congr_right (exists_congr fun entry => ?_)
    tauto
  reports facts printed atom member halts := by
    simp only [Datalog.Store.mem_toSet, Datalog.Store.mem_addAll, Datalog.Store.not_mem_empty,
      false_or, List.mem_map, List.mem_filter] at member
    rcases member with given | ⟨entry, ⟨listed, -⟩, rfl⟩
    · exact printed atom given halts
    · exact prints entry listed

theorem mem_evaluated_ofTests {tests : List (Datalog.Atom × Test Datalog.Atom)}
    (independent : Independent tests) (prints : ∀ entry ∈ tests, Prints entry.1)
    (facts : List Datalog.Atom) (atom : Datalog.Atom) :
    atom ∈ (ofTests tests independent prints).evaluated facts ↔
      atom ∈ facts ∨ ∃ entry ∈ tests, entry.1 = atom ∧ entry.2.Holds {atom | atom ∈ facts} := by
  change atom ∈ ((ofTests tests independent prints).evaluated facts).toSet ↔ _
  rw [(ofTests tests independent prints).computes]
  change atom ∈ (Program.ofTests tests independent).perfect _ ↔ _
  rw [Program.perfect_ofTests]
  rfl

end Policy

/-! ## The views of a supervised execution -/

/-- The parser reads the halt queries as they are meant, and no halt with a compound
constant. -/
structure ParsesGate (parseAtom : String → Except GoError Datalog.Atom) : Prop where
  input : ParsesHaltQueries parseAtom entityInput
  output : ParsesHaltQueries parseAtom entityOutput
  plain : ∀ text atom, parseAtom text = .ok atom → atom.symbol = predHalt → Prints atom

variable {input : Envelope}

namespace Deployment

variable (deployment : Deployment)

def under (policy : Policy) : Deployment :=
  { deployment with
    engine := fun _ => storeEngine (deployment.engine []).host (deployment.engine []).parseAtom
      policy.evaluated }

def viewEngine : PolicyEngine Id :=
  storeEngine (deployment.engine []).host (deployment.engine []).parseAtom fun _ => .empty

def view (ctx : Context) (quads : List Quad) : Option (List Datalog.Atom) :=
  askedFacts deployment.host deployment.viewEngine ctx (quadAtoms quads)

def resultView (result : Envelope) : Option (List Datalog.Atom) :=
  (gateFacts deployment.viewEngine deployment.metadata.name entityOutput result []).toOption

/-- The engine's own check of the result ends in a halt of another tier than T2 and
T3. -/
def ReflectHalts (ctx : Context) (result : Envelope) : Prop :=
  ∃ err alignment, reflect (deployment.engine []) ctx deployment.metadata result = .error err ∧
    err.asAlignment = some alignment ∧ ¬ Advisory alignment.tier

/-- The policy derives a halt that blocks the output from the engine's own view of the
result. -/
def ReflectDerives (policy : Policy) (result : Envelope) : Prop :=
  ∃ facts, deployment.resultView result = some facts ∧
    BlockingHalt entityOutput (policy.evaluated facts).toSet

variable {deployment}

theorem askedFacts_under (policy : Policy) (record : List Envelope) (ctx : Context)
    (quads : List Quad) :
    askedFacts deployment.host ((deployment.under policy).engine record) ctx (quadAtoms quads) =
      deployment.view ctx quads := by
  unfold view askedFacts
  rw [@gateFacts_congr _ ((deployment.under policy).engine record) deployment.viewEngine rfl rfl]
  rfl

variable {facts : List Datalog.Atom}

section Prints

variable (plain : ∀ text atom, (deployment.engine []).parseAtom text = .ok atom →
  atom.symbol = predHalt → Prints atom)

include plain

theorem prints_of_reads {texts : List String} {atoms : List Datalog.Atom}
    (reads : Reads (deployment.engine []) texts atoms) (member : atom ∈ atoms)
    (halts : atom.symbol = predHalt) : Prints atom := by
  obtain ⟨text, -, parsed⟩ := reads.parsed _ member
  exact plain text atom parsed halts

theorem haltsPrint_view {pc : PreCheckContext} (threaded : ctx.preCheck = some pc)
    {quads : List Quad} (viewed : deployment.view ctx quads = some facts) :
    HaltsPrint {atom | atom ∈ facts} := by
  obtain ⟨-, -, labelFacts, explicit, labels, read, rfl⟩ :=
    (askedFacts_eq_some_iff threaded _ _).mp viewed
  intro atom member halts
  rcases List.mem_append.mp member with texts | fromMetadata
  · rcases List.mem_append.mp texts with fromLabels | fromFacts
    · exact prints_of_reads plain labels fromLabels halts
    · exact prints_of_reads plain read fromFacts halts
  · rcases symbol_of_mem_metadataFactsOf fromMetadata with symbol | symbol <;>
      simp [symbol, predHalt] at halts

theorem haltsPrint_resultView (viewed : deployment.resultView result = some facts) :
    HaltsPrint {atom | atom ∈ facts} := by
  obtain ⟨payloadFacts, labelFacts, explicit, converted, labels, read, rfl⟩ :=
    (gateFacts_eq_ok_iff _ _ _ _ _ _).mp (toOption_eq_some_iff.mp viewed)
  intro atom member halts
  simp only [List.append_nil, Set.mem_ofPred_eq, List.mem_append] at member
  rcases member with ((fromPayload | fromLabels) | fromFacts) | fromMetadata
  · obtain ⟨text, parsed⟩ := parsed_of_mem_toMangleFacts _ converted fromPayload
    exact plain text atom parsed halts
  · exact prints_of_reads plain labels fromLabels halts
  · exact prints_of_reads plain read fromFacts halts
  · rcases symbol_of_mem_metadataFactsOf fromMetadata with symbol | symbol <;>
      simp [symbol, predHalt] at halts

end Prints

theorem alignment_of_checked {now entityID : String} {answers : GateAnswers} {verdict : GateResult}
    {denied : Bool} {err : GoError} (checked : Checked now entityID answers verdict)
    (untiered : answers.untiered.err = none) (answered : answers.denied = .ok denied)
    (failed : verdict.err = some err) : ∃ alignment, err = .alignment alignment := by
  cases checked with
  | tiered | untiered | denied => exact ⟨_, (Option.some.inj failed).symm⟩
  | failed _ failure => cases untiered.symm.trans failure
  | undecided _ _ _ outcome => cases answered.symm.trans outcome
  | clean => cases failed

theorem reflect_under {policy : Policy} (viewed : deployment.resultView result = some facts)
    (ctx : Context) :
    reflect ((deployment.under policy).engine []) ctx (deployment.under policy).metadata result =
      outputOf result (checkHalts ((deployment.under policy).engine []) ctx
        deployment.metadata.name entityOutput facts) := by
  have asked : (if ((deployment.under policy).engine []).runtime.isReady.run then
      (gateFacts ((deployment.under policy).engine []) deployment.metadata.name entityOutput result
        []).toOption else none) = some facts := by
    rw [@gateFacts_congr _ ((deployment.under policy).engine []) deployment.viewEngine rfl rfl]
    exact viewed
  exact congrArg (outputOf result) (evaluateGate_of_asked ctx asked)

/-- The engine's own check halts exactly if the facts derived from the result do not
pass. -/
theorem reflectHalts_iff (parses : ParsesGate (deployment.engine []).parseAtom) {policy : Policy}
    (viewed : deployment.resultView result = some facts) (ctx : Context) :
    (deployment.under policy).ReflectHalts ctx result ↔
      ¬ OutputPasses entityOutput (policy.evaluated facts).toSet := by
  have prints := policy.reports facts (haltsPrint_resultView parses.plain viewed)
  have success := haltQueriesSucceed_of_haltsPrint parses.output prints
  have untieredSucceeds : (answersOf ((deployment.under policy).engine []) ctx entityOutput
      facts).untiered.err = none := success.halt2
  have deniedAnswers : (answersOf ((deployment.under policy).engine []) ctx entityOutput
      facts).denied = .ok (decide (haltFact entityOutput [] ∈ policy.evaluated facts)) :=
    denied_of_haltFact parses.output
  have checked := checkHalts_checked ((deployment.under policy).engine []) ctx
    deployment.metadata.name entityOutput facts
  have verdict := checked.refuses_output_iff result
  have passes : (answersOf ((deployment.under policy).engine []) ctx entityOutput
      facts).PassesOutput ↔ OutputPasses entityOutput (policy.evaluated facts).toSet :=
    passesOutput_iff_outputPasses parses.output prints
  rw [passes, ← reflect_under viewed ctx] at verdict
  rw [← verdict]
  constructor
  · rintro ⟨err, alignment, failed, chain, hard⟩
    rw [failed, refuses_postCheck_error]
    intro other found
    cases chain.symm.trans found
    exact hard
  · intro refuses
    rcases failed : reflect ((deployment.under policy).engine []) ctx
      (deployment.under policy).metadata result with err | output
    · have chain : ∃ alignment, err = .alignment alignment := by
        rw [reflect_under viewed ctx] at failed
        unfold outputOf at failed
        split at failed
        next reported found =>
          cases failed
          exact alignment_of_checked checked untieredSucceeds deniedAnswers found
        · cases failed
      obtain ⟨alignment, rfl⟩ := chain
      rw [failed, refuses_postCheck_error] at refuses
      exact ⟨_, alignment, failed, rfl, refuses alignment rfl⟩
    · rw [failed] at refuses
      exact absurd refuses (by simp [postCheckResult, refuses_ok, AuditResult.blocks])

theorem viewed_of_reflectHalts {policy : Policy}
    (halts : (deployment.under policy).ReflectHalts ctx result) :
    ∃ facts, deployment.resultView result = some facts := by
  cases viewed : deployment.resultView result with
  | some facts => exact ⟨facts, rfl⟩
  | none =>
    obtain ⟨err, alignment, failed, chain, -⟩ := halts
    cases converted : gateFacts ((deployment.under policy).engine []) deployment.metadata.name
        entityOutput result [] with
    | ok facts =>
      rw [@gateFacts_congr _ ((deployment.under policy).engine []) deployment.viewEngine rfl
        rfl] at converted
      simp [resultView, converted, Except.toOption] at viewed
    | error reason =>
      obtain ⟨inner, rfl⟩ := gateFacts_error converted
      have checked : reflect ((deployment.under policy).engine []) ctx
          (deployment.under policy).metadata result = .error (.input inner) := by
        change outputOf result (evaluateGateWithTrail ((deployment.under policy).engine []) ctx
          deployment.metadata.name entityOutput result []) = _
        rw [evaluateGate_eq, converted]
        rfl
      cases failed.symm.trans checked
      cases chain

/-! ## Every policy on the two views of a result -/

variable (deployment) in
/-- What the post-check lets pass.  That of an action without a name judges the request
once more. -/
def PostPasses (derived : Set Datalog.Atom) : Prop :=
  if deployment.metadata.name = "" then InputPasses entityInput derived
  else OutputPasses entityOutput derived

variable (deployment) in
def Returns (ctx : Context) (input result : Envelope) : Prop :=
  ∃ payload quads, deployment.extracted ctx input.payload = .ok payload ∧
    flattenToQuads entityInput payload = .ok quads ∧
    deployment.respond (deployment.inputContext ctx input) (innerEnvelope payload quads) =
      .ok (.ok result)

variable (deployment) in
/-- Both checks of a request come to ask the engine, the first about `inFacts`, the
second about `outFacts`, and the inner action returns the result in between. -/
def Traverses (ctx : Context) (input : Envelope) (inFacts : List Datalog.Atom) (result : Envelope)
    (outFacts : List Datalog.Atom) : Prop :=
  ∃ payload quads outQuads, deployment.extracted ctx input.payload = .ok payload ∧
    flattenToQuads entityInput payload = .ok quads ∧
    deployment.view (deployment.inputContext ctx input) quads = some inFacts ∧
    deployment.respond (deployment.inputContext ctx input) (innerEnvelope payload quads) =
      .ok (.ok result) ∧
    flattenToQuads entityOutput result.payload = .ok outQuads ∧
    deployment.view (deployment.outputContext ctx input) outQuads = some outFacts

theorem Traverses.returns {inFacts outFacts : List Datalog.Atom}
    (traverses : deployment.Traverses ctx input inFacts result outFacts) :
    deployment.Returns ctx input result := by
  obtain ⟨payload, quads, outQuads, extraction, flattened, -, responded, -⟩ := traverses
  exact ⟨payload, quads, extraction, flattened, responded⟩

theorem Returns.unique {other : Envelope} (returns : deployment.Returns ctx input result)
    (otherReturns : deployment.Returns ctx input other) : result = other := by
  obtain ⟨payload, quads, extraction, flattened, responded⟩ := returns
  obtain ⟨otherPayload, otherQuads, otherExtraction, otherFlattened, otherResponded⟩ := otherReturns
  cases extraction.symm.trans otherExtraction
  cases flattened.symm.trans otherFlattened
  cases responded.symm.trans otherResponded
  rfl

section

variable (parses : ParsesGate (deployment.engine []).parseAtom) (policy : Policy)

include parses policy

theorem refuses_inputVerdict_under (ctx : Context) (input : Envelope) (quads : List Quad) :
    ¬ Refuses ((deployment.under policy).inputVerdict ctx input quads) ↔
      ∃ facts, deployment.view (deployment.inputContext ctx input) quads = some facts ∧
        InputPasses entityInput (policy.evaluated facts).toSet := by
  have viewed := @askedFacts_under deployment policy [] (deployment.inputContext ctx input) quads
  cases found : deployment.view (deployment.inputContext ctx input) quads with
  | none =>
    simp only [reduceCtorEq, false_and, exists_false, iff_false, not_not]
    exact refuses_of_not_asked rfl (viewed.trans found)
  | some facts =>
    have prints := policy.reports _ (haltsPrint_view parses.plain rfl found)
    simp only [Option.some.injEq, exists_eq_left']
    rw [← passesInput_iff_inputPasses parses.input prints, ← not_iff_not, not_not]
    exact refuses_verify_input (viewed.trans found) (by
      simp [reflectsOn, Context.withPreCheck, preCheckContext, inputContext, entityInput,
        entityOutput])

theorem refuses_outputVerdict_under (ctx : Context) (input inner : Envelope) (quads : List Quad) :
    ¬ Refuses ((deployment.under policy).outputVerdict ctx input inner quads) ↔
      ∃ facts, deployment.view (deployment.outputContext ctx input) quads = some facts ∧
        deployment.PostPasses (policy.evaluated facts).toSet := by
  have viewed := @askedFacts_under deployment policy [inner] (deployment.outputContext ctx input)
    quads
  have subject := deployment.reflectsOn_outputContext ctx input
  cases found : deployment.view (deployment.outputContext ctx input) quads with
  | none =>
    simp only [reduceCtorEq, false_and, exists_false, iff_false, not_not]
    exact refuses_of_not_asked rfl (viewed.trans found)
  | some facts =>
    have prints := policy.reports _ (haltsPrint_view parses.plain rfl found)
    simp only [Option.some.injEq, exists_eq_left', PostPasses]
    split_ifs at subject ⊢
    · rw [← passesInput_iff_inputPasses parses.input prints, ← not_iff_not, not_not]
      exact refuses_verify_input (viewed.trans found) subject
    · rw [← passesOutput_iff_outputPasses parses.output prints, ← not_iff_not, not_not]
      exact refuses_verify_output (viewed.trans found) subject

theorem releases_under_iff (ctx : Context) (input : Envelope) :
    (deployment.under policy).Releases ctx input ↔
      ∃ inFacts result outFacts, deployment.Traverses ctx input inFacts result outFacts ∧
        InputPasses entityInput (policy.evaluated inFacts).toSet ∧
        deployment.PostPasses (policy.evaluated outFacts).toSet := by
  simp only [releases_iff, refuses_inputVerdict_under parses, refuses_outputVerdict_under parses]
  constructor
  · rintro ⟨payload, quads, result, outQuads, extraction, flattened, ⟨inFacts, asked, accepted⟩,
      responded, outFlattened, outFacts, outAsked, passed⟩
    exact ⟨inFacts, result, outFacts, ⟨payload, quads, outQuads, extraction, flattened, asked,
      responded, outFlattened, outAsked⟩, accepted, passed⟩
  · rintro ⟨inFacts, result, outFacts, ⟨payload, quads, outQuads, extraction, flattened, asked,
      responded, outFlattened, outAsked⟩, accepted, passed⟩
    exact ⟨payload, quads, result, outQuads, extraction, flattened, ⟨inFacts, asked, accepted⟩,
      responded, outFlattened, outFacts, outAsked, passed⟩

end

end Deployment

/-! ### Advice that hides a halt -/

def textHalt (entityID reason : String) (tier : Tier) : Datalog.Atom :=
  haltFact entityID [.const (.string reason), .const (.string tier)]

theorem prints_textHalt (entityID reason : String) (tier : Tier) :
    Prints (textHalt entityID reason tier) := by
  intro term member
  simp only [textHalt, haltFact, List.mem_cons, List.not_mem_nil, or_false] at member
  rcases member with rfl | rfl | rfl <;> exact ⟨_, rfl⟩

variable (test : Test Datalog.Atom)

theorem exists_untested_textHalt (entityID : String) (tier : Tier) :
    ∃ reason, ¬ test.Tests (textHalt entityID reason tier) := by
  have distinct : textHalt entityID "one" tier ≠ textHalt entityID "other" tier := by
    simp [textHalt, haltFact]
  rcases test.exists_untested distinct with untested | untested <;> exact ⟨_, untested⟩

def Admissible (facts : List Datalog.Atom) : Prop :=
  ∀ reason tier, haltFact entityInput [reason, tier] ∈ facts → AdvisoryTerm tier

theorem admissible_of_inputPasses (policy : Policy) {facts : List Datalog.Atom}
    (passes : InputPasses entityInput (policy.evaluated facts).toSet) : Admissible facts := by
  intro reason tier given
  rcases passes with ⟨-, advisory⟩ | ⟨noneTiered, -, -⟩
  · exact advisory reason tier (policy.mem_evaluated given)
  · exact absurd (policy.mem_evaluated given) (noneTiered reason tier)

/-- A policy that halts the output if the test holds, and always advises about the
request and the output. -/
structure AdvisedPolicy where
  policy : Policy
  tier : Tier
  test : Test Datalog.Atom
  halt : Datalog.Term
  requestAdvice : Datalog.Term
  outputAdvice : Datalog.Term
  mem_evaluated : ∀ facts atom, atom ∈ policy.evaluated facts ↔ atom ∈ facts ∨
    (haltFact entityOutput [halt, .const (.string tier)] = atom ∧
      test.Holds {atom | atom ∈ facts}) ∨
    haltFact entityInput [requestAdvice, .const (.string tierT3User)] = atom ∨
    haltFact entityOutput [outputAdvice, .const (.string tierT3User)] = atom

namespace AdvisedPolicy

theorem exists_of_test (tier : Tier) :
    ∃ advised : AdvisedPolicy, advised.test = test ∧ advised.tier = tier := by
  obtain ⟨halt, haltUntested⟩ := exists_untested_textHalt test entityOutput tier
  obtain ⟨request, requestUntested⟩ := exists_untested_textHalt test entityInput tierT3User
  obtain ⟨output, outputUntested⟩ := exists_untested_textHalt test entityOutput tierT3User
  have independent : Independent [(textHalt entityOutput halt tier, test),
      (textHalt entityInput request tierT3User, .always),
      (textHalt entityOutput output tierT3User, .always)] := by
    simp [Independent, haltUntested, requestUntested, outputUntested]
  exact ⟨{
    policy := Policy.ofTests _ independent (by simp [prints_textHalt])
    tier, test
    halt := .const (.string halt)
    requestAdvice := .const (.string request)
    outputAdvice := .const (.string output)
    mem_evaluated := fun facts atom => by
      simp [Policy.mem_evaluated_ofTests, textHalt, Test.Holds] }, rfl, rfl⟩

variable (advised : AdvisedPolicy)

theorem inputPasses {facts : List Datalog.Atom} (admissible : Admissible facts) :
    InputPasses entityInput (advised.policy.evaluated facts).toSet := by
  refine .inl ⟨⟨_, _, (advised.mem_evaluated _ _).mpr (.inr (.inr (.inl rfl)))⟩,
    fun reason tier member => ?_⟩
  rcases (advised.mem_evaluated _ _).mp member with given | ⟨added, -⟩ | added | added
  · exact admissible reason tier given
  · simp [haltFact, entityInput, entityOutput] at added
  · simp only [haltFact, Datalog.Atom.mk.injEq, List.cons.injEq] at added
    exact added.2.2.2.1 ▸ advisoryTerm_user
  · simp [haltFact, entityInput, entityOutput] at added

theorem outputPasses {facts : List Datalog.Atom}
    (noneBinding : ∀ reason tier, haltFact entityOutput [reason, tier] ∈ facts → ¬ BindingTerm tier)
    (unseen : advised.test.Holds {atom | atom ∈ facts} →
      ¬ BindingTerm (.const (.string advised.tier))) :
    OutputPasses entityOutput (advised.policy.evaluated facts).toSet := by
  refine .inl ⟨⟨_, _, (advised.mem_evaluated _ _).mpr (.inr (.inr (.inr rfl))), advisoryTerm_user⟩,
    fun reason tier member => ?_⟩
  rcases (advised.mem_evaluated _ _).mp member with given | ⟨added, holds⟩ | added | added
  · exact noneBinding reason tier given
  · simp only [haltFact, Datalog.Atom.mk.injEq, List.cons.injEq] at added
    exact added.2.2.2.1 ▸ unseen holds
  · simp [haltFact, entityInput, entityOutput] at added
  · simp only [haltFact, Datalog.Atom.mk.injEq, List.cons.injEq] at added
    exact added.2.2.2.1 ▸ not_bindingTerm_of_advisoryTerm advisoryTerm_user

theorem halt_mem_evaluated {facts : List Datalog.Atom}
    (holds : advised.test.Holds {atom | atom ∈ facts}) :
    haltFact entityOutput [advised.halt, .const (.string advised.tier)] ∈
      (advised.policy.evaluated facts).toSet :=
  (advised.mem_evaluated _ _).mpr (.inr (.inl ⟨rfl, holds⟩))

end AdvisedPolicy

namespace Deployment

variable {deployment : Deployment}

variable (deployment) in
/-- Facts that no policy lets pass the post-check. -/
def Blocked (facts : List Datalog.Atom) : Prop :=
  if deployment.metadata.name = "" then ¬ Admissible facts
  else ∃ reason tier, haltFact entityOutput [reason, tier] ∈ facts ∧ BindingTerm tier

variable (deployment) in
/-- Of every result that can reach the post-check, it asks about the same set of facts
as the engine's own check, or about facts that no policy lets pass. -/
def JudgesResult (ctx : Context) (input : Envelope) : Prop :=
  ∀ inFacts result outFacts reflected, deployment.Traverses ctx input inFacts result outFacts →
    Admissible inFacts → deployment.resultView result = some reflected →
      deployment.Blocked outFacts ∨
        (deployment.metadata.name ≠ "" ∧ ∀ atom, atom ∈ reflected ↔ atom ∈ outFacts)

variable (deployment) in
def BlocksResult (ctx : Context) (input : Envelope) : Prop :=
  ∀ inFacts result outFacts reflected, deployment.Traverses ctx input inFacts result outFacts →
    Admissible inFacts → deployment.resultView result = some reflected →
      deployment.Blocked outFacts

theorem not_postPasses_of_blocked {facts : List Datalog.Atom} (blocked : deployment.Blocked facts)
    (policy : Policy) : ¬ deployment.PostPasses (policy.evaluated facts).toSet := by
  unfold Blocked at blocked
  unfold PostPasses
  split_ifs at blocked ⊢
  · exact fun passes => blocked (admissible_of_inputPasses policy passes)
  · obtain ⟨reason, tier, halted, binding⟩ := blocked
    exact not_outputPasses_of_binding (policy.mem_evaluated halted) binding

/-- Advice gets facts past the post-check, unless no policy does, or the policy halts
them with a binding tier. -/
theorem postPasses_of_advised {facts : List Datalog.Atom} (advised : AdvisedPolicy)
    (notBlocked : ¬ deployment.Blocked facts)
    (unseen : deployment.metadata.name ≠ "" → advised.test.Holds {atom | atom ∈ facts} →
      ¬ BindingTerm (.const (.string advised.tier))) :
    deployment.PostPasses (advised.policy.evaluated facts).toSet := by
  unfold Blocked at notBlocked
  unfold PostPasses
  split_ifs at notBlocked ⊢ with unnamed
  · exact advised.inputPasses (not_not.mp notBlocked)
  · push Not at notBlocked
    exact advised.outputPasses notBlocked (unseen unnamed)

/-- Under every policy the results that the engine's own check halts are withheld,
exactly if the post-check judges the result. -/
theorem withholds_halted_iff (parses : ParsesGate (deployment.engine []).parseAtom)
    (ctx : Context) (input : Envelope) :
    (∀ policy result, deployment.Returns ctx input result →
        (deployment.under policy).ReflectHalts ctx result →
          ¬ (deployment.under policy).Releases ctx input) ↔
      deployment.JudgesResult ctx input := by
  constructor
  · intro withholds inFacts result outFacts reflected traverses admissible viewed
    by_contra unjudged
    push Not at unjudged
    obtain ⟨notBlocked, differ⟩ := unjudged
    -- The test tells the two views apart; without a name, the output is not looked at.
    have separating : ∃ test : Test Datalog.Atom, test.Holds {atom | atom ∈ reflected} ∧
        (deployment.metadata.name ≠ "" → ¬ test.Holds {atom | atom ∈ outFacts}) := by
      by_cases unnamed : deployment.metadata.name = ""
      · exact ⟨.always, trivial, fun named => absurd unnamed named⟩
      · have sets : {atom | atom ∈ reflected} ≠ {atom | atom ∈ outFacts} := fun same =>
          (differ unnamed).elim fun atom different => by
            have alike : atom ∈ reflected ↔ atom ∈ outFacts := Set.ext_iff.mp same atom
            tauto
        obtain ⟨test, holds, fails⟩ := Test.exists_separating sets
        exact ⟨test, holds, fun _ => fails⟩
    obtain ⟨test, holds, fails⟩ := separating
    obtain ⟨advised, rfl, governance⟩ := AdvisedPolicy.exists_of_test test tierT1Governance
    have halted := advised.halt_mem_evaluated holds
    refine withholds advised.policy result traverses.returns ?_ ?_
    · refine (reflectHalts_iff parses viewed ctx).mpr (not_outputPasses_of_binding halted ?_)
      exact governance ▸ bindingTerm_governance
    · exact (releases_under_iff parses advised.policy ctx input).mpr
        ⟨inFacts, result, outFacts, traverses, advised.inputPasses admissible,
          postPasses_of_advised advised notBlocked fun named seen => absurd seen (fails named)⟩
  · intro judges policy result returns halts releases
    obtain ⟨inFacts, released, outFacts, traverses, accepted, passed⟩ :=
      (releases_under_iff parses policy ctx input).mp releases
    obtain rfl := returns.unique traverses.returns
    obtain ⟨reflected, viewed⟩ := viewed_of_reflectHalts halts
    have refused := (reflectHalts_iff parses viewed ctx).mp halts
    rcases judges inFacts result outFacts reflected traverses
      (admissible_of_inputPasses policy accepted) viewed with blocked | ⟨named, same⟩
    · exact not_postPasses_of_blocked blocked policy passed
    · rw [policy.evaluated_congr same] at refused
      exact refused (by simpa [PostPasses, named] using passed)

/-- Under every policy the results from which a halt that blocks can be derived are
withheld, exactly if no policy lets the results pass.  Otherwise a halt of an unknown
tier is hidden by advice. -/
theorem withholds_derived_iff (parses : ParsesGate (deployment.engine []).parseAtom)
    (ctx : Context) (input : Envelope) :
    (∀ policy result, deployment.Returns ctx input result →
        deployment.ReflectDerives policy result → ¬ (deployment.under policy).Releases ctx input) ↔
      deployment.BlocksResult ctx input := by
  constructor
  · intro withholds inFacts result outFacts reflected traverses admissible viewed
    by_contra notBlocked
    obtain ⟨advised, always, unknown⟩ := AdvisedPolicy.exists_of_test .always "T9"
    have notBinding : ¬ BindingTerm (.const (.string advised.tier)) := by
      rintro ⟨text, converted, binding⟩
      obtain rfl := Except.ok.inj converted
      exact absurd (unknown ▸ binding) (by decide)
    have notAdvisory : ¬ AdvisoryTerm (.const (.string advised.tier)) := by
      rintro ⟨text, converted, advisory⟩
      obtain rfl := Except.ok.inj converted
      exact absurd (unknown ▸ advisory) (by decide)
    have halted := @AdvisedPolicy.halt_mem_evaluated advised reflected (always ▸ trivial)
    exact withholds advised.policy result traverses.returns
      ⟨reflected, viewed, .inr (.inr ⟨_, _, halted, notAdvisory⟩)⟩
      ((releases_under_iff parses advised.policy ctx input).mpr
        ⟨inFacts, result, outFacts, traverses, advised.inputPasses admissible,
          postPasses_of_advised advised notBlocked fun _ _ => notBinding⟩)
  · rintro blocks policy result returns ⟨reflected, viewed, -⟩ releases
    obtain ⟨inFacts, released, outFacts, traverses, accepted, passed⟩ :=
      (releases_under_iff parses policy ctx input).mp releases
    obtain rfl := returns.unique traverses.returns
    exact not_postPasses_of_blocked (blocks inFacts result outFacts reflected traverses
      (admissible_of_inputPasses policy accepted) viewed) policy passed

end Deployment

/-! ## A label that the post-check does not see -/

theorem termOfToken_prints {token : Datalog.Token} {term : Datalog.Term}
    (read : Datalog.termOfToken token = some term) : ∃ text, constantToString term = .ok text := by
  unfold Datalog.termOfToken at read
  split at read
  · obtain rfl := Option.some.inj read
    exact ⟨_, rfl⟩
  · split at read
    · cases read
    · split_ifs at read
      · obtain rfl := Option.some.inj read
        exact ⟨_, rfl⟩
      · obtain rfl := Option.some.inj read
        exact ⟨_, rfl⟩
      · obtain ⟨number, -, rfl⟩ := Option.map_eq_some_iff.mp read
        exact ⟨_, rfl⟩
  · cases read

theorem readArgs_prints (tokens : List Datalog.Token) :
    ∀ args rest, Datalog.readArgs tokens = some (args, rest) →
      ∀ term ∈ args, ∃ text, constantToString term = .ok text := by
  fun_induction Datalog.readArgs tokens with
  | case1 => simp
  | case2 token rest _ =>
    intro args others read term member
    obtain ⟨found, ofToken, same⟩ := Option.map_eq_some_iff.mp read
    cases same
    obtain rfl := List.mem_singleton.mp member
    exact termOfToken_prints ofToken
  | case3 token rest notClosing ih =>
    intro args others read term member
    simp only [Option.bind_eq_bind, Option.bind_eq_some_iff, Option.pure_def,
      Option.some.injEq] at read
    obtain ⟨found, ofToken, ⟨terms, remaining⟩, readRest, same⟩ := read
    cases same
    rcases List.mem_cons.mp member with rfl | tail
    · exact termOfToken_prints ofToken
    · exact ih terms remaining readRest term tail
  | case4 => simp

theorem readAtom_prints {tokens rest : List Datalog.Token}
    (read : Datalog.readAtom tokens = some (atom, rest)) : Prints atom := by
  unfold Datalog.readAtom at read
  split at read
  · obtain ⟨⟨args, remaining⟩, readArgs, same⟩ := Option.map_eq_some_iff.mp read
    cases same
    exact readArgs_prints _ _ _ readArgs
  · cases read

theorem reference_prints {text : String} (parsed : Reference.parseAtom text = .ok atom) :
    Prints atom := by
  have read : Datalog.parseAtom text = some atom := by
    unfold Reference.parseAtom at parsed
    split at parsed
    next found read =>
      cases parsed
      exact read
    · cases parsed
  simp only [Datalog.parseAtom, Option.bind_eq_bind, Option.bind_eq_some_iff] at read
  obtain ⟨lexed, -, ⟨found, rest⟩, readAtom, final⟩ := read
  obtain rfl : found = atom := by
    split at final <;> simp_all
  exact readAtom_prints readAtom

theorem reference_parsesGate : ParsesGate Reference.parseAtom where
  input := reference_parsesHaltQueries
  output := ⟨by decide +kernel, by decide +kernel, by decide +kernel⟩
  plain _ _ parsed _ := reference_prints parsed

def haltTier : Except GoError Envelope → Option Tier
  | .error err => err.asAlignment.map (·.tier)
  | .ok _ => none

theorem reflectHalts_of_haltTier {deployment : Deployment} {tier : Tier}
    (halted : haltTier (reflect (deployment.engine []) ctx deployment.metadata
      result) = some tier) (hard : ¬ Advisory tier) : deployment.ReflectHalts ctx result := by
  unfold haltTier at halted
  split at halted
  next err failed =>
    obtain ⟨alignment, chain, rfl⟩ := Option.map_eq_some_iff.mp halted
    exact ⟨err, alignment, failed, chain, hard⟩
  · cases halted

theorem releases_of_isSome {deployment : Deployment}
    (returned : ((deployment.run ctx input).1.toOption.bind Except.toOption).isSome) :
    deployment.Releases ctx input := by
  obtain ⟨output, found⟩ := Option.isSome_iff_exists.mp returned
  obtain ⟨outcome, finished, released⟩ := Option.bind_eq_some_iff.mp found
  exact ⟨output, (toOption_eq_some_iff.mp finished).trans
    (congrArg _ (toOption_eq_some_iff.mp released))⟩

/-- An action `lookup` that answers with secret data, under a policy. -/
def lookupUnder (policy : List Datalog.Clause) : Deployment where
  host := Reference.host
  engine _ := storeEngine Reference.host Reference.parseAtom (Reference.evaluated policy)
  metadata := { name := "lookup" }
  respond _ _ := .ok (.ok { securityLabels := ["secret"] })

def secretPolicy : List Datalog.Clause :=
  [⟨Reference.stringAtom "halt" ["Output", "secret data", "T1"],
    [.atom (Reference.stringAtom "label" ["secret"])]⟩]

end Manglekit.Supervisor

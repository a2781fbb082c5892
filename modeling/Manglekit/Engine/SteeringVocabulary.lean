import Manglekit.Engine.Reference
import Manglekit.Engine.Steering

/-!
# Steering by the declared vocabulary

The standard library declares corrections and routes with one, two and three arguments.
Steering asks for the forms with three arguments about the request, and falls back to the
form with one.  The form with two arguments is never asked for.
-/

namespace Manglekit.Engine

open Core

/-! ## The derived forms -/

section Forms

variable (pred : String) (store : Datalog.Store)

def requestTerm : Datalog.Term := .const (.string entityInput)

def Tiered : Prop := ∃ value tier, (⟨pred, [requestTerm, value, tier]⟩ : Datalog.Atom) ∈ store

/-- Some form about the request without a tier is derived. -/
def OfRequest : Prop := ∃ value, (⟨pred, [requestTerm, value]⟩ : Datalog.Atom) ∈ store

/-- Some form without an entity is derived. -/
def Global : Prop := ∃ value, (⟨pred, [value]⟩ : Datalog.Atom) ∈ store

def Steered : Prop := Tiered pred store ∨ OfRequest pred store ∨ Global pred store

/-- A derived form carries the text with the tier; an empty tier is unknown, and so is the
tier of the forms that have none. -/
def Carries (text : String) (tier : Tier) : Prop :=
  (∃ value tierValue tierText,
      (⟨pred, [requestTerm, value, tierValue]⟩ : Datalog.Atom) ∈ store ∧
      constantToString value = .ok text ∧ constantToString tierValue = .ok tierText ∧
      tier = if tierText = "" then tierUnknown else tierText) ∨
    (tier = tierUnknown ∧ ∃ value, constantToString value = .ok text ∧
      ((⟨pred, [requestTerm, value]⟩ : Datalog.Atom) ∈ store ∨
        (⟨pred, [value]⟩ : Datalog.Atom) ∈ store))

/-- The text belongs to a form of the most authoritative tier among all of them. -/
def Leads (text : String) : Prop :=
  ∃ tier, Carries pred store text tier ∧
    ∀ other otherTier, Carries pred store other otherTier →
      tierPriority tier ≤ tierPriority otherTier

def Answerable : Prop :=
  (∀ value tier, (⟨pred, [requestTerm, value, tier]⟩ : Datalog.Atom) ∈ store →
      (∃ text, constantToString value = .ok text) ∧ ∃ text, constantToString tier = .ok text) ∧
    (¬ Tiered pred store → ∀ value, (⟨pred, [value]⟩ : Datalog.Atom) ∈ store →
      ∃ text, constantToString value = .ok text)

omit pred in
variable {store} in
/-- Facts without compound arguments can always be converted. -/
theorem answerable_of_printable (printable : ∀ atom ∈ store, ∀ arg ∈ atom.args,
    ∃ text, constantToString arg = .ok text) (pred : String) : Answerable pred store :=
  ⟨fun value tier stored => ⟨printable _ stored value (by simp), printable _ stored tier (by simp)⟩,
    fun _ value stored => printable _ stored value (by simp)⟩

def Overlooked : Prop :=
  OfRequest pred store ∧ ¬ Tiered pred store ∧ ¬ Global pred store

end Forms

structure FollowsVocabulary (store : Datalog.Store) (outcome : Except GoError Steering) : Prop where
  retry : Steered predRetry store →
    ∃ hint, outcome = .ok ⟨.retry, AList.singleton keyFeedback hint⟩ ∧ Leads predRetry store hint
  route : ¬ Steered predRetry store → Steered predRoute store →
    ∃ target, outcome = .ok ⟨.route, AList.singleton keyNextStep target⟩ ∧
      Leads predRoute store target
  proceed : ¬ Steered predRetry store → ¬ Steered predRoute store → outcome = .ok ⟨.proceed, ∅⟩

structure ParsesSteering (parseAtom : String → Except GoError Datalog.Atom)
    (pred variableName : String) : Prop where
  tiered : parseAtom (queryTiered pred variableName) =
    .ok ⟨pred, [requestTerm, .var variableName, .var "Tier"]⟩
  untiered : parseAtom (queryUntiered pred variableName) = .ok ⟨pred, [.var variableName]⟩

/-! ## What the queries collect -/

variable {found : List SteeringMatch}

section Queries

variable {parseAtom : String → Except GoError Datalog.Atom} {pred variableName : String}
  {store : Datalog.Store}

theorem solutionsIn_tiered (parses : ParsesSteering parseAtom pred variableName) :
    solutionsIn parseAtom store (queryTiered pred variableName) =
      reportSolutions ⟨pred, [requestTerm, .var variableName, .var "Tier"]⟩
        (store.getFacts ⟨pred, 3⟩) := by
  simp [solutionsIn, parseQuery, parses.tiered, Datalog.Atom.predicate]

theorem solutionsIn_untiered (parses : ParsesSteering parseAtom pred variableName) :
    solutionsIn parseAtom store (queryUntiered pred variableName) =
      reportSolutions ⟨pred, [.var variableName]⟩ (store.getFacts ⟨pred, 1⟩) := by
  simp [solutionsIn, parseQuery, parses.untiered, Datalog.Atom.predicate]

theorem tiered_succeeds_iff (parses : ParsesSteering parseAtom pred variableName) :
    (solutionsIn parseAtom store (queryTiered pred variableName)).err = none ↔
      ∀ value tier, (⟨pred, [requestTerm, value, tier]⟩ : Datalog.Atom) ∈ store →
        (∃ text, constantToString value = .ok text) ∧ ∃ text, constantToString tier = .ok text := by
  rw [solutionsIn_tiered parses, err_eq_none_iff]
  constructor
  · intro converts value tier stored
    have unified := converts _ (mem_getFacts_mk.mpr ⟨stored, rfl, rfl⟩)
    exact (unifyArgs_tiered_ok_iff _ _ rfl).mp unified value tier rfl
  · rintro converts ⟨symbol, args⟩ visited
    obtain ⟨stored, rfl, arity⟩ := mem_getFacts_mk.mp visited
    refine (unifyArgs_tiered_ok_iff entityInput variableName arity).mpr ?_
    rintro value tier rfl
    exact converts value tier stored

theorem unifyArgs_single (value : Datalog.Term) (answer : Option Solution) :
    unifyArgs [.var variableName] [value] ∅ = .ok answer ↔
      ∃ text, constantToString value = .ok text ∧
        answer = some ((∅ : Solution).insert variableName text) := by
  rcases converted : constantToString value with err | text
  · simp [unifyArgs, converted]
  · simp [unifyArgs, converted, eq_comm]

theorem untiered_succeeds_iff (parses : ParsesSteering parseAtom pred variableName) :
    (solutionsIn parseAtom store (queryUntiered pred variableName)).err = none ↔
      ∀ value, (⟨pred, [value]⟩ : Datalog.Atom) ∈ store →
        ∃ text, constantToString value = .ok text := by
  rw [solutionsIn_untiered parses, err_eq_none_iff]
  constructor
  · intro converts value stored
    obtain ⟨answer, unified⟩ := converts _ (mem_getFacts_mk.mpr ⟨stored, rfl, rfl⟩)
    obtain ⟨text, converted, -⟩ := (unifyArgs_single value answer).mp unified
    exact ⟨text, converted⟩
  · rintro converts ⟨symbol, args⟩ visited
    obtain ⟨stored, rfl, arity⟩ := mem_getFacts_mk.mp visited
    obtain ⟨value, rfl⟩ := List.length_eq_one_iff.mp arity
    obtain ⟨text, converted⟩ := converts value stored
    exact ⟨_, (unifyArgs_single value _).mpr ⟨text, converted, rfl⟩⟩

/-! ## What is collected -/

section Collected

theorem untieredMatch_insert (text : String) :
    untieredMatch variableName ((∅ : Solution).insert variableName text) =
      some ⟨text, tierUnknown⟩ := by
  rw [untieredMatch, AList.lookup_insert]
  rfl

variable (named : variableName ≠ "Tier")
include named

theorem tieredMatch_insert (text tierText : String) :
    tieredMatch variableName (((∅ : Solution).insert variableName text).insert "Tier" tierText) =
      some ⟨text, if tierText = "" then tierUnknown else tierText⟩ := by
  unfold tieredMatch
  rw [AList.lookup_insert_ne named, AList.lookup_insert, AList.lookup_insert]
  rfl

theorem mem_tiered_iff (parses : ParsesSteering parseAtom pred variableName)
    (success : (solutionsIn parseAtom store (queryTiered pred variableName)).err = none)
    (found : SteeringMatch) :
    found ∈ (solutionsIn parseAtom store (queryTiered pred variableName)).reported.filterMap
        (tieredMatch variableName) ↔
      ∃ value tier text tierText,
        (⟨pred, [requestTerm, value, tier]⟩ : Datalog.Atom) ∈ store ∧
        constantToString value = .ok text ∧ constantToString tier = .ok tierText ∧
        found = ⟨text, if tierText = "" then tierUnknown else tierText⟩ := by
  rw [solutionsIn_tiered parses] at success ⊢
  exact mem_collected_tiered_iff entityInput variableName (tieredMatch_insert named) success found

omit named in
theorem mem_untiered_iff (parses : ParsesSteering parseAtom pred variableName)
    (success : (solutionsIn parseAtom store (queryUntiered pred variableName)).err = none)
    (found : SteeringMatch) :
    found ∈ (solutionsIn parseAtom store (queryUntiered pred variableName)).reported.filterMap
        (untieredMatch variableName) ↔
      ∃ value text, (⟨pred, [value]⟩ : Datalog.Atom) ∈ store ∧
        constantToString value = .ok text ∧ found = ⟨text, tierUnknown⟩ := by
  rw [solutionsIn_untiered parses] at success ⊢
  simp only [List.mem_filterMap, mem_reported_iff success]
  constructor
  · rintro ⟨solution, ⟨⟨symbol, args⟩, visited, unified⟩, collected⟩
    obtain ⟨stored, rfl, arity⟩ := mem_getFacts_mk.mp visited
    obtain ⟨value, rfl⟩ := List.length_eq_one_iff.mp arity
    obtain ⟨text, converted, answered⟩ := (unifyArgs_single value _).mp unified
    obtain rfl := Option.some.inj answered
    refine ⟨value, text, stored, converted, ?_⟩
    rw [untieredMatch_insert] at collected
    exact (Option.some.inj collected).symm
  · rintro ⟨value, text, stored, converted, rfl⟩
    refine ⟨(∅ : Solution).insert variableName text,
      ⟨_, mem_getFacts_mk.mpr ⟨stored, rfl, rfl⟩, ?_⟩, ?_⟩
    · exact (unifyArgs_single value _).mpr ⟨text, converted, rfl⟩
    · exact untieredMatch_insert text

structure Represents (pred : String) (store : Datalog.Store) (found : List SteeringMatch) :
    Prop where
  nonempty_iff : found ≠ [] ↔ Tiered pred store ∨ Global pred store
  carried : ∀ hint ∈ found, Carries pred store hint.reason hint.tier
  leading : found ≠ [] → ∀ text tier, Carries pred store text tier →
    ∃ hint ∈ found, tierPriority hint.tier ≤ tierPriority tier

omit named in
theorem Represents.leads {first : SteeringMatch}
    {rest : List SteeringMatch} (represents : Represents pred store found)
    (collected : found = first :: rest) : Leads pred store (bestMatch first rest).reason := by
  have member : bestMatch first rest ∈ found := by
    rw [collected]
    exact bestMatch_mem first rest
  refine ⟨_, represents.carried _ member, fun other otherTier carried => ?_⟩
  obtain ⟨hint, hintMember, outranks⟩ :=
    represents.leading (List.ne_nil_of_mem member) other otherTier carried
  rw [collected] at hintMember
  exact (bestMatch_le first rest hint hintMember).trans outranks

end Collected

/-! ## The matches of one kind -/

section Matches

variable (parseAtom pred variableName) in
/-- The two queries on a store, without the runtime around them. -/
def matchesIn (store : Datalog.Store) : Except GoError (List SteeringMatch) :=
  let tiered := solutionsIn parseAtom store (queryTiered pred variableName)
  match tiered.err with
  | some err => .error (.wrap (pred ++ " query failed") err)
  | none =>
    match tiered.reported.filterMap (tieredMatch variableName) with
    | first :: rest => .ok (first :: rest)
    | [] =>
      let untiered := solutionsIn parseAtom store (queryUntiered pred variableName)
      match untiered.err with
      | some err => .error (.wrap (pred ++ " query failed") err)
      | none => .ok (untiered.reported.filterMap (untieredMatch variableName))

theorem steeringMatches_eq {engine : PolicyEngine Id}
    {evaluated : List Datalog.Atom → Datalog.Store}
    (runtime : engine.runtime = storeRuntime parseAtom evaluated) (ctx : Context)
    (facts : List Datalog.Atom) :
    steeringMatches engine ctx facts pred variableName =
      matchesIn parseAtom pred variableName (evaluated facts) := by
  unfold steeringMatches
  rw [runtime]
  rfl

variable (named : variableName ≠ "Tier") (parses : ParsesSteering parseAtom pred variableName)
include named parses

section

variable (success : (solutionsIn parseAtom store (queryTiered pred variableName)).err = none)

include success

theorem tiered_nonempty_iff :
    (solutionsIn parseAtom store (queryTiered pred variableName)).reported.filterMap
        (tieredMatch variableName) ≠ [] ↔ Tiered pred store := by
  have collects := mem_tiered_iff named parses success
  constructor
  · intro nonempty
    obtain ⟨hint, member⟩ := List.exists_mem_of_ne_nil _ nonempty
    obtain ⟨value, tier, _, _, stored, -⟩ := (collects hint).mp member
    exact ⟨value, tier, stored⟩
  · rintro ⟨value, tier, stored⟩
    obtain ⟨⟨text, converted⟩, tierText, convertedTier⟩ :=
      (tiered_succeeds_iff parses).mp success value tier stored
    exact List.ne_nil_of_mem
      ((collects _).mpr ⟨value, tier, text, tierText, stored, converted, convertedTier, rfl⟩)

theorem represents_tiered
    (tagged : Tiered pred store) :
    Represents pred store ((solutionsIn parseAtom store
      (queryTiered pred variableName)).reported.filterMap (tieredMatch variableName)) where
  nonempty_iff := by simp [tiered_nonempty_iff named parses success, tagged]
  carried hint member := by
    obtain ⟨value, tier, text, tierText, stored, converted, convertedTier, rfl⟩ :=
      (mem_tiered_iff named parses success hint).mp member
    exact .inl ⟨value, tier, tierText, stored, converted, convertedTier, rfl⟩
  leading nonempty text tier carried := by
    obtain ⟨value, tierValue, tierText, stored, converted, convertedTier, rfl⟩ | ⟨rfl, -⟩ := carried
    · exact ⟨_, (mem_tiered_iff named parses success _).mpr
        ⟨value, tierValue, text, tierText, stored, converted, convertedTier, rfl⟩, le_rfl⟩
    · obtain ⟨hint, member⟩ := List.exists_mem_of_ne_nil _ nonempty
      exact ⟨hint, member, tierPriority_le_four hint.tier⟩

end

omit named in
theorem represents_untiered
    (success : (solutionsIn parseAtom store (queryUntiered pred variableName)).err = none)
    (untagged : ¬ Tiered pred store) :
    Represents pred store ((solutionsIn parseAtom store
      (queryUntiered pred variableName)).reported.filterMap (untieredMatch variableName)) where
  nonempty_iff := by
    have collects := mem_untiered_iff parses success
    simp only [untagged, false_or]
    constructor
    · intro nonempty
      obtain ⟨hint, member⟩ := List.exists_mem_of_ne_nil _ nonempty
      obtain ⟨value, _, stored, -⟩ := (collects hint).mp member
      exact ⟨value, stored⟩
    · rintro ⟨value, stored⟩
      obtain ⟨text, converted⟩ := (untiered_succeeds_iff parses).mp success value stored
      exact List.ne_nil_of_mem ((collects _).mpr ⟨value, text, stored, converted, rfl⟩)
  carried hint member := by
    obtain ⟨value, text, stored, converted, rfl⟩ := (mem_untiered_iff parses success hint).mp member
    exact .inr ⟨rfl, value, converted, .inr stored⟩
  leading nonempty text tier carried := by
    obtain ⟨hint, member⟩ := List.exists_mem_of_ne_nil _ nonempty
    refine ⟨hint, member, ?_⟩
    obtain ⟨value, tierValue, -, stored, -⟩ | ⟨rfl, -⟩ := carried
    · exact absurd ⟨value, tierValue, stored⟩ untagged
    · exact tierPriority_le_four hint.tier

theorem matchesIn_of_answerable (answerable : Answerable pred store) :
    ∃ found, matchesIn parseAtom pred variableName store = .ok found ∧
      Represents pred store found := by
  have success := (tiered_succeeds_iff parses).mpr answerable.1
  have nonempty_iff := tiered_nonempty_iff named parses success
  by_cases tagged : Tiered pred store
  · have represents := represents_tiered named parses success tagged
    obtain ⟨first, rest, collected⟩ := List.exists_cons_of_ne_nil (nonempty_iff.mpr tagged)
    refine ⟨_, ?_, represents⟩
    simp only [matchesIn, success, collected]
  · have fallback := (untiered_succeeds_iff parses).mpr (answerable.2 tagged)
    have empty := not_ne_iff.mp (nonempty_iff.not.mpr tagged)
    refine ⟨_, ?_, represents_untiered parses fallback tagged⟩
    simp only [matchesIn, success, empty, fallback]

section

variable (collected : matchesIn parseAtom pred variableName store = .ok found)

include collected

/-- Queries that end without an error can convert what they find. -/
theorem answerable_of_matchesIn : Answerable pred store := by
  unfold matchesIn at collected
  rcases success : (solutionsIn parseAtom store (queryTiered pred variableName)).err with _ | err
  · refine ⟨(tiered_succeeds_iff parses).mp success, fun untagged => ?_⟩
    have empty := not_ne_iff.mp ((tiered_nonempty_iff named parses success).not.mpr untagged)
    rcases fallback : (solutionsIn parseAtom store (queryUntiered pred variableName)).err
      with _ | err
    · exact (untiered_succeeds_iff parses).mp fallback
    · simp [success, empty, fallback] at collected
  · simp [success] at collected

theorem represents_of_matchesIn : Represents pred store found := by
  obtain ⟨expected, answered, represents⟩ := matchesIn_of_answerable named parses
    (answerable_of_matchesIn named parses collected)
  obtain rfl := Except.ok.inj (collected.symm.trans answered)
  exact represents

end

end Matches

end Queries

/-! ## The decision -/

section Decision

variable {store : Datalog.Store}

theorem Represents.overlooked_iff {pred : String} (represents : Represents pred store found) :
    Overlooked pred store ↔ found = [] ∧ Steered pred store := by
  have collected := represents.nonempty_iff.not
  simp only [Overlooked, Steered] at collected ⊢
  tauto

theorem FollowsVocabulary.succeeds {outcome : Except GoError Steering}
    (follows : FollowsVocabulary store outcome) : ∃ steering, outcome = .ok steering := by
  by_cases retried : Steered predRetry store
  · obtain ⟨hint, decided, -⟩ := follows.retry retried
    exact ⟨_, decided⟩
  · by_cases routed : Steered predRoute store
    · obtain ⟨target, decided, -⟩ := follows.route retried routed
      exact ⟨_, decided⟩
    · exact ⟨_, follows.proceed retried routed⟩

theorem followsVocabulary_resolve_iff {retries routes : List SteeringMatch}
    (corrections : Represents predRetry store retries)
    (redirections : Represents predRoute store routes) :
    FollowsVocabulary store (.ok (resolveSteering retries routes)) ↔
      ¬ Overlooked predRetry store ∧
        (¬ Steered predRetry store → ¬ Overlooked predRoute store) := by
  rw [corrections.overlooked_iff, redirections.overlooked_iff]
  rcases retries with _ | ⟨first, rest⟩
  · rcases routes with _ | ⟨first, rest⟩
    · -- Nothing was collected, so nothing may have been derived.
      constructor
      · intro follows
        have unretried : ¬ Steered predRetry store := by
          intro retried
          obtain ⟨hint, decided, -⟩ := follows.retry retried
          simp [resolveSteering] at decided
        refine ⟨fun overlooked => unretried overlooked.2, fun _ overlooked => ?_⟩
        obtain ⟨target, decided, -⟩ := follows.route unretried overlooked.2
        simp [resolveSteering] at decided
      · rintro ⟨unretried, unrouted⟩
        exact ⟨fun retried => absurd ⟨rfl, retried⟩ unretried,
          fun unsteered routed => absurd ⟨rfl, routed⟩ (unrouted unsteered), fun _ _ => rfl⟩
    · have routed : Steered predRoute store := (redirections.nonempty_iff.mp (by simp)).imp id .inr
      constructor
      · intro follows
        refine ⟨fun overlooked => ?_, by simp⟩
        obtain ⟨hint, decided, -⟩ := follows.retry overlooked.2
        simp [resolveSteering] at decided
      · rintro ⟨unretried, -⟩
        exact ⟨fun retried => absurd ⟨rfl, retried⟩ unretried,
          fun _ _ => ⟨_, rfl, redirections.leads rfl⟩, fun _ unrouted => absurd routed unrouted⟩
  · have retried : Steered predRetry store := (corrections.nonempty_iff.mp (by simp)).imp id .inr
    simp only [retried, not_true_eq_false, false_implies, and_true, reduceCtorEq,
      not_false_eq_true, iff_true]
    exact ⟨fun _ => ⟨_, rfl, corrections.leads rfl⟩, fun unretried => absurd retried unretried,
      fun unretried => absurd retried unretried⟩

end Decision

def SteersOn (engine : PolicyEngine Id) (input : Envelope) (facts : List Datalog.Atom) : Prop :=
  ∃ payloadFacts,
    toMangleFacts engine entityInput input.payload input.contentType = .ok payloadFacts ∧
    appendEnvelopeFacts engine payloadFacts input "" = (facts, none)

section Engine

variable {parseAtom : String → Except GoError Datalog.Atom}
  {evaluated : List Datalog.Atom → Datalog.Store} {engine : PolicyEngine Id} {input : Envelope}
  {facts : List Datalog.Atom}

theorem evaluateSteering_eq (runtime : engine.runtime = storeRuntime parseAtom evaluated)
    (steers : SteersOn engine input facts) (ctx : Context) :
    evaluateSteering engine ctx input =
      match matchesIn parseAtom predRetry "Hint" (evaluated facts) with
      | .error err => Except.error err
      | .ok retries =>
        match matchesIn parseAtom predRoute "Target" (evaluated facts) with
        | .error err => .error err
        | .ok routes => .ok (resolveSteering retries routes) := by
  obtain ⟨payloadFacts, converted, appended⟩ := steers
  rw [← steeringMatches_eq runtime ctx facts, ← steeringMatches_eq runtime ctx facts]
  have ready : engine.runtime.isReady = true := by rw [runtime]; rfl
  simp only [evaluateSteering, converted, appended]
  rw [ready]
  rfl

/-- Steering follows the declared vocabulary if the queries it asks can be answered and the
forms with two arguments never stand alone. -/
theorem steering_follows_vocabulary_iff
    (runtime : engine.runtime = storeRuntime parseAtom evaluated)
    (steers : SteersOn engine input facts)
    (parsesRetry : ParsesSteering parseAtom predRetry "Hint")
    (parsesRoute : ParsesSteering parseAtom predRoute "Target") (ctx : Context) :
    FollowsVocabulary (evaluated facts) (evaluateSteering engine ctx input) ↔
      Answerable predRetry (evaluated facts) ∧ Answerable predRoute (evaluated facts) ∧
        ¬ Overlooked predRetry (evaluated facts) ∧
        (¬ Steered predRetry (evaluated facts) → ¬ Overlooked predRoute (evaluated facts)) := by
  rw [evaluateSteering_eq runtime steers ctx]
  constructor
  · intro follows
    obtain ⟨steering, decided⟩ := follows.succeeds
    rcases corrected : matchesIn parseAtom predRetry "Hint" (evaluated facts) with err | retries
    · simp [corrected] at decided
    rcases redirected : matchesIn parseAtom predRoute "Target" (evaluated facts) with
      err | routes
    · simp [corrected, redirected] at decided
    have corrections := represents_of_matchesIn (by decide) parsesRetry corrected
    have redirections := represents_of_matchesIn (by decide) parsesRoute redirected
    simp only [corrected, redirected] at follows
    exact ⟨answerable_of_matchesIn (by decide) parsesRetry corrected,
      answerable_of_matchesIn (by decide) parsesRoute redirected,
      (followsVocabulary_resolve_iff corrections redirections).mp follows⟩
  · rintro ⟨answerableRetry, answerableRoute, derived⟩
    obtain ⟨retries, corrected, corrections⟩ :=
      matchesIn_of_answerable (by decide) parsesRetry answerableRetry
    obtain ⟨routes, redirected, redirections⟩ :=
      matchesIn_of_answerable (by decide) parsesRoute answerableRoute
    simp only [corrected, redirected]
    exact (followsVocabulary_resolve_iff corrections redirections).mpr derived

end Engine

/-! ## Concrete corrections -/

section Concrete

def correctingPolicy (forms : List (List String)) : List Datalog.Clause :=
  forms.map fun args => ⟨Reference.stringAtom predRetry args, []⟩

def correctingEngine (forms : List (List String)) : PolicyEngine Id where
  host := Reference.host
  parseAtom := Reference.parseAtom
  runtime := storeRuntime Reference.parseAtom (Reference.evaluated (correctingPolicy forms))

theorem correctingEngine_steersOn (forms : List (List String)) :
    SteersOn (correctingEngine forms) {} [] := ⟨[], rfl, rfl⟩

theorem referenceParser_parsesRetry : ParsesSteering Reference.parseAtom predRetry "Hint" :=
  ⟨by decide +kernel, by decide +kernel⟩

theorem referenceParser_parsesRoute : ParsesSteering Reference.parseAtom predRoute "Target" :=
  ⟨by decide +kernel, by decide +kernel⟩

/-- A correction pinned to the request without a tier is not seen: the request proceeds. -/
theorem pinned_correction_overlooked :
    (evaluateSteering (correctingEngine [["Req", "add a budget"]]) {} {} :
        Except GoError Steering).toOption.map (·.decision) = some .proceed ∧
      ¬ FollowsVocabulary
        (Reference.evaluated (correctingPolicy [["Req", "add a budget"]]) [])
        (evaluateSteering (correctingEngine [["Req", "add a budget"]]) {} {}) := by
  have proceeds : (evaluateSteering (correctingEngine [["Req", "add a budget"]]) {} {} :
      Except GoError Steering).toOption.map (·.decision) = some .proceed := by decide +kernel
  refine ⟨proceeds, fun follows => ?_⟩
  have derived : OfRequest predRetry
      (Reference.evaluated (correctingPolicy [["Req", "add a budget"]]) []) :=
    ⟨.const (.string "add a budget"), by decide +kernel⟩
  obtain ⟨hint, decided, -⟩ := follows.retry (.inr (.inl derived))
  rw [decided] at proceeds
  simp [Except.toOption] at proceeds

def layeredForms : List (List String) :=
  [["Req", "add a budget"], ["Req", "name the owner", "T2"], ["Req", "cite it", "T1"]]

/-- Beside corrections with a tier the pinned one ranks last. -/
theorem tiered_correction_followed :
    FollowsVocabulary (Reference.evaluated (correctingPolicy layeredForms) [])
      (evaluateSteering (correctingEngine layeredForms) {} {}) := by
  have facts : (Reference.evaluated (correctingPolicy layeredForms) []).facts =
      layeredForms.map (Reference.stringAtom predRetry) := by decide +kernel
  have printable : ∀ atom ∈ Reference.evaluated (correctingPolicy layeredForms) [],
      ∀ arg ∈ atom.args, ∃ text, constantToString arg = .ok text := by
    intro atom member
    rw [Datalog.Store.mem_def, facts] at member
    obtain ⟨args, -, rfl⟩ := List.mem_map.mp member
    simp [Reference.stringAtom, constantToString]
  have tagged : Tiered predRetry (Reference.evaluated (correctingPolicy layeredForms) []) :=
    ⟨.const (.string "cite it"), .const (.string "T1"), by decide +kernel⟩
  exact (steering_follows_vocabulary_iff rfl (correctingEngine_steersOn _)
    referenceParser_parsesRetry referenceParser_parsesRoute {}).mpr
    ⟨answerable_of_printable printable _, answerable_of_printable printable _,
      fun overlooked => overlooked.2.1 tagged, fun unretried => absurd (.inl tagged) unretried⟩

end Concrete

end Manglekit.Engine

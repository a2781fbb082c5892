import Manglekit.Engine.Explain
import Manglekit.Engine.Reference
import Manglekit.Predicates.Counting

/-!
# What one gate check counts

The predicate `rate_limit_exceeded` counts each of its calls in variables of the process.  A
gate check makes several queries.  With an external predicate nothing is cached, so each query
evaluates the policy anew and calls the predicate anew.
-/

namespace Manglekit.Engine

open Manglekit.Core Datalog Predicates

/-! ## Evaluations that call the predicate -/

def rateLimitPredicate : String := "rate_limit_exceeded"

/-- An evaluation by the Datalog engine, up to its calls of the predicate.  How it goes on
depends on the answers. -/
inductive Evaluation where
  | ask (inputs : List Constant) (next : Except GoError (List (List Constant)) → Evaluation)
  | finish (store : Store) (err : Option GoError)

abbrev MeteredM := StateM (List Call)

structure Reading where
  created : Int
  swept : Int
  counted : Int

def astConstantToGoValue : Constant → Argument
  | .number value => .int64 value
  | constant => .string (constantSymbol constant)

def goValueToAstConstant : Bool → Constant
  | true => .name "/true"
  | false => .name "/false"

def adaptResults : Except String (List (List Bool)) → Except GoError (List (List Constant))
  | .error err => .error (.wrap "external predicate failed" (.text err))
  | .ok results =>
    .ok ((results.filter fun result => !result.isEmpty).map (·.map goValueToAstConstant))

def callAt (reading : Reading) (inputs : List Constant) : Call where
  inputs := inputs.map astConstantToGoValue
  created := reading.created
  swept := reading.swept
  counted := reading.counted

def callRateLimit (clock : Nat → Reading) (inputs : List Constant) :
    MeteredM (Except GoError (List (List Constant))) := fun past =>
  let call := callAt (clock past.length) inputs
  (adaptResults (rateLimitExceeded (afterCalls past) call).1, past ++ [call])

def Evaluation.run (clock : Nat → Reading) : Evaluation → MeteredM (Store × Option GoError)
  | .finish store err => pure (store, err)
  | .ask inputs next => do
    let answer ← callRateLimit clock inputs
    (next answer).run clock

/-! ## The runtime with the predicate -/

/-- The Datalog engine with callbacks: an evaluation calls the predicate only if its options
carry it. -/
structure CallingMangle (Key : Type) extends Mangle Key where
  evalCalling : Program → EvalOptions → Context → Nat → Store → Evaluation

structure MeteredRuntime (Key : Type) extends MangleRuntime Key where
  registered : rateLimitPredicate ∈ externalPreds.map (·.1)

def EvalOptions.carriesRateLimit (options : EvalOptions) : Bool :=
  options.externalPredicates.any fun external => decide (external.1.symbol = rateLimitPredicate)

section Operations

variable {Key : Type} (mangle : CallingMangle Key) (runtime : MeteredRuntime Key)
  (clock : Nat → Reading)

def evaluationOf (ctx : Context) (program : Program) (options : EvalOptions)
    (facts : List Datalog.Atom) : Evaluation :=
  let store := runtime.baseFactStore.addAll facts
  match ctx.err .evaluation with
  | some err => .finish store (some err)
  | none =>
    if options.carriesRateLimit then
      mangle.evalCalling program options ctx runtime.evalTimeout store
    else
      let (evaluated, err) := mangle.eval program options ctx runtime.evalTimeout store
      .finish evaluated err

def meteredWorkingStore (ctx : Context) (program : Program) (options : EvalOptions)
    (facts : List Datalog.Atom) : MeteredM (Except GoError Store) :=
  match ctx.err .workingStore with
  | some err => pure (.error err)
  | none => do
    match ← (evaluationOf mangle runtime ctx program options facts).run clock with
    | (_, some err) => pure (.error (.wrap "evaluation failed" err))
    | (evaluated, none) => pure (.ok evaluated)

def solutionOptions (program : Program) : EvalOptions :=
  (runtime.buildEvalOptionsFor program.info).withLimit runtime.maxCreatedFacts

def meteredQueryWithSolutions (program : Program) (ctx : Context) (facts : List Datalog.Atom)
    (query : String) : MeteredM QueryRun :=
  match ctx.err .query with
  | some err => pure ⟨[], some err⟩
  | none => do
    match ← meteredWorkingStore mangle runtime clock ctx program
        (solutionOptions runtime program) facts with
    | .error err => pure ⟨[], some err⟩
    | .ok store => pure (solutionsIn mangle.parseAtom store query)

def meteredExecuteQuery (program : Program) (ctx : Context) (facts : List Datalog.Atom)
    (query : String) : MeteredM (Except GoError Bool) :=
  match ctx.err .query with
  | some err => pure (.error err)
  | none => do
    match ← meteredWorkingStore mangle runtime clock ctx program {} facts with
    | .error err => pure (.error err)
    | .ok store => pure (holdsIn mangle.parseAtom store query)

/-- Nothing is asked of a runtime that is not ready. -/
def meteredQueries : QueryRuntime MeteredM :=
  match runtime.program with
  | none =>
    { isReady := pure false
      queryWithSolutions := fun _ _ _ => pure ⟨[], some (.text "runtime not initialized")⟩
      executeQuery := fun _ _ _ => pure (.error (.text "runtime not initialized")) }
  | some program =>
    { isReady := pure true
      queryWithSolutions := meteredQueryWithSolutions mangle runtime clock program
      executeQuery := meteredExecuteQuery mangle runtime clock program }

def meteredEngine (host : Host) : PolicyEngine MeteredM where
  host := host
  parseAtom := mangle.parseAtom
  runtime := meteredQueries mangle runtime clock

end Operations

/-! ## Counting -/

variable {pair : String × Int}

section Counting

variable {α β : Type}

def Counts (pair : String × Int) (least : Nat) (action : MeteredM α) : Prop :=
  ∀ past, (timesFor pair past).length + least ≤ (timesFor pair (action.run past).2).length

theorem Counts.pure (pair : String × Int) (result : α) :
    Counts pair 0 (pure result : MeteredM α) := fun _ => le_rfl

variable {action : MeteredM α}

theorem Counts.bind {pair : String × Int} {first second : Nat}
    {next : α → MeteredM β} (counts : Counts pair first action)
    (counted : ∀ result, Counts pair second (next result)) :
    Counts pair (first + second) (action >>= next) := fun past => by
  have earlier := counts past
  have later := counted (action.run past).1 (action.run past).2
  exact le_trans (by omega) later

theorem Counts.mono {least fewer : Nat} (counts : Counts pair least action)
    (fewer_le : fewer ≤ least) : Counts pair fewer action :=
  fun past => le_trans (by omega) (counts past)

/-- The action counts for no pair. -/
def Uncounted (action : MeteredM α) : Prop :=
  ∀ pair past, timesFor pair (action.run past).2 = timesFor pair past

theorem Uncounted.pure (result : α) : Uncounted (pure result : MeteredM α) := fun _ _ => rfl

theorem Uncounted.bind {next : α → MeteredM β}
    (first : Uncounted action) (second : ∀ result, Uncounted (next result)) :
    Uncounted (action >>= next) := fun pair past =>
  (second (action.run past).1 pair (action.run past).2).trans (first pair past)

/-! ## Evaluations -/

/-- The first pair that an evaluation counts for.  Before it the predicate only refuses its
inputs, which does not depend on what was counted. -/
def Evaluation.firstPair : Evaluation → Option (String × Int)
  | .finish _ _ => none
  | .ask inputs next =>
    match pairOf (inputs.map astConstantToGoValue) with
    | .ok pair => some pair
    | .error err => (next (adaptResults (.error err))).firstPair

variable (clock : Nat → Reading)

theorem timesFor_concat (pair : String × Int) (past : List Call) (call : Call) :
    timesFor pair (past ++ [call]) =
      timesFor pair past ++
        if (pairOf call.inputs).toOption = some pair then [call.counted] else [] := by
  simp only [timesFor, List.filterMap_append, List.filterMap_cons, List.filterMap_nil]
  split_ifs <;> rfl

theorem counts_callRateLimit (pair : String × Int) (inputs : List Constant) :
    Counts pair 0 (callRateLimit clock inputs) := by
  intro past
  change _ ≤ (timesFor pair (past ++ [callAt (clock past.length) inputs])).length
  rw [timesFor_concat, List.length_append]
  omega

theorem counts_run (pair : String × Int) (evaluation : Evaluation) :
    Counts pair 0 (evaluation.run clock) := by
  induction evaluation with
  | finish store err => exact Counts.pure pair _
  | ask inputs next ih =>
    exact (counts_callRateLimit clock pair inputs).bind ih

section

variable {inputs : List Constant} {err : String}
  (refused : pairOf (inputs.map astConstantToGoValue) = .error err)

include refused

theorem callRateLimit_of_error (past : List Call) :
    callRateLimit clock inputs past =
      (adaptResults (.error err), past ++ [callAt (clock past.length) inputs]) := by
  simp [callRateLimit, rateLimitExceeded, callAt, refused]

theorem timesFor_refused (pair : String × Int) (past : List Call) (reading : Reading) :
    timesFor pair (past ++ [callAt reading inputs]) = timesFor pair past := by
  rw [timesFor_concat]
  simp [callAt, refused, Except.toOption]

end

theorem run_ask (inputs : List Constant)
    (next : Except GoError (List (List Constant)) → Evaluation) (past : List Call) :
    ((Evaluation.ask inputs next).run clock).run past =
      ((next (callRateLimit clock inputs past).1).run clock).run
        (callRateLimit clock inputs past).2 := rfl

variable {evaluation : Evaluation}

theorem counts_run_of_firstPair
    (first : evaluation.firstPair = some pair) : Counts pair 1 (evaluation.run clock) := by
  induction evaluation with
  | finish store err => simp [Evaluation.firstPair] at first
  | ask inputs next ih =>
    simp only [Evaluation.firstPair] at first
    split at first
    next asked named =>
      obtain rfl := Option.some.inj first
      have counts : Counts asked 1 (callRateLimit clock inputs) := by
        intro past
        change _ ≤ (timesFor asked (past ++ [callAt (clock past.length) inputs])).length
        rw [timesFor_concat]
        simp [callAt, named, Except.toOption]
      exact counts.bind fun answer => counts_run clock asked (next answer)
    next err refused =>
      intro past
      rw [run_ask, callRateLimit_of_error clock refused]
      have later := ih _ first (past ++ [callAt (clock past.length) inputs])
      rwa [timesFor_refused refused] at later

theorem uncounted_run (quiet : evaluation.firstPair = none) : Uncounted (evaluation.run clock) := by
  induction evaluation with
  | finish store err => exact Uncounted.pure _
  | ask inputs next ih =>
    simp only [Evaluation.firstPair] at quiet
    split at quiet
    · simp at quiet
    next err refused =>
      intro pair past
      rw [run_ask, callRateLimit_of_error clock refused, ih _ quiet, timesFor_refused refused]

end Counting

/-! ## Gate checks -/

theorem compositional_counts (pair : String × Int) :
    Effects.Compositional (m := MeteredM) fun _ => Counts pair 0 :=
  ⟨Counts.pure pair, Counts.bind⟩

theorem compositional_uncounted : Effects.Compositional (m := MeteredM) fun _ => Uncounted :=
  ⟨Uncounted.pure, Uncounted.bind⟩

section Metered

variable {Key : Type} (mangle : CallingMangle Key) (runtime : MeteredRuntime Key)
  (clock : Nat → Reading) (host : Host)

def queryEvaluation (ctx : Context) (program : Program) (facts : List Datalog.Atom) :
    Evaluation :=
  evaluationOf mangle runtime ctx program (solutionOptions runtime program) facts

variable {mangle runtime clock host}

/-- A boolean query evaluates without callbacks. -/
theorem firstPair_without_callbacks (ctx : Context) (program : Program)
    (facts : List Datalog.Atom) :
    (evaluationOf mangle runtime ctx program {} facts).firstPair = none := by
  unfold evaluationOf
  split <;> rfl

section Rules

variable {holds : (α : Type) → MeteredM α → Prop} (compositional : Effects.Compositional holds)
  {program : Program} {ctx : Context} {facts : List Datalog.Atom}
include compositional

theorem holds_workingStore {options : EvalOptions}
    (evaluates : ctx.err .workingStore = none →
      holds _ ((evaluationOf mangle runtime ctx program options facts).run clock)) :
    holds _ (meteredWorkingStore mangle runtime clock ctx program options facts) := by
  unfold meteredWorkingStore
  split
  · exact compositional.pure _
  next begun =>
    refine compositional.bind (evaluates begun) fun outcome => ?_
    split <;> exact compositional.pure _

theorem holds_query
    (evaluates : ctx.err .query = none → ctx.err .workingStore = none →
      holds _ ((queryEvaluation mangle runtime ctx program facts).run clock))
    (query : String) :
    holds _ (meteredQueryWithSolutions mangle runtime clock program ctx facts query) := by
  unfold meteredQueryWithSolutions
  split
  · exact compositional.pure _
  next active =>
    refine compositional.bind (holds_workingStore compositional (evaluates active)) fun answer => ?_
    split <;> exact compositional.pure _

theorem holds_execution
    (evaluates : holds _ ((evaluationOf mangle runtime ctx program {} facts).run clock))
    (query : String) :
    holds _ (meteredExecuteQuery mangle runtime clock program ctx facts query) := by
  unfold meteredExecuteQuery
  split
  · exact compositional.pure _
  · refine compositional.bind (holds_workingStore compositional fun _ => evaluates) fun answer => ?_
    split <;> exact compositional.pure _

end Rules

section Checks

variable {program : Program} (loaded : runtime.program = some program) {ctx : Context}
  {facts : List Datalog.Atom}
include loaded

theorem meteredQueries_of_loaded :
    meteredQueries mangle runtime clock =
      { isReady := pure true
        queryWithSolutions := meteredQueryWithSolutions mangle runtime clock program
        executeQuery := meteredExecuteQuery mangle runtime clock program } := by
  simp only [meteredQueries, loaded]

theorem uncounted_checkHalts
    (quiet : ctx.err .query = none → ctx.err .workingStore = none →
      (queryEvaluation mangle runtime ctx program facts).firstPair = none)
    (actionName entityID : String) :
    Uncounted (checkHalts (meteredEngine mangle runtime clock host) ctx actionName entityID
      facts) := by
  refine holds_checkHalts compositional_uncounted (fun query => ?_) (fun query => ?_) _ _
  · rw [meteredEngine, meteredQueries_of_loaded loaded]
    exact holds_query compositional_uncounted
      (fun active begun => uncounted_run clock (quiet active begun)) query
  · rw [meteredEngine, meteredQueries_of_loaded loaded]
    exact holds_execution compositional_uncounted
      (uncounted_run clock (firstPair_without_callbacks ctx program facts)) query

variable (clock host) in
theorem counts_query {pair : String × Int}
    (first : (queryEvaluation mangle runtime ctx program facts).firstPair = some pair)
    (active : ctx.err .query = none) (begun : ctx.err .workingStore = none) (query : String) :
    Counts pair 1 ((meteredEngine mangle runtime clock host).runtime.queryWithSolutions ctx facts
      query) := by
  rw [meteredEngine, meteredQueries_of_loaded loaded]
  simp only [meteredQueryWithSolutions, meteredWorkingStore, active, begun]
  have evaluates := counts_run_of_firstPair clock first
  change Counts pair (1 + 0 + 0) _
  refine Counts.bind (Counts.bind evaluates fun outcome => ?_) fun answer => ?_
  · split <;> exact Counts.pure pair _
  · split <;> exact Counts.pure pair _

theorem counts_checkHalts
    (first : (queryEvaluation mangle runtime ctx program facts).firstPair = some pair)
    (active : ctx.err .query = none) (begun : ctx.err .workingStore = none)
    (actionName entityID : String) :
    Counts pair 2 (checkHalts (meteredEngine mangle runtime clock host) ctx actionName entityID
      facts) := by
  have solutions := counts_query clock host loaded first active begun
  have monotone : ∀ query, Counts pair 0 ((meteredEngine mangle runtime clock
      host).runtime.queryWithSolutions ctx facts query) := fun query =>
    (solutions query).mono (Nat.zero_le 1)
  have executions : ∀ query, Counts pair 0 ((meteredEngine mangle runtime clock
      host).runtime.executeQuery ctx facts query) := fun query => by
    rw [meteredEngine, meteredQueries_of_loaded loaded]
    exact holds_execution (compositional_counts pair) (counts_run clock pair _) query
  change Counts pair (1 + 1) _
  refine Counts.bind (solutions _) fun tiered => ?_
  split
  · exact Counts.bind (solutions _) fun _ => Counts.pure pair _
  · exact Counts.bind (solutions _) fun untiered =>
      holds_untiered (compositional_counts pair) monotone executions actionName entityID untiered

theorem gate_of_loaded {actionName entityID : String} {env : Envelope}
    {extraFacts : List Datalog.Atom}
    (converted : gateFacts (meteredEngine mangle runtime clock host) actionName entityID env
      extraFacts = .ok facts) :
    evaluateGateWithTrail (meteredEngine mangle runtime clock host) ctx actionName entityID env
        extraFacts =
      checkHalts (meteredEngine mangle runtime clock host) ctx actionName entityID facts := by
  have ready : (meteredEngine mangle runtime clock host).runtime.isReady = pure true := by
    rw [meteredEngine, meteredQueries_of_loaded loaded]
  simp only [evaluateGateWithTrail, ready, pure_bind, converted, if_true]

end Checks

inductive GateCheck where
  | assess
  | reflect
  deriving DecidableEq, Repr

namespace GateCheck

def entity : GateCheck → String
  | assess => entityInput
  | reflect => entityOutput

def extraFacts (actionMeta : ActionMetadata) : GateCheck → List Datalog.Atom
  | assess =>
    if actionMeta.name = "" then []
    else [⟨"action_operation",
      [.const (.string entityInput), .const (.string actionMeta.name)]⟩]
  | reflect => []

def callsAfter (engine : PolicyEngine MeteredM) (ctx : Context) (actionMeta : ActionMetadata)
    (env : Envelope) (past : List Call) : GateCheck → List Call
  | assess => ((Engine.assess engine ctx actionMeta env).run past).2
  | reflect => ((Engine.reflect engine ctx actionMeta env).run past).2

theorem callsAfter_eq (check : GateCheck) (engine : PolicyEngine MeteredM) (ctx : Context)
    (actionMeta : ActionMetadata) (env : Envelope) (past : List Call) :
    check.callsAfter engine ctx actionMeta env past =
      ((evaluateGateWithTrail engine ctx actionMeta.name check.entity env
        (check.extraFacts actionMeta)).run past).2 := by
  cases check <;> rfl

end GateCheck

def CountsOnce (engine : PolicyEngine MeteredM) (ctx : Context) (actionMeta : ActionMetadata)
    (env : Envelope) (past : List Call) (check : GateCheck) : Prop :=
  ∀ pair, (timesFor pair (check.callsAfter engine ctx actionMeta env past)).length ≤
    (timesFor pair past).length + 1

theorem uncounted_gate {ctx : Context} {actionName entityID : String} {env : Envelope}
    {extraFacts : List Datalog.Atom}
    (quiet : ∀ program facts, runtime.program = some program →
      gateFacts (meteredEngine mangle runtime clock host) actionName entityID env
        extraFacts = .ok facts →
      ctx.err .query = none → ctx.err .workingStore = none →
      (queryEvaluation mangle runtime ctx program facts).firstPair = none) :
    Uncounted (evaluateGateWithTrail (meteredEngine mangle runtime clock host) ctx actionName
      entityID env extraFacts) := by
  rcases loaded : runtime.program with _ | program
  · have unready : (meteredEngine mangle runtime clock host).runtime.isReady = pure false := by
      simp only [meteredEngine, meteredQueries, loaded]
    simp only [evaluateGateWithTrail, unready, pure_bind]
    exact Uncounted.pure _
  · rcases converted : gateFacts (meteredEngine mangle runtime clock host) actionName entityID env
      extraFacts with err | facts
    · have ready : (meteredEngine mangle runtime clock host).runtime.isReady = pure true := by
        rw [meteredEngine, meteredQueries_of_loaded loaded]
      simp only [evaluateGateWithTrail, ready, pure_bind, converted, if_true]
      exact Uncounted.pure _
    · rw [gate_of_loaded loaded converted]
      exact uncounted_checkHalts loaded (quiet program facts loaded converted) _ _

end Metered

/-! ## A limited user -/

section Concrete

/-- The user may make two requests in a minute. -/
def limitingRule : SourceClause where
  head := Reference.stringAtom "halt" ["Req", "too many requests", "T1"]
  premises := [.atom ⟨rateLimitPredicate,
    [.const (.string "Req"), .const (.string "user-123"), .const (.number 2)]⟩]

def limitingProgram : Program where
  info :=
    { edbPredicates := [⟨rateLimitPredicate, 3⟩]
      idbPredicates := [⟨"halt", 3⟩]
      initialFacts := []
      rules := [limitingRule] }
  strata := []
  predToStratum := []

def groundArgs (args : List Term) : Option (List Constant) :=
  args.mapM fun
    | .const constant => some constant
    | .var _ => none

def rateLimitInputs (program : Program) : List (List Constant) :=
  ((program.info.rules.flatMap (·.premises)).filterMap fun premise =>
    match premise with
    | .atom atom => if atom.symbol = rateLimitPredicate then groundArgs atom.args else none
    | _ => none).dedup

/-- Call the predicate once for each of the inputs, and store the ones it answers. -/
def askEach (finish : Store → Store × Option GoError) : List (List Constant) → Store → Evaluation
  | [], store => .finish (finish store).1 (finish store).2
  | inputs :: rest, store =>
    .ask inputs fun answer =>
      match answer with
      | .error err => .finish store (some err)
      | .ok [] => askEach finish rest store
      | .ok (_ :: _) =>
        askEach finish rest (store.add ⟨rateLimitPredicate, inputs.map .const⟩)

def callingMangle : CallingMangle Reference.Key where
  toMangle := Reference.mangle
  evalCalling program options ctx timeout store :=
    askEach (Reference.eval program options ctx timeout) (rateLimitInputs program) store

/-- The registry holds the name; the callback itself is called by the evaluation. -/
def limitingRuntime : MeteredRuntime Reference.Key where
  program := some limitingProgram
  externalPreds := [(rateLimitPredicate, fun _ => .ok [])]
  registered := by decide

def steadyClock (index : Nat) : Reading :=
  let now : Int := index * second
  ⟨now, now, now⟩

def limitingEngine : PolicyEngine MeteredM :=
  meteredEngine callingMangle limitingRuntime steadyClock Reference.host

end Concrete

end Manglekit.Engine

import Manglekit.Atomic.Process
import Manglekit.Engine.Query
import Manglekit.Engine.Source

/-!
# The Datalog runtime

The runtime guards its state with mutexes: every operation is a sequence of
critical sections with private computation in between.  Each operation is
written once as a process of atomic sections, and is read either alone or
interleaved with others.

The parser, the analysis and the evaluation of the Datalog engine are given.
-/

namespace Manglekit.Engine

open Core Datalog

/-! ## The Datalog engine -/

abbrev ExternalPredicate := List Constant → Except GoError (List (List Constant))

structure TemporalFact where
  atom : Datalog.Atom
  start : Int
  stop : Int
  deriving DecidableEq, Repr

structure ProgramInfo where
  edbPredicates : List PredicateSym
  idbPredicates : List PredicateSym
  initialFacts : List Datalog.Atom
  rules : List SourceClause
  deriving DecidableEq, Repr

structure Program where
  info : ProgramInfo
  strata : List (List PredicateSym)
  predToStratum : List (PredicateSym × Nat)
  deriving DecidableEq, Repr

structure EvalOptions where
  temporalStore : Option (List TemporalFact) := none
  evaluationTime : Option Int := none
  externalPredicates : List (PredicateSym × ExternalPredicate) := []
  createdFactLimit : Option Int := none

/-- The services of the Datalog engine, the embedded standard library, and the
hash that keys the cache.  `eval` returns the store as the evaluation leaves it
and the error it ends in; running past the deadline is one such error. -/
structure Mangle (Key : Type) where
  stdLib : List Char
  parseUnit : List Char → Except GoError SourceUnit
  parseAtom : String → Except GoError Datalog.Atom
  analyze : List SourceUnit → List ExternalDecl → Except GoError ProgramInfo
  stratify : ProgramInfo →
    Except GoError (List (List PredicateSym) × List (PredicateSym × Nat))
  eval : Program → EvalOptions → Context → Nat → Store → Store × Option GoError
  idbCacheKey : Nat → Nat → List Datalog.Atom → Key

/-! ## State -/

/-- The state of a runtime.  It is ready as soon as it has a program.  The base
facts are the explicitly loaded ones and everything that was derived into them. -/
structure MangleRuntime (Key : Type) where
  program : Option Program := none
  baseFactStore : Store := .empty
  explicitFactStore : Store := .empty
  ruleUnits : List SourceUnit := []
  persistentUnits : List SourceUnit := []
  persistentSources : List (List Char) := []
  temporalStore : Option (List TemporalFact) := none
  temporalEnabled : Bool := false
  evaluationTime : Option Int := none
  externalPreds : List (String × ExternalPredicate) := []
  evalTimeout : Nat := 0
  maxCreatedFacts : Int := 0
  idbCache : Option (List (Key × Store)) := none
  baseVersion : Nat := 0
  programVersion : Nat := 0
  disableIDBCache : Bool := false

def maxIDBCacheEntries : Nat := 8

/-- The critical sections.  A section that can invalidate the cache says whether
it does, a lookup whether it uses the cache, and an insertion whether there is a
map to insert into. -/
inductive Section where
  | readReady
  | optionsSnapshot
  | registryList
  | readLimit
  | storeSnapshot (cacheable : Bool)
  | readTimeout
  | cacheInsert (allocated : Bool)
  | loadFacts (facts : List String) (invalidates : Bool)
  | addPolicy (unit : SourceUnit) (persistent invalidates : Bool)
  | persistentSnapshot
  | factSnapshot
  | evalOptions
  | swap
  | load
  | configure
  deriving DecidableEq, Repr

abbrev RuntimeM (Key : Type) := Atomic.Process (MangleRuntime Key) Section Panic

namespace MangleRuntime

variable {Key : Type}

def ready (runtime : MangleRuntime Key) : Bool := runtime.program.isSome

def cacheable (runtime : MangleRuntime Key) : Bool :=
  !runtime.disableIDBCache && runtime.externalPreds.isEmpty && !runtime.temporalEnabled

/-- The callbacks, each under the first predicate of the program with its name. -/
def callbacks (info : ProgramInfo) (externals : List (String × ExternalPredicate)) :
    List (PredicateSym × ExternalPredicate) :=
  externals.filterMap fun external =>
    (info.edbPredicates.find? fun sym => decide (sym.symbol = external.1)).map (·, external.2)

def buildEvalOptionsFor (runtime : MangleRuntime Key) (info : ProgramInfo) : EvalOptions where
  temporalStore := if runtime.temporalEnabled then runtime.temporalStore else none
  evaluationTime := runtime.evaluationTime
  externalPredicates := callbacks info runtime.externalPreds

end MangleRuntime

/-- A limit of zero or less means no limit. -/
def EvalOptions.withLimit (options : EvalOptions) (limit : Int) : EvalOptions :=
  if 0 < limit then { options with createdFactLimit := some limit } else options

section Operations

variable {Key : Type}

section Evaluation

variable (mangle : Mangle Key)

def evalStratifiedWithContext (ctx : Context) (program : Program) (store : Store)
    (options : EvalOptions) (timeout : Nat) : Store × Option GoError :=
  match ctx.err .evaluation with
  | some err => (store, some err)
  | none => mangle.eval program options ctx timeout store

def evaluate (ctx : Context) (runtime : MangleRuntime Key) (program : Program) (store : Store) :
    Store × Option GoError :=
  evalStratifiedWithContext mangle ctx program store
    ((runtime.buildEvalOptionsFor program.info).withLimit runtime.maxCreatedFacts)
    runtime.evalTimeout

end Evaluation

/-! ## Queries -/

def isReady : RuntimeM Key Bool :=
  .atomically (fun _ => .readReady) fun runtime => (runtime.ready, runtime)

/-- What the first section of a query finds. -/
inductive Snapshot (Key : Type) where
  | notReady
  | hit (store : Store)
  | miss (program : Program) (base : Store) (key : Option Key)

section Queries

variable [DecidableEq Key] (mangle : Mangle Key)

/-- Look the request up in the cache, allocating the cache if necessary, or copy
the base facts. -/
def storeSnapshotBody (facts : List Datalog.Atom) (runtime : MangleRuntime Key) :
    Snapshot Key × MangleRuntime Key :=
  match runtime.program with
  | none => (.notReady, runtime)
  | some program =>
    if runtime.cacheable then
      let key := mangle.idbCacheKey runtime.programVersion runtime.baseVersion facts
      let cache := runtime.idbCache.getD []
      let allocated := { runtime with idbCache := some cache }
      match cache.lookup key with
      | some store => (.hit store, allocated)
      | none => (.miss program runtime.baseFactStore (some key), allocated)
    else (.miss program runtime.baseFactStore none, runtime)

def storeSnapshot (facts : List Datalog.Atom) : RuntimeM Key (Snapshot Key) :=
  .atomically (fun runtime => .storeSnapshot (runtime.ready && runtime.cacheable))
    (storeSnapshotBody mangle facts)

def insertEntry (key : Key) (store : Store) (cache : List (Key × Store)) : List (Key × Store) :=
  let kept := if maxIDBCacheEntries ≤ cache.length then [] else cache
  (key, store) :: kept.filter fun entry => decide (entry.1 ≠ key)

/-- Writing into a map that is not allocated panics. -/
def cacheInsert (key : Key) (store : Store) : RuntimeM Key Unit := do
  let allocated ← Atomic.Process.atomically
    (fun runtime : MangleRuntime Key => Section.cacheInsert runtime.idbCache.isSome)
    fun runtime => (runtime.idbCache.isSome,
      { runtime with idbCache := runtime.idbCache.map (insertEntry key store) })
  if allocated then pure () else .abort .nilMapWrite

omit [DecidableEq Key] in
def readTimeout : RuntimeM Key Nat :=
  .atomically (fun _ => .readTimeout) fun runtime => (runtime.evalTimeout, runtime)

/-- The evaluation of a request that was not in the cache. -/
def evaluateMiss (ctx : Context) (facts : List Datalog.Atom) (options : EvalOptions)
    (program : Program) (base : Store) (key : Option Key) :
    RuntimeM Key (Except GoError Store) :=
  match ctx.err .workingStore with
  | some err => pure (.error err)
  | none => do
    let timeout ← readTimeout
    match evalStratifiedWithContext mangle ctx program (base.addAll facts) options timeout with
    | (_, some err) => pure (.error (.wrap "evaluation failed" err))
    | (evaluated, none) =>
      match key with
      | none => pure (.ok evaluated)
      | some key => do
        cacheInsert key evaluated
        pure (.ok evaluated)

def evaluatedWorkingStore (ctx : Context) (facts : List Datalog.Atom) (options : EvalOptions) :
    RuntimeM Key (Except GoError Store) := do
  match ← storeSnapshot mangle facts with
  | .notReady => pure (.error (.text "runtime not initialized"))
  | .hit store => pure (.ok store)
  | .miss program base key => evaluateMiss mangle ctx facts options program base key

def executeQuery (ctx : Context) (facts : List Datalog.Atom) (query : String) :
    RuntimeM Key (Except GoError Bool) :=
  match ctx.err .query with
  | some err => pure (.error err)
  | none => do
    match ← evaluatedWorkingStore mangle ctx facts {} with
    | .error err => pure (.error err)
    | .ok store => pure (holdsIn mangle.parseAtom store query)

omit [DecidableEq Key] in
/-- The program is read under the lock, the other settings after it.  Callbacks
without a program dereference a nil pointer. -/
def buildEvalOptionsLockedSnapshot : RuntimeM Key EvalOptions := do
  let program ← Atomic.Process.atomically (fun _ => Section.optionsSnapshot)
    fun runtime : MangleRuntime Key => (runtime.program, runtime)
  let settings ← Atomic.Process.atomically (fun _ => Section.registryList)
    fun runtime : MangleRuntime Key => (runtime, runtime)
  match program with
  | some program => pure (settings.buildEvalOptionsFor program.info)
  | none =>
    if settings.externalPreds.isEmpty then pure (settings.buildEvalOptionsFor ⟨[], [], [], []⟩)
    else .abort .nilDereference

omit [DecidableEq Key] in
def readLimit : RuntimeM Key Int :=
  .atomically (fun _ => .readLimit) fun runtime => (runtime.maxCreatedFacts, runtime)

def queryWithSolutions (ctx : Context) (facts : List Datalog.Atom) (query : String) :
    RuntimeM Key QueryRun :=
  match ctx.err .query with
  | some err => pure ⟨[], some err⟩
  | none => do
    let options ← buildEvalOptionsLockedSnapshot
    let limit ← readLimit
    match ← evaluatedWorkingStore mangle ctx facts (options.withLimit limit) with
    | .error err => pure ⟨[], some err⟩
    | .ok store => pure (solutionsIn mangle.parseAtom store query)

def queryRuntime : QueryRuntime (RuntimeM Key) where
  isReady := isReady
  queryWithSolutions := queryWithSolutions mangle
  executeQuery := executeQuery mangle

end Queries

/-! ## Facts and policies -/

section Updates

variable (mangle : Mangle Key)

/-- Facts are added one by one to the base and to the explicit facts.  Those
before the first that does not parse stay added. -/
def addFacts : List String → Store × Store → (Store × Store) × Option GoError
  | [], stores => (stores, none)
  | fact :: rest, (base, explicit) =>
    match mangle.parseAtom fact with
    | .error err =>
      ((base, explicit), some (.wrap ("failed to parse fact '" ++ fact ++ "'") err))
    | .ok atom => addFacts rest (base.add atom, explicit.add atom)

def loadFactsBody (ctx : Context) (facts : List String) (runtime : MangleRuntime Key) :
    Option GoError × MangleRuntime Key :=
  let added := addFacts mangle facts (runtime.baseFactStore, runtime.explicitFactStore)
  let loaded :=
    { runtime with baseFactStore := added.1.1, explicitFactStore := added.1.2 }
  match added.2, runtime.program with
  | some err, _ => (some err, loaded)
  | none, none => (none, loaded)
  | none, some program =>
    let invalidated := { loaded with baseVersion := loaded.baseVersion + 1, idbCache := none }
    let evaluated := evaluate mangle ctx invalidated program invalidated.baseFactStore
    (evaluated.2.map (.wrap "failed to evaluate program with new facts"),
      { invalidated with baseFactStore := evaluated.1 })

def loadFacts (ctx : Context) (facts : List String) : RuntimeM Key (Option GoError) :=
  .atomically
    (fun runtime => .loadFacts facts
      ((addFacts mangle facts (runtime.baseFactStore, runtime.explicitFactStore)).2.isNone &&
        runtime.ready))
    (loadFactsBody mangle ctx facts)

/-- Analyze and stratify the units, with declarations for the external
predicates they use. -/
def buildProgram (names : List String) (units : List SourceUnit) (what : String) :
    Except GoError Program :=
  match mangle.analyze units (externalDeclarations names units) with
  | .error err => .error (.wrap ("failed to analyze " ++ what) err)
  | .ok info =>
    match mangle.stratify info with
    | .error err => .error (.wrap ("failed to stratify " ++ what) err)
    | .ok (strata, predToStratum) => .ok ⟨info, strata, predToStratum⟩

/-- The state is updated before the evaluation, which may still fail. -/
def addPolicyBody (ctx : Context) (unit : SourceUnit) (cleaned : List Char) (persistent : Bool)
    (runtime : MangleRuntime Key) : Option GoError × MangleRuntime Key :=
  let units := runtime.ruleUnits ++ [unit]
  match buildProgram mangle (runtime.externalPreds.map (·.1)) units "combined program" with
  | .error err => (some err, runtime)
  | .ok program =>
    let updated :=
      { runtime with
        ruleUnits := units
        persistentUnits :=
          if persistent then runtime.persistentUnits ++ [unit] else runtime.persistentUnits
        persistentSources :=
          if persistent then runtime.persistentSources ++ [cleaned]
          else runtime.persistentSources
        program := some program
        programVersion := runtime.programVersion + 1
        idbCache := none }
    let evaluated := evaluate mangle ctx updated program updated.baseFactStore
    (evaluated.2.map (.wrap "failed to evaluate combined program"),
      { updated with baseFactStore := evaluated.1 })

def addPolicy (ctx : Context) (source : String) (persistent : Bool) :
    RuntimeM Key (Option GoError) :=
  if source = "" then pure none
  else
    let cleaned := cleanSource source.toList
    match mangle.parseUnit cleaned with
    | .error err => pure (some (.wrap "failed to parse source" err))
    | .ok unit =>
      .atomically
        (fun runtime => .addPolicy unit persistent
          (buildProgram mangle (runtime.externalPreds.map (·.1)) (runtime.ruleUnits ++ [unit])
            "combined program").isOk)
        (addPolicyBody mangle ctx unit cleaned persistent)

/-! ## Reloading a policy -/

/-- The units and the program of a reload: the source behind the standard
library, and the persistent units. -/
def reloadProgram (source : String) (persistentUnits : List SourceUnit)
    (persistentSources : List (List Char)) (names : List String) :
    Except GoError (List SourceUnit × Program) :=
  let text := source.toList
  let callerDecls := collectCallerDecls
    (text ++ '\n' :: joinLines persistentSources)
  let combined := prependStdLibIfMissing mangle.stdLib text callerDecls names
  match mangle.parseUnit (cleanSource combined) with
  | .error err => .error (.wrap "failed to parse source" err)
  | .ok unit =>
    match buildProgram mangle names (unit :: persistentUnits) "program" with
    | .error err => .error err
    | .ok program => .ok (unit :: persistentUnits, program)

/-- Facts of predicates that the old program derives are dropped unless they were
loaded explicitly. -/
def filterBaseFacts (store : Store) (oldIDB : Option (List PredicateSym)) (explicit : Store) :
    Store :=
  match oldIDB with
  | none => store
  | some idb => store.filter fun atom => !idb.contains atom.predicate || explicit.contains atom

structure FactSnapshot where
  explicit : Store
  merged : Store

def factSnapshotOf (runtime : MangleRuntime Key) : FactSnapshot where
  explicit := runtime.explicitFactStore
  merged := filterBaseFacts runtime.baseFactStore
    (runtime.program.map (·.info.idbPredicates)) runtime.explicitFactStore

def swapBody (units : List SourceUnit) (program : Program) (explicit evaluated : Store)
    (runtime : MangleRuntime Key) : MangleRuntime Key :=
  { runtime with
    ruleUnits := units
    baseFactStore := evaluated
    explicitFactStore := explicit
    program := some program
    programVersion := runtime.programVersion + 1
    baseVersion := runtime.baseVersion + 1
    idbCache := none }

/-- The last section of a reload. -/
def reloadSwap (units : List SourceUnit) (program : Program) (explicit evaluated : Store) :
    RuntimeM Key (Option GoError) :=
  .atomically (fun _ => .swap)
    fun runtime => (none, swapBody units program explicit evaluated runtime)

def reloadEvaluate (ctx : Context) (units : List SourceUnit) (program : Program)
    (kept : FactSnapshot) : RuntimeM Key (Option GoError) := do
  let settings ← Atomic.Process.atomically (fun _ => Section.evalOptions)
    fun runtime : MangleRuntime Key => (runtime, runtime)
  match evaluate mangle ctx settings program kept.merged with
  | (_, some err) => pure (some (.wrap "failed to evaluate program" err))
  | (evaluated, none) => reloadSwap units program kept.explicit evaluated

def reloadFacts (ctx : Context) (units : List SourceUnit) (program : Program) :
    RuntimeM Key (Option GoError) := do
  let kept ← Atomic.Process.atomically (fun _ => Section.factSnapshot)
    fun runtime : MangleRuntime Key => (factSnapshotOf runtime, runtime)
  reloadEvaluate mangle ctx units program kept

def reloadBuild (ctx : Context) (source : String) (persistentUnits : List SourceUnit)
    (persistentSources : List (List Char)) : RuntimeM Key (Option GoError) := do
  let names ← Atomic.Process.atomically (fun _ => Section.registryList)
    fun runtime : MangleRuntime Key => (runtime.externalPreds.map (·.1), runtime)
  match reloadProgram mangle source persistentUnits persistentSources names with
  | .error err => pure (some err)
  | .ok (units, program) => reloadFacts mangle ctx units program

/-- Replace the policy.  The sections snapshot the persistent units, the names of
the external predicates, the facts to keep and the evaluation options, and swap
the new program in. -/
def reloadFromSource (ctx : Context) (source : String) : RuntimeM Key (Option GoError) :=
  if source = "" then pure (some (.text "source cannot be empty"))
  else do
    let persistent ← Atomic.Process.atomically (fun _ => Section.persistentSnapshot)
      fun runtime : MangleRuntime Key =>
        ((runtime.persistentUnits, runtime.persistentSources), runtime)
    reloadBuild mangle ctx source persistent.1 persistent.2

/-! ## Loading files -/

structure SourceFile where
  path : String
  content : Except GoError String

def isRuleFile (file : SourceFile) : Bool :=
  file.path.endsWith ".dlog" || file.path.endsWith ".dl"

def isFactFile (file : SourceFile) : Bool :=
  !isRuleFile file && (file.path.endsWith ".facts" || file.path.endsWith ".fact" ||
    file.path.endsWith ".edb" || file.path.endsWith ".data")

def parseRuleFile (file : SourceFile) : Except GoError SourceUnit :=
  match file.content with
  | .error err => .error (.wrap ("could not open rule file " ++ file.path) err)
  | .ok text =>
    match mangle.parseUnit (cleanSource text.toList) with
    | .error err => .error (.wrap ("could not parse rule file " ++ file.path) err)
    | .ok unit => .ok unit

def parseFiles (what : String) : List SourceFile → Except GoError (List SourceUnit)
  | [] => .ok []
  | file :: rest =>
    match parseRuleFile mangle file with
    | .error err => .error (.wrap ("failed to parse " ++ what ++ " file " ++ file.path) err)
    | .ok unit => (parseFiles what rest).map (unit :: ·)

/-- The heads of the clauses without premises. -/
def SourceUnit.facts (unit : SourceUnit) : List Datalog.Atom :=
  (unit.clauses.filter fun clause => clause.isFact).map (·.head)

/-- Parse, analyze and evaluate the files.  External predicates and the settings
of the runtime play no part in this evaluation. -/
def loadProgram (ctx : Context) (path : String) (files : List SourceFile) :
    Except GoError (List SourceUnit × Program × Store × Store) :=
  if files.all fun file => !isRuleFile file && !isFactFile file then
    .error (.text ("no .dlog or fact files found in " ++ path))
  else
    match parseFiles mangle "rule" (files.filter isRuleFile) with
    | .error err => .error err
    | .ok units =>
      match parseFiles mangle "fact" (files.filter isFactFile) with
      | .error err => .error err
      | .ok factUnits =>
        match buildProgram mangle [] units "program" with
        | .error err => .error err
        | .ok program =>
          let explicit := Store.empty.addAll (factUnits.flatMap SourceUnit.facts)
          match evalStratifiedWithContext mangle ctx program explicit {} 0 with
          | (_, some err) => .error (.wrap "failed to evaluate base program" err)
          | (evaluated, none) => .ok (units, program, explicit, evaluated)

/-- Replace everything by the program and the facts under the path; `resolved`
is what the file system gives for it. -/
def load (ctx : Context) (path : String) (resolved : Except GoError (List SourceFile)) :
    RuntimeM Key (Option GoError) :=
  if path = "" then pure (some (.text "path cannot be empty"))
  else
    match resolved with
    | .error err => pure (some (.wrap "failed to resolve path" err))
    | .ok files =>
      match loadProgram mangle ctx path files with
      | .error err => pure (some err)
      | .ok (units, program, explicit, evaluated) =>
        .atomically (fun _ => .load) fun runtime => (none,
          { runtime with
            ruleUnits := units
            baseFactStore := evaluated
            explicitFactStore := explicit
            program := some program
            programVersion := runtime.programVersion + 1
            idbCache := none })

def withMaxCreatedFacts (limit : Int) : RuntimeM Key Unit :=
  .atomically (fun _ => .configure) fun runtime => ((), { runtime with maxCreatedFacts := limit })

def withEvalTimeout (timeout : Nat) : RuntimeM Key Unit :=
  .atomically (fun _ => .configure) fun runtime => ((), { runtime with evalTimeout := timeout })

def registerExternalPredicate (name : String) (fn : Option ExternalPredicate) :
    RuntimeM Key (Option GoError) :=
  if name = "" then pure (some (.text "external predicate name cannot be empty"))
  else
    .atomically (fun _ => .configure) fun runtime =>
      match fn with
      | none => (some (.text ("external predicate " ++ name ++ " cannot be nil")), runtime)
      | some fn =>
        let others := runtime.externalPreds.filter fun external => decide (external.1 ≠ name)
        (none, { runtime with externalPreds := (name, fn) :: others })

def enableTemporal : RuntimeM Key Unit :=
  .atomically (fun _ => .configure) fun runtime =>
    ((), { runtime with temporalStore := some [], temporalEnabled := true })

def addTemporalFact (text : String) (start stop : Int) : RuntimeM Key (Option GoError) :=
  .atomically (fun _ => .configure) fun runtime =>
    if !runtime.temporalEnabled then
      (some (.text "temporal reasoning not enabled. Call EnableTemporal() first"), runtime)
    else
      match mangle.parseAtom text with
      | .error err => (some (.wrap ("failed to parse fact '" ++ text ++ "'") err), runtime)
      | .ok atom =>
        (none, { runtime with
          temporalStore := runtime.temporalStore.map (· ++ [⟨atom, start, stop⟩]) })

/-- The zero time is no time. -/
def setEvaluationTime (time : Option Int) : RuntimeM Key Unit :=
  .atomically (fun _ => .configure) fun runtime => ((), { runtime with evaluationTime := time })

end Updates

/-! ## Calls -/

/-- The calls that read or change the policy, the facts and the limit.  Adding a
persistent policy is adding a policy with the flag set. -/
inductive RuntimeCall where
  | loadFacts (ctx : Context) (facts : List String)
  | addPolicy (ctx : Context) (source : String) (persistent : Bool)
  | load (ctx : Context) (path : String) (resolved : Except GoError (List SourceFile))
  | reloadFromSource (ctx : Context) (source : String)
  | withMaxCreatedFacts (limit : Int)
  | executeQuery (ctx : Context) (facts : List Datalog.Atom) (query : String)
  | queryWithSolutions (ctx : Context) (facts : List Datalog.Atom) (query : String)

inductive CallResult where
  | updated (failure : Option GoError)
  | configured
  | answer (result : Except GoError Bool)
  | solutions (run : QueryRun)

variable [DecidableEq Key] (mangle : Mangle Key)

def RuntimeCall.process : RuntimeCall → RuntimeM Key CallResult
  | .loadFacts ctx facts => return .updated (← Engine.loadFacts mangle ctx facts)
  | .addPolicy ctx source persistent =>
    return .updated (← Engine.addPolicy mangle ctx source persistent)
  | .load ctx path resolved => return .updated (← Engine.load mangle ctx path resolved)
  | .reloadFromSource ctx source => return .updated (← Engine.reloadFromSource mangle ctx source)
  | .withMaxCreatedFacts limit => do
    Engine.withMaxCreatedFacts limit
    return .configured
  | .executeQuery ctx facts query => return .answer (← Engine.executeQuery mangle ctx facts query)
  | .queryWithSolutions ctx facts query =>
    return .solutions (← Engine.queryWithSolutions mangle ctx facts query)

end Operations

end Manglekit.Engine

import Manglekit.Datalog.Evaluation
import Manglekit.Datalog.Parser
import Manglekit.Engine.Runtime

/-!
# A reference instance of the services around the engine

The model leaves the parser, the evaluator and the standard library open.  The
instance here reads plain Datalog and evaluates it stratum by stratum, so that
concrete policies can be run.
-/

namespace Manglekit.Engine.Reference

open Core

def parseAtom (text : String) : Except GoError Datalog.Atom :=
  match Datalog.parseAtom text with
  | some atom => .ok atom
  | none => .error (.text "syntax error")

/-- Payloads of concrete runs are empty, so their conversion yields no facts. -/
def host : Host where
  quote text := "\"" ++ escapeString text ++ "\""
  parseFloat _ := none
  now := "2024-01-01 00:00:00 +0000 UTC"
  toFacts _ _ := .ok []
  flatten _ _ := .ok []

def evaluated (policy : List Datalog.Clause) (facts : List Datalog.Atom) : Datalog.Store :=
  (Datalog.evaluate policy 8 (Datalog.Store.empty.addAll facts)).getD .empty

/-! ## The Datalog engine -/

def parseUnit (text : List Char) : Except GoError SourceUnit :=
  match Datalog.parseClauses text with
  | some clauses => .ok { clauses := clauses.map fun clause => { toClause := clause } }
  | none => .error (.text "syntax error")

def infoOf (units : List SourceUnit) : ProgramInfo :=
  let clauses := units.flatMap (·.clauses)
  let rules := clauses.filter fun clause => !clause.isFact
  let idb := rules.map (·.head.predicate)
  { idbPredicates := idb
    edbPredicates := (clauses.map (·.head.predicate)).filter fun sym => !idb.contains sym
    initialFacts := units.flatMap SourceUnit.facts
    rules }

def analyze (units : List SourceUnit) (_ : List ExternalDecl) : Except GoError ProgramInfo :=
  if (units.flatMap (·.clauses)).any fun clause => clause.transform.isSome then
    .error (.text "unsupported transform")
  else .ok (infoOf units)

def programClauses (info : ProgramInfo) : List Datalog.Clause :=
  info.initialFacts.map (fun atom => ⟨atom, []⟩) ++ info.rules.map (·.toClause)

def stratify (info : ProgramInfo) :
    Except GoError (List (List Datalog.PredicateSym) × List (Datalog.PredicateSym × Nat)) :=
  let clauses := programClauses info
  if Datalog.Stratifies (Datalog.ranksOf clauses) clauses ∧ ∀ clause ∈ clauses, clause.Safe then
    .ok ([], Datalog.ranksOf clauses)
  else .error (.text "not stratified")

/-- An evaluation that creates more facts than it may leaves the store as it
was. -/
def eval (program : Program) (options : EvalOptions) (_ : Context) (_ : Nat)
    (store : Datalog.Store) : Datalog.Store × Option GoError :=
  match Datalog.evaluate (programClauses program.info) 8 store with
  | none => (store, some (.text "evaluation did not finish"))
  | some result =>
    match options.createdFactLimit with
    | none => (result, none)
    | some limit =>
      if limit < (result.facts.length : Int) - store.facts.length then
        (store, some (.text "fact size limit reached"))
      else (result, none)

/-- Keys are the hashed data themselves.  The standard library is cut down to one
of its clauses. -/
abbrev Key := Nat × Nat × List Datalog.Atom

def mangle : Mangle Key where
  stdLib := "halt(Entity, Reason) :- deny(Entity, Reason).".toList
  parseUnit := parseUnit
  parseAtom := parseAtom
  analyze := analyze
  stratify := stratify
  eval := eval
  idbCacheKey programVersion baseVersion facts := (programVersion, baseVersion, facts)

variable {program : Program}

theorem buildProgram_spec {names : List String} {units : List SourceUnit} {what : String}
    (built : buildProgram mangle names units what = .ok program) :
    program.info = infoOf units ∧
      Datalog.Stratifies (Datalog.ranksOf (programClauses (infoOf units)))
        (programClauses (infoOf units)) ∧
      ∀ clause ∈ programClauses (infoOf units), clause.Safe := by
  unfold buildProgram at built
  split at built
  · cases built
  next info analyzed =>
    change analyze units (externalDeclarations names units) = .ok info at analyzed
    unfold analyze at analyzed
    split_ifs at analyzed
    cases analyzed
    split at built
    · cases built
    next strata predToStratum stratified =>
      change stratify (infoOf units) = .ok (strata, predToStratum) at stratified
      simp only [stratify] at stratified
      split_ifs at stratified with checked
      cases built
      exact ⟨rfl, checked⟩

def meaning (program : Program) : Stratified.Program Datalog.Atom :=
  Datalog.meaning (programClauses program.info)

section

variable {options : EvalOptions} {ctx : Context} {timeout : Nat} {store result : Datalog.Store}
  (success : eval program options ctx timeout store = (result, none))

include success

theorem evaluate_of_eval :
    Datalog.evaluate (programClauses program.info) 8 store = some result := by
  unfold eval at success
  split at success
  · simp at success
  next evaluated found =>
    rw [found]
    split at success
    · exact congrArg (some ·.1) success
    · split_ifs at success
      · simp at success
      · exact congrArg (some ·.1) success

theorem eval_perfect : result.toSet = (meaning program).perfect store.toSet :=
  Datalog.evaluate_perfect (evaluate_of_eval success)

end

def stringAtom (symbol : String) (args : List String) : Datalog.Atom :=
  ⟨symbol, args.map fun arg => .const (.string arg)⟩

end Manglekit.Engine.Reference

import Manglekit.Engine.Runtime

/-!
# Explanations

The evaluation has already derived every fact, so a fact is explained by searching a rule
whose head unifies with it and whose premises hold in the same store.  The search goes
through the rules and the stored facts in order and backtracks.  Proofs are cut off below a
depth, and after a number of steps that one explanation shares among all its facts.
-/

namespace Manglekit.Engine

open Core Datalog

def maxExplainDepth : Nat := 32

def maxExplainSteps : Nat := 1000

/-! ## Substitutions -/

abbrev Substitution := List (String × Term)

def unifyTerm (pattern actual : Term) (subst : Substitution) : Option Substitution :=
  match pattern with
  | .var symbol =>
    match subst.lookup symbol with
    | some bound => if bound = actual then some subst else none
    | none => some ((symbol, actual) :: subst)
  | .const _ => if pattern = actual then some subst else none

/-- Callers compare the predicates before, so the lists are of one length. -/
def unifyAtomArgs : List Term → List Term → Substitution → Option Substitution
  | pattern :: patterns, actual :: actuals, subst =>
    (unifyTerm pattern actual subst).bind (unifyAtomArgs patterns actuals)
  | _, _, subst => some subst

def applySubstTerm (subst : Substitution) : Term → Term
  | .var symbol => (subst.lookup symbol).getD (.var symbol)
  | .const constant => .const constant

def applySubstToArgs (args : List Term) (subst : Substitution) : List Term :=
  args.map (applySubstTerm subst)

def isGroundTerm : Term → Bool
  | .var _ => false
  | .const _ => true

def isGround (args : List Term) : Bool := args.all isGroundTerm

/-! ## Tiers -/

/-- The symbol of a constant; only names and strings have one. -/
def constantSymbol : Constant → String
  | .name symbol => symbol
  | .string value => value
  | .number _ => ""
  | .float _ => ""
  | .compound _ _ => ""

def governanceTier (constant : Constant) : Option Tier :=
  if constantSymbol constant ∈ [tierT0Axiom, tierT1Governance, tierT2Playbook, tierT3User] then
    some (constantSymbol constant)
  else none

def tierCandidate (subst : Substitution) : Term → Option Constant
  | .var symbol =>
    if symbol = "Tier" then
      match subst.lookup symbol with
      | some (.const constant) => some constant
      | _ => none
    else none
  | .const constant => some constant

def tierFromSubst (headArgs : List Term) (subst : Substitution) : Tier :=
  (headArgs.findSome? fun arg => (tierCandidate subst arg).bind governanceTier).getD tierUnknown

/-! ## Derivations -/

/-- A node of a proof.  The nodes carry the atoms, terms and rules whose texts the source
keeps.  The substitution of a rule is that of its head. -/
inductive Derivation where
  | rule (fact : Datalog.Atom) (clause : SourceClause) (subst : Substitution)
      (children : List Derivation)
  | fact (fact : Datalog.Atom)
  | negation (atom : Datalog.Atom)
  | eq (left right : Term)
  | ineq (left right : Term)
  | depthLimit (fact : Datalog.Atom)

inductive Via where
  | rule
  | fact
  | negation
  | builtin
  | depthLimit
  deriving DecidableEq, Repr

/-- The `String` methods of the Datalog engine. -/
structure Printer where
  atom : Datalog.Atom → String
  negAtom : Datalog.Atom → String
  term : Term → String
  clause : SourceClause → String

namespace Derivation

def via : Derivation → Via
  | rule _ _ _ _ => .rule
  | fact _ => .fact
  | negation _ => .negation
  | eq _ _ => .builtin
  | ineq _ _ => .builtin
  | depthLimit _ => .depthLimit

def children : Derivation → List Derivation
  | rule _ _ _ children => children
  | _ => []

/-- Only rules and facts have a tier, which may be unknown. -/
def tier : Derivation → Tier
  | rule _ clause subst _ => tierFromSubst clause.head.args subst
  | fact atom => tierFromSubst atom.args []
  | _ => ""

def predicate : Derivation → String
  | rule atom _ _ _ => atom.symbol
  | fact atom => atom.symbol
  | negation atom => atom.symbol
  | eq _ _ => ""
  | ineq _ _ => ""
  | depthLimit atom => atom.symbol

variable (printer : Printer)

def factText : Derivation → String
  | rule atom _ _ _ => printer.atom atom
  | fact atom => printer.atom atom
  | negation atom => printer.negAtom atom
  | eq left right => printer.term left ++ " = " ++ printer.term right
  | ineq left right => printer.term left ++ " != " ++ printer.term right
  | depthLimit atom => printer.atom atom

def ruleText : Derivation → String
  | rule _ clause _ _ => printer.clause clause
  | _ => ""

end Derivation

/-! ## The prover -/

abbrev ProverM := StateM Nat

def followedBy (child : Derivation) (rest : ProverM (Option (List Derivation))) :
    ProverM (Option (List Derivation)) := do
  return (← rest).map (child :: ·)

section Prover

variable (store : Store) (prove : Datalog.Atom → ProverM (Option Derivation))

/-- The first candidate that unifies, can be proved and leaves premises that can be solved. -/
def tryCandidates (rest : Substitution → ProverM (Option (List Derivation)))
    (ground : List Term) (subst : Substitution) :
    List Datalog.Atom → ProverM (Option (List Derivation))
  | [] => pure none
  | candidate :: candidates =>
    match unifyAtomArgs ground candidate.args subst with
    | none => tryCandidates rest ground subst candidates
    | some trial => do
      match ← prove candidate with
      | none => tryCandidates rest ground subst candidates
      | some child =>
        match ← rest trial with
        | none => tryCandidates rest ground subst candidates
        | some children => return some (child :: children)

/-- Solve the premises from left to right.  A test with an unbound variable passes. -/
def solvePremises : List Premise → Substitution → ProverM (Option (List Derivation))
  | [], _ => pure (some [])
  | .atom premise :: rest, subst =>
    let ground := applySubstToArgs premise.args subst
    if isGround ground then
      if store.contains ⟨premise.symbol, ground⟩ then do
        match ← prove ⟨premise.symbol, ground⟩ with
        | none => return none
        | some child => followedBy child (solvePremises rest subst)
      else pure none
    else
      tryCandidates prove (solvePremises rest) ground subst (store.getFacts premise.predicate)
  | .negAtom premise :: rest, subst =>
    let ground : Datalog.Atom := ⟨premise.symbol, applySubstToArgs premise.args subst⟩
    if isGround ground.args && store.contains ground then pure none
    else followedBy (.negation ground) (solvePremises rest subst)
  | .eq left right :: rest, subst =>
    let left := applySubstTerm subst left
    let right := applySubstTerm subst right
    if isGroundTerm left && isGroundTerm right && decide (left ≠ right) then pure none
    else followedBy (.eq left right) (solvePremises rest subst)
  | .ineq left right :: rest, subst =>
    let left := applySubstTerm subst left
    let right := applySubstTerm subst right
    if isGroundTerm left && isGroundTerm right && decide (left = right) then pure none
    else followedBy (.ineq left right) (solvePremises rest subst)

/-- The first rule that fires.  Fact clauses are left to the base facts. -/
def tryRules (fact : Datalog.Atom) : List SourceClause → ProverM (Option Derivation)
  | [] => pure none
  | clause :: clauses =>
    if clause.head.predicate ≠ fact.predicate ∨ clause.isFact then tryRules fact clauses
    else
      match unifyAtomArgs clause.head.args fact.args [] with
      | none => tryRules fact clauses
      | some subst => do
        match ← solvePremises store prove clause.premises subst with
        | none => tryRules fact clauses
        | some children => return some (.rule fact clause subst children)

end Prover

section Explain

variable (rules : List SourceClause) (store : Store)

def prove : Nat → Datalog.Atom → ProverM (Option Derivation)
  | 0, fact => do
    modify (· + 1)
    return some (.depthLimit fact)
  | levels + 1, fact => do
    modify (· + 1)
    if maxExplainSteps < (← get) then return some (.depthLimit fact)
    else
      match ← tryRules store (prove levels) fact rules with
      | some derivation => return some derivation
      | none => return if store.contains fact then some (.fact fact) else none

def hasConstants (queryAtom fact : Datalog.Atom) : Bool :=
  (queryAtom.args.zip fact.args).all fun pair =>
    match pair.1 with
    | .var _ => true
    | .const _ => decide (pair.1 = pair.2)

/-- A fact that cannot be proved is reported without a proof. -/
def explainFacts : List Datalog.Atom → ProverM (List Derivation)
  | [] => return []
  | fact :: rest => do
    let proved ← prove rules store maxExplainDepth fact
    return proved.getD (.fact fact) :: (← explainFacts rest)

def explainedFacts (queryAtom : Datalog.Atom) : List Datalog.Atom :=
  (store.getFacts queryAtom.predicate).filter (hasConstants queryAtom)

def explainAtom (queryAtom : Datalog.Atom) : List Derivation :=
  ((explainFacts rules store (explainedFacts store queryAtom)).run 0).1

end Explain

structure Explanation where
  query : String
  outcome : Bool
  derivations : List Derivation

def explainIn (parseAtom : String → Except GoError Datalog.Atom) (rules : List SourceClause)
    (store : Store) (query : String) : Except GoError Explanation :=
  match parseAtom query with
  | .error err => .error err
  | .ok queryAtom =>
    let derivations := explainAtom rules store queryAtom
    .ok ⟨query, !derivations.isEmpty, derivations⟩

def explain {Key : Type} [DecidableEq Key] (mangle : Mangle Key) (ctx : Context)
    (facts : List Datalog.Atom) (query : String) : RuntimeM Key (Except GoError Explanation) :=
  match ctx.err .query with
  | some err => pure (.error err)
  | none => do
    let options ← buildEvalOptionsLockedSnapshot
    let limit ← readLimit
    match ← evaluatedWorkingStore mangle ctx facts (options.withLimit limit) with
    | .error err => pure (.error err)
    | .ok store => do
      let program ← Atomic.Process.atomically (fun _ => Section.optionsSnapshot)
        fun runtime : MangleRuntime Key => (runtime.program, runtime)
      match program with
      | none => pure (.error (.text "runtime not initialized"))
      | some program => pure (explainIn mangle.parseAtom program.info.rules store query)

/-! ## Audited queries -/

structure QueryWithAuditResult where
  results : List Solution
  auditTrail : AuditTrail

def recordDerivation (printer : Printer) (trail : AuditTrail) (derivation : Derivation) :
    AuditTrail :=
  let definition :=
    if derivation.ruleText printer = "" then derivation.factText printer
    else derivation.ruleText printer
  trail.addRule derivation.predicate definition "" derivation.predicate derivation.tier

/-- The solutions of a query, and the rules that derive its facts.  A failed explanation is
only logged. -/
def queryWithAudit {m : Type → Type} [Monad m] (engine : PolicyEngine m)
    (explain : Context → List Datalog.Atom → String → m (Except GoError Explanation))
    (printer : Printer) (ctx explainCtx : Context) (latencyMs : Nat) (facts : List String)
    (query : String) : m (Except GoError QueryWithAuditResult) :=
  match parseAtoms engine (fun fact err => .wrap ("failed to parse fact '" ++ fact ++ "'") err)
      facts with
  | (_, some err) => return .error err
  | (atoms, none) => do
    let run ← engine.runtime.queryWithSolutions ctx atoms query
    match run.err with
    | some err => return .error err
    | none => do
      let trail := { newAuditTrail engine.host.now "manglekit-engine" query with
        factCount := atoms.length }
      let trail := match ← explain explainCtx atoms query with
        | .ok explanation => explanation.derivations.foldl (recordDerivation printer) trail
        | .error _ => trail
      return .ok ⟨run.reported,
        { trail with matchedCount := run.reported.length, latencyMs }⟩

end Manglekit.Engine

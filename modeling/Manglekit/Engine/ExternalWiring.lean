import Manglekit.Engine.Reference

/-!
# External predicates of a program

A program may use predicates that are computed by registered callbacks.  Before the analysis
the runtime looks for the first use of each registered name, and declares the name with the
arity found there.  For the evaluation it looks each name up among the extensional
predicates of the program, again with one arity per name.
-/

namespace Manglekit.Engine

open Core Datalog

/-! ## The predicates of some units -/

section Units

def premiseAtom : Premise → Option Datalog.Atom
  | .atom atom => some atom
  | .negAtom atom => some atom
  | .eq _ _ => none
  | .ineq _ _ => none

def positiveAtom : Premise → Option Datalog.Atom
  | .atom atom => some atom
  | .negAtom _ => none
  | .eq _ _ => none
  | .ineq _ _ => none

variable (units : List SourceUnit)

def clausesOf : List SourceClause := units.flatMap (·.clauses)

def premiseSyms : List PredicateSym :=
  (clausesOf units).flatMap fun clause =>
    (clause.premises.filterMap premiseAtom).map (·.predicate)

def ruleHeads : List PredicateSym :=
  ((clausesOf units).filter fun clause => !clause.isFact).map (·.head.predicate)

def mentionedSyms : List PredicateSym :=
  premiseSyms units ++ (clausesOf units).map (·.head.predicate) ++ units.flatMap (·.decls)

/-- The atoms that usage discovery looks at, in its order. -/
def discoverable (clause : SourceClause) : List Datalog.Atom :=
  clause.premises.filterMap positiveAtom ++ [clause.head]

def firstUse (name : String) : Option Datalog.Atom :=
  ((clausesOf units).flatMap discoverable).find? fun atom => decide (atom.symbol = name)

end Units

/-! ## Declarations -/

variable {units : List SourceUnit} {sym : PredicateSym} {name : String}

section Declarations

def usageOf (atom : Datalog.Atom) : ExternalDecl := ⟨atom.predicate, atom.args.map argMode⟩

theorem clauseUsage_eq (name : String) (clause : SourceClause) :
    clauseUsage name clause =
      ((discoverable clause).find? fun atom => decide (atom.symbol = name)).map usageOf := by
  have head : atomUsage name clause.head =
      ([clause.head].find? fun atom => decide (atom.symbol = name)).map usageOf := by
    by_cases named : clause.head.symbol = name <;> simp [atomUsage, usageOf, named]
  unfold clauseUsage discoverable
  rw [head, List.find?_append]
  induction clause.premises with
  | nil => simp
  | cons premise rest ih =>
    cases premise with
    | atom atom =>
      by_cases named : atom.symbol = name
      · simp [positiveAtom, atomUsage, usageOf, named]
      · simpa [positiveAtom, atomUsage, named] using ih
    | negAtom atom | eq left right | ineq left right => simpa [positiveAtom] using ih

theorem findSome?_findPredicateUsage (units : List SourceUnit) (name : String) :
    (units.findSome? fun unit => findPredicateUsage unit name) =
      (firstUse units name).map usageOf := by
  have found (unit : SourceUnit) : findPredicateUsage unit name =
      ((unit.clauses.flatMap discoverable).find?
        fun atom => decide (atom.symbol = name)).map usageOf := by
    unfold findPredicateUsage
    rw [List.find?_flatMap, List.map_findSome?]
    exact congrArg (List.findSome? · unit.clauses) (funext fun clause => clauseUsage_eq name clause)
  unfold firstUse clausesOf
  rw [List.flatMap_assoc, List.find?_flatMap, List.map_findSome?]
  exact congrArg (List.findSome? · units) (funext found)

theorem symbol_of_firstUse {atom : Datalog.Atom}
    (found : firstUse units name = some atom) : atom.symbol = name := by
  simpa using List.find?_some found

theorem declared_iff {names : List String} :
    (∃ decl ∈ externalDeclarations names units, decl.symbol = sym) ↔
      sym.symbol ∈ names ∧ (firstUse units sym.symbol).map (·.predicate) = some sym := by
  simp only [externalDeclarations, List.mem_filterMap, findSome?_findPredicateUsage,
    Option.map_eq_some_iff]
  constructor
  · rintro ⟨decl, ⟨name, registered, atom, found, rfl⟩, rfl⟩
    obtain rfl := symbol_of_firstUse found
    exact ⟨registered, atom, found, rfl⟩
  · rintro ⟨registered, atom, found, same⟩
    exact ⟨usageOf atom, ⟨sym.symbol, registered, atom, found, rfl⟩, same⟩

theorem mem_mentionedSyms_of_firstUse {atom : Datalog.Atom}
    (found : firstUse units name = some atom) : atom.predicate ∈ mentionedSyms units := by
  have member := List.mem_of_find?_eq_some found
  obtain ⟨clause, clauseMember, discovered⟩ := List.mem_flatMap.mp member
  simp only [mentionedSyms, List.mem_append]
  rcases List.mem_append.mp discovered with positive | head
  · refine .inl (.inl (List.mem_flatMap.mpr ⟨clause, clauseMember, List.mem_map.mpr
      ⟨atom, ?_, rfl⟩⟩))
    obtain ⟨premise, premiseMember, read⟩ := List.mem_filterMap.mp positive
    refine List.mem_filterMap.mpr ⟨premise, premiseMember, ?_⟩
    cases premise <;> simp_all [positiveAtom, premiseAtom]
  · obtain rfl := List.mem_singleton.mp head
    exact .inl (.inr (List.mem_map.mpr ⟨clause, clauseMember, rfl⟩))

end Declarations

/-! ## Callbacks -/

section Callbacks

variable {info : ProgramInfo} {externals : List (String × ExternalPredicate)}
  {fn : ExternalPredicate}

theorem mem_callbacks_iff (registered : (sym.symbol, fn) ∈ externals) :
    (sym, fn) ∈ MangleRuntime.callbacks info externals ↔
      (info.edbPredicates.find? fun other => decide (other.symbol = sym.symbol)) = some sym := by
  simp only [MangleRuntime.callbacks, List.mem_filterMap, Option.map_eq_some_iff]
  constructor
  · rintro ⟨⟨name, _⟩, -, found, same, equal⟩
    obtain ⟨rfl, rfl⟩ := Prod.mk.inj equal
    have named : found.symbol = name := by simpa using List.find?_some same
    rwa [named]
  · intro found
    exact ⟨(sym.symbol, fn), registered, sym, found, rfl⟩

/-- The extensional predicates are kept in a map, so each iteration may visit them in another
order.  A predicate always gets the callback only if no other arity competes with it. -/
theorem mem_callbacks_of_every_order_iff (registered : (sym.symbol, fn) ∈ externals) :
    (∀ order : List PredicateSym, order.Perm info.edbPredicates →
        (sym, fn) ∈ MangleRuntime.callbacks { info with edbPredicates := order } externals) ↔
      sym ∈ info.edbPredicates ∧
        ∀ other ∈ info.edbPredicates, other.symbol = sym.symbol → other = sym := by
  simp only [mem_callbacks_iff registered]
  constructor
  · intro always
    refine ⟨List.mem_of_find?_eq_some (always _ (List.Perm.refl _)), fun other member same => ?_⟩
    -- The iteration may start with the other arity.
    have started := always _ (List.perm_cons_erase member).symm
    rw [List.find?_cons_of_pos (by simpa using same)] at started
    exact Option.some.inj started
  · rintro ⟨member, unique⟩ order permuted
    have visited : (order.find? fun other => decide (other.symbol = sym.symbol)).isSome := by
      rw [List.find?_isSome]
      exact ⟨sym, permuted.mem_iff.mpr member, by simp⟩
    obtain ⟨found, chosen⟩ := Option.isSome_iff_exists.mp visited
    rw [chosen, unique found (permuted.mem_iff.mp (List.mem_of_find?_eq_some chosen))
      (by simpa using List.find?_some chosen)]

end Callbacks

/-! ## Loading -/

/-- A policy is loaded by a reload, added to the loaded ones, or read from files. -/
inductive Loading where
  | reload
  | addPolicy
  | files
  deriving DecidableEq, Repr

/-- Reading files declares no external predicates. -/
def Loading.names (externals : List (String × ExternalPredicate)) : Loading → List String
  | .reload => externals.map (·.1)
  | .addPolicy => externals.map (·.1)
  | .files => []

theorem Loading.mem_names_iff {externals : List (String × ExternalPredicate)} {how : Loading}
    (registered : name ∈ externals.map (·.1)) :
    name ∈ how.names externals ↔ how ≠ .files := by
  cases how <;> simp_all [Loading.names]

section Wiring

variable {Key : Type} (mangle : Mangle Key) (runtime : MangleRuntime Key) (how : Loading)
  (units : List SourceUnit) (what : String)

def Loading.build : Except GoError Program :=
  buildProgram mangle (how.names runtime.externalPreds) units what

/-- Every registered predicate in a premise is declared, and the evaluation of the program is
given its callback, whichever order the predicates are visited in. -/
def WiresExternals : Prop :=
  ∀ external ∈ runtime.externalPreds, ∀ sym ∈ premiseSyms units, sym.symbol = external.1 →
    (∃ decl ∈ externalDeclarations (how.names runtime.externalPreds) units, decl.symbol = sym) ∧
    ∀ program, how.build mangle runtime units what = .ok program →
      ∀ order : List PredicateSym, order.Perm program.info.edbPredicates →
        (sym, external.2) ∈ (runtime.buildEvalOptionsFor
          { program.info with edbPredicates := order }).externalPredicates

/-- The policy is not read from files, the name is first used with this arity, and in a
program no rule derives the predicate and no other arity of the name is left to the facts. -/
def Wireable : Prop :=
  ∀ external ∈ runtime.externalPreds, ∀ sym ∈ premiseSyms units, sym.symbol = external.1 →
    how ≠ .files ∧ (firstUse units external.1).map (·.predicate) = some sym ∧
    ((∃ program, how.build mangle runtime units what = .ok program) →
      sym ∉ ruleHeads units ∧
        ∀ other ∈ mentionedSyms units, other.symbol = external.1 →
          other ∈ ruleHeads units ∨ other = sym)

/-- The documented result of the analysis: the extensional predicates are those of the
program and the declarations that no rule derives. -/
def ExtensionalAnalysis : Prop :=
  ∀ units decls info, mangle.analyze units decls = .ok info →
    ∀ sym, sym.symbol ∈ runtime.externalPreds.map (·.1) →
      (sym ∈ info.edbPredicates ↔
        (sym ∈ mentionedSyms units ∨ ∃ decl ∈ decls, decl.symbol = sym) ∧ sym ∉ ruleHeads units)

variable {mangle runtime how units what}

theorem mem_edbPredicates_iff (analysis : ExtensionalAnalysis mangle runtime) {program : Program}
    (built : how.build mangle runtime units what = .ok program)
    (registered : sym.symbol ∈ runtime.externalPreds.map (·.1)) :
    sym ∈ program.info.edbPredicates ↔ sym ∈ mentionedSyms units ∧ sym ∉ ruleHeads units := by
  unfold Loading.build buildProgram at built
  split at built
  · cases built
  next info analyzed =>
    split at built
    · cases built
    · cases built
      rw [analysis units _ info analyzed sym registered, declared_iff]
      refine and_congr_left fun _ => ⟨?_, .inl⟩
      rintro (mentioned | ⟨-, used⟩)
      · exact mentioned
      · obtain ⟨atom, found, rfl⟩ := Option.map_eq_some_iff.mp used
        exact mem_mentionedSyms_of_firstUse found

/-- The callbacks of a program are complete exactly if each registered name is used with one
arity, first in a positive premise or a head. -/
theorem externals_wired_iff (analysis : ExtensionalAnalysis mangle runtime) :
    WiresExternals mangle runtime how units what ↔ Wireable mangle runtime how units what := by
  refine forall₂_congr fun external registered => forall₂_congr fun sym used =>
    forall_congr' fun named => ?_
  obtain ⟨name, fn⟩ := external
  obtain rfl : sym.symbol = name := named
  have member : sym.symbol ∈ runtime.externalPreds.map (·.1) :=
    List.mem_map.mpr ⟨_, registered, rfl⟩
  rw [declared_iff, Loading.mem_names_iff member, and_assoc]
  refine and_congr_right fun _ => and_congr_right fun _ => ?_
  rw [forall_exists_index]
  refine forall₂_congr fun program built => ?_
  have extensional {other : PredicateSym} (same : other.symbol = sym.symbol) :
      other ∈ program.info.edbPredicates ↔
        other ∈ mentionedSyms units ∧ other ∉ ruleHeads units :=
    mem_edbPredicates_iff analysis built (same ▸ member)
  have mentioned : sym ∈ mentionedSyms units := by simp [mentionedSyms, used]
  refine (mem_callbacks_of_every_order_iff registered).trans ?_
  rw [extensional rfl]
  constructor
  · rintro ⟨⟨-, underived⟩, unique⟩
    refine ⟨underived, fun other present same => ?_⟩
    by_cases derived : other ∈ ruleHeads units
    · exact .inl derived
    · exact .inr (unique other ((extensional same).mpr ⟨present, derived⟩) same)
  · rintro ⟨underived, others⟩
    refine ⟨⟨mentioned, underived⟩, fun other present same => ?_⟩
    obtain ⟨present, unheaded⟩ := (extensional same).mp present
    exact (others other present same).resolve_left unheaded

/-! ### The three ways to load a policy -/

end Wiring

/-! ## A concrete policy -/

section Concrete

def declaredInfo (units : List SourceUnit) (decls : List ExternalDecl) : ProgramInfo where
  edbPredicates := (mentionedSyms units ++ decls.map (·.symbol)).filter fun sym =>
    decide (sym ∉ ruleHeads units)
  idbPredicates := ruleHeads units
  initialFacts := units.flatMap SourceUnit.facts
  rules := (clausesOf units).filter fun clause => !clause.isFact

def declaringMangle : Mangle Reference.Key :=
  { Reference.mangle with analyze := fun units decls => .ok (declaredInfo units decls) }

theorem declaringMangle_extensional (runtime : MangleRuntime Reference.Key) :
    ExtensionalAnalysis declaringMangle runtime := by
  intro units decls info analyzed sym _
  obtain rfl := Except.ok.inj analyzed
  simp [declaredInfo, or_and_right]

def listingUnit (premise : Datalog.Atom → Premise) : SourceUnit where
  clauses := [{ head := ⟨"blocked", [.var "X"]⟩
                premises := [.atom ⟨"request", [.var "X"]⟩, premise ⟨"listed", [.var "X"]⟩] }]

def listingRuntime : MangleRuntime Reference.Key where
  externalPreds := [("listed", fun inputs => .ok [inputs])]

/-- A predicate that is only negated is not declared. -/
theorem negated_external_undeclared :
    externalDeclarations ["listed"] [listingUnit .negAtom] = [] ∧
      ¬ WiresExternals declaringMangle listingRuntime .reload [listingUnit .negAtom] "program" := by
  have undeclared : externalDeclarations ["listed"] [listingUnit .negAtom] = [] := by
    decide +kernel
  refine ⟨undeclared, fun wired => ?_⟩
  obtain ⟨⟨decl, member, -⟩, -⟩ := wired _ (List.mem_singleton_self _) ⟨"listed", 1⟩
    (by decide) rfl
  have none : decl ∈ externalDeclarations ["listed"] [listingUnit .negAtom] := member
  simp [undeclared] at none

theorem positive_external_wired :
    WiresExternals declaringMangle listingRuntime .reload [listingUnit .atom] "program" := by
  have premises : premiseSyms [listingUnit .atom] = [⟨"request", 1⟩, ⟨"listed", 1⟩] := by decide
  refine (externals_wired_iff (declaringMangle_extensional _)).mpr ?_
  intro external registered sym used named
  obtain rfl := List.mem_singleton.mp registered
  obtain rfl : sym = ⟨"listed", 1⟩ := by
    rw [premises] at used
    rcases List.mem_pair.mp used with rfl | rfl
    · exact absurd named (by decide)
    · rfl
  exact ⟨by decide, by decide, fun _ => ⟨by decide, by decide⟩⟩

end Concrete

end Manglekit.Engine

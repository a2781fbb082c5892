import Manglekit.Core.Types
import Manglekit.Datalog.Syntax
import Mathlib.Data.List.TakeWhile

/-!
# Policy sources

Before a policy is parsed its text is cleaned of comments, and on a reload the
standard library is put in front of it, without the declarations and clauses
that would clash with the caller's declarations or with external predicates.
Texts are lists of characters here; every character that the source compares
bytes with is an ASCII one.
-/

namespace Manglekit.Engine

open Core

/-! ## Text -/

/-- `unicode.IsSpace`. -/
def isSpace (char : Char) : Bool :=
  char ∈ [' ', '\t', '\n', '\r', '\x0b', '\x0c', '\u0085', '\u00a0', '\u1680', '\u2028',
    '\u2029', '\u202f', '\u205f', '\u3000'] ||
    (0x2000 ≤ char.toNat && char.toNat ≤ 0x200a)

/-- The class `\s` of regular expressions. -/
def isRegexSpace (char : Char) : Bool := char ∈ [' ', '\t', '\n', '\r', '\x0c']

def trimSpace (text : List Char) : List Char :=
  ((text.dropWhile isSpace).reverse.dropWhile isSpace).reverse

/-- `strings.Split` on a newline: there is always a first line. -/
def splitLines : List Char → List (List Char)
  | [] => [[]]
  | char :: rest =>
    if char = '\n' then [] :: splitLines rest
    else
      match splitLines rest with
      | [] => [[char]]
      | line :: lines => (char :: line) :: lines

def joinLines (lines : List (List Char)) : List Char := ['\n'].intercalate lines

def normalizeNewlines : List Char → List Char
  | [] => []
  | '\r' :: '\n' :: rest => '\n' :: normalizeNewlines rest
  | char :: rest => char :: normalizeNewlines rest

theorem trimSpace_cons (char : Char) (visible : isSpace char = false) (rest : List Char) :
    ∃ trimmed, trimSpace (char :: rest) = char :: trimmed := by
  rw [trimSpace, List.dropWhile_cons_of_neg (by simp [visible]), List.reverse_cons,
    List.dropWhile_append]
  split
  · exact ⟨[], by simp [visible]⟩
  · exact ⟨(rest.reverse.dropWhile isSpace).reverse, by simp⟩

theorem trimSpace_eq_nil_iff (text : List Char) :
    trimSpace text = [] ↔ ∀ char ∈ text, isSpace char := by
  rw [trimSpace, List.reverse_eq_nil_iff, List.dropWhile_eq_nil_iff]
  refine ⟨fun blank => List.dropWhile_eq_nil_iff.mp ?_, fun blank char inside => ?_⟩
  · cases rest : text.dropWhile isSpace with
    | nil => rfl
    | cons first others =>
      have visible := List.head?_dropWhile_not isSpace text
      rw [rest] at visible blank
      exact absurd (blank first (by simp)) (by simpa using visible)
  · exact blank char ((List.dropWhile_suffix _).subset (List.mem_reverse.mp inside))

theorem trimSpace_isPrefix (text : List Char) : trimSpace text <+: text.dropWhile isSpace := by
  have trailing := List.dropWhile_suffix (l := (text.dropWhile isSpace).reverse) isSpace
  simpa [trimSpace] using List.reverse_prefix.mpr trailing

theorem splitLines_eq_splitOn (text : List Char) : splitLines text = text.splitOn '\n' := by
  induction text with
  | nil => rfl
  | cons char rest ih =>
    rw [splitLines, ih, List.splitOn_cons_eq_if_modifyHead]
    have someLine := List.splitOn_ne_nil '\n' rest
    simp only [beq_iff_eq]
    split
    · rfl
    · cases lines : rest.splitOn '\n' with
      | nil => exact absurd lines someLine
      | cons line others => rfl

theorem newline_not_mem_of_mem_splitLines {text line : List Char}
    (member : line ∈ splitLines text) : '\n' ∉ line := by
  induction text generalizing line with
  | nil =>
    rw [splitLines, List.mem_singleton] at member
    simp [member]
  | cons char rest ih =>
    rw [splitLines] at member
    split at member
    · rcases List.mem_cons.mp member with rfl | later
      · simp
      · exact ih later
    next visible =>
      split at member
      · rw [List.mem_singleton] at member
        simp [member, Ne.symm visible]
      next first others lines =>
        rw [lines] at ih
        rcases List.mem_cons.mp member with rfl | later
        · have tail := ih (List.mem_cons_self)
          simp [Ne.symm visible, tail]
        · exact ih (List.mem_cons_of_mem _ later)

theorem splitLines_joinLines {lines : List (List Char)} (nonempty : lines ≠ [])
    (single : ∀ line ∈ lines, '\n' ∉ line) : splitLines (joinLines lines) = lines := by
  rw [splitLines_eq_splitOn, joinLines, List.splitOn_intercalate _ single nonempty]

theorem normalizeNewlines_append {before : List Char} (plain : before.getLast? ≠ some '\r')
    (after : List Char) :
    normalizeNewlines (before ++ '\n' :: after) =
      normalizeNewlines before ++ '\n' :: normalizeNewlines after := by
  fun_induction normalizeNewlines before with
  | case1 => simp [normalizeNewlines]
  | case2 rest ih =>
    have restPlain : rest.getLast? ≠ some '\r' := by
      cases rest with
      | nil => simp
      | cons next others => simpa using plain
    simp only [List.cons_append, normalizeNewlines, ih restPlain]
  | case3 char rest differs ih =>
    have restPlain : rest.getLast? ≠ some '\r' := by
      cases rest with
      | nil => simp
      | cons next others => simpa using plain
    rw [List.cons_append, List.cons_append, ← ih restPlain]
    refine normalizeNewlines.eq_3 char _ fun follows isReturn same => ?_
    cases rest with
    | nil => simp [isReturn] at plain
    | cons next others =>
      cases same
      exact differs others isReturn rfl

/-! ## Comments -/

/-- The line up to a comment that starts outside of quotes.  A quote after a
backslash does not count. -/
def stripComment (previous : Option Char) (inQuote : Bool) : List Char → List Char
  | [] => []
  | char :: rest =>
    let inQuote := if char = '"' ∧ previous ≠ some '\\' then !inQuote else inQuote
    if !inQuote && (char = '%' || (char = '/' && rest.head? = some '/')) then []
    else char :: stripComment (some char) inQuote rest

def isCommentLine (trimmed : List Char) : Bool :=
  ['%'].isPrefixOf trimmed || ['/', '/'].isPrefixOf trimmed

def cleanLine (line : List Char) : Option (List Char) :=
  let trimmed := trimSpace line
  if trimmed = [] || isCommentLine trimmed then none
  else
    let stripped := stripComment none false line
    if trimSpace stripped = [] then none else some stripped

def stripBOM : List Char → List Char
  | '\ufeff' :: rest => rest
  | text => text

def cleanSource (raw : List Char) : List Char :=
  joinLines ((splitLines (normalizeNewlines (stripBOM raw))).filterMap cleanLine)

/-! ## Declarations -/

def readIdent (text : List Char) : Option (List Char × List Char) :=
  match text with
  | [] => none
  | first :: rest =>
    if isIdentStart first then
      some (first :: rest.takeWhile isIdentPart, rest.dropWhile isIdentPart)
    else none

/-- The head `pred(` of a statement: the predicate, and what follows the
parenthesis. -/
def readHead (text : List Char) : Option (List Char × List Char) := do
  let (ident, rest) ← readIdent (text.dropWhile isRegexSpace)
  match rest.dropWhile isRegexSpace with
  | '(' :: rest => return (ident, rest)
  | _ => none

/-- The symbol and arity of a `Decl pred(args)` line. -/
def declSym (line : List Char) : Option Datalog.PredicateSym := do
  match line.dropWhile isRegexSpace with
  | 'D' :: 'e' :: 'c' :: 'l' :: separator :: rest =>
    if isRegexSpace separator then do
      let (ident, rest) ← readHead rest
      let args := rest.takeWhile (· ≠ ')')
      if args.length < rest.length then
        return ⟨String.ofList ident,
          if trimSpace args = [] then 0 else args.count ',' + 1⟩
      else none
    else none
  | _ => none

def collectCallerDecls (source : List Char) : List Datalog.PredicateSym :=
  (splitLines source).filterMap fun line => declSym (trimSpace line)

/-! ## The standard library -/

/-- Whether a statement of the standard library that starts on this line gives
way to the caller's declarations or to an external predicate. -/
def isDropped (callerDecls : List Datalog.PredicateSym) (extPredNames : List String)
    (trimmed : List Char) : Bool :=
  if "Decl ".toList.isPrefixOf trimmed then
    match declSym trimmed with
    | some sym => callerDecls.contains sym || extPredNames.contains sym.symbol
    | none => false
  else if extPredNames ≠ [] && !isCommentLine trimmed then
    match readHead trimmed with
    | some (ident, _) => extPredNames.contains (String.ofList ident)
    | none => false
  else false

def endsStatement (trimmed : List Char) : Bool := trimmed.getLast? = some '.'

/-- A dropped statement ends with the first line that ends in a period. -/
def filterStdLib (callerDecls : List Datalog.PredicateSym) (extPredNames : List String) :
    Bool → List (List Char) → List (List Char)
  | _, [] => []
  | skipping, line :: rest =>
    let trimmed := trimSpace line
    if skipping || isDropped callerDecls extPredNames trimmed then
      filterStdLib callerDecls extPredNames (!endsStatement trimmed) rest
    else line :: filterStdLib callerDecls extPredNames false rest

def prependStdLibIfMissing (stdLib source : List Char)
    (callerDecls : List Datalog.PredicateSym) (extPredNames : List String) : List Char :=
  if callerDecls = [] && extPredNames = [] then stdLib ++ '\n' :: source
  else
    (filterStdLib callerDecls extPredNames false (splitLines stdLib)).flatMap (· ++ ['\n'])
      ++ source

/-! ## External predicates -/

/-- A clause as it is parsed; a transform (aggregation) is carried by its text. -/
structure SourceClause extends Datalog.Clause where
  transform : Option String := none
  deriving DecidableEq, Repr

structure SourceUnit where
  clauses : List SourceClause
  decls : List Datalog.PredicateSym := []
  deriving DecidableEq, Repr

inductive ArgMode where
  | input
  | output
  deriving DecidableEq, Repr

structure ExternalDecl where
  symbol : Datalog.PredicateSym
  mode : List ArgMode
  deriving DecidableEq, Repr

def argMode : Datalog.Term → ArgMode
  | .const _ => .input
  | .var _ => .output

def atomUsage (name : String) (atom : Datalog.Atom) : Option ExternalDecl :=
  if atom.symbol = name then some ⟨atom.predicate, atom.args.map argMode⟩ else none

/-- The first use of the predicate in a clause: its positive premises come before
its head. -/
def clauseUsage (name : String) (clause : SourceClause) : Option ExternalDecl :=
  (clause.premises.findSome? fun premise =>
    match premise with
    | .atom atom => atomUsage name atom
    | _ => none) <|> atomUsage name clause.head

def findPredicateUsage (unit : SourceUnit) (name : String) : Option ExternalDecl :=
  unit.clauses.findSome? (clauseUsage name)

def externalDeclarations (names : List String) (units : List SourceUnit) : List ExternalDecl :=
  names.filterMap fun name => units.findSome? fun unit => findPredicateUsage unit name

end Manglekit.Engine

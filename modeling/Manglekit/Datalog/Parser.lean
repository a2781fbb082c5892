import Manglekit.Datalog.Syntax

/-!
# Reading facts, queries and clauses

A small front end for the plain part of the language: atoms over strings, names,
numbers and variables, facts, and rules with positive and negated premises.  It
makes concrete programs executable; nothing general depends on it.
-/

namespace Datalog

inductive Token where
  | word (text : String)
  | text (value : String)
  | mark (char : Char)
  deriving DecidableEq, Repr

inductive LexMode where
  | idle
  | word (reversed : List Char)
  | text (reversed : List Char)
  | escape (reversed : List Char)
  deriving DecidableEq, Repr

def isWordChar (char : Char) : Bool := char.isAlphanum || char = '_' || char = '/'

/-- The first character after a complete token. -/
def startToken (char : Char) : List Token × LexMode :=
  if char.isWhitespace then ([], .idle)
  else if char = '"' then ([], .text [])
  else if isWordChar char then ([], .word [char])
  else ([.mark char], .idle)

def unescape (char : Char) : Char :=
  if char = 'n' then '\n' else if char = 't' then '\t' else if char = 'r' then '\r' else char

def lex : LexMode → List Char → Option (List Token)
  | .idle, [] => some []
  | .word reversed, [] => some [.word (String.ofList reversed.reverse)]
  | .text _, [] => none
  | .escape _, [] => none
  | .idle, char :: rest =>
    (lex (startToken char).2 rest).map ((startToken char).1 ++ ·)
  | .word reversed, char :: rest =>
    if isWordChar char then lex (.word (char :: reversed)) rest
    else
      (lex (startToken char).2 rest).map
        (.word (String.ofList reversed.reverse) :: (startToken char).1 ++ ·)
  | .text reversed, char :: rest =>
    if char = '"' then (lex .idle rest).map (.text (String.ofList reversed.reverse) :: ·)
    else if char = '\\' then lex (.escape reversed) rest
    else lex (.text (char :: reversed)) rest
  | .escape reversed, char :: rest => lex (.text (unescape char :: reversed)) rest

def tokens (text : List Char) : Option (List Token) := lex .idle text

def lexStep : LexMode → Char → List Token × LexMode
  | .idle, char => startToken char
  | .word reversed, char =>
    if isWordChar char then ([], .word (char :: reversed))
    else (.word (String.ofList reversed.reverse) :: (startToken char).1, (startToken char).2)
  | .text reversed, char =>
    if char = '"' then ([.text (String.ofList reversed.reverse)], .idle)
    else if char = '\\' then ([], .escape reversed)
    else ([], .text (char :: reversed))
  | .escape reversed, char => ([], .text (unescape char :: reversed))

def lexSteps : LexMode → List Char → List Token × LexMode
  | mode, [] => ([], mode)
  | mode, char :: rest =>
    let (read, next) := lexStep mode char
    let (later, last) := lexSteps next rest
    (read ++ later, last)

theorem lex_cons (mode : LexMode) (char : Char) (rest : List Char) :
    lex mode (char :: rest) =
      (lex (lexStep mode char).2 rest).map ((lexStep mode char).1 ++ ·) := by
  cases mode with
  | idle => rfl
  | word reversed | text reversed =>
    simp only [lex, lexStep]
    split_ifs <;> simp
  | escape reversed => simp [lex, lexStep]

theorem lex_append (mode : LexMode) (text rest : List Char) :
    lex mode (text ++ rest) =
      (lex (lexSteps mode text).2 rest).map ((lexSteps mode text).1 ++ ·) := by
  induction text generalizing mode with
  | nil => simp [lexSteps]
  | cons char text ih =>
    rw [List.cons_append, lex_cons, ih, Option.map_map]
    simp [lexSteps, Function.comp_def]

def termOfToken : Token → Option Term
  | .text value => some (.const (.string value))
  | .word text =>
    match text.toList with
    | [] => none
    | first :: _ =>
      if first.isUpper || first = '_' then some (.var text)
      else if first = '/' then some (.const (.name text))
      else text.toInt?.map fun number => .const (.number number)
  | .mark _ => none

def readArgs : List Token → Option (List Term × List Token)
  | .mark ')' :: rest => some ([], rest)
  | token :: .mark ')' :: rest => (termOfToken token).map fun term => ([term], rest)
  | token :: .mark ',' :: rest => do
    let term ← termOfToken token
    let (terms, rest) ← readArgs rest
    return (term :: terms, rest)
  | _ => none

def readAtom : List Token → Option (Atom × List Token)
  | .word symbol :: .mark '(' :: rest =>
    (readArgs rest).map fun (args, rest) => (⟨symbol, args⟩, rest)
  | _ => none

def readPremise : List Token → Option (Premise × List Token)
  | .mark '!' :: rest => (readAtom rest).map fun (atom, rest) => (.negAtom atom, rest)
  | rest => (readAtom rest).map fun (atom, rest) => (.atom atom, rest)

def readPremises : Nat → List Token → Option (List Premise × List Token)
  | 0, _ => none
  | fuel + 1, rest => do
    match ← readPremise rest with
    | (premise, .mark '.' :: rest) => return ([premise], rest)
    | (premise, .mark ',' :: rest) =>
      let (premises, rest) ← readPremises fuel rest
      return (premise :: premises, rest)
    | _ => none

def readClauses : Nat → List Token → Option (List Clause)
  | _, [] => some []
  | 0, _ => none
  | fuel + 1, rest => do
    match ← readAtom rest with
    | (head, .mark '.' :: rest) => return ⟨head, []⟩ :: (← readClauses fuel rest)
    | (head, .mark ':' :: .mark '-' :: rest) =>
      let (premises, rest) ← readPremises fuel rest
      return ⟨head, premises⟩ :: (← readClauses fuel rest)
    | _ => none

/-- An atom, with or without a final period. -/
def parseAtom (text : String) : Option Atom := do
  match ← readAtom (← tokens text.toList) with
  | (atom, []) | (atom, [.mark '.']) => return atom
  | _ => none

def parseClauses (text : List Char) : Option (List Clause) := do
  let read ← tokens text
  readClauses read.length read

example : parseAtom "halt(\"Req\", Reason, Tier)" =
    some ⟨"halt", [.const (.string "Req"), .var "Reason", .var "Tier"]⟩ := by decide +kernel

example : parseClauses "r(X) :- e(X), !f(X). e(/a).".toList =
    some [⟨⟨"r", [.var "X"]⟩, [.atom ⟨"e", [.var "X"]⟩, .negAtom ⟨"f", [.var "X"]⟩]⟩,
      ⟨⟨"e", [.const (.name "/a")]⟩, []⟩] := by decide +kernel

end Datalog

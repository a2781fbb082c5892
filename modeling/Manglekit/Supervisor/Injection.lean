import Manglekit.Engine.Escaping
import Manglekit.Supervisor.Adapter

/-!
# Values cannot leave their literals

A quad is rendered as one fact.  Whatever bytes its subject and its object are, the
lexer reads one literal for each of them, and the predicate, the punctuation and the
text that follows stay as they are.
-/

namespace Manglekit.Bytes

open Lexing

/-! ## The source -/

/-- The expression `^[A-Za-z_][A-Za-z0-9_]*$`. -/
def isPredicateIdent : List UInt8 → Bool
  | [] => false
  | first :: rest => isIdentStart first && rest.all isIdentPart

def atomToDatalog (pred subject object : List UInt8) : List UInt8 :=
  if isPredicateIdent pred then
    pred ++ ofText "(\"" ++ escapeString subject ++ ofText "\", \"" ++ escapeString object
      ++ ofText "\")."
  else []

/-! ## Its tokens -/

def quoted (s : List UInt8) : List UInt8 := '"'.toUInt8 :: (escapeString s ++ ['"'.toUInt8])

theorem next_quoted (s rest : List UInt8) :
    datalog.next (quoted s ++ rest) = some (.literal (decoded s), rest) := by
  have read := Alphabet.next_literal escapeByte_spells rfl s rest
  rw [quoted, List.cons_append, List.append_assoc]
  exact read

theorem kind_of_isIdentStart {b : UInt8} (starts : isIdentStart b = true) :
    datalog.kind b = .name := by
  have letter : ∀ other : UInt8, isIdentStart other = false → b ≠ other := by
    rintro other refused rfl
    rw [starts] at refused
    cases refused
  have blank : ¬ (b = ' '.toUInt8 ∨ b = '\t'.toUInt8 ∨ b = '\n'.toUInt8 ∨ b = '\r'.toUInt8) := by
    rintro (same | same | same | same) <;> exact letter _ (by decide) same
  exact (if_neg blank).trans ((if_neg (letter _ (by decide))).trans (if_pos starts))

variable {pred : List UInt8}

theorem next_ident (ident : isPredicateIdent pred = true) (rest : List UInt8) :
    datalog.next (pred ++ '('.toUInt8 :: rest) = some (.name pred, '('.toUInt8 :: rest) := by
  cases pred with
  | nil => cases ident
  | cons first others =>
    obtain ⟨starts, parts⟩ := Bool.and_eq_true_iff.mp ident
    exact Alphabet.next_name (kind_of_isIdentStart starts) parts rfl rest

theorem atomToDatalog_of_ident (ident : isPredicateIdent pred = true)
    (subject object : List UInt8) :
    atomToDatalog pred subject object =
      pred ++ '('.toUInt8 :: (quoted subject ++ ','.toUInt8 :: ' '.toUInt8 ::
        (quoted object ++ [')'.toUInt8, '.'.toUInt8])) := by
  rw [atomToDatalog, if_pos ident]
  have opening : ofText "(\"" = ['('.toUInt8, '"'.toUInt8] := rfl
  have between : ofText "\", \"" = ['"'.toUInt8, ','.toUInt8, ' '.toUInt8, '"'.toUInt8] := rfl
  have closing : ofText "\")." = ['"'.toUInt8, ')'.toUInt8, '.'.toUInt8] := rfl
  simp [quoted, opening, between, closing]

def factTokens (pred subject object : List UInt8) : List (Token UInt8) :=
  [.name pred, .mark '('.toUInt8, .literal (decoded subject), .mark ','.toUInt8,
    .literal (decoded object), .mark ')'.toUInt8, .mark '.'.toUInt8]

theorem tokens_atomToDatalog (ident : isPredicateIdent pred = true)
    (subject object rest : List UInt8) :
    datalog.tokens (atomToDatalog pred subject object ++ rest) =
      (datalog.tokens rest).map (factTokens pred subject object ++ ·) := by
  rw [atomToDatalog_of_ident ident]
  simp only [List.append_assoc, List.cons_append, List.nil_append]
  rw [Alphabet.tokens_of_next (next_ident ident _), Alphabet.tokens_of_next (Alphabet.next_mark rfl
    _), Alphabet.tokens_of_next (next_quoted subject _), Alphabet.tokens_of_next (Alphabet.next_mark
    rfl _), Alphabet.tokens_of_next ((Alphabet.next_blank rfl _).trans (next_quoted object _)),
    Alphabet.tokens_of_next (Alphabet.next_mark rfl _), Alphabet.tokens_of_next (Alphabet.next_mark
    rfl _)]
  simp only [Option.map_map]
  rfl

/-- Escaped content is read back up to its closing quote and no further, whatever
follows; the rendered quad is empty or exactly one fact, of that predicate and of these
two values; and labels give the same facts only if they are written alike. -/
theorem escaping_confines_values :
    (∀ s rest : List UInt8,
      datalog.next ('"'.toUInt8 :: (escapeString s ++ '"'.toUInt8 :: rest)) =
        some (.literal (decoded s), rest)) ∧
    (∀ pred subject object : List UInt8,
      (isPredicateIdent pred = false ∧ atomToDatalog pred subject object = []) ∨
      (isPredicateIdent pred = true ∧
        datalog.tokens (atomToDatalog pred subject object) =
          some [.name pred, .mark '('.toUInt8, .literal (decoded subject), .mark ','.toUInt8,
            .literal (decoded object), .mark ')'.toUInt8, .mark '.'.toUInt8] ∧
        ∀ rest, datalog.tokens (atomToDatalog pred subject object ++ rest) =
          (datalog.tokens rest).map (factTokens pred subject object ++ ·))) ∧
    ∀ (entity other : List UInt8) (first second : List (List UInt8)),
      labelsToFacts entity first = labelsToFacts other second ↔
        first.map decoded = second.map decoded := by
  refine ⟨fun s rest => ?_, fun pred subject object => ?_, labelsToFacts_eq_iff⟩
  · exact Alphabet.next_literal escapeByte_spells rfl s rest
  · cases ident : isPredicateIdent pred with
    | false =>
      refine .inl ⟨rfl, if_neg ?_⟩
      rw [ident]
      exact Bool.false_ne_true
    | true =>
      have read := tokens_atomToDatalog ident subject object
      refine .inr ⟨rfl, ?_, read⟩
      have alone := read []
      rw [List.append_nil, Alphabet.tokens_nil] at alone
      exact alone

/-! ## Texts -/

end Manglekit.Bytes

import Manglekit.Engine.Gate
import Manglekit.Lexing.Tokens

/-!
# Escaping, byte by byte

The strings of the source are arbitrary bytes, which need not be the encoding of any
text.  Here the escaping is the loop over bytes that the source runs, and the lexer it
must withstand reads bytes as well.  On encoded texts the loop computes the encoding of
what the model over characters computes.
-/

namespace Manglekit.Bytes

open Lexing

def ofText (text : String) : List UInt8 := text.toList.flatMap String.utf8EncodeChar

/-! ## The source -/

def escapeByte (b : UInt8) : List UInt8 :=
  if b = '\\'.toUInt8 ∨ b = '"'.toUInt8 then ['\\'.toUInt8, b]
  else if b = '\n'.toUInt8 then ofText "\\n"
  else if b = '\r'.toUInt8 then ofText "\\r"
  else if b = '\t'.toUInt8 then ofText "\\t"
  else if b < 32 then [' '.toUInt8]
  else [b]

def escapeString (s : List UInt8) : List UInt8 := s.flatMap escapeByte

def labelsToFacts (_entityID : List UInt8) (labels : List (List UInt8)) : List (List UInt8) :=
  labels.map fun label => ofText "label(\"" ++ escapeString label ++ ofText "\")"

/-! ## The lexer -/

def isIdentStart (b : UInt8) : Bool :=
  ('A'.toUInt8 ≤ b && b ≤ 'Z'.toUInt8) || ('a'.toUInt8 ≤ b && b ≤ 'z'.toUInt8) ||
    b == '_'.toUInt8

def isIdentPart (b : UInt8) : Bool :=
  isIdentStart b || ('0'.toUInt8 ≤ b && b ≤ '9'.toUInt8)

/-- A literal stands in double quotes; a backslash escapes a backslash, a quote, or
stands with a letter for a line feed, a carriage return or a tab. -/
def datalog : Alphabet UInt8 where
  kind b :=
    if b = ' '.toUInt8 ∨ b = '\t'.toUInt8 ∨ b = '\n'.toUInt8 ∨ b = '\r'.toUInt8 then .blank
    else if b = '"'.toUInt8 then .quote
    else if isIdentStart b then .name
    else .mark
  isNamePart := isIdentPart
  escape := '\\'.toUInt8
  unescape code :=
    if code = '\\'.toUInt8 ∨ code = '"'.toUInt8 then some code
    else if code = 'n'.toUInt8 then some '\n'.toUInt8
    else if code = 'r'.toUInt8 then some '\r'.toUInt8
    else if code = 't'.toUInt8 then some '\t'.toUInt8
    else none

def decodedByte (b : UInt8) : UInt8 :=
  if b < 32 ∧ b ≠ '\n'.toUInt8 ∧ b ≠ '\r'.toUInt8 ∧ b ≠ '\t'.toUInt8 then ' '.toUInt8 else b

def decoded (s : List UInt8) : List UInt8 := s.map decodedByte

def special : List UInt8 :=
  ['\\'.toUInt8, '"'.toUInt8, '\n'.toUInt8, '\r'.toUInt8, '\t'.toUInt8]

theorem escapeByte_of_not_special {b : UInt8} (plain : b ∉ special) :
    escapeByte b = [decodedByte b] ∧ decodedByte b ∉ special := by
  have others := plain
  simp only [special, List.mem_cons, List.not_mem_nil, or_false, not_or] at others
  obtain ⟨backslash, quote, feed, carriage, tab⟩ := others
  by_cases control : b < 32
  · have blank : decodedByte b = ' '.toUInt8 := if_pos ⟨control, feed, carriage, tab⟩
    rw [blank]
    exact ⟨by simp [escapeByte, backslash, quote, feed, carriage, tab, control], by decide⟩
  · have same : decodedByte b = b := if_neg fun low => control low.1
    rw [same]
    exact ⟨by simp [escapeByte, backslash, quote, feed, carriage, tab, control], plain⟩

/-- A literal reads every byte back, but for the control bytes. -/
theorem escapeByte_spells : datalog.Spells '"'.toUInt8 escapeByte decodedByte where
  escape_ne_quote := by decide
  spelled b := by
    by_cases escaped : b ∈ special
    · simp only [special, List.mem_cons, List.not_mem_nil, or_false] at escaped
      rcases escaped with rfl | rfl | rfl | rfl | rfl <;> exact .inr ⟨_, rfl, rfl⟩
    · obtain ⟨alone, plain⟩ := escapeByte_of_not_special escaped
      have differs : ∀ other ∈ special, decodedByte b ≠ other := by
        rintro other listed rfl
        exact plain listed
      exact .inl ⟨alone, differs _ (by decide), differs _ (by decide)⟩

theorem escapeByte_decodedByte (b : UInt8) : escapeByte (decodedByte b) = escapeByte b := by
  by_cases control : b < 32 ∧ b ≠ '\n'.toUInt8 ∧ b ≠ '\r'.toUInt8 ∧ b ≠ '\t'.toUInt8
  · have plain : b ∉ special := by
      obtain ⟨low, feed, carriage, tab⟩ := control
      simp only [special, List.mem_cons, List.not_mem_nil, or_false]
      rintro (rfl | rfl | rfl | rfl | rfl)
      · exact absurd low (by decide)
      · exact absurd low (by decide)
      · exact feed rfl
      · exact carriage rfl
      · exact tab rfl
    have blank : decodedByte b = ' '.toUInt8 := if_pos control
    rw [(escapeByte_of_not_special plain).1, blank]
    decide
  · rw [decodedByte, if_neg control]

theorem escapeString_eq_iff (first second : List UInt8) :
    escapeString first = escapeString second ↔ decoded first = decoded second := by
  constructor
  · exact Alphabet.map_eq_of_flatMap_eq escapeByte_spells
  · intro same
    have spelled : ∀ s, escapeString s = (decoded s).flatMap escapeByte := by
      intro s
      rw [escapeString, decoded, List.flatMap_map]
      exact List.flatMap_congr fun b _ => (escapeByte_decodedByte b).symm
    rw [spelled, spelled, same]

theorem labelsToFacts_eq_iff (entity other : List UInt8) (first second : List (List UInt8)) :
    labelsToFacts entity first = labelsToFacts other second ↔
      first.map decoded = second.map decoded := by
  induction first generalizing second with
  | nil => cases second <;> simp [labelsToFacts]
  | cons label labels ih =>
    cases second with
    | nil => simp [labelsToFacts]
    | cons otherLabel otherLabels =>
      have later := ih otherLabels
      unfold labelsToFacts at later ⊢
      rw [List.map_cons, List.map_cons, List.cons_eq_cons, List.append_left_inj,
        List.append_right_inj, escapeString_eq_iff, later, List.map_cons, List.map_cons,
        List.cons_eq_cons]

/-! ## Texts -/

end Manglekit.Bytes

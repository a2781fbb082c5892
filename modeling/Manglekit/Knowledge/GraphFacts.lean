import Manglekit.Engine.Source

/-!
# Facts from graph triples

A predicate is cut down to its local name, and an object is written as a number if the parser of
floats takes its text.  That parser takes more than decimal numbers.
-/

namespace Manglekit.Knowledge

open Core Engine

abbrev Text := List Char

structure Triple where
  subject : Text
  predicate : Text
  object : Text
  deriving DecidableEq

/-- `strings.Trim`. -/
def trim (cut : Char → Bool) (text : Text) : Text :=
  ((text.dropWhile cut).reverse.dropWhile cut).reverse

def isAngle (char : Char) : Bool := char = '<' || char = '>'

def isSeparator (char : Char) : Bool := char = '/' || char = '#' || char = ':'

/-- What follows the last separator. -/
def localName (raw : Text) : Text :=
  ((trim isAngle raw).reverse.takeWhile fun char => !isSeparator char).reverse

def replaceAll (old new : Char) (text : Text) : Text :=
  text.map fun char => if char = old then new else char

def sanitizePredicate (raw : Text) : Text :=
  if raw = ['a'] then "type".toList
  else replaceAll '.' '_' (replaceAll '-' '_' (localName raw))

def beforeCarets : Text → Text
  | '^' :: '^' :: _ => []
  | char :: rest => char :: beforeCarets rest
  | [] => []

def stripBrackets (val : Text) : Text :=
  if val.head? = some '<' ∧ val.getLast? = some '>' then (val.drop 1).dropLast else val

/-- The text of an object without its datatype, brackets and quotes. -/
def cleanVal (val : Text) : Text :=
  trim (· = '"') (stripBrackets (trimSpace (beforeCarets val)))

/-- The verb `%q`, and whether `strconv.ParseFloat` takes a text. -/
structure Numerals where
  quote : Text → Text
  parseFloat : Text → Bool
  quote_head : ∀ text, (quote text).head? = some '"'
  parseFloat_quote : ∀ text, text.head? = some '"' → parseFloat text = false

variable (numerals : Numerals)

def LeadsWithZero (clean : Text) : Prop :=
  clean.head? = some '0' ∧ clean ≠ ['0'] ∧ clean.take 2 ≠ ['0', '.']

instance (clean : Text) : Decidable (LeadsWithZero clean) :=
  inferInstanceAs (Decidable (_ ∧ _ ∧ _))

def smartCast (val : Text) : Text :=
  if numerals.parseFloat (cleanVal val) then
    if LeadsWithZero (cleanVal val) then numerals.quote (cleanVal val) else cleanVal val
  else numerals.quote (cleanVal val)

def tripleToFact (t : Triple) : Text :=
  t.predicate ++ '(' :: (numerals.quote (trim isAngle t.subject) ++ ", ".toList
    ++ (smartCast numerals t.object ++ ").".toList))

def triplesToFacts (triples : List Triple) : List Text := triples.map (tripleToFact numerals)

/-! ## Well-formed facts -/

def IsIdentifier (text : Text) : Prop :=
  ∃ first rest, text = first :: rest ∧ first.isLower ∧ ∀ char ∈ rest, isIdentPart char

def Digits (text : Text) : Prop := text ≠ [] ∧ ∀ char ∈ text, char.isDigit

/-- A decimal number without a redundant leading zero. -/
def IsDecimal (text : Text) : Prop :=
  ∃ sign whole fraction, text = sign ++ whole ++ fraction ∧ (sign = [] ∨ sign = ['-']) ∧
    (Digits whole ∧ (whole = ['0'] ∨ whole.head? ≠ some '0') ∨ whole = [] ∧ fraction ≠ []) ∧
    (fraction = [] ∨ ∃ digits, Digits digits ∧ fraction = '.' :: digits)

/-- The text is an identifier applied to a quoted string and to another one or a decimal number.
Other objects than these numbers are strings. -/
structure GroundFact (t : Triple) (fact : Text) : Prop where
  predicate : IsIdentifier (sanitizePredicate t.predicate)
  arguments : ∃ object, fact = sanitizePredicate t.predicate
      ++ '(' :: (numerals.quote (trim isAngle t.subject) ++ ", ".toList
        ++ (object ++ ").".toList)) ∧
    ((∃ text, object = numerals.quote text) ∨ IsDecimal object)

def Named (raw : Text) : Prop :=
  raw = ['a'] ∨ ∃ first rest, localName raw = first :: rest ∧ first.isLower ∧
    ∀ char ∈ rest, isIdentPart char ∨ char = '-' ∨ char = '.'

def Castable (val : Text) : Prop :=
  numerals.parseFloat (cleanVal val) → LeadsWithZero (cleanVal val) ∨ IsDecimal (cleanVal val)

def replaced (char : Char) : Char := if char = '-' ∨ char = '.' then '_' else char

theorem sanitizePredicate_eq {raw : Text} (other : raw ≠ ['a']) :
    sanitizePredicate raw = (localName raw).map replaced := by
  rw [sanitizePredicate, if_neg other, replaceAll, replaceAll, List.map_map]
  refine List.map_congr_left fun char _ => ?_
  grind [replaced]

theorem isLower_replaced {char : Char} : (replaced char).isLower ↔ char.isLower := by
  rw [replaced]
  split
  next punctuation =>
    rcases punctuation with rfl | rfl <;> decide
  · rfl

theorem isIdentPart_replaced {char : Char} :
    isIdentPart (replaced char) ↔ isIdentPart char ∨ char = '-' ∨ char = '.' := by
  rw [replaced]
  split
  next punctuation => exact iff_of_true (by decide) (.inr punctuation)
  next plain => exact (or_iff_left plain).symm

theorem isIdentifier_iff_named {raw : Text} : IsIdentifier (sanitizePredicate raw) ↔ Named raw := by
  by_cases short : raw = ['a']
  · subst short
    exact iff_of_true ⟨'t', ['y', 'p', 'e'], rfl, rfl, List.all_eq_true.mp rfl⟩ (.inl rfl)
  · rw [sanitizePredicate_eq short, IsIdentifier, Named, or_iff_right short]
    cases localName raw with
    | nil => simp
    | cons first rest =>
      simp [isLower_replaced, isIdentPart_replaced]

theorem smartCast_iff {val : Text} :
    ((∃ text, smartCast numerals val = numerals.quote text) ∨ IsDecimal (smartCast numerals val)) ↔
      Castable numerals val := by
  rw [smartCast, Castable]
  split
  next accepted =>
    split
    next zero => exact iff_of_true (.inl ⟨_, rfl⟩) fun _ => .inl zero
    next proper =>
      have raw : ¬ ∃ text, cleanVal val = numerals.quote text := by
        rintro ⟨text, same⟩
        have refused := numerals.parseFloat_quote _ (same ▸ numerals.quote_head text)
        simp [refused] at accepted
      simp [raw, proper, accepted]
  next refused => exact iff_of_true (.inl ⟨_, rfl⟩) fun accepted => absurd accepted refused

def fewNumerals : Numerals where
  quote text := '"' :: (text ++ ['"'])
  parseFloat text := text = "NaN".toList || text = "-007".toList || text = "7".toList
  quote_head _ := rfl
  parseFloat_quote text head := by
    cases text with
    | nil => simp at head
    | cons first rest =>
      obtain rfl : first = '"' := by simpa using head
      simp

theorem IsDecimal.digit_or {text : Text} (decimal : IsDecimal text) :
    ∀ char ∈ text, char.isDigit ∨ char = '-' ∨ char = '.' := by
  obtain ⟨sign, whole, fraction, rfl, sign, whole, fraction⟩ := decimal
  grind [Digits]

end Manglekit.Knowledge

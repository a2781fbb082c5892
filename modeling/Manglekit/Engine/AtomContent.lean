import Manglekit.Engine.Gate
import Manglekit.Engine.Source

/-!
# Splitting the text of a fact

A fact is split into its predicate and its arguments without a lexer: a quote always opens or
closes a literal, and what stands between two quotes is taken as it is.  Arguments that need
an escape are therefore not read back.
-/

namespace Manglekit.Engine

open Core

/-! ## The source -/

/-- The expression `^(\w+)\((.*)\)$`: the predicate, and what stands between the first
parenthesis and the last. -/
def matchAtom (fact : List Char) : Option (List Char × List Char) :=
  let pred := fact.takeWhile isIdentPart
  match fact.dropWhile isIdentPart with
  | '(' :: rest =>
    if pred ≠ [] ∧ rest.getLast? = some ')' ∧ '\n' ∉ rest then some (pred, rest.dropLast)
    else none
  | _ => none

/-- `current` is the argument read so far, from its last character to its first. -/
def splitArgs (inQuote : Bool) (current : List Char) : List Char → List (List Char)
  | [] => if current = [] then [] else [trimSpace current.reverse]
  | char :: rest =>
    if char = '"' then splitArgs (!inQuote) (char :: current) rest
    else if char = ',' ∧ !inQuote then trimSpace current.reverse :: splitArgs false [] rest
    else splitArgs inQuote (char :: current) rest

def cleanQuotes (arg : List Char) : List Char :=
  if arg.head? = some '"' ∧ arg.getLast? = some '"' then arg.tail.dropLast else arg

def parseAtomContent (fact : String) : Except GoError (String × List String) :=
  match matchAtom (trimSpace fact.toList) with
  | none => .error (.text "invalid atom format")
  | some (pred, argsStr) =>
    .ok (String.ofList pred,
      (splitArgs false [] argsStr).map fun arg => String.ofList (cleanQuotes arg))

/-! ## Printing -/

def literalOf (arg : List Char) : List Char := '"' :: arg.flatMap escapeChar ++ ['"']

def printArgs (blanks : Nat) (args : List (List Char)) : List Char :=
  (',' :: List.replicate blanks ' ').intercalate (args.map literalOf)

def printAtom (blanks : Nat) (pred : String) (args : List String) : String :=
  pred ++ "(" ++ String.ofList (printArgs blanks (args.map String.toList)) ++ ")"

/-! ## Backslashes are kept -/

section Backslashes

variable {char : Char}

theorem count_dropWhile_isSpace (visible : isSpace char = false) (text : List Char) :
    (text.dropWhile isSpace).count char = text.count char := by
  induction text with
  | nil => rfl
  | cons first rest ih =>
    rw [List.dropWhile_cons]
    split
    next space =>
      rw [ih, List.count_cons_of_ne]
      rintro rfl
      rw [visible] at space
      cases space
    · rfl

theorem count_trimSpace (visible : isSpace char = false) (text : List Char) :
    (trimSpace text).count char = text.count char := by
  rw [trimSpace, List.count_reverse, count_dropWhile_isSpace visible, List.count_reverse,
    count_dropWhile_isSpace visible]

theorem count_cleanQuotes (unquoted : char ≠ '"') (arg : List Char) :
    (cleanQuotes arg).count char = arg.count char := by
  unfold cleanQuotes
  split
  next quotes =>
    obtain ⟨rest, rfl⟩ : ∃ rest, arg = '"' :: rest := by
      cases arg with
      | nil => simp at quotes
      | cons first rest => exact ⟨rest, by simpa using quotes.1⟩
    rcases List.eq_nil_or_concat' rest with rfl | ⟨middle, last, rfl⟩
    · simp [unquoted.symm]
    · have closing := quotes.2
      rw [← List.cons_append, List.getLast?_concat, Option.some.injEq] at closing
      subst closing
      simp [unquoted.symm]
  · rfl

theorem count_cleanQuotes_flatten (unquoted : char ≠ '"') (args : List (List Char)) :
    (args.map (String.toList ∘ fun arg => String.ofList (cleanQuotes arg))).flatten.count char =
      args.flatten.count char := by
  induction args with
  | nil => rfl
  | cons arg args ih =>
    rw [List.map_cons, List.flatten_cons, List.flatten_cons, List.count_append, List.count_append,
      ih, Function.comp_apply, String.toList_ofList, count_cleanQuotes unquoted]

theorem count_splitArgs (visible : isSpace char = false) (unseparating : char ≠ ',')
    (inQuote : Bool) (current text : List Char) :
    (splitArgs inQuote current text).flatten.count char = current.count char + text.count char := by
  induction text generalizing inQuote current with
  | nil =>
    rw [splitArgs]
    split
    next empty => simp [empty]
    · simp [count_trimSpace visible]
  | cons first rest ih =>
    rw [splitArgs]
    split
    · rw [ih, List.count_cons, List.count_cons]
      omega
    · split
      next comma =>
        rw [List.flatten_cons, List.count_append, ih, count_trimSpace visible, List.count_reverse,
          comma.1, List.count_cons_of_ne unseparating.symm]
        simp
      · rw [ih, List.count_cons, List.count_cons]
        omega

end Backslashes

/-! ## Texts without quotes -/

variable (blanks : Nat)

section Plain

def quotedText (text : List Char) : List Char := '"' :: text ++ ['"']

theorem splitArgs_true {text : List Char} (unquoted : '"' ∉ text) (current rest : List Char) :
    splitArgs true current (text ++ '"' :: rest) =
      splitArgs false ('"' :: text.reverse ++ current) rest := by
  induction text generalizing current with
  | nil => simp [splitArgs]
  | cons char text ih =>
    obtain ⟨other, later⟩ := not_or.mp (List.mem_cons.not.mp unquoted)
    rw [List.cons_append, splitArgs, if_neg (Ne.symm other), if_neg (by simp), ih later]
    simp

theorem splitArgs_blanks (count : Nat) (current rest : List Char) :
    splitArgs false current (List.replicate count ' ' ++ rest) =
      splitArgs false (List.replicate count ' ' ++ current) rest := by
  induction count generalizing current with
  | zero => rfl
  | succ count ih =>
    rw [List.replicate_succ, List.cons_append, splitArgs, if_neg (by decide), if_neg (by decide),
      ih, List.append_cons, ← List.replicate_succ', ← List.replicate_succ]

theorem trimSpace_quotedText (count : Nat) (text : List Char) :
    trimSpace (List.replicate count ' ' ++ quotedText text) = quotedText text := by
  have leading : (List.replicate count ' ' ++ quotedText text).dropWhile isSpace =
      quotedText text := by
    induction count with
    | zero => rfl
    | succ count ih => exact ih
  rw [trimSpace, leading, quotedText, List.reverse_append]
  have closing : (['"'].reverse ++ ('"' :: text).reverse).dropWhile isSpace =
      ['"'].reverse ++ ('"' :: text).reverse := rfl
  rw [closing]
  simp

theorem cleanQuotes_quotedText (text : List Char) : cleanQuotes (quotedText text) = text := by
  have closing : (quotedText text).getLast? = some '"' := List.getLast?_concat
  rw [cleanQuotes, if_pos ⟨rfl, closing⟩]
  exact List.dropLast_concat

theorem splitArgs_quotedText {text : List Char} (unquoted : '"' ∉ text) (count : Nat)
    (rest : List Char) :
    splitArgs false (List.replicate count ' ') (quotedText text ++ rest) =
      splitArgs false ((quotedText text).reverse ++ List.replicate count ' ') rest := by
  rw [quotedText, List.cons_append, List.cons_append, splitArgs, if_pos rfl, List.append_assoc,
    List.singleton_append]
  change splitArgs true _ _ = _
  rw [splitArgs_true unquoted]
  simp

theorem splitArgs_texts {texts : List (List Char)}
    (unquoted : ∀ text ∈ texts, '"' ∉ text) (count : Nat) (nonempty : texts ≠ []) :
    splitArgs false (List.replicate count ' ')
        ((',' :: List.replicate blanks ' ').intercalate (texts.map quotedText)) =
      texts.map quotedText := by
  have trimmed (text : List Char) (count : Nat) :
      trimSpace ((quotedText text).reverse ++ List.replicate count ' ').reverse =
        quotedText text := by
    rw [List.reverse_append, List.reverse_reverse, List.reverse_replicate, trimSpace_quotedText]
  induction texts generalizing count with
  | nil => exact absurd rfl nonempty
  | cons text texts ih =>
    obtain ⟨here, later⟩ := List.forall_mem_cons.mp unquoted
    cases texts with
    | nil =>
      have single := splitArgs_quotedText here count []
      rw [List.append_nil] at single
      simp only [List.map_cons, List.map_nil, List.intercalate_singleton]
      rw [single, splitArgs, if_neg (by simp [quotedText]), trimmed]
    | cons next texts =>
      rw [List.map_cons, List.map_cons, List.intercalate_cons_cons, List.append_assoc,
        splitArgs_quotedText here, List.cons_append, splitArgs, if_neg (by decide), if_pos ⟨rfl,
        rfl⟩, trimmed, splitArgs_blanks, List.append_nil]
      exact congrArg _ (ih later blanks (List.cons_ne_nil _ _))

end Plain

/-! ## Reading back what was printed -/

section RoundTrip

structure Identifier (text : String) : Prop where
  nonempty : text ≠ ""
  word : ∀ char ∈ text.toList, isIdentPart char = true

theorem matchAtom_of_pred {pred body : List Char} (nonempty : pred ≠ [])
    (word : ∀ char ∈ pred, isIdentPart char = true) (oneLine : '\n' ∉ body) :
    matchAtom (pred ++ '(' :: body ++ [')']) = some (pred, body) := by
  have taken : (pred ++ '(' :: body ++ [')']).takeWhile isIdentPart = pred := by
    rw [List.append_assoc, List.takeWhile_append_of_pos word]
    simp [isIdentPart]
  have dropped : (pred ++ '(' :: body ++ [')']).dropWhile isIdentPart = '(' :: (body ++ [')']) := by
    rw [List.append_assoc, List.dropWhile_append_of_pos word]
    rfl
  simp only [matchAtom, taken, dropped]
  rw [if_pos ⟨nonempty, List.getLast?_concat, by simp [oneLine]⟩, List.dropLast_concat]

variable {char : Char}

theorem toNat_le_of_isIdentPart (word : isIdentPart char = true) : char.toNat ≤ 122 := by
  delta isIdentPart Char.isAlphanum Char.isAlpha Char.isUpper Char.isLower Char.isDigit at word
  simp only [Bool.or_eq_true, Bool.and_eq_true, decide_eq_true_eq] at word
  rcases word with ((⟨-, upper⟩ | ⟨-, lower⟩) | ⟨-, digit⟩) | rfl
  · exact le_trans upper (by decide)
  · exact lower
  · exact le_trans digit (by decide)
  · decide

theorem isSpace_of_isIdentPart (word : isIdentPart char = true) : isSpace char = false := by
  have bound := toNat_le_of_isIdentPart word
  have listed : [' ', '\t', '\n', '\r', '\x0b', '\x0c', '\u0085', '\u00a0', '\u1680',
      '\u2028', '\u2029', '\u202f', '\u205f', '\u3000'].all (! isIdentPart ·) = true := by
    decide
  by_contra space
  rw [isSpace, Bool.not_eq_false, Bool.or_eq_true, decide_eq_true_eq] at space
  rcases space with member | range
  · have other := List.all_eq_true.mp listed char member
    simp [word] at other
  · simp only [Bool.and_eq_true, decide_eq_true_eq] at range
    omega

theorem parseAtomContent_of_body {pred : String} (identifier : Identifier pred)
    {body : List Char} (oneLine : '\n' ∉ body) :
    parseAtomContent (pred ++ "(" ++ String.ofList body ++ ")") =
      .ok (pred, (splitArgs false [] body).map fun arg => String.ofList (cleanQuotes arg)) := by
  have characters : (pred ++ "(" ++ String.ofList body ++ ")").toList =
      pred.toList ++ '(' :: body ++ [')'] := by simp
  have nonempty : pred.toList ≠ [] := fun empty => identifier.nonempty (by simpa using empty)
  have trimmed : trimSpace (pred.toList ++ '(' :: body ++ [')']) =
      pred.toList ++ '(' :: body ++ [')'] := by
    have leading : (pred.toList ++ '(' :: body ++ [')']).dropWhile isSpace =
        pred.toList ++ '(' :: body ++ [')'] := by
      cases letters : pred.toList with
      | nil => exact absurd letters nonempty
      | cons first rest =>
        have visible := isSpace_of_isIdentPart (identifier.word first (by simp [letters]))
        rw [List.append_assoc, List.cons_append, List.dropWhile_cons_of_neg (by simp [visible])]
    rw [trimSpace, leading, List.reverse_append, List.reverse_singleton, List.singleton_append,
      List.dropWhile_cons_of_neg (by decide), List.reverse_cons, List.reverse_reverse]
  rw [parseAtomContent, characters, trimmed, matchAtom_of_pred nonempty identifier.word oneLine]
  simp

def escapedChars : List Char := ['\\', '"', '\n', '\r', '\t']

theorem escapeChar_of_not_mem (plain : char ∉ escapedChars) :
    ∃ written, written ∉ escapedChars ∧ escapeChar char = [written] := by
  have others := plain
  simp only [escapedChars, List.mem_cons, List.not_mem_nil, or_false, not_or] at others
  obtain ⟨backslash, quote, feed, carriage, tab⟩ := others
  by_cases control : char.toNat < 32
  · exact ⟨' ', by decide, by simp [escapeChar, backslash, quote, feed, carriage, tab, control]⟩
  · exact ⟨char, plain, by simp [escapeChar, backslash, quote, feed, carriage, tab, control]⟩

theorem count_escapeChar_of_mem (escaped : char ∈ escapedChars) :
    [char].count '\\' < (escapeChar char).count '\\' := by
  simp only [escapedChars, List.mem_cons, List.not_mem_nil, or_false] at escaped
  rcases escaped with rfl | rfl | rfl | rfl | rfl <;> decide

theorem newline_not_mem_escapeChar (char : Char) : '\n' ∉ escapeChar char := by
  by_cases escaped : char ∈ escapedChars
  · simp only [escapedChars, List.mem_cons, List.not_mem_nil, or_false] at escaped
    rcases escaped with rfl | rfl | rfl | rfl | rfl <;> decide
  · obtain ⟨written, plain, alone⟩ := escapeChar_of_not_mem escaped
    rw [alone, List.mem_singleton]
    rintro rfl
    exact plain (by decide)

/-- Escaping adds backslashes unless nothing needs an escape. -/
theorem count_flatMap_escapeChar (text : List Char) :
    text.count '\\' ≤ (text.flatMap escapeChar).count '\\' ∧
      ((text.flatMap escapeChar).count '\\' ≤ text.count '\\' →
        ∀ char ∈ text, char ∉ escapedChars) := by
  induction text with
  | nil => simp
  | cons first rest ih =>
    obtain ⟨bound, plain⟩ := ih
    have split : (first :: rest).count '\\' = [first].count '\\' + rest.count '\\' := by
      rw [← List.count_append, List.singleton_append]
    rw [List.flatMap_cons, List.count_append, split]
    by_cases escaped : first ∈ escapedChars
    · have more := count_escapeChar_of_mem escaped
      exact ⟨by omega, fun few => absurd few (by omega)⟩
    · obtain ⟨written, unmarked, alone⟩ := escapeChar_of_not_mem escaped
      have none : [first].count '\\' = 0 := by
        rw [List.count_eq_zero, List.mem_singleton]
        rintro rfl
        exact escaped (by decide)
      have noneWritten : (escapeChar first).count '\\' = 0 := by
        rw [alone, List.count_eq_zero, List.mem_singleton]
        rintro rfl
        exact unmarked (by decide)
      rw [none, noneWritten]
      refine ⟨by omega, fun few => ?_⟩
      rw [List.forall_mem_cons]
      exact ⟨escaped, plain (by omega)⟩

theorem count_intercalate {separator : List Char} (absent : char ∉ separator)
    (parts : List (List Char)) :
    (separator.intercalate parts).count char = parts.flatten.count char := by
  induction parts with
  | nil => simp
  | cons part parts ih =>
    cases parts with
    | nil => simp
    | cons next parts =>
      rw [List.intercalate_cons_cons, List.count_append, List.count_append, ih,
        List.count_eq_zero.mpr absent, Nat.add_zero, ← List.count_append]
      rfl

variable (args : List (List Char))

theorem count_printArgs :
    (printArgs blanks args).count '\\' = (args.flatten.flatMap escapeChar).count '\\' := by
  have absent : '\\' ∉ ',' :: List.replicate blanks ' ' := by simp [List.mem_replicate]
  rw [printArgs, count_intercalate absent]
  induction args with
  | nil => rfl
  | cons arg args ih =>
    have literal : (literalOf arg).count '\\' = (arg.flatMap escapeChar).count '\\' := by
      simp [literalOf]
    rw [List.map_cons, List.flatten_cons, List.flatten_cons, List.flatMap_append,
      List.count_append, List.count_append, ih, literal]

theorem newline_not_mem_printArgs : '\n' ∉ printArgs blanks args := by
  have absent : '\n' ∉ ',' :: List.replicate blanks ' ' := by simp [List.mem_replicate]
  rw [← List.count_eq_zero, printArgs, count_intercalate absent, List.count_eq_zero]
  simp [literalOf, newline_not_mem_escapeChar]

theorem parse_print_of_plain {pred : String} (identifier : Identifier pred) (blanks : Nat)
    {args : List String} (plain : ∀ arg ∈ args, ∀ char ∈ arg.toList, char ∉ escapedChars) :
    parseAtomContent (printAtom blanks pred args) = .ok (pred, args.map escapeString) := by
  rw [printAtom, parseAtomContent_of_body identifier (newline_not_mem_printArgs _ _)]
  have unquoted : ∀ text ∈ args.map (fun arg => arg.toList.flatMap escapeChar), '"' ∉ text := by
    intro text member quote
    obtain ⟨arg, listed, rfl⟩ := List.mem_map.mp member
    obtain ⟨char, present, inside⟩ := List.mem_flatMap.mp quote
    obtain ⟨written, unmarked, alone⟩ := escapeChar_of_not_mem (plain arg listed char present)
    rw [alone, List.mem_singleton] at inside
    exact unmarked (inside ▸ by decide)
  have printed : printArgs blanks (args.map String.toList) =
      (',' :: List.replicate blanks ' ').intercalate
        ((args.map fun arg => arg.toList.flatMap escapeChar).map quotedText) := by
    rw [printArgs, List.map_map, List.map_map]
    rfl
  by_cases nonempty : args = []
  · subst nonempty
    rfl
  · rw [printed]
    have pieces := splitArgs_texts blanks unquoted 0 (by simpa using nonempty)
    rw [List.replicate_zero] at pieces
    rw [pieces, List.map_map, List.map_map]
    refine congrArg (fun texts => Except.ok (pred, texts)) (List.map_congr_left fun arg _ => ?_)
    simp [cleanQuotes_quotedText, escapeString]

/-- A text is its own escaped form exactly if no character needs to be written otherwise. -/
theorem escapeString_eq_self_iff {text : String}
    (plain : ∀ char ∈ text.toList, char ∉ escapedChars) :
    escapeString text = text ↔ ∀ char ∈ text.toList, escapeChar char = [char] := by
  have characters : escapeString text = text ↔ text.toList.flatMap escapeChar = text.toList := by
    rw [escapeString, ← String.toList_inj, String.toList_ofList]
  rw [characters]
  generalize text.toList = letters at plain ⊢
  induction letters with
  | nil => simp
  | cons first rest ih =>
    obtain ⟨here, later⟩ := List.forall_mem_cons.mp plain
    obtain ⟨written, -, alone⟩ := escapeChar_of_not_mem here
    rw [List.flatMap_cons, List.forall_mem_cons, alone, List.singleton_append,
      List.cons.injEq, List.cons.injEq]
    simpa using fun _ => ih later

/-- Only backslashes, quotes and control characters are written otherwise. -/
theorem escapeChar_eq_self_iff (char : Char) :
    escapeChar char = [char] ↔ char ≠ '\\' ∧ char ≠ '"' ∧ ' '.toNat ≤ char.toNat := by
  have blank : ' '.toNat = 32 := rfl
  rw [blank]
  constructor
  · intro same
    by_cases escaped : char ∈ escapedChars
    · have more := count_escapeChar_of_mem escaped
      rw [same] at more
      exact absurd more (lt_irrefl _)
    · simp only [escapedChars, List.mem_cons, List.not_mem_nil, or_false, not_or] at escaped
      refine ⟨escaped.1, escaped.2.1, ?_⟩
      by_contra control
      simp only [escapeChar, escaped, or_self, if_false, if_pos (not_le.mp control),
        List.cons.injEq, and_true] at same
      exact control (same ▸ le_refl _)
  · rintro ⟨backslash, quote, printable⟩
    have above : ∀ other : Char, other.toNat < 32 → char ≠ other := by
      rintro other control rfl
      omega
    simp [escapeChar, backslash, quote, above '\n' (by decide), above '\r' (by decide),
      above '\t' (by decide), not_lt.mpr printable]

/-- An atom is read back exactly if no argument has a backslash, a quote or a control
character. -/
theorem parse_print_iff {pred : String} (identifier : Identifier pred) (blanks : Nat)
    (args : List String) :
    parseAtomContent (printAtom blanks pred args) = .ok (pred, args) ↔
      ∀ arg ∈ args, ∀ char ∈ arg.toList,
        char ≠ '\\' ∧ char ≠ '"' ∧ ' '.toNat ≤ char.toNat := by
  simp only [← escapeChar_eq_self_iff]
  constructor
  · intro readBack
    have plain : ∀ char ∈ (args.map String.toList).flatten, char ∉ escapedChars := by
      refine (count_flatMap_escapeChar _).2 (le_of_eq ?_)
      rw [printAtom, parseAtomContent_of_body identifier (newline_not_mem_printArgs _ _)]
        at readBack
      have pieces := (Prod.mk.inj (Except.ok.inj readBack)).2
      have total := count_splitArgs (show isSpace '\\' = false by decide) (by decide) false []
        (printArgs blanks (args.map String.toList))
      rw [List.count_nil, Nat.zero_add, count_printArgs] at total
      rw [← total]
      conv_rhs => rw [← pieces, List.map_map]
      exact (count_cleanQuotes_flatten (by decide) _).symm
    have plainArgs : ∀ arg ∈ args, ∀ char ∈ arg.toList, char ∉ escapedChars :=
      fun arg listed char present => plain char
        (List.mem_flatten.mpr ⟨arg.toList, List.mem_map_of_mem listed, present⟩)
    rw [parse_print_of_plain identifier blanks plainArgs] at readBack
    have same := congrArg Prod.snd (Except.ok.inj readBack)
    intro arg listed
    refine (escapeString_eq_self_iff (plainArgs arg listed)).mp ?_
    exact List.map_eq_map_iff.mp (same.trans (List.map_id args).symm) arg listed
  · intro unchanged
    have plainArgs : ∀ arg ∈ args, ∀ char ∈ arg.toList, char ∉ escapedChars := by
      intro arg listed char present escaped
      have more := count_escapeChar_of_mem escaped
      rw [unchanged arg listed char present] at more
      exact absurd more (lt_irrefl _)
    rw [parse_print_of_plain identifier blanks plainArgs]
    refine congrArg (fun texts => Except.ok (pred, texts)) ?_
    refine (List.map_congr_left fun arg listed => ?_).trans (List.map_id args)
    exact (escapeString_eq_self_iff (plainArgs arg listed)).mpr (unchanged arg listed)

/-- Commas, parentheses and blanks do no harm. -/
theorem parse_print_punctuation :
    parseAtomContent (printAtom 1 "says" ["Ann", " (x, y) "]) =
      .ok ("says", ["Ann", " (x, y) "]) := by
  have word : "says".toList.all isIdentPart = true := by decide
  have plain : ["Ann", " (x, y) "].all (fun arg => arg.toList.all fun char =>
      char ≠ '\\' ∧ char ≠ '"' ∧ ' '.toNat ≤ char.toNat) = true := by decide +kernel
  refine (parse_print_iff ⟨by decide, List.all_eq_true.mp word⟩ 1 _).mpr fun arg listed => ?_
  simpa using List.all_eq_true.mp (List.all_eq_true.mp plain arg listed)

/-- A quote does: its escape is returned with it. -/
theorem parse_print_quote :
    parseAtomContent (printAtom 1 "says" ["Ann", "\"hi\""]) =
      .ok ("says", ["Ann", "\\\"hi\\\""]) := by
  decide +kernel

end RoundTrip

end Manglekit.Engine

import Mathlib.Data.List.Basic

/-!
# Texts of names, marks and quoted literals

A literal opens with a quote and ends at the first such quote that is not escaped.
Names are read as long as they go on; every other symbol that is not blank is a token
of its own.  A writer that spells each symbol so that a literal reads one symbol back
can be used for any content, whatever text follows.
-/

namespace Lexing

universe u

variable {Symbol : Type u}

inductive Kind where
  | blank
  | quote
  | name
  | mark
  deriving DecidableEq, Repr

inductive Token (Symbol : Type u) where
  | name (text : List Symbol)
  | mark (symbol : Symbol)
  | literal (content : List Symbol)
  deriving DecidableEq, Repr

structure Alphabet (Symbol : Type u) where
  kind : Symbol → Kind
  isNamePart : Symbol → Bool
  escape : Symbol
  /-- The symbol that the escape stands for together with the one after it. -/
  unescape : Symbol → Option Symbol

namespace Alphabet

variable [DecidableEq Symbol] (alphabet : Alphabet Symbol)

def literal (quote : Symbol) : List Symbol → Option (List Symbol × List Symbol)
  | [] => none
  | symbol :: rest =>
    if symbol = quote then some ([], rest)
    else if symbol = alphabet.escape then
      match rest with
      | [] => none
      | code :: rest =>
        (alphabet.unescape code).bind fun decoded =>
          (literal quote rest).map (Prod.map (decoded :: ·) id)
    else (literal quote rest).map (Prod.map (symbol :: ·) id)

/-- The first token, and the text after it. -/
def next : List Symbol → Option (Token Symbol × List Symbol)
  | [] => none
  | symbol :: rest =>
    match alphabet.kind symbol with
    | .blank => next rest
    | .quote => (alphabet.literal symbol rest).map fun read => (.literal read.1, read.2)
    | .name =>
      some (.name (symbol :: rest.takeWhile alphabet.isNamePart),
        rest.dropWhile alphabet.isNamePart)
    | .mark => some (.mark symbol, rest)

variable {alphabet}

theorem literal_quote (quote : Symbol) (rest : List Symbol) :
    alphabet.literal quote (quote :: rest) = some ([], rest) := by
  rw [literal.eq_def]
  exact if_pos rfl

theorem literal_escape {quote : Symbol} (distinct : alphabet.escape ≠ quote) (code : Symbol)
    (rest : List Symbol) :
    alphabet.literal quote (alphabet.escape :: code :: rest) =
      (alphabet.unescape code).bind fun decoded =>
        (alphabet.literal quote rest).map (Prod.map (decoded :: ·) id) := by
  rw [literal.eq_def]
  exact (if_neg distinct).trans (if_pos rfl)

theorem literal_other {quote symbol : Symbol} (notQuote : symbol ≠ quote)
    (notEscape : symbol ≠ alphabet.escape) (rest : List Symbol) :
    alphabet.literal quote (symbol :: rest) =
      (alphabet.literal quote rest).map (Prod.map (symbol :: ·) id) := by
  rw [literal.eq_def]
  exact (if_neg notQuote).trans (if_neg notEscape)

variable {text after : List Symbol}

theorem length_literal {quote : Symbol} {content : List Symbol}
    (read : alphabet.literal quote text = some (content, after)) : after.length < text.length := by
  fun_induction literal alphabet quote text generalizing content with
  | case1 => cases read
  | case2 rest =>
    cases read
    exact Nat.lt_succ_self _
  | case3 => cases read
  | case4 distinct code rest ih =>
    obtain ⟨decoded, -, mapped⟩ := Option.bind_eq_some_iff.mp read
    obtain ⟨⟨content, after⟩, found, same⟩ := Option.map_eq_some_iff.mp mapped
    cases same
    have shorter := ih found
    simp only [List.length_cons]
    omega
  | case5 symbol rest _ _ ih =>
    obtain ⟨⟨content, after⟩, found, same⟩ := Option.map_eq_some_iff.mp read
    cases same
    exact Nat.lt_succ_of_lt (ih found)

theorem length_next {token : Token Symbol} (read : alphabet.next text = some (token, after)) :
    after.length < text.length := by
  induction text with
  | nil => cases read
  | cons symbol rest ih =>
    rw [next] at read
    cases kind : alphabet.kind symbol <;> simp only [kind] at read
    case blank => exact Nat.lt_succ_of_lt (ih read)
    case quote =>
      obtain ⟨⟨content, after⟩, found, same⟩ := Option.map_eq_some_iff.mp read
      cases same
      exact Nat.lt_succ_of_lt (length_literal found)
    case name =>
      cases read
      exact Nat.lt_succ_of_le (List.dropWhile_suffix _).length_le
    case mark =>
      cases read
      exact Nat.lt_succ_self _

/-- All tokens of a text; none if a literal in it is not closed or not spelled right. -/
def tokens (alphabet : Alphabet Symbol) (text : List Symbol) : Option (List (Token Symbol)) :=
  match _read : alphabet.next text with
  | none => if text.all (alphabet.kind · = .blank) then some [] else none
  | some (token, after) => (tokens alphabet after).map (token :: ·)
termination_by text.length
decreasing_by exact length_next _read

theorem tokens_nil : alphabet.tokens [] = some [] := by
  unfold tokens
  rfl

theorem tokens_of_next {token : Token Symbol} (read : alphabet.next text = some (token, after)) :
    alphabet.tokens text = (alphabet.tokens after).map (token :: ·) := by
  rw [tokens]
  split
  next missing => rw [missing] at read; cases read
  next found =>
    rw [read] at found
    cases found
    rfl

theorem next_blank {symbol : Symbol} (blank : alphabet.kind symbol = .blank)
    (rest : List Symbol) : alphabet.next (symbol :: rest) = alphabet.next rest := by
  rw [next, blank]

theorem next_mark {symbol : Symbol} (mark : alphabet.kind symbol = .mark)
    (rest : List Symbol) : alphabet.next (symbol :: rest) = some (.mark symbol, rest) := by
  rw [next, mark]

theorem next_name {first following : Symbol} {others : List Symbol}
    (starts : alphabet.kind first = .name) (parts : others.all alphabet.isNamePart = true)
    (ends : alphabet.isNamePart following = false) (rest : List Symbol) :
    alphabet.next (first :: others ++ following :: rest) =
      some (.name (first :: others), following :: rest) := by
  rw [List.cons_append, next, starts]
  have all : ∀ symbol ∈ others, alphabet.isNamePart symbol = true := List.all_eq_true.mp parts
  simp only [List.takeWhile_append_of_pos all, List.dropWhile_append_of_pos all]
  simp [ends]

/-! ## Writing literals -/

/-- Each symbol is spelled, alone or with an escape, so that a literal reads one symbol
back and does not end. -/
structure Spells (alphabet : Alphabet Symbol) (quote : Symbol) (spell : Symbol → List Symbol)
    (meaning : Symbol → Symbol) : Prop where
  escape_ne_quote : alphabet.escape ≠ quote
  spelled symbol :
    (spell symbol = [meaning symbol] ∧ meaning symbol ≠ quote ∧
      meaning symbol ≠ alphabet.escape) ∨
    ∃ code, spell symbol = [alphabet.escape, code] ∧
      alphabet.unescape code = some (meaning symbol)

variable {quote : Symbol} {spell : Symbol → List Symbol} {meaning : Symbol → Symbol}

section

variable (spells : alphabet.Spells quote spell meaning)

include spells

theorem literal_spell (symbol : Symbol) (rest : List Symbol) :
    alphabet.literal quote (spell symbol ++ rest) =
      (alphabet.literal quote rest).map (Prod.map (meaning symbol :: ·) id) := by
  rcases spells.spelled symbol with ⟨alone, notQuote, notEscape⟩ | ⟨code, escaped, decodes⟩
  · rw [alone, List.singleton_append, literal_other notQuote notEscape]
  · rw [escaped, List.cons_append, List.singleton_append,
      literal_escape spells.escape_ne_quote, decodes, Option.bind_some]

theorem literal_flatMap (content rest : List Symbol) :
    alphabet.literal quote (content.flatMap spell ++ quote :: rest) =
      some (content.map meaning, rest) := by
  induction content with
  | nil => exact literal_quote quote rest
  | cons symbol others ih =>
    rw [List.flatMap_cons, List.append_assoc, literal_spell spells, ih]
    rfl

theorem next_literal (opens : alphabet.kind quote = .quote) (content rest : List Symbol) :
    alphabet.next (quote :: (content.flatMap spell ++ quote :: rest)) =
      some (.literal (content.map meaning), rest) := by
  rw [next, opens]
  simp only [literal_flatMap spells, Option.map_some]

theorem map_eq_of_flatMap_eq
    {first second : List Symbol} (same : first.flatMap spell = second.flatMap spell) :
    first.map meaning = second.map meaning := by
  have read := literal_flatMap spells first []
  rw [same, literal_flatMap spells second [], Option.some_inj, Prod.mk.injEq] at read
  exact read.1.symm

end

end Alphabet

end Lexing

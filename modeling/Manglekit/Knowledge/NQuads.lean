import Manglekit.Knowledge.GraphFacts

/-!
# Loading N-Quads

A line is cut at its blanks, but not within a literal.  The tokenizer tells where a literal ends by
the backslashes before a quote.
-/

namespace Manglekit.Knowledge

open Engine

structure Tokenizer where
  tokens : List Text := []
  current : Text := []
  inQuote : Bool := false
  escaped : Bool := false

namespace Tokenizer

def write (state : Tokenizer) (text : Text) : Tokenizer :=
  { state with current := state.current ++ text }

def flush (state : Tokenizer) : Tokenizer :=
  if state.current = [] then state
  else { state with tokens := state.tokens ++ [state.current], current := [] }

def step (state : Tokenizer) (r : Char) : Tokenizer :=
  let written := state.write [r]
  if state.inQuote then
    if r = '"' ∧ !state.escaped then { written with inQuote := false }
    else if r = '\\' ∧ !state.escaped then { written with escaped := true }
    else { written with escaped := false }
  else if r = '"' then { written with inQuote := true }
  else if r = ' ' ∨ r = '\t' then state.flush
  else written

end Tokenizer

def tokenize (line : Text) : List Text := (line.foldl Tokenizer.step {}).flush.tokens

def defaultGraph : Text := "default".toList

def quadFact (quote : Text → Text) (s p o g : Text) : Text :=
  "quad(".toList ++ quote s ++ ", ".toList ++ quote p ++ ", ".toList ++ quote o ++ ", ".toList
    ++ quote g ++ [')']

/-- `clean` is the removal of brackets. -/
def parseTokens (quote : Text → Text) (tokens : List Text) : Option Text :=
  let tokens := if tokens.getLast? = some ['.'] then tokens.dropLast else tokens
  match tokens.map stripBrackets with
  | [s, p, o] => some (quadFact quote s p o defaultGraph)
  | [s, p, o, g] => some (quadFact quote s p o g)
  | _ => none

def parseLine (quote : Text → Text) (line : Text) : Option Text :=
  let line := trimSpace line
  if line = [] ∨ line.head? = some '#' then none else parseTokens quote (tokenize line)

/-- `Parse` on lines within the limit of the scanner.  The scanner also drops a carriage return
before a line feed and an empty last line, which makes no difference to `parseLine`. -/
def parse (quote : Text → Text) (text : Text) : List Text :=
  (splitLines text).filterMap (parseLine quote)

/-! ## Documents -/

def Plain (text : Text) : Prop := ∀ char ∈ text, char ∉ [' ', '\t', '"', '\n']

/-- The content of a literal.  Quotes and backslashes stand behind a backslash. -/
inductive Escaped : Text → Prop where
  | nil : Escaped []
  | char {char : Char} {rest : Text} :
      char ∉ ['"', '\\', '\n'] → Escaped rest → Escaped (char :: rest)
  | escape {char : Char} {rest : Text} :
      char ≠ '\n' → Escaped rest → Escaped ('\\' :: char :: rest)

/-- A term as it is written and as an argument.  The suffix of a literal is a language tag or a
datatype. -/
inductive IsTerm : Text → Text → Prop where
  | iri {body : Text} : Plain body → IsTerm ('<' :: (body ++ ['>'])) body
  | blank {label : Text} : Plain label → IsTerm ('_' :: ':' :: label) ('_' :: ':' :: label)
  | literal {content suffix : Text} : Escaped content → Plain suffix →
      IsTerm ('"' :: (content ++ '"' :: suffix)) ('"' :: (content ++ '"' :: suffix))

structure Term where
  written : Text
  argument : Text
  valid : IsTerm written argument

structure Statement where
  subject : Term
  predicate : Term
  object : Term
  graph : Option Term

def Statement.terms (statement : Statement) : List Term :=
  [statement.subject, statement.predicate, statement.object] ++ statement.graph.toList

def lineOf : List Term → Text
  | [] => ['.']
  | term :: rest => term.written ++ ' ' :: lineOf rest

def Statement.fact (quote : Text → Text) (statement : Statement) : Text :=
  quadFact quote statement.subject.argument statement.predicate.argument
    statement.object.argument ((statement.graph.map Term.argument).getD defaultGraph)

structure Filler where
  blanks : Text
  comment : Option Text
  spaces : ∀ char ∈ blanks, isSpace char ∧ char ≠ '\n'
  single : ∀ text ∈ comment, '\n' ∉ text

def Filler.line (filler : Filler) : Text :=
  filler.blanks ++ filler.comment.elim [] ('#' :: ·)

abbrev Line := Statement ⊕ Filler

def Line.text : Line → Text
  | .inl statement => lineOf statement.terms
  | .inr filler => filler.line

def document (lines : List Line) : Text := joinLines (lines.map Line.text)

def statements (lines : List Line) : List Statement := lines.filterMap Sum.getLeft?

/-! ## Tokens -/

variable (term : Term) (terms : List Term)

section Tokens

variable {state : Tokenizer}

theorem Tokenizer.write_write (state : Tokenizer) (first second : Text) :
    (state.write first).write second = state.write (first ++ second) := by
  simp [write]

theorem foldl_plain {text : Text} (plain : Plain text) (outside : state.inQuote = false) :
    text.foldl Tokenizer.step state = state.write text := by
  induction text generalizing state with
  | nil => simp [Tokenizer.write]
  | cons char rest ih =>
    obtain ⟨here, later⟩ := List.forall_mem_cons.mp plain
    simp only [List.mem_cons, List.not_mem_nil, or_false, not_or] at here
    have step : state.step char = state.write [char] := by simp [Tokenizer.step, outside, here]
    rw [List.foldl_cons, step]
    exact (ih later (by exact outside)).trans (state.write_write [char] rest)

/-- Within a literal everything is taken, and no character of it is left escaping. -/
theorem foldl_escaped {text : Text} (escaped : Escaped text) (inside : state.inQuote = true)
    (unescaped : state.escaped = false) :
    text.foldl Tokenizer.step state = state.write text := by
  induction escaped generalizing state with
  | nil => simp [Tokenizer.write]
  | @char char rest plain _ ih =>
    simp only [List.mem_cons, List.not_mem_nil, or_false, not_or] at plain
    have step : state.step char = state.write [char] := by
      simp [Tokenizer.step, Tokenizer.write, inside, unescaped, plain]
    rw [List.foldl_cons, step]
    exact (ih (by exact inside) (by exact unescaped)).trans (state.write_write [char] rest)
  | @escape char rest _ _ ih =>
    have step : (state.step '\\').step char = state.write ['\\', char] := by
      simp [Tokenizer.step, Tokenizer.write, inside, unescaped]
    rw [List.foldl_cons, List.foldl_cons, step]
    exact (ih (by exact inside) (by exact unescaped)).trans (state.write_write ['\\', char] rest)

theorem foldl_written (outside : state.inQuote = false) (unescaped : state.escaped = false) :
    term.written.foldl Tokenizer.step state = state.write term.written := by
  obtain ⟨written, argument, valid⟩ := term
  cases valid with
  | iri plain =>
    refine foldl_plain ?_ outside
    simp only [Plain, List.forall_mem_cons, List.forall_mem_append]
    exact ⟨by decide, plain, by simp⟩
  | blank plain =>
    refine foldl_plain ?_ outside
    simp only [Plain, List.forall_mem_cons]
    exact ⟨by decide, by decide, plain⟩
  | @literal content suffix escaped plain =>
    have opened : state.step '"' = { state.write ['"'] with inQuote := true } := by
      simp [Tokenizer.step, outside]
    have taken := @foldl_escaped { state.write ['"'] with inQuote := true } content escaped rfl
      unescaped
    rw [List.foldl_cons, opened, List.foldl_append, taken, List.foldl_cons]
    have closed : ({ state.write ['"'] with inQuote := true }.write content).step '"' =
        state.write ('"' :: (content ++ ['"'])) := by
      simp [Tokenizer.step, Tokenizer.write, outside, unescaped]
    rw [closed]
    refine (foldl_plain plain (by exact outside)).trans ?_
    simp [Tokenizer.write]

theorem foldl_lineOf (tokens : List Text) :
    (lineOf terms).foldl Tokenizer.step { tokens } =
      { tokens := tokens ++ terms.map Term.written, current := ['.'] } := by
  induction terms generalizing tokens with
  | nil => simp [lineOf, Tokenizer.step, Tokenizer.write]
  | cons term rest ih =>
    have some : term.written ≠ [] := by
      obtain ⟨written, argument, valid⟩ := term
      cases valid <;> simp
    have flushed : (({ tokens } : Tokenizer).write term.written).step ' ' =
        { tokens := tokens ++ [term.written] } := by
      simp [Tokenizer.step, Tokenizer.write, Tokenizer.flush, some]
    rw [lineOf, List.foldl_append, foldl_written term rfl rfl, List.foldl_cons, flushed, ih]
    simp

theorem tokenize_lineOf : tokenize (lineOf terms) = terms.map Term.written ++ [['.']] := by
  rw [tokenize, foldl_lineOf]
  simp [Tokenizer.flush]

end Tokens

/-! ## Lines -/

theorem stripBrackets_bracketed (body : Text) : stripBrackets ('<' :: (body ++ ['>'])) = body := by
  have ends : ('<' :: (body ++ ['>'])).getLast? = some '>' :=
    List.getLast?_concat (l := '<' :: body)
  simp [stripBrackets, ends]

theorem Term.stripBrackets_written : stripBrackets term.written = term.argument := by
  obtain ⟨written, argument, valid⟩ := term
  cases valid with
  | iri => exact stripBrackets_bracketed argument
  | blank | literal => simp [stripBrackets]

theorem parseTokens_statement (quote : Text → Text) (statement : Statement) :
    parseTokens quote (statement.terms.map Term.written ++ [['.']]) =
      some (statement.fact quote) := by
  obtain ⟨subject, predicate, object, graph⟩ := statement
  cases graph <;> simp [parseTokens, Statement.terms, Statement.fact, Term.stripBrackets_written]

/-- A statement starts and ends with visible characters, and not as a comment. -/
theorem lineOf_ends : ∃ first middle,
    lineOf (term :: terms) = first :: (middle ++ ['.']) ∧ isSpace first = false ∧ first ≠ '#' := by
  have ending : ∀ terms, ∃ middle, lineOf terms = middle ++ ['.'] := fun terms => by
    induction terms with
    | nil => exact ⟨[], rfl⟩
    | cons term rest ih =>
      obtain ⟨middle, same⟩ := ih
      exact ⟨term.written ++ ' ' :: middle, by simp [lineOf, same]⟩
  obtain ⟨middle, same⟩ := ending terms
  obtain ⟨written, argument, valid⟩ := term
  rw [lineOf, same]
  cases valid with
  | iri => exact ⟨'<', _ ++ '>' :: ' ' :: middle, by simp; rfl, by decide, by decide⟩
  | @blank label => exact ⟨'_', ':' :: (label ++ ' ' :: middle), by simp, by decide, by decide⟩
  | @literal content suffix =>
    exact ⟨'"', content ++ '"' :: (suffix ++ ' ' :: middle), by simp, by decide, by decide⟩

theorem parseLine_statement (quote : Text → Text) (statement : Statement) :
    parseLine quote (lineOf statement.terms) = some (statement.fact quote) := by
  obtain ⟨first, middle, same, visible, uncommented⟩ := lineOf_ends statement.subject
    ([statement.predicate, statement.object] ++ statement.graph.toList)
  have terms : lineOf statement.terms = first :: (middle ++ ['.']) := same
  have trimmed : trimSpace (lineOf statement.terms) = lineOf statement.terms := by
    simp [terms, trimSpace, visible, show isSpace '.' = false by decide]
  rw [parseLine, trimmed, tokenize_lineOf, parseTokens_statement]
  simp [terms, uncommented]

theorem parseLine_filler (quote : Text → Text) (filler : Filler) :
    parseLine quote filler.line = none := by
  have blank : ∀ char ∈ filler.blanks, isSpace char := fun char member =>
    (filler.spaces char member).1
  cases comment : filler.comment with
  | none =>
    have trimmed := (trimSpace_eq_nil_iff filler.line).mpr (by simpa [Filler.line, comment])
    simp [parseLine, trimmed]
  | some text =>
    have dropped : trimSpace filler.line = trimSpace ('#' :: text) := by
      simp [trimSpace, Filler.line, comment, List.dropWhile_append_of_pos blank]
    obtain ⟨rest, trimmed⟩ := trimSpace_cons '#' (by decide) text
    simp [parseLine, dropped, trimmed]

theorem Term.newline_not_mem : '\n' ∉ term.written := by
  have plainly {text : Text} (plain : Plain text) : '\n' ∉ text := fun member =>
    plain '\n' member (by decide)
  obtain ⟨written, argument, valid⟩ := term
  cases valid with
  | iri plain | blank plain => simpa using plainly plain
  | @literal content suffix escaped plain =>
    have inside : '\n' ∉ content := by
      induction escaped with
      | nil => simp
      | char other _ ih => simp_all [eq_comm]
      | escape other _ ih => simp_all [eq_comm]
    simpa using ⟨inside, plainly plain⟩

theorem Line.newline_not_mem (line : Line) : '\n' ∉ line.text := by
  cases line with
  | inl statement =>
    rw [Line.text]
    induction statement.terms with
    | nil => decide
    | cons term rest ih => simpa [lineOf] using ⟨term.newline_not_mem, ih⟩
  | inr filler =>
    have blanks : '\n' ∉ filler.blanks := fun member => (filler.spaces _ member).2 rfl
    cases comment : filler.comment with
    | none => simpa [Line.text, Filler.line, comment] using blanks
    | some text =>
      simpa [Line.text, Filler.line, comment] using ⟨blanks, filler.single text comment⟩

theorem parse_document (quote : Text → Text) (lines : List Line) :
    parse quote (document lines) = (statements lines).map (Statement.fact quote) := by
  have parsed : (lines.map Line.text).filterMap (parseLine quote) =
      (statements lines).map (Statement.fact quote) := by
    rw [statements, List.filterMap_map, List.map_filterMap]
    refine List.filterMap_congr fun line _ => ?_
    cases line with
    | inl statement => exact parseLine_statement quote statement
    | inr filler => exact parseLine_filler quote filler
  rcases eq_or_ne lines [] with rfl | some
  · rfl
  · have single : ∀ text ∈ lines.map Line.text, '\n' ∉ text := fun text member => by
      obtain ⟨line, -, rfl⟩ := List.mem_map.mp member
      exact line.newline_not_mem
    rw [parse, document, splitLines_joinLines (by simpa using some) single, parsed]

end Manglekit.Knowledge

import Manglekit.Engine.Source
import Mathlib.Algebra.Group.Nat.Even

/-!
# Comments and literals

A comment starts at the first `%` or `//` outside the literals of a line.  The source follows
the literals by their quotes, and takes a quote for an escaped one if a backslash stands right
before it.  That backslash may be the end of an escape of its own: the quote behind it closes
the literal, and from there on the source takes literals for rules and rules for literals.
-/

namespace Manglekit.Engine

/-! ## The lexical rules -/

/-- Where a character of a line stands; `escaped` is inside, right after an escaping
backslash. -/
inductive Lexical where
  | outside
  | inside
  | escaped
  deriving DecidableEq, Repr

def Lexical.next (state : Lexical) (char : Char) : Lexical :=
  match state with
  | .outside => if char = '"' then .inside else .outside
  | .inside => if char = '"' then .outside else if char = '\\' then .escaped else .inside
  | .escaped => .inside

def startsComment : List Char → Bool
  | [] => false
  | char :: rest => char = '%' || (char = '/' && rest.head? = some '/')

/-- A line without its comment. -/
def codeOf (state : Lexical) : List Char → List Char
  | [] => []
  | char :: rest =>
    if state = .outside ∧ startsComment (char :: rest) then []
    else char :: codeOf (state.next char) rest

def sourceLines (raw : List Char) : List (List Char) :=
  splitLines (normalizeNewlines (stripBOM raw))

/-- What `cleanSource` is for: every line without its comment, blank ones left out. -/
def stripComments (raw : List Char) : List Char :=
  joinLines (((sourceLines raw).map (codeOf .outside)).filter (trimSpace · ≠ []))

/-- The words of a line: blanks separate them, except in literals, and a comment ends the
line.  `word` is the word read so far, from its last character to its first. -/
def lineWords (state : Lexical) (word : List Char) : List Char → List (List Char)
  | [] => if word = [] then [] else [word.reverse]
  | char :: rest =>
    if state = .outside ∧ startsComment (char :: rest) then
      if word = [] then [] else [word.reverse]
    else if state = .outside ∧ isSpace char then
      (if word = [] then [] else [word.reverse]) ++ lineWords .outside [] rest
    else lineWords (state.next char) (char :: word) rest

def wordsOf (lines : List (List Char)) : List (List Char) := lines.flatMap (lineWords .outside [])

/-- The quotes that open or close a literal although a backslash stands right before them. -/
def misreadQuotes (state : Lexical) (previous : Option Char) : List Char → Nat
  | [] => 0
  | char :: rest =>
    (if char = '"' ∧ previous = some '\\' ∧ state ≠ .escaped then 1 else 0) +
      misreadQuotes (state.next char) (some char) rest

/-- Every `%` and `//` of the line, up to its comment, comes after an even number of misread
quotes. -/
def Unmisled (line : List Char) : Prop :=
  ∀ before after, line = before ++ after → startsComment after = true →
    before <+: codeOf .outside line → Even (misreadQuotes .outside none before)

/-! ## One line -/

variable {line : List Char}

section Line

/-- The source is inside its literal exactly if the line is inside one and an even number of
quotes was misread, or outside and an odd number was. -/
structure Tracks (state : Lexical) (previous : Option Char) (inQuote : Bool) (misread : Nat) :
    Prop where
  phase : inQuote = true ↔ (state = .outside ↔ ¬ Even misread)
  backslash : state = .escaped → previous = some '\\'

variable {state : Lexical} {previous : Option Char} {char : Char}

theorem Tracks.next {inQuote : Bool} {misread : Nat}
    (tracks : Tracks state previous inQuote misread) (char : Char) :
    Tracks (state.next char) (some char)
      (if char = '"' ∧ previous ≠ some '\\' then !inQuote else inQuote)
      (misread + if char = '"' ∧ previous = some '\\' ∧ state ≠ .escaped then 1 else 0) := by
  obtain ⟨phase, backslash⟩ := tracks
  by_cases quote : char = '"'
  · subst quote
    by_cases behind : previous = some '\\'
    · cases state with
      | outside | inside =>
        exact ⟨by simpa [Lexical.next, behind, Nat.even_add_one] using phase,
          by simp [Lexical.next]⟩
      | escaped => exact ⟨by simpa [Lexical.next, behind] using phase, by simp [Lexical.next]⟩
    · cases state with
      | outside | inside =>
        exact ⟨by simpa [Lexical.next, behind] using not_congr phase, by simp [Lexical.next]⟩
      | escaped => exact absurd (backslash rfl) behind
  · cases state with
    | outside => exact ⟨by simpa [Lexical.next, quote] using phase, by simp [Lexical.next, quote]⟩
    | inside =>
      by_cases escapes : char = '\\'
      · exact ⟨by simpa [Lexical.next, quote, escapes] using phase, by simp [escapes]⟩
      · exact ⟨by simpa [Lexical.next, quote, escapes] using phase,
          by simp [Lexical.next, quote, escapes]⟩
    | escaped => exact ⟨by simpa [Lexical.next, quote] using phase, by simp [Lexical.next]⟩

theorem stripComment_cons (previous : Option Char) (inQuote : Bool) (char : Char)
    (rest : List Char) :
    stripComment previous inQuote (char :: rest) =
      if (!(if char = '"' ∧ previous ≠ some '\\' then !inQuote else inQuote) &&
          startsComment (char :: rest)) = true then []
      else char :: stripComment (some char)
        (if char = '"' ∧ previous ≠ some '\\' then !inQuote else inQuote) rest := rfl

variable {rest : List Char}

theorem ne_quote_of_startsComment (marker : startsComment (char :: rest) = true) : char ≠ '"' := by
  rintro rfl
  exact absurd marker (by simp [startsComment])

theorem forall_markers_cons_iff (holds : List Char → Prop) :
    (∀ before after, char :: rest = before ++ after → startsComment after = true →
        before <+: codeOf state (char :: rest) → holds before) ↔
      (startsComment (char :: rest) = true → holds []) ∧
        (¬ (state = .outside ∧ startsComment (char :: rest) = true) →
          ∀ before after, rest = before ++ after → startsComment after = true →
            before <+: codeOf (state.next char) rest → holds (char :: before)) := by
  constructor
  · intro all
    refine ⟨fun marker => all [] _ rfl marker List.nil_prefix, ?_⟩
    intro kept before after split marker reached
    refine all (char :: before) after (congrArg (char :: ·) split) marker ?_
    rw [codeOf, if_neg kept]
    exact List.cons_prefix_cons.mpr ⟨rfl, reached⟩
  · rintro ⟨here, later⟩ before after split marker reached
    cases before with
    | nil =>
      rw [List.nil_append] at split
      exact here (split ▸ marker)
    | cons first before =>
      rw [List.cons_append, List.cons.injEq] at split
      obtain ⟨rfl, split⟩ := split
      rw [codeOf] at reached
      split at reached
      · exact absurd (List.prefix_nil.mp reached) (List.cons_ne_nil _ _)
      next kept =>
        exact later kept before after split marker (List.cons_prefix_cons.mp reached).2

theorem stripComment_eq_codeOf_iff {inQuote : Bool} {misread : Nat}
    (tracks : Tracks state previous inQuote misread) (line : List Char) :
    stripComment previous inQuote line = codeOf state line ↔
      ∀ before after, line = before ++ after → startsComment after = true →
        before <+: codeOf state line → Even (misread + misreadQuotes state previous before) := by
  induction line generalizing state previous inQuote misread with
  | nil =>
    refine ⟨fun _ before after split marker => ?_, fun _ => rfl⟩
    rw [(List.nil_eq_append_iff.mp split).2] at marker
    exact absurd marker Bool.false_ne_true
  | cons char rest ih =>
    rw [forall_markers_cons_iff fun before => Even (misread + misreadQuotes state previous before)]
    have step := ih (tracks.next char)
    simp only [misreadQuotes, Nat.add_zero, ← Nat.add_assoc]
    rw [← step, stripComment_cons, codeOf]
    cases marker : startsComment (char :: rest) with
    | false => simp
    | true =>
      have other := ne_quote_of_startsComment marker
      have phase := tracks.phase
      simp only [other, false_and, if_false] at step ⊢
      by_cases out : state = .outside
      · cases inQuote with
        | false =>
          have even : Even misread := by simpa [out] using phase
          simp [out, even]
        | true =>
          have odd : ¬ Even misread := by simpa [out] using phase
          simp [out, odd]
      · cases inQuote with
        | false =>
          have odd : ¬ Even misread := by simpa [out] using phase
          simp [out, odd]
        | true =>
          have even : Even misread := by simpa [out] using phase
          simp [out, even]

theorem stripComment_eq_iff_unmisled (line : List Char) :
    stripComment none false line = codeOf .outside line ↔ Unmisled line := by
  have tracks : Tracks .outside none false 0 := ⟨by simp, by simp⟩
  rw [stripComment_eq_codeOf_iff tracks, Unmisled]
  simp only [Nat.zero_add]

/-! ### Blank lines -/

/-- Neither reading keeps anything but blanks of such a line. -/
def isBlank (line : List Char) : Bool :=
  line.dropWhile isSpace = [] || startsComment (line.dropWhile isSpace)

section

variable (space : isSpace char = true)

include space

theorem not_startsComment_of_isSpace (rest : List Char) :
    startsComment (char :: rest) = false := by
  have percent : char ≠ '%' := by rintro rfl; exact absurd space (by decide)
  have slash : char ≠ '/' := by rintro rfl; exact absurd space (by decide)
  simp [startsComment, percent, slash]

theorem ne_quote_of_isSpace : char ≠ '"' := by
  rintro rfl
  exact absurd space (by decide)

theorem isBlank_cons (rest : List Char) :
    isBlank (char :: rest) = isBlank rest := by simp [isBlank, space]

end

theorem trimSpace_codeOf (line : List Char) :
    trimSpace (codeOf .outside line) = [] ↔ isBlank line = true := by
  rw [trimSpace_eq_nil_iff]
  induction line with
  | nil => simp [codeOf, isBlank]
  | cons char rest ih =>
    by_cases space : isSpace char = true
    · rw [codeOf, not_startsComment_of_isSpace space, isBlank_cons space, ← ih]
      simp [Lexical.next, ne_quote_of_isSpace space, space]
    · rw [codeOf, isBlank, List.dropWhile_cons_of_neg space]
      cases marker : startsComment (char :: rest) <;> simp [space]

theorem trimSpace_stripComment (plain : previous ≠ some '\\') (line : List Char) :
    trimSpace (stripComment previous false line) = [] ↔ isBlank line = true := by
  rw [trimSpace_eq_nil_iff]
  induction line generalizing previous with
  | nil => simp [stripComment, isBlank]
  | cons char rest ih =>
    by_cases space : isSpace char = true
    · have backslash : some char ≠ some '\\' := by
        rintro same
        cases same
        exact absurd space (by decide)
      rw [stripComment_cons, not_startsComment_of_isSpace space, isBlank_cons space, ← ih backslash]
      simp [ne_quote_of_isSpace space, space]
    · rw [stripComment_cons, isBlank, List.dropWhile_cons_of_neg space]
      cases marker : startsComment (char :: rest) with
      | false => simp [space]
      | true => simp [ne_quote_of_startsComment marker]

theorem startsComment_of_isBlank {char : Char} {rest : List Char}
    (blank : isBlank (char :: rest) = true) (visible : ¬ isSpace char = true) :
    startsComment (char :: rest) = true := by
  rw [isBlank, List.dropWhile_cons_of_neg visible] at blank
  simpa using blank

theorem codeOf_of_isBlank (blank : isBlank line = true) :
    codeOf .outside line = line.takeWhile isSpace := by
  induction line with
  | nil => rfl
  | cons char rest ih =>
    by_cases space : isSpace char = true
    · rw [codeOf, not_startsComment_of_isSpace space, List.takeWhile_cons_of_pos space,
        ← ih (isBlank_cons space rest ▸ blank)]
      simp [Lexical.next, ne_quote_of_isSpace space]
    · rw [codeOf, startsComment_of_isBlank blank space, List.takeWhile_cons_of_neg space]
      rfl

theorem stripComment_of_isBlank (previous : Option Char) (blank : isBlank line = true) :
    stripComment previous false line = line.takeWhile isSpace := by
  induction line generalizing previous with
  | nil => rfl
  | cons char rest ih =>
    rw [stripComment_cons]
    by_cases space : isSpace char = true
    · rw [not_startsComment_of_isSpace space, List.takeWhile_cons_of_pos space,
        ← ih (some char) (isBlank_cons space rest ▸ blank)]
      simp [ne_quote_of_isSpace space]
    · have marker := startsComment_of_isBlank blank space
      rw [marker, List.takeWhile_cons_of_neg space]
      simp [ne_quote_of_startsComment marker]

/-- The source's two tests of the whole line are those of the line without its comment. -/
theorem cleanLine_eq (line : List Char) :
    cleanLine line = if isBlank line then none else some (stripComment none false line) := by
  have stripped := trimSpace_stripComment (show none ≠ some '\\' by simp) line
  have tests : (trimSpace line = [] || isCommentLine (trimSpace line)) = true →
      isBlank line = true := by
    intro test
    rw [isBlank, Bool.or_eq_true, decide_eq_true_eq]
    rcases Bool.or_eq_true _ _ ▸ test with empty | comment
    · left
      exact List.dropWhile_eq_nil_iff.mpr ((trimSpace_eq_nil_iff line).mp (of_decide_eq_true empty))
    · right
      have start := trimSpace_isPrefix line
      rw [isCommentLine, Bool.or_eq_true, List.isPrefixOf_iff_prefix,
        List.isPrefixOf_iff_prefix] at comment
      rcases comment with percent | slashes
      · obtain ⟨rest, shape⟩ := percent.trans start
        simp [← shape, startsComment]
      · obtain ⟨rest, shape⟩ := slashes.trans start
        simp [← shape, startsComment]
  rw [cleanLine]
  by_cases blank : isBlank line = true
  · simp [blank, stripped.mpr blank]
  · have visible : ¬ trimSpace (stripComment none false line) = [] := fun h => blank (stripped.mp h)
    have untested : ¬ (trimSpace line = [] || isCommentLine (trimSpace line)) = true :=
      fun test => blank (tests test)
    simp only [visible, blank, if_false]
    rw [if_neg untested]
    rfl

theorem codeOf_isPrefix (state : Lexical) (line : List Char) : codeOf state line <+: line := by
  induction line generalizing state with
  | nil => exact List.prefix_rfl
  | cons char rest ih =>
    rw [codeOf]
    split
    · exact List.nil_prefix
    · exact List.cons_prefix_cons.mpr ⟨rfl, ih _⟩

theorem stripComment_isPrefix (previous : Option Char) (inQuote : Bool) (line : List Char) :
    stripComment previous inQuote line <+: line := by
  induction line generalizing previous inQuote with
  | nil => exact List.prefix_rfl
  | cons char rest ih =>
    rw [stripComment_cons]
    generalize (if char = '"' ∧ previous ≠ some '\\' then !inQuote else inQuote) = toggled
    split
    · exact List.nil_prefix
    · exact List.cons_prefix_cons.mpr ⟨rfl, ih _ _⟩

/-! ### Words -/

theorem startsComment_codeOf (code : startsComment (char :: rest) = false) :
    startsComment (char :: codeOf state rest) = false := by
  cases rest with
  | nil => exact code
  | cons next others =>
    rw [codeOf]
    split
    · simp only [startsComment, Bool.or_eq_false_iff, List.head?_nil] at code ⊢
      simpa using code.1
    · exact code

theorem lineWords_codeOf (state : Lexical) (word line : List Char) :
    lineWords state word (codeOf state line) = lineWords state word line := by
  induction line generalizing state word with
  | nil => rfl
  | cons char rest ih =>
    rw [codeOf]
    by_cases cut : state = .outside ∧ startsComment (char :: rest) = true
    · rw [if_pos cut, lineWords, lineWords, if_pos cut]
    · have uncut : ¬ (state = .outside ∧
          startsComment (char :: codeOf (state.next char) rest) = true) := by
        rintro ⟨out, marker⟩
        refine cut ⟨out, ?_⟩
        by_contra code
        rw [startsComment_codeOf (by simpa using code)] at marker
        exact absurd marker Bool.false_ne_true
      rw [if_neg cut, lineWords, lineWords, if_neg cut, if_neg uncut]
      by_cases space : state = .outside ∧ isSpace char = true
      · have quote : char ≠ '"' := by
          rintro rfl
          exact absurd space.2 (by decide)
        have still : state.next char = .outside := by simp [space.1, Lexical.next, quote]
        rw [if_pos space, if_pos space, still, ih]
      · rw [if_neg space, if_neg space, ih]

theorem lineWords_of_isBlank (blank : isBlank line = true) : lineWords .outside [] line = [] := by
  induction line with
  | nil => rfl
  | cons char rest ih =>
    rw [lineWords]
    by_cases space : isSpace char = true
    · simp [not_startsComment_of_isSpace space, space, ih (isBlank_cons space rest ▸ blank)]
    · simp [startsComment_of_isBlank blank space]

end Line

/-! ## The whole source -/

section Source

def keptOf (raw : List Char) : List (List Char) := (sourceLines raw).filter (! isBlank ·)

variable (raw : List Char)

theorem cleanSource_eq :
    cleanSource raw = joinLines ((keptOf raw).map (stripComment none false)) := by
  rw [cleanSource, keptOf, sourceLines]
  refine congrArg joinLines ?_
  rw [← List.filterMap_eq_map, List.filterMap_filter]
  refine congrArg (List.filterMap · _) (funext fun line => ?_)
  rw [cleanLine_eq]
  cases isBlank line <;> rfl

theorem stripComments_eq : stripComments raw = joinLines ((keptOf raw).map (codeOf .outside)) := by
  rw [stripComments, keptOf, List.filter_map]
  refine congrArg (fun lines => joinLines (List.map _ lines)) (List.filter_congr fun line _ => ?_)
  rw [Bool.eq_iff_iff]
  simp [trimSpace_codeOf]

theorem newline_not_mem_kept {strip : List Char → List Char}
    (shortens : ∀ line, strip line <+: line) {raw : List Char}
    (member : line ∈ (keptOf raw).map strip) : '\n' ∉ line := by
  obtain ⟨whole, kept, rfl⟩ := List.mem_map.mp member
  have single := newline_not_mem_of_mem_splitLines (List.mem_filter.mp kept).1
  exact fun inside => single ((shortens whole).subset inside)

theorem cleanSource_eq_stripComments_iff :
    cleanSource raw = stripComments raw ↔ ∀ line ∈ sourceLines raw, Unmisled line := by
  rw [cleanSource_eq, stripComments_eq]
  constructor
  · intro same line member
    rw [← stripComment_eq_iff_unmisled]
    by_cases blank : isBlank line = true
    · rw [stripComment_of_isBlank none blank, codeOf_of_isBlank blank]
    · have kept : line ∈ keptOf raw := List.mem_filter.mpr ⟨member, by simp [blank]⟩
      have nonempty : ∀ strip : List Char → List Char, (keptOf raw).map strip ≠ [] :=
        fun strip empty => List.ne_nil_of_mem kept (List.map_eq_nil_iff.mp empty)
      have lines := congrArg splitLines same
      rw [splitLines_joinLines (nonempty _)
          fun _ => newline_not_mem_kept (stripComment_isPrefix none false),
        splitLines_joinLines (nonempty _)
          fun _ => newline_not_mem_kept (codeOf_isPrefix .outside)] at lines
      exact List.map_eq_map_iff.mp lines line kept
  · intro unmisled
    refine congrArg joinLines (List.map_congr_left fun line kept => ?_)
    exact (stripComment_eq_iff_unmisled line).mpr (unmisled line (List.mem_filter.mp kept).1)

theorem wordsOf_keptOf : wordsOf (keptOf raw) = wordsOf (sourceLines raw) := by
  rw [wordsOf, wordsOf, keptOf]
  induction sourceLines raw with
  | nil => rfl
  | cons line lines ih =>
    cases blank : isBlank line with
    | false => simp [blank, ih]
    | true => simp [blank, ih, lineWords_of_isBlank blank]

theorem wordsOf_stripComments :
    wordsOf (splitLines (stripComments raw)) = wordsOf (sourceLines raw) := by
  rw [stripComments_eq, ← wordsOf_keptOf]
  by_cases nonempty : keptOf raw = []
  · rw [nonempty]
    rfl
  · have shown : (keptOf raw).map (codeOf .outside) ≠ [] :=
      fun empty => nonempty (List.map_eq_nil_iff.mp empty)
    rw [splitLines_joinLines shown fun _ => newline_not_mem_kept (codeOf_isPrefix .outside),
      wordsOf, wordsOf, List.flatMap_map]
    refine congrArg (List.flatMap · _) (funext fun line => ?_)
    exact lineWords_codeOf .outside [] line

/-- The cleaned text is the source without its comments, with the same words, exactly if no
line misleads the source. -/
theorem cleanSource_faithful_iff (raw : List Char) :
    (cleanSource raw = stripComments raw ∧
        wordsOf (splitLines (cleanSource raw)) = wordsOf (sourceLines raw)) ↔
      ∀ line ∈ sourceLines raw, Unmisled line := by
  rw [← cleanSource_eq_stripComments_iff]
  refine ⟨And.left, fun same => ⟨same, ?_⟩⟩
  rw [same, wordsOf_stripComments]

/-- The first literal ends in an escaped backslash, so the percent sign of the second one is
taken for a comment. -/
theorem cleanSource_cuts_literal :
    cleanSource "deny(\"a\\\\\", \"100%\").".toList = "deny(\"a\\\\\", \"100".toList ∧
      stripComments "deny(\"a\\\\\", \"100%\").".toList =
        "deny(\"a\\\\\", \"100%\").".toList := by
  decide +kernel

end Source

end Manglekit.Engine

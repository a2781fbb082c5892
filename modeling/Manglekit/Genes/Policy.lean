import Manglekit.Genes.Gene
import Mathlib.Data.List.Infix

/-!
# Compiling genes into a policy

The rules of the genes are put behind one another, each under a comment that names its
gene.  Rules are not rewritten: a scan of the lines looks for a tier in each head and
refuses a gene whose rules disagree with its declared tier.
-/

namespace Manglekit.Genes

open Core

/-! ## Text -/

/-- `strings.Cut`: the text before and after the first occurrence. -/
def cut (separator : List Char) : List Char → Option (List Char × List Char)
  | [] => if separator = [] then some ([], []) else none
  | char :: rest =>
    if separator.isPrefixOf (char :: rest) then
      some ([], (char :: rest).drop separator.length)
    else (cut separator rest).map fun (before, after) => (char :: before, after)

def utf8Length : List Char → Nat
  | [] => 0
  | char :: rest => char.utf8Size + utf8Length rest

/-- A slice of the text from a byte on.  Behind the end it panics.  The bytes of a
character that is cut in two are no characters any more. -/
def sliceFrom : Nat → List Char → Except Panic (List Char)
  | 0, text => .ok text
  | _ + 1, [] => .error .sliceBounds
  | bytes + 1, char :: rest =>
    if bytes + 1 < char.utf8Size then
      .ok (List.replicate (char.utf8Size - (bytes + 1)) '\ufffd' ++ rest)
    else sliceFrom (bytes + 1 - char.utf8Size) rest

/-- `strings.Trim` with both kinds of quotes. -/
def trimQuotes (text : List Char) : List Char :=
  let isQuote := fun char => char = '"' || char = '\x27'
  ((text.dropWhile isQuote).reverse.dropWhile isQuote).reverse

/-! ## The scan for tiers -/

/-- The arguments up to the closing parenthesis.  Commas and parentheses within quotes
count like any others. -/
def splitTopLevel (depth : Nat) (current : List Char) : List Char → List (List Char)
  | [] => if current = [] then [] else [current]
  | char :: rest =>
    if char = '(' then splitTopLevel (depth + 1) (current ++ [char]) rest
    else if char = ')' then
      if depth = 0 then [current] else splitTopLevel (depth - 1) (current ++ [char]) rest
    else if char = ',' ∧ depth = 0 then current :: splitTopLevel depth [] rest
    else splitTopLevel depth (current ++ [char]) rest

variable (host : Host)

/-- The tier that one predicate shows in a head.  The predicate is looked for in lower
case, and its position is then used on the head as it is. -/
def tierOf (head : List Char) (pred : String) : Except Panic (Option Tier) :=
  match cut (pred ++ "(").toList (head.map host.toLower) with
  | none => .ok none
  | some (before, _) => do
    let after ← sliceFrom (utf8Length before + pred.length + 1) head
    match (splitTopLevel 0 [] after)[2]? with
    | none => return none
    | some arg =>
      let tier := String.ofList (trimQuotes (Engine.trimSpace arg))
      return if validTier tier then some tier else none

/-- The third argument of a `halt` or a `deny` in the head of a rule line. -/
def tierInHead (ruleLine : List Char) : Except Panic (Option Tier) := do
  let head := ((cut ":-".toList ruleLine).map (·.1)).getD ruleLine
  match ← tierOf host head "halt" with
  | some tier => return some tier
  | none => tierOf host head "deny"

variable {Digest : Type}

/-- A line of the rules, unless it is empty or a comment. -/
def scannedLine (line : List Char) : Option (List Char) :=
  let trimmed := Engine.trimSpace line
  if trimmed = [] || ['%'].isPrefixOf trimmed then none else some trimmed

/-- The first line whose tier is not the declared one. -/
def inconsistentLine (declared : Tier) :
    List (List Char) → Except Panic (Option (Tier × List Char))
  | [] => return none
  | line :: rest => do
    match ← tierInHead host line with
    | some tier =>
      if tier = declared then inconsistentLine declared rest else return some (tier, line)
    | none => inconsistentLine declared rest

/-- Rules without any `halt` or `deny` are not scanned. -/
def Gene.mentionsGate (gene : Gene Digest) : Bool :=
  let lower := gene.rules.toList.map host.toLower
  decide ("halt(".toList <:+: lower ∨ "deny(".toList <:+: lower)

def Gene.scannedLines (gene : Gene Digest) : List (List Char) :=
  (Engine.splitLines gene.rules.toList).filterMap scannedLine

def checkTierConsistency (gene : Gene Digest) : Except Panic (Option GoError) := do
  if gene.mentionsGate host then
    match ← inconsistentLine host gene.tier gene.scannedLines with
    | none => return none
    | some (tier, line) =>
      return some (.text ("x/genes: gene " ++ host.quote gene.name ++ " declares tier "
        ++ gene.tier ++ " but rule emits tier " ++ host.quote tier ++ ": "
        ++ String.ofList line))
  else return none

/-! ## Compilation -/

variable [DecidableEq Digest] (sha256 : Sha256 Digest)

/-- Why a gene is not compiled. -/
def checkGene (allowHardTiers : Bool) (gene : Gene Digest) : Except Panic (Option GoError) :=
  match gene.verify sha256 host with
  | some err => return some err
  | none =>
    if !validTier gene.tier then
      return some (.text ("x/genes: gene " ++ host.quote gene.name ++ " has invalid tier "
        ++ host.quote gene.tier))
    else if isHardTier gene.tier && !allowHardTiers then
      return some (.text ("x/genes: gene " ++ host.quote gene.name ++ " carries hard tier "
        ++ gene.tier ++ " (can block); applying learned blocking rules requires "
        ++ "WithAllowHardTiers() — promote through human review first"))
    else checkTierConsistency host gene

omit [DecidableEq Digest] in
def Gene.header (gene : Gene Digest) : List Char :=
  ("% gene: " ++ gene.name ++ " | tier: " ++ gene.tier ++ " | source: " ++ gene.source).toList

omit [DecidableEq Digest] in
def Gene.rendered (gene : Gene Digest) : List Char :=
  '\n' :: gene.header ++ '\n' :: Engine.trimSpace gene.rules.toList ++ ['\n']

def compileSections (allowHardTiers : Bool) :
    List (Gene Digest) → Except Panic (Except GoError (List Char))
  | [] => return .ok []
  | gene :: rest => do
    match ← checkGene host sha256 allowHardTiers gene with
    | some err => return .error err
    | none => return (← compileSections allowHardTiers rest).map (gene.rendered ++ ·)

def preamble : List Char := "% ---- x/genes compiled policy ----\n".toList

def compile (allowHardTiers : Bool) (genes : List (Gene Digest)) :
    Except Panic (Except GoError (List Char)) :=
  if genes = [] then return .error (.text "x/genes: compile called with no genes")
  else return (← compileSections host sha256 allowHardTiers genes).map (preamble ++ ·)

/-! ## What is compiled -/

variable {host sha256} {genes : List (Gene Digest)}

theorem compileSections_ok {allowHardTiers : Bool} {text : List Char}
    (compiled : compileSections host sha256 allowHardTiers genes = .ok (.ok text)) :
    (∀ gene ∈ genes, checkGene host sha256 allowHardTiers gene = .ok none) ∧
      text = genes.flatMap Gene.rendered := by
  induction genes generalizing text with
  | nil =>
    cases compiled
    exact ⟨by simp, rfl⟩
  | cons gene rest ih =>
    unfold compileSections at compiled
    cases checked : checkGene host sha256 allowHardTiers gene with
    | error panic => simp [checked, bind, Except.bind] at compiled
    | ok failure =>
      cases failure with
      | some err => simp [checked, bind, Except.bind, pure, Except.pure] at compiled
      | none =>
        rcases tail : compileSections host sha256 allowHardTiers rest with
          panic | (err | restText)
        · simp [checked, tail, bind, Except.bind] at compiled
        · simp [checked, tail, bind, Except.bind, pure, Except.pure, Except.map] at compiled
        · simp only [checked, tail, bind, Except.bind, pure, Except.pure, Except.map,
            Except.ok.injEq] at compiled
          obtain ⟨accepted, rfl⟩ := ih tail
          refine ⟨?_, compiled.symm⟩
          simpa [checked] using accepted

theorem compile_ok {allowHardTiers : Bool} {text : List Char}
    (compiled : compile host sha256 allowHardTiers genes = .ok (.ok text)) :
    (∀ gene ∈ genes, checkGene host sha256 allowHardTiers gene = .ok none) ∧
      text = preamble ++ genes.flatMap Gene.rendered := by
  unfold compile at compiled
  split at compiled
  · cases compiled
  · rcases sections : compileSections host sha256 allowHardTiers genes with
      panic | (err | sectionsText)
    · simp [sections, bind, Except.bind] at compiled
    · simp [sections, bind, Except.bind, pure, Except.pure, Except.map] at compiled
    · simp only [sections, bind, Except.bind, pure, Except.pure, Except.map,
        Except.ok.injEq] at compiled
      obtain ⟨accepted, rfl⟩ := compileSections_ok sections
      exact ⟨accepted, compiled.symm⟩

end Manglekit.Genes

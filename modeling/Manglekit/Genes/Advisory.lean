import Manglekit.Engine.Reference
import Manglekit.Genes.Signature

/-!
# Advisory genes

Genes of the tiers T2 and T3 are meant to advise, not to block.  The compiler takes the
tier from what a scan of the lines finds in the heads of the rules; a `halt` or a `deny`
that the scan does not find is compiled whatever its tier.  The comment above the rules
of a gene is a comment only as long as the name and the source are single lines.
-/

namespace Manglekit.Genes

open Core

/-! ## The lines of a program -/

def keptLines (text : List Char) : List (List Char) :=
  (Engine.splitLines (Engine.normalizeNewlines text)).filterMap Engine.cleanLine

variable {line : List Char}

theorem normalizeNewlines_line (single : '\n' ∉ line) (rest : List Char) :
    ∃ kept, '\n' ∉ kept ∧
      Engine.normalizeNewlines (line ++ '\n' :: rest) =
        kept ++ '\n' :: Engine.normalizeNewlines rest := by
  induction line with
  | nil => exact ⟨[], by simp, by simp [Engine.normalizeNewlines]⟩
  | cons char line ih =>
    simp only [List.mem_cons, not_or] at single
    obtain ⟨kept, plain, normalized⟩ := ih single.2
    by_cases returns : char = '\r' ∧ line = []
    · obtain ⟨rfl, rfl⟩ := returns
      exact ⟨[], by simp, by simp [Engine.normalizeNewlines]⟩
    · refine ⟨char :: kept, by simp [single.1, plain], ?_⟩
      rw [List.cons_append, List.cons_append, ← normalized]
      refine Engine.normalizeNewlines.eq_3 char _ fun follows isReturn same => ?_
      cases line with
      | nil => exact returns ⟨isReturn, rfl⟩
      | cons next others =>
        cases same
        simp at single

theorem keptLines_comment (single : '\n' ∉ line) (rest : List Char) :
    keptLines ('%' :: line ++ '\n' :: rest) = keptLines rest := by
  obtain ⟨kept, plain, normalized⟩ := normalizeNewlines_line single rest
  have comment : Engine.cleanLine ('%' :: kept) = none := by
    obtain ⟨trimmed, starts⟩ := Engine.trimSpace_cons '%' (by decide) kept
    simp [Engine.cleanLine, starts, Engine.isCommentLine, List.isPrefixOf]
  have starts : Engine.normalizeNewlines ('%' :: line ++ '\n' :: rest) =
      ('%' :: kept) ++ '\n' :: Engine.normalizeNewlines rest := by
    rw [List.cons_append, List.cons_append, ← normalized]
    exact Engine.normalizeNewlines.eq_3 '%' _ fun _ isReturn => absurd isReturn (by decide)
  unfold keptLines
  rw [starts, Engine.splitLines_eq_splitOn, List.splitOn_append_cons_self, List.splitOn_eq_singleton
    (by simp [plain]), ← Engine.splitLines_eq_splitOn, List.singleton_append,
    List.filterMap_cons_none comment]

theorem keptLines_append {before : List Char} (plain : before.getLast? ≠ some '\r')
    (after : List Char) :
    keptLines (before ++ '\n' :: after) = keptLines before ++ keptLines after := by
  simp only [keptLines, Engine.normalizeNewlines_append plain, Engine.splitLines_eq_splitOn,
    List.splitOn_append_cons_self, List.filterMap_append]

theorem trimSpace_getLast (text : List Char) : (Engine.trimSpace text).getLast? ≠ some '\r' := by
  intro ends
  rw [Engine.trimSpace, List.getLast?_reverse] at ends
  have kept := List.head?_dropWhile_not Engine.isSpace (text.dropWhile Engine.isSpace).reverse
  rw [ends] at kept
  simp [Engine.isSpace] at kept

/-! ## The compiled program -/

section Program

variable {Digest : Type}

def Gene.ruleLines (gene : Gene Digest) : List (List Char) :=
  keptLines (Engine.trimSpace gene.rules.toList)

structure Gene.PlainHeader (gene : Gene Digest) : Prop where
  name : '\n' ∉ gene.name.toList
  tier : '\n' ∉ gene.tier.toList
  source : '\n' ∉ gene.source.toList

theorem Gene.PlainHeader.header {gene : Gene Digest} (plain : gene.PlainHeader) :
    ∃ line, '\n' ∉ line ∧ gene.header = '%' :: line := by
  refine ⟨(" gene: " ++ gene.name ++ " | tier: " ++ gene.tier ++ " | source: "
    ++ gene.source).toList, ?_, ?_⟩
  · simp [String.toList_append, plain.name, plain.tier, plain.source]
  · simp [Gene.header, String.toList_append]

theorem keptLines_rendered {gene : Gene Digest} (plain : gene.PlainHeader) (rest : List Char) :
    keptLines (gene.rendered ++ rest) = gene.ruleLines ++ keptLines rest := by
  obtain ⟨line, single, header⟩ := plain.header
  have shape : gene.rendered ++ rest =
      [] ++ '\n' ::
        ('%' :: line ++ '\n' :: (Engine.trimSpace gene.rules.toList ++ '\n' :: rest)) := by
    simp [Gene.rendered, header]
  rw [shape, keptLines_append (by simp), keptLines_comment single,
    keptLines_append (trimSpace_getLast _)]
  rfl

variable {genes : List (Gene Digest)}

section

variable (plain : ∀ gene ∈ genes, gene.PlainHeader)

include plain

theorem keptLines_sections :
    keptLines (genes.flatMap Gene.rendered) = genes.flatMap Gene.ruleLines := by
  induction genes with
  | nil => rfl
  | cons gene rest ih =>
    rw [List.forall_mem_cons] at plain
    rw [List.flatMap_cons, keptLines_rendered plain.1, ih plain.2, List.flatMap_cons]

theorem cleanSource_compiled :
    Engine.cleanSource (preamble ++ genes.flatMap Gene.rendered) =
      Engine.joinLines (genes.flatMap Gene.ruleLines) := by
  have shape : preamble = '%' :: " ---- x/genes compiled policy ----".toList ++ ['\n'] := rfl
  have unmarked : Engine.stripBOM (preamble ++ genes.flatMap Gene.rendered) =
      preamble ++ genes.flatMap Gene.rendered := rfl
  change Engine.joinLines (keptLines (Engine.stripBOM _)) = _
  rw [unmarked, shape, List.append_assoc, List.singleton_append,
    keptLines_comment (by decide), keptLines_sections plain]

end

end Program

/-! ## Clauses that can block -/

/-- The clause concludes a `halt` or a `deny`. -/
def isGate (clause : Engine.SourceClause) : Bool :=
  clause.head.symbol = "halt" || clause.head.symbol = "deny"

def statedTier (clause : Engine.SourceClause) : Option Tier :=
  match clause.head.args with
  | [_, _, .const (.string tier)] => some tier
  | _ => none

def isAdvisory (clause : Engine.SourceClause) : Bool :=
  statedTier clause = some tierT2Playbook || statedTier clause = some tierT3User

section Advisory

variable {Digest : Type} (parse : List Char → Except GoError Engine.SourceUnit)

def Gene.clauses (gene : Gene Digest) : List Engine.SourceClause :=
  match parse (Engine.joinLines gene.ruleLines) with
  | .ok unit => unit.clauses
  | .error _ => []

/-- Every `halt` and every `deny` of the program states that it is advice, and every clause
is one of a gene. -/
def cannotBlock (genes : List (Gene Digest)) (program : List Char) : Bool :=
  match parse (Engine.cleanSource program) with
  | .error _ => true
  | .ok unit => unit.clauses.all fun clause =>
    (!isGate clause || isAdvisory clause) &&
      genes.any fun gene => (gene.clauses parse).contains clause

def ReadsInTurn (genes : List (Gene Digest)) : Prop :=
  ∃ unit, parse (Engine.joinLines (genes.flatMap Gene.ruleLines)) = .ok unit ∧
    unit.clauses = genes.flatMap (Gene.clauses parse)

def Gene.finds (host : Host) (gene : Gene Digest) (clause : Engine.SourceClause) : Prop :=
  gene.mentionsGate host = true ∧ ∃ line ∈ gene.scannedLines, ∃ tier,
    tierInHead host line = .ok (some tier) ∧ statedTier clause = some tier

variable {parse} {host : Host}

theorem tier_eq_of_consistent {declared tier : Tier} {lines : List (List Char)}
    (consistent : inconsistentLine host declared lines = .ok none)
    (member : line ∈ lines) (found : tierInHead host line = .ok (some tier)) : tier = declared := by
  induction lines with
  | nil => cases member
  | cons first rest ih =>
    unfold inconsistentLine at consistent
    cases scanned : tierInHead host first with
    | error panic => simp [scanned, bind, Except.bind] at consistent
    | ok answer =>
      simp only [scanned, bind, Except.bind] at consistent
      rcases List.mem_cons.mp member with rfl | later
      · cases scanned.symm.trans found
        dsimp only at consistent
        by_contra differs
        rw [if_neg differs] at consistent
        cases consistent
      · cases answer with
        | none => exact ih consistent later
        | some firstTier =>
          dsimp only at consistent
          split at consistent
          · exact ih consistent later
          · cases consistent

variable {clause : Engine.SourceClause}

theorem tier_eq_of_finds {gene : Gene Digest}
    (consistent : checkTierConsistency host gene = .ok none) (finds : gene.finds host clause) :
    statedTier clause = some gene.tier := by
  obtain ⟨mentions, line, member, tier, found, stated⟩ := finds
  unfold checkTierConsistency at consistent
  rw [if_pos mentions] at consistent
  cases scanned : inconsistentLine host gene.tier gene.scannedLines with
  | error panic => simp [scanned, bind, Except.bind] at consistent
  | ok answer =>
    cases answer with
    | some clash => simp [scanned, bind, Except.bind, pure, Except.pure] at consistent
    | none => rw [stated, tier_eq_of_consistent scanned member found]

variable [DecidableEq Digest] {sha256 : Sha256 Digest}

section

variable {gene : Gene Digest} (accepted : checkGene host sha256 false gene = .ok none)

include accepted

theorem soft_of_checkGene :
    (gene.tier = tierT2Playbook ∨ gene.tier = tierT3User) ∧
      checkTierConsistency host gene = .ok none := by
  unfold checkGene at accepted
  split at accepted
  · cases accepted
  · split at accepted
    · cases accepted
    next valid =>
      split at accepted
      · cases accepted
      next soft =>
        refine ⟨?_, accepted⟩
        simp only [validTier, isHardTier, Bool.not_false, Bool.and_true, Bool.or_eq_true,
          decide_eq_true_eq, Bool.not_eq_true', Bool.not_eq_false] at valid soft
        tauto

theorem advisory_of_finds (finds : gene.finds host clause) : isAdvisory clause = true := by
  obtain ⟨soft, consistent⟩ := soft_of_checkGene accepted
  have stated := tier_eq_of_finds consistent finds
  unfold isAdvisory
  rcases soft with tier | tier <;> simp [stated, tier]

end

end Advisory

/-! ## Genes that block -/

/-- A halt without a tier. -/
def untiered : Gene String :=
  Gene.sign textDigest ⟨"untiered", "T2", "review", [], "halt(\"Req\", \"never\").", none⟩

def injecting : Gene String :=
  Gene.sign textDigest ⟨"a\nhalt(\"Req\", \"never\", \"T1\"). %", "T2", "review", [],
    "ok(\"x\").", none⟩

def programOf (genes : List (Gene String)) : Option (List Char) :=
  match compile plainHost textDigest false genes with
  | .ok (.ok program) => some program
  | _ => none

def tiered : Gene String :=
  Gene.sign textDigest ⟨"tiered", "T2", "review", [],
    "halt(\"Req\", \"late\", \"T2\") :- hour(\"night\").", none⟩

def dayFact : Gene String :=
  Gene.sign textDigest ⟨"hours", "T3", "review", [], "% opening hours\nhour(\"day\").", none⟩

def tieredProgram : List Char := preamble ++ [tiered, dayFact].flatMap Gene.rendered

end Manglekit.Genes

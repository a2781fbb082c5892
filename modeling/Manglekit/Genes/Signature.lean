import Manglekit.Genes.Policy

/-!
# What a signature binds

A signature covers the fields of a gene as lines of text.  Two genes that show the same
lines have the same signature, and otherwise one is not accepted with the signature of
the other.  Intents are separated by blanks only, and a field that contains a line feed
can read like the fields after it.
-/

namespace Manglekit.Genes

open Core

variable {Digest : Type}

/-! ## The lines of a gene -/

/-- The lines that a gene shows: every field after its key. -/
def Gene.lines (gene : Gene Digest) : List (List Char) :=
  ("name=" ++ gene.name).toList.splitOn '\n' ++ ("tier=" ++ gene.tier).toList.splitOn '\n'
    ++ ("source=" ++ gene.source).toList.splitOn '\n'
    ++ ("intents=[" ++ " ".intercalate gene.intents ++ "]").toList.splitOn '\n'
    ++ ("rules=" ++ gene.rules).toList.splitOn '\n'

structure Gene.OneLined (gene : Gene Digest) : Prop where
  name : '\n' ∉ gene.name.toList
  tier : '\n' ∉ gene.tier.toList
  source : '\n' ∉ gene.source.toList
  intents : '\n' ∉ (" ".intercalate gene.intents).toList

theorem splitOn_canonicalText (gene : Gene Digest) :
    gene.canonicalText.toList.splitOn '\n' = gene.lines ++ [[]] := by
  have feed : "\n".toList = ['\n'] := rfl
  have bracket : "]\n".toList = "]".toList ++ ['\n'] := rfl
  have lined : gene.canonicalText.toList =
      ("name=" ++ gene.name).toList ++ '\n' :: (("tier=" ++ gene.tier).toList ++ '\n' ::
        (("source=" ++ gene.source).toList ++ '\n' ::
          (("intents=[" ++ " ".intercalate gene.intents ++ "]").toList ++ '\n' ::
            (("rules=" ++ gene.rules).toList ++ '\n' :: [])))) := by
    unfold Gene.canonicalText
    simp only [String.toList_append, feed, bracket, List.append_assoc, List.cons_append,
      List.nil_append]
  rw [lined]
  simp only [List.splitOn_append_cons_self, List.splitOn_nil, Gene.lines, List.append_assoc]

theorem splitOn_injective {Symbol : Type} [BEq Symbol] [LawfulBEq Symbol] (separator : Symbol) :
    Function.Injective (List.splitOn separator) := by
  intro first second same
  have joined := congrArg ([separator].intercalate ·) same
  simpa only [List.intercalate_splitOn] using joined

theorem canonicalText_eq_iff (gene other : Gene Digest) :
    gene.canonicalText = other.canonicalText ↔ gene.lines = other.lines := by
  rw [← String.toList_inj, ← (splitOn_injective '\n').eq_iff, splitOn_canonicalText,
    splitOn_canonicalText, List.append_cancel_right_eq]

theorem splitOn_keyed (key : String) {value : String} (plain : '\n' ∉ key.toList)
    (oneLined : '\n' ∉ value.toList) :
    (key ++ value).toList.splitOn '\n' = [(key ++ value).toList] := by
  apply List.splitOn_eq_singleton
  simp [plain, oneLined]

variable {gene : Gene Digest}

/-- As long as the fields before the rules are single lines, the lines tell the name, the
tier, the source and the rules, and the intents up to where one ends. -/
theorem Gene.OneLined.lines_eq_iff {other : Gene Digest} (oneLined : gene.OneLined)
    (otherOneLined : other.OneLined) :
    gene.lines = other.lines ↔
      gene.name = other.name ∧ gene.tier = other.tier ∧ gene.source = other.source ∧
        " ".intercalate gene.intents = " ".intercalate other.intents ∧
          gene.rules = other.rules := by
  have lines (some : Gene Digest) (single : some.OneLined) :
      some.lines = ("name=" ++ some.name).toList :: ("tier=" ++ some.tier).toList ::
        ("source=" ++ some.source).toList ::
          ("intents=[" ++ " ".intercalate some.intents ++ "]").toList ::
            ("rules=" ++ some.rules).toList.splitOn '\n' := by
    have intents : '\n' ∉ (" ".intercalate some.intents ++ "]").toList := by
      rw [String.toList_append, List.mem_append]
      exact not_or.mpr ⟨single.intents, by decide⟩
    have listed : "intents=[" ++ " ".intercalate some.intents ++ "]" =
        "intents=[" ++ (" ".intercalate some.intents ++ "]") := String.append_assoc
    unfold Gene.lines
    rw [listed, splitOn_keyed "name=" (by decide) single.name,
      splitOn_keyed "tier=" (by decide) single.tier,
      splitOn_keyed "source=" (by decide) single.source,
      splitOn_keyed "intents=[" (by decide) intents]
    rfl
  rw [lines gene oneLined, lines other otherOneLined]
  simp only [List.cons.injEq, (splitOn_injective '\n').eq_iff, String.toList_inj,
    String.append_right_inj, String.append_left_inj]

/-! ## Acceptance -/

section Acceptance

variable [DecidableEq Digest] {sha256 : Sha256 Digest} {host : Host}

theorem verify_eq_none_iff (gene : Gene Digest) :
    gene.verify sha256 host = none ↔
      gene.signature = some (sha256.ofDigest (gene.canonical sha256)) := by
  unfold Gene.verify
  split
  next unsigned => simp [unsigned]
  next signature signed => simp [signed]

structure ManifestGene.Describes (sha256 : Sha256 Digest) (entry : ManifestGene)
    (gene : Gene Digest) : Prop where
  name : entry.name = gene.name
  tier : entry.tier = gene.tier
  source : entry.source = gene.source
  intents : entry.intents = gene.intents
  rules : entry.rules = gene.rules
  signature : sha256.decodeHex entry.signature = gene.signature

theorem verify_of_loadGene {seen : List String} {entry : ManifestGene} {loaded : Gene Digest}
    (describes : entry.Describes sha256 gene)
    (success : loadGene sha256 host seen entry = .ok loaded) : gene.verify sha256 host = none := by
  unfold loadGene at success
  split at success
  · cases success
  · split at success
    · cases success
    · split at success
      · cases success
      · split at success
        · cases success
        · split at success
          · cases success
          next signature decoded =>
            obtain ⟨name, tier, source, intents, rules, stored⟩ := gene
            obtain ⟨rfl, rfl, rfl, rfl, rfl, signed⟩ := describes
            obtain rfl : some signature = stored := decoded.symm.trans signed
            dsimp only at success
            split at success
            · cases success
            · assumption

theorem verify_of_loadGenes {seen : List String} {entries : List ManifestGene}
    {entry : ManifestGene} {loaded : List (Gene Digest)} (member : entry ∈ entries)
    (describes : entry.Describes sha256 gene)
    (success : loadGenes sha256 host seen entries = .ok loaded) :
    gene.verify sha256 host = none := by
  induction entries generalizing seen loaded with
  | nil => cases member
  | cons first rest ih =>
    unfold loadGenes at success
    cases begun : loadGene sha256 host seen first with
    | error err => simp [begun] at success
    | ok firstGene =>
      cases tail : loadGenes sha256 host (first.name :: seen) rest with
      | error err => simp [begun, tail, Except.map] at success
      | ok restGenes =>
        rcases List.mem_cons.mp member with rfl | later
        · exact verify_of_loadGene describes begun
        · exact ih later tail

theorem verify_of_checkGene {allowHardTiers : Bool}
    (accepted : checkGene host sha256 allowHardTiers gene = .ok none) :
    gene.verify sha256 host = none := by
  unfold checkGene at accepted
  split at accepted
  · cases accepted
  · assumption

variable (sha256 host) in
/-- Verification fails, and neither the compiler nor the loader of pools accepts the
gene. -/
structure Rejected (gene : Gene Digest) : Prop where
  verify : gene.verify sha256 host ≠ none
  compile : ∀ allowHardTiers genes text, gene ∈ genes →
    Genes.compile host sha256 allowHardTiers genes ≠ .ok (.ok text)
  loadPool : ∀ manifest entry pool, entry ∈ manifest.genes → entry.Describes sha256 gene →
    Genes.loadPool sha256 host (.manifest manifest) ≠ .ok pool

theorem rejected_iff (gene : Gene Digest) :
    Rejected sha256 host gene ↔ gene.verify sha256 host ≠ none := by
  refine ⟨Rejected.verify, fun fails => ⟨fails, ?_, ?_⟩⟩
  · intro allowHardTiers genes text member compiled
    exact fails (verify_of_checkGene ((compile_ok compiled).1 gene member))
  · intro manifest entry pool member describes loaded
    rw [loadPool] at loaded
    split at loaded
    · cases loaded
    · cases success : loadGenes sha256 host [] manifest.genes with
      | error err => simp [success, Except.map] at loaded
      | ok genes => exact fails (verify_of_loadGenes member describes success)

/-- A gene under the signature of another one is rejected exactly if the two show
different lines.  If no field before the rules contains a line feed, that is if the
names, the tiers, the sources, the rules or the joined intents differ. -/
theorem Gene.signature_binds_iff (injective : sha256.Injective) {gene other : Gene Digest}
    (carries : other.signature = (gene.sign sha256).signature) :
    (Rejected sha256 host other ↔ gene.lines ≠ other.lines) ∧
      (gene.OneLined → other.OneLined →
        (gene.lines ≠ other.lines ↔
          gene.name ≠ other.name ∨ gene.tier ≠ other.tier ∨ gene.source ≠ other.source ∨
            " ".intercalate gene.intents ≠ " ".intercalate other.intents ∨
              gene.rules ≠ other.rules)) := by
  constructor
  · rw [rejected_iff, ne_eq, ne_eq, verify_eq_none_iff, carries, ← canonicalText_eq_iff]
    simp only [Gene.sign, Option.some.injEq, injective.ofDigest.eq_iff, Gene.canonical,
      injective.ofText.eq_iff]
  · intro oneLined otherOneLined
    rw [ne_eq, oneLined.lines_eq_iff otherOneLined]
    tauto

end Acceptance

/-! ## Two genes with one signature -/

def textDigest : Sha256 String where
  ofText := id
  ofDigest := id
  decodeHex := some

theorem textDigest_injective : textDigest.Injective := ⟨fun _ _ => id, fun _ _ => id⟩

def plainHost : Host where
  quote text := "\"" ++ text ++ "\""
  toLower := Char.toLower

def oneIntent : Gene String := ⟨"g", "T2", "review", ["pay out"], "ok(\"x\").", none⟩

def twoIntents : Gene String := { oneIntent with intents := ["pay", "out"] }

def longRules : Gene String :=
  ⟨"g", "T2", "review", ["pay"],
    "halt(\"Req\", \"limit\", \"T2\").\nintents=[pay]\nrules=ok(\"x\").", none⟩

/-- The first of the rules has become a part of the source. -/
def longSource : Gene String :=
  ⟨"g", "T2", "review\nintents=[pay]\nrules=halt(\"Req\", \"limit\", \"T2\").", ["pay"],
    "ok(\"x\").", none⟩

/-- Both pairs differ, but each gene verifies under the signature of the other of its
pair. -/
theorem signature_shared :
    let signed := fun gene other : Gene String =>
      { other with signature := (gene.sign textDigest).signature }
    (oneIntent ≠ twoIntents ∧ (signed oneIntent twoIntents).verify textDigest plainHost = none) ∧
      longRules ≠ longSource ∧
      (signed longRules longSource).verify textDigest plainHost = none := by
  decide +kernel

/-- The gene under another name, with the signature of the first. -/
def renamed : Gene String :=
  { oneIntent with name := "h", signature := (oneIntent.sign textDigest).signature }

theorem renamed_rejected : Rejected textDigest plainHost renamed := by
  have carries : renamed.signature = (oneIntent.sign textDigest).signature := rfl
  exact (Gene.signature_binds_iff textDigest_injective carries).1.mpr (by decide +kernel)

end Manglekit.Genes

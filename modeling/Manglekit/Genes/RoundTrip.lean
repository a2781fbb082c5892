import Manglekit.Genes.Signature

/-!
# Pools that are written and read back

`WritePool` asks only that every gene is signed.  `LoadPool` also looks at names, tiers, rules and
the signatures themselves, so it can refuse what was written.
-/

namespace Manglekit.Genes

open Core

variable {Digest : Type} {sha256 : Sha256 Digest}

/-- `hex.EncodeToString` on digests, which are not empty. -/
structure HexEncoder (sha256 : Sha256 Digest) where
  encode : Digest → String
  decode_encode : ∀ digest, sha256.decodeHex (encode digest) = some digest
  encode_ne_empty : ∀ digest, encode digest ≠ ""

variable (hex : HexEncoder sha256) (host : Host)

def Gene.entry (gene : Gene Digest) (signature : Digest) : ManifestGene :=
  { name := gene.name
    tier := gene.tier
    source := gene.source
    intents := gene.intents
    rules := gene.rules
    signature := hex.encode signature }

def writeGenes : List (Gene Digest) → Except GoError (List ManifestGene)
  | [] => .ok []
  | gene :: rest =>
    match gene.signature with
    | none => .error (.text ("x/genes: gene " ++ host.quote gene.name ++ " is not signed"))
    | some signature => (writeGenes rest).map (gene.entry hex signature :: ·)

def writePool (genes : List (Gene Digest)) : Except GoError Manifest :=
  (writeGenes hex host genes).map fun entries => { version := 1, genes := entries }

variable [DecidableEq Digest] {hex host}

structure Gene.Loadable (sha256 : Sha256 Digest) (host : Host) (gene : Gene Digest) : Prop where
  named : gene.name ≠ ""
  tiered : validTier gene.tier
  ruled : gene.rules ≠ ""
  verified : gene.verify sha256 host = none

theorem loadGene_entry {seen : List String} {gene loaded : Gene Digest} {signature : Digest}
    (signed : gene.signature = some signature) :
    loadGene sha256 host seen (gene.entry hex signature) = .ok loaded ↔
      loaded = gene ∧ gene.name ∉ seen ∧ gene.Loadable sha256 host := by
  have rebuilt : ({ gene with signature := some signature } : Gene Digest) = gene := by
    rw [← signed]
  simp only [loadGene, Gene.entry, hex.decode_encode, hex.encode_ne_empty, if_false, rebuilt]
  grind [Gene.Loadable]

theorem map_eq_ok {Result Other : Type} {function : Result → Other} {other : Other}
    {part : Except GoError Result} :
    part.map function = .ok other ↔ ∃ result, part = .ok result ∧ function result = other := by
  cases part <;> simp [Except.map]

theorem loadGenes_written {seen : List String} {genes : List (Gene Digest)}
    {entries : List ManifestGene} (written : writeGenes hex host genes = .ok entries) :
    loadGenes sha256 host seen entries = .ok genes ↔
      (genes.map Gene.name).Nodup ∧
        ∀ gene ∈ genes, gene.name ∉ seen ∧ gene.Loadable sha256 host := by
  induction genes generalizing seen entries with
  | nil =>
    cases written
    simp [loadGenes]
  | cons gene rest ih =>
    rw [writeGenes] at written
    split at written
    · cases written
    next signature signed =>
      obtain ⟨others, remaining, rfl⟩ := map_eq_ok.mp written
      have first {loaded : Gene Digest} :
          loadGene sha256 host seen (gene.entry hex signature) = .ok loaded ↔ _ :=
        loadGene_entry signed
      have later : loadGenes sha256 host (gene.name :: seen) others = .ok rest ↔ _ := ih remaining
      rw [loadGenes]
      cases loads : loadGene sha256 host seen (gene.entry hex signature) with
      | error err =>
        have refused := mt first.mpr (by simp [loads] : ¬ _ = Except.ok gene)
        grind
      | ok loaded =>
        obtain ⟨rfl, fresh, loadable⟩ := first.mp loads
        simp only [map_eq_ok, List.cons.injEq, true_and, exists_eq_right]
        refine later.trans ?_
        grind

theorem written_pool_loads_iff {genes : List (Gene Digest)} {manifest : Manifest}
    (written : writePool hex host genes = .ok manifest) :
    loadPool sha256 host (.manifest manifest) = .ok ⟨genes⟩ ↔
      (genes.map Gene.name).Nodup ∧ ∀ gene ∈ genes, gene.Loadable sha256 host := by
  obtain ⟨entries, writes, rfl⟩ := map_eq_ok.mp written
  have loads : loadGenes sha256 host [] entries = .ok genes ↔ _ := loadGenes_written writes
  simp only [loadPool, ne_eq, not_true_eq_false, if_false, map_eq_ok, Pool.mk.injEq,
    exists_eq_right]
  simpa using loads

/-! ## A pool that is refused -/

def oneDigest : Sha256 Unit where
  ofText _ := ()
  ofDigest _ := ()
  decodeHex _ := some ()

def oneHex : HexEncoder oneDigest where
  encode _ := "00"
  decode_encode _ := rfl
  encode_ne_empty _ := by decide

def signedGene : Gene Unit := ⟨"g", "T2", "review", [], "ok(\"x\").", some ()⟩

theorem signed_gene_loads :
    loadPool oneDigest plainHost (.manifest ⟨1, [signedGene.entry oneHex ()]⟩) =
      .ok ⟨[signedGene]⟩ :=
  (written_pool_loads_iff (show writePool oneHex plainHost [signedGene] = .ok _ from rfl)).mpr
    ⟨List.nodup_singleton _, by simpa using ⟨by decide, by decide, by decide, rfl⟩⟩

/-- A gene that is in the pool twice, one without rules, and one without a tier. -/
theorem written_pools_refused :
    let reload (genes : List (Gene Unit)) := (writePool oneHex plainHost genes).bind fun manifest =>
      loadPool oneDigest plainHost (.manifest manifest)
    (writePool oneHex plainHost [signedGene, signedGene]).isOk ∧
      reload [signedGene, signedGene] =
        .error (.text "x/genes: gene with empty or duplicate name \"g\"") ∧
      reload [{ signedGene with rules := "" }] =
        .error (.text "x/genes: gene \"g\" has no rules") ∧
      reload [{ signedGene with tier := "" }] =
        .error (.text "x/genes: gene \"g\" has invalid tier \"\" (want T0..T3)") :=
  ⟨rfl, rfl, rfl, rfl⟩

end Manglekit.Genes

import Manglekit.Genes.RoundTrip
import Mathlib.Data.List.Perm.Basic
import Mathlib.Data.String.Basic

/-!
# The order of a manifest

Genes are handed out sorted by name.  No name occurs twice in a pool, so the order in which a
manifest lists them does not matter.
-/

namespace Manglekit.Genes

open Core

variable {Digest : Type}

/-- `sort.Slice` by name, which need not be stable. -/
structure NameSort (Digest : Type) where
  sort : List (Gene Digest) → List (Gene Digest)
  perm : ∀ genes, (sort genes).Perm genes
  ascending : ∀ genes, (sort genes).Pairwise fun first second => first.name ≤ second.name

def Pool.sorted (slice : NameSort Digest) (pool : Pool Digest) : List (Gene Digest) :=
  slice.sort pool.genes

def Pool.active (slice : NameSort Digest) (pool : Pool Digest) (intent : String) :
    List (Gene Digest) :=
  (pool.sorted slice).filter fun gene => gene.intents.isEmpty || gene.intents.contains intent

theorem sort_eq_of_perm (slice : NameSort Digest) {first second : List (Gene Digest)}
    (perm : first.Perm second) (distinct : (first.map Gene.name).Nodup) :
    slice.sort first = slice.sort second := by
  have sorted := (slice.perm first).trans (perm.trans (slice.perm second).symm)
  refine List.Perm.eq_of_pairwise (fun one other inFirst inSecond below above => ?_)
    (slice.ascending first) (slice.ascending second) sorted
  have member := (slice.perm first).mem_iff.mp inFirst
  have otherMember := perm.mem_iff.mpr ((slice.perm second).mem_iff.mp inSecond)
  exact List.inj_on_of_nodup_map distinct member otherMember (le_antisymm below above)

/-! ## Loading in any order -/

variable [DecidableEq Digest] {sha256 : Sha256 Digest} {host : Host} {entry : ManifestGene}
  {gene : Gene Digest} {entries others : List ManifestGene} {genes : List (Gene Digest)}
  {seen : List String}

theorem loadGene_iff : loadGene sha256 host seen entry = .ok gene ↔
    entry.name ∉ seen ∧ loadGene sha256 host [] entry = .ok gene := by
  by_cases known : entry.name ∈ seen <;> simp [loadGene, known]

theorem loadGene_spec (loads : loadGene sha256 host seen entry = .ok gene) :
    gene.name = entry.name ∧ gene.verify sha256 host = none := by
  rw [loadGene] at loads
  grind

theorem loadGenes_cons : loadGenes sha256 host seen (entry :: entries) = .ok genes ↔
    ∃ first rest, loadGene sha256 host seen entry = .ok first ∧
      loadGenes sha256 host (entry.name :: seen) entries = .ok rest ∧ first :: rest = genes := by
  rw [loadGenes]
  cases loadGene sha256 host seen entry <;> simp [map_eq_ok]

theorem loadGenes_iff : loadGenes sha256 host seen entries = .ok genes ↔
    (entries.map ManifestGene.name).Nodup ∧ (∀ entry ∈ entries, entry.name ∉ seen) ∧
      List.Forall₂ (fun entry gene => loadGene sha256 host [] entry = .ok gene) entries genes := by
  induction entries generalizing seen genes with
  | nil => cases genes <;> simp [loadGenes]
  | cons entry rest ih =>
    have first {gene : Gene Digest} : loadGene sha256 host seen entry = .ok gene ↔ _ := loadGene_iff
    simp only [loadGenes_cons, List.forall₂_cons_left_iff, ih, first]
    grind

/-- A permuted manifest is loaded as a permuted pool. -/
theorem loadGenes_perm (perm : entries.Perm others)
    (loads : loadGenes sha256 host [] entries = .ok genes) :
    ∃ permuted, loadGenes sha256 host [] others = .ok permuted ∧ genes.Perm permuted := by
  obtain ⟨distinct, fresh, loaded⟩ := loadGenes_iff.mp loads
  obtain ⟨permuted, loaded, perms⟩ := List.perm_comp_forall₂ perm.symm loaded
  refine ⟨permuted, loadGenes_iff.mpr ⟨?_, by simp, loaded⟩, perms.symm⟩
  exact (perm.map ManifestGene.name).nodup_iff.mp distinct

theorem names_of_loaded
    (loaded : List.Forall₂ (fun entry gene => loadGene sha256 host [] entry = .ok gene)
      entries genes) :
    genes.map Gene.name = entries.map ManifestGene.name ∧
      ∀ gene ∈ genes, gene.verify sha256 host = none := by
  induction loaded with
  | nil => simp
  | cons loads _ ih =>
    obtain ⟨named, verified⟩ := loadGene_spec loads
    simpa [named, verified, ih.1] using ih.2

/-- Two pools give the same policy for every intent. -/
structure SamePolicy (sha256 : Sha256 Digest) (host : Host) (slice : NameSort Digest)
    (pool other : Pool Digest) : Prop where
  active : ∀ intent, pool.active slice intent = other.active slice intent
  ascending : ∀ intent, (pool.active slice intent).Pairwise fun first second =>
    first.name < second.name
  verified : ∀ intent, ∀ gene ∈ pool.active slice intent, gene.verify sha256 host = none
  compiled : ∀ intent allowHardTiers,
    compile host sha256 allowHardTiers (pool.active slice intent) =
      compile host sha256 allowHardTiers (other.active slice intent)

theorem loadPool_iff {manifest : Manifest} {pool : Pool Digest} :
    loadPool sha256 host (.manifest manifest) = .ok pool ↔
      manifest.version = 1 ∧ loadGenes sha256 host [] manifest.genes = .ok pool.genes := by
  obtain ⟨genes⟩ := pool
  rw [loadPool]
  split <;> simp_all [map_eq_ok]

theorem manifest_order_irrelevant (slice : NameSort Digest) {manifest permuted : Manifest}
    (version : manifest.version = permuted.version) (perm : manifest.genes.Perm permuted.genes) :
    ((∃ pool, loadPool sha256 host (.manifest manifest) = .ok pool) ↔
      ∃ pool, loadPool sha256 host (.manifest permuted) = .ok pool) ∧
    ∀ pool other, loadPool sha256 host (.manifest manifest) = .ok pool →
      loadPool sha256 host (.manifest permuted) = .ok other →
      SamePolicy sha256 host slice pool other := by
  simp only [loadPool_iff, version]
  constructor
  · constructor
    · rintro ⟨pool, supported, loads⟩
      obtain ⟨genes, others, -⟩ := loadGenes_perm perm loads
      exact ⟨⟨genes⟩, supported, others⟩
    · rintro ⟨pool, supported, loads⟩
      obtain ⟨genes, others, -⟩ := loadGenes_perm perm.symm loads
      exact ⟨⟨genes⟩, supported, others⟩
  · rintro pool other ⟨-, loads⟩ ⟨-, otherLoads⟩
    obtain ⟨genes, again, perms⟩ := loadGenes_perm perm loads
    obtain rfl : genes = other.genes := Except.ok.inj (again.symm.trans otherLoads)
    obtain ⟨distinct, -, loaded⟩ := loadGenes_iff.mp loads
    obtain ⟨names, verified⟩ := names_of_loaded loaded
    rw [← names] at distinct
    have active : ∀ intent, pool.active slice intent = other.active slice intent := fun intent => by
      rw [Pool.active, Pool.active, Pool.sorted, sort_eq_of_perm slice perms distinct, Pool.sorted]
    refine ⟨active, fun intent => ?_, fun intent gene member => ?_, fun intent allow => ?_⟩
    · have different :=
        List.pairwise_map.mp (((slice.perm pool.genes).map _).nodup_iff.mpr distinct)
      exact (((slice.ascending pool.genes).and different).imp fun both =>
        lt_of_le_of_ne both.1 both.2).filter _
    · exact verified gene ((slice.perm _).mem_iff.mp (List.mem_of_mem_filter member))
    · rw [active]

/-! ## Two genes that change places -/

def mergeSlice : NameSort Unit where
  sort genes := genes.mergeSort fun first second => first.name ≤ second.name
  perm genes := List.mergeSort_perm genes _
  ascending genes := by
    have sorted := @List.pairwise_mergeSort _
      (fun first second : Gene Unit => decide (first.name ≤ second.name))
      (fun first second third => by simpa using le_trans)
      (fun first second => by simpa using le_total first.name second.name) genes
    simpa using sorted

def laterGene : Gene Unit := { signedGene with name := "h" }

theorem swapped_genes_load : ∃ pool, loadPool oneDigest plainHost
    (.manifest ⟨1, [laterGene.entry oneHex (), signedGene.entry oneHex ()]⟩) = .ok pool :=
  (@manifest_order_irrelevant Unit _ oneDigest plainHost mergeSlice
    ⟨1, [signedGene.entry oneHex (), laterGene.entry oneHex ()]⟩
    ⟨1, [laterGene.entry oneHex (), signedGene.entry oneHex ()]⟩ rfl (.swap _ _ [])).1.mp
      ⟨_, rfl⟩

end Manglekit.Genes

import Manglekit.Engine.Source

/-!
# Genes

A gene is a signed piece of Datalog that was learned rather than written.  Genes are
kept in a pool, and become policy by being compiled into one program.  Blocking tiers
are refused unless they are asked for.
-/

namespace Manglekit.Genes

open Core

/-! ## Signatures -/

structure Sha256 (Digest : Type) where
  ofText : String → Digest
  ofDigest : Digest → Digest
  decodeHex : String → Option Digest

structure Sha256.Injective {Digest : Type} (sha256 : Sha256 Digest) : Prop where
  ofText : Function.Injective sha256.ofText
  ofDigest : Function.Injective sha256.ofDigest

structure Gene (Digest : Type) where
  name : String
  tier : Tier
  source : String
  intents : List String
  rules : String
  signature : Option Digest := none
  deriving DecidableEq

/-- The verb `%q` and the lower case of a character. -/
structure Host where
  quote : String → String
  toLower : Char → Char

section Signatures

variable {Digest : Type} (sha256 : Sha256 Digest)

/-- The text that is hashed.  Intents are printed with the verb `%v`. -/
def Gene.canonicalText (gene : Gene Digest) : String :=
  "name=" ++ gene.name ++ "\n" ++ "tier=" ++ gene.tier ++ "\n" ++ "source=" ++ gene.source ++ "\n"
    ++ "intents=[" ++ " ".intercalate gene.intents ++ "]\n" ++ "rules=" ++ gene.rules ++ "\n"

def Gene.canonical (gene : Gene Digest) : Digest := sha256.ofText gene.canonicalText

def Gene.sign (gene : Gene Digest) : Gene Digest :=
  { gene with signature := some (sha256.ofDigest (gene.canonical sha256)) }

variable [DecidableEq Digest] (host : Host)

def Gene.verify (gene : Gene Digest) : Option GoError :=
  match gene.signature with
  | none => some (.text ("gene " ++ host.quote gene.name ++ " is unsigned"))
  | some signature =>
    if signature ≠ sha256.ofDigest (gene.canonical sha256) then
      some (.text ("gene " ++ host.quote gene.name
        ++ " signature mismatch — rules or metadata were modified after signing"))
    else none

end Signatures

/-! ## Tiers -/

def validTier (tier : Tier) : Bool :=
  tier = tierT0Axiom || tier = tierT1Governance || tier = tierT2Playbook || tier = tierT3User

def isHardTier (tier : Tier) : Bool := tier = tierT0Axiom || tier = tierT1Governance

/-! ## Pools -/

structure ManifestGene where
  name : String
  tier : Tier
  source : String
  intents : List String
  rules : String
  signature : String

structure Manifest where
  version : Int
  genes : List ManifestGene

inductive Decoded where
  | eof
  | failed (err : GoError)
  | manifest (manifest : Manifest)

structure Pool (Digest : Type) where
  genes : List (Gene Digest)

section Pools

variable {Digest : Type} [DecidableEq Digest] (sha256 : Sha256 Digest) (host : Host)

def loadGene (seen : List String) (entry : ManifestGene) : Except GoError (Gene Digest) :=
  if entry.name = "" ∨ entry.name ∈ seen then
    .error (.text ("x/genes: gene with empty or duplicate name " ++ host.quote entry.name))
  else if !validTier entry.tier then
    .error (.text ("x/genes: gene " ++ host.quote entry.name ++ " has invalid tier "
      ++ host.quote entry.tier ++ " (want T0..T3)"))
  else if entry.rules = "" then
    .error (.text ("x/genes: gene " ++ host.quote entry.name ++ " has no rules"))
  else if entry.signature = "" then
    .error (.text ("x/genes: gene " ++ host.quote entry.name
      ++ " is unsigned — run Gene.Sign() and write the manifest again"))
  else
    match sha256.decodeHex entry.signature with
    | none =>
      .error (.wrap ("x/genes: gene " ++ host.quote entry.name)
        (.text ("invalid signature hex: " ++ host.quote entry.signature)))
    | some signature =>
      let gene : Gene Digest :=
        { name := entry.name
          tier := entry.tier
          source := entry.source
          intents := entry.intents
          rules := entry.rules
          signature := some signature }
      match gene.verify sha256 host with
      | some err => .error (.wrap "x/genes" err)
      | none => .ok gene

def loadGenes (seen : List String) : List ManifestGene → Except GoError (List (Gene Digest))
  | [] => .ok []
  | entry :: rest =>
    match loadGene sha256 host seen entry with
    | .error err => .error err
    | .ok gene => (loadGenes (entry.name :: seen) rest).map (gene :: ·)

def loadPool : Decoded → Except GoError (Pool Digest)
  | .eof => .ok ⟨[]⟩
  | .failed err => .error (.wrap "x/genes: parse manifest" err)
  | .manifest manifest =>
    if manifest.version ≠ 1 then
      .error (.text ("x/genes: unsupported manifest version " ++ toString manifest.version
        ++ " (want 1)"))
    else (loadGenes sha256 host [] manifest.genes).map Pool.mk

end Pools

end Manglekit.Genes

import Manglekit.Ooda.Frame
import Mathlib.Data.List.Infix
import Mathlib.Data.List.Sort

/-!
# Shaving the context

A context over its budget loses its light atoms, and of the others those that no longer fit, the
heaviest first.  Each atom is charged for its own texts, rounded down, while the budget is judged
on the texts of all of them.
-/

namespace Manglekit.Ooda

def defaultMaxContextTokens : Nat := 24000

def shaveThreshold : Rat := 1 / 2

namespace Atom

def size (atom : Atom) : Nat :=
  atom.predicate.utf8ByteSize + atom.subject.utf8ByteSize + atom.object.utf8ByteSize + 3

def total (quantity : Atom → Nat) : List Atom → Nat
  | [] => 0
  | atom :: rest => quantity atom + total quantity rest

theorem total_le_of_prefix (quantity : Atom → Nat) {kept atoms : List Atom}
    (isPrefix : kept <+: atoms) : total quantity kept ≤ total quantity atoms := by
  induction kept generalizing atoms with
  | nil => exact Nat.zero_le _
  | cons atom kept ih =>
    obtain ⟨rest, rfl⟩ := isPrefix
    exact Nat.add_le_add_left (ih ⟨rest, rfl⟩) _

end Atom

def estimateTokens (atoms : List Atom) : Nat :=
  let total := Atom.total Atom.size atoms
  if total > 0 then total / 4 else atoms.length * 4

def Atom.tokens (atom : Atom) : Nat := estimateTokens [atom]

def trimmedToBudget (maxTokens : Nat) : (used : Nat) → List Atom → List Atom
  | _, [] => []
  | used, atom :: rest =>
    if used + atom.tokens > maxTokens then []
    else atom :: trimmedToBudget maxTokens (used + atom.tokens) rest

def HeavierFirst (first second : Atom) : Prop := second.weight ≤ first.weight

/-- `sort.Slice` by descending weight, which need not be stable. -/
structure WeightSort where
  sort : List Atom → List Atom
  perm : ∀ atoms, (sort atoms).Perm atoms
  descending : ∀ atoms, (sort atoms).Pairwise HeavierFirst

def tokenBudget (maxTokens : Int) : Nat :=
  if maxTokens ≤ 0 then defaultMaxContextTokens else maxTokens.toNat

/-- The atoms that may be kept. -/
def heavyAtoms (atoms : List Atom) : List Atom :=
  atoms.filter fun atom => shaveThreshold ≤ atom.weight

variable {East : Type}

def shaveContext (slice : WeightSort) (frame : CognitiveFrame East) (maxTokens : Int) :
    CognitiveFrame East :=
  if estimateTokens frame.context ≤ tokenBudget maxTokens then frame
  else
    { frame with
      context := trimmedToBudget (tokenBudget maxTokens) 0 (slice.sort (heavyAtoms frame.context)) }

/-! ## The kept atoms -/

theorem estimateTokens_eq (atoms : List Atom) :
    estimateTokens atoms = Atom.total Atom.size atoms / 4 := by
  cases atoms with
  | nil => rfl
  | cons atom rest =>
    have positive : Atom.total Atom.size (atom :: rest) > 0 := by
      simp only [Atom.total, Atom.size]
      omega
    exact if_pos positive

theorem trimmedToBudget_prefix (maxTokens used : Nat) (atoms : List Atom) :
    trimmedToBudget maxTokens used atoms <+: atoms := by
  induction atoms generalizing used with
  | nil => exact List.prefix_refl []
  | cons atom rest ih =>
    unfold trimmedToBudget
    split_ifs
    · exact List.nil_prefix
    · exact List.prefix_cons_inj atom |>.mpr (ih _)

theorem charged_trimmedToBudget {maxTokens used : Nat} (atoms : List Atom)
    (within : used ≤ maxTokens) :
    used + Atom.total Atom.tokens (trimmedToBudget maxTokens used atoms) ≤ maxTokens := by
  induction atoms generalizing used with
  | nil => exact within
  | cons atom rest ih =>
    unfold trimmedToBudget
    split_ifs with exceeded
    · exact within
    · have later := @ih (used + atom.tokens) (by omega)
      simp only [Atom.total]
      omega

theorem prefix_trimmedToBudget {maxTokens used : Nat} {kept atoms : List Atom}
    (isPrefix : kept <+: atoms) (paid : used + Atom.total Atom.tokens kept ≤ maxTokens) :
    kept <+: trimmedToBudget maxTokens used atoms := by
  induction kept generalizing atoms used with
  | nil => exact List.nil_prefix
  | cons atom kept ih =>
    obtain ⟨rest, rfl⟩ := isPrefix
    simp only [Atom.total] at paid
    have fits : ¬ used + atom.tokens > maxTokens := by omega
    simp only [List.cons_append, trimmedToBudget, if_neg fits]
    exact (List.prefix_cons_inj atom).mpr (ih ⟨rest, rfl⟩ (by omega))

/-! ## The budget -/

/-- What is left of a context fits the budget, and is all of it or the heaviest of its heavy
atoms. -/
structure Shaved (maxTokens : Nat) (before after : List Atom) : Prop where
  fits : estimateTokens after ≤ maxTokens
  kept : if estimateTokens before ≤ maxTokens then after = before
    else ∃ order : List Atom,
      order.Perm (heavyAtoms before) ∧ order.Pairwise HeavierFirst ∧ after <+: order

/-- Atoms from the start of the list are paid for one by one, and too long together. -/
def RoundsOver (maxTokens : Nat) (atoms : List Atom) : Prop :=
  ∃ kept, kept <+: atoms ∧ Atom.total Atom.tokens kept ≤ maxTokens ∧
    4 * maxTokens + 4 ≤ Atom.total Atom.size kept

theorem estimate_trimmed_le_iff (maxTokens : Nat) (atoms : List Atom) :
    estimateTokens (trimmedToBudget maxTokens 0 atoms) ≤ maxTokens ↔
      ¬ RoundsOver maxTokens atoms := by
  rw [estimateTokens_eq]
  constructor
  · rintro fits ⟨kept, isPrefix, paid, long⟩
    have longer := Atom.total_le_of_prefix Atom.size
      (prefix_trimmedToBudget isPrefix ((Nat.zero_add _).trans_le paid))
    omega
  · intro short
    by_contra exceeded
    refine short ⟨_, trimmedToBudget_prefix maxTokens 0 atoms, ?_, by omega⟩
    simpa using charged_trimmedToBudget atoms (Nat.zero_le maxTokens)

/-- Shaving meets the budget unless the rounding of single atoms loses what does not fit. -/
theorem shaveContext_shaves_iff (slice : WeightSort) (frame : CognitiveFrame East)
    {maxTokens : Int} (positive : 0 < maxTokens) :
    Shaved maxTokens.toNat frame.context (shaveContext slice frame maxTokens).context ↔
      estimateTokens frame.context ≤ maxTokens.toNat ∨
        ¬ RoundsOver maxTokens.toNat (slice.sort (heavyAtoms frame.context)) := by
  have budget : tokenBudget maxTokens = maxTokens.toNat := if_neg (by omega)
  unfold shaveContext
  rw [budget]
  by_cases enough : estimateTokens frame.context ≤ maxTokens.toNat
  · rw [if_pos enough]
    exact iff_of_true ⟨enough, by rw [if_pos enough]⟩ (.inl enough)
  · rw [if_neg enough, or_iff_right enough, ← estimate_trimmed_le_iff]
    refine ⟨Shaved.fits, fun fits => ⟨fits, ?_⟩⟩
    rw [if_neg enough]
    exact ⟨_, slice.perm _, slice.descending _, trimmedToBudget_prefix _ _ _⟩

/-! ## Contexts that are shaved -/

instance : DecidableRel HeavierFirst := fun first second =>
  inferInstanceAs (Decidable (second.weight ≤ first.weight))

instance : IsTrans Atom HeavierFirst := ⟨fun _ _ _ first second => Rat.le_trans second first⟩

instance : Std.Total HeavierFirst := ⟨fun _ _ => Rat.le_total⟩

def insertionSlice : WeightSort where
  sort := List.insertionSort HeavierFirst
  perm := List.perm_insertionSort HeavierFirst
  descending := List.pairwise_insertionSort HeavierFirst

def twoFacts : CognitiveFrame Unit :=
  { context := [⟨"a", "is", "b", 1⟩, ⟨"c", "is", "d", 1⟩], east := () }

theorem shaveContext_twoFacts_roomy :
    (0 : Int) < 3 ∧ Shaved 3 twoFacts.context (shaveContext insertionSlice twoFacts 3).context :=
  ⟨by decide, (@shaveContext_shaves_iff Unit insertionSlice twoFacts 3 (by decide)).mpr
    (.inl (by decide))⟩

/-- Each fact counts for one token, both together for three. -/
theorem shaveContext_twoFacts_over :
    ¬ Shaved 2 twoFacts.context (shaveContext insertionSlice twoFacts 2).context := by
  intro shaved
  have fits := shaved.fits
  revert fits
  decide +kernel

end Manglekit.Ooda

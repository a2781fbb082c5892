import Manglekit.Core.Types
import Mathlib.Algebra.BigOperators.Ring.List
import Mathlib.Algebra.Order.BigOperators.Group.List
import Mathlib.Data.List.Induction
import Mathlib.Tactic.Linarith

/-!
# Fixed-choice decisions

The raw scores of a few options are normalised and the two largest of them are kept in one pass.
Numbers are exact here.
-/

namespace Manglekit.Scoring

open Core

structure Decision (Num : Type) where
  choice : String
  distribution : StringMap Num
  margin : Num
  entropy : Num

section Probabilities

variable {Num : Type} [Zero Num] (decision : Decision Num)

def Decision.prob (option : String) : Num := (decision.distribution.lookup option).getD 0

def Decision.top : Num := decision.prob decision.choice

end Probabilities

/-- The first value seen twice.  The empty text stands for none. -/
def firstDuplicate (xs : List String) : String := search [] xs where
  search (seen : List String) : List String → String
    | [] => ""
    | x :: xs => if x ∈ seen then x else search (x :: seen) xs

def clamp (p : Rat) : Rat := if p < 0 then 0 else p

def total (probs : List Rat) : Rat := probs.foldl (fun total p => total + clamp p) 0

structure Scan where
  distribution : StringMap Rat := ∅
  best : Nat := 0
  top : Rat := 0
  second : Rat := 0

/-- One turn of the loop over the options.  The first index wins ties. -/
def Scan.see (scan : Scan) (index : Nat) (option : String) (p : Rat) : Scan :=
  let distribution := scan.distribution.insert option p
  if scan.top < p then { distribution, best := index, top := p, second := scan.top }
  else if scan.second < p then { scan with distribution, second := p }
  else { scan with distribution }

def scan (shares : List (String × Rat)) : Scan :=
  shares.zipIdx.foldl (fun scan entry => scan.see entry.2 entry.1.1 entry.1.2) {}

def shares (probs : List Rat) : List Rat := probs.map fun p => clamp p / total probs

def Scan.decision (log : Rat → Rat) (options : List String) (scan : Scan) : Decision Rat where
  choice := (options[scan.best]?).getD ""
  distribution := scan.distribution
  margin := scan.top - scan.second
  entropy := scan.distribution.entries.foldl (fun entropy entry =>
    if 0 < entry.2 then entropy - entry.2 * log entry.2 else entropy) 0

/-- `log` is the natural logarithm and `quote` the verb `%q`. -/
def build (log : Rat → Rat) (quote : String → String) (labels options : List String)
    (probs : List Rat) : Except GoError (Decision Rat) :=
  if labels.length ≠ options.length ∨ options.length ≠ probs.length then
    .error (.text ("scoring: labels=" ++ toString labels.length ++ " options="
      ++ toString options.length ++ " probs=" ++ toString probs.length ++ " must match"))
  else if options.length = 0 then .error (.text "scoring: no options to choose among")
  else if firstDuplicate options ≠ "" then
    .error (.text ("scoring: duplicate option " ++ quote (firstDuplicate options)
      ++ " — options must be distinct"))
  else if firstDuplicate labels ≠ "" then
    .error (.text ("scoring: duplicate label " ++ quote (firstDuplicate labels)
      ++ " — labels must be distinct"))
  else if total probs ≤ 0 then
    .error (.text ("scoring: probabilities sum to zero — nothing was observed "
      ++ "(log-probabilities passed where probabilities were expected?)"))
  else .ok ((scan (options.zip (shares probs))).decision log options)

/-! ## Duplicates -/

theorem search_of_nodup {seen xs : List String} (nodup : xs.Nodup)
    (fresh : ∀ x ∈ xs, x ∉ seen) : firstDuplicate.search seen xs = "" := by
  induction xs generalizing seen with
  | nil => rfl
  | cons x xs ih =>
    rw [firstDuplicate.search, if_neg (fresh x List.mem_cons_self)]
    exact ih nodup.of_cons (by grind)

/-- A search that reports nothing has seen the empty text twice, or no text twice. -/
theorem nodup_of_search {seen xs : List String} (reported : firstDuplicate.search seen xs = "")
    (single : (seen ++ xs).count "" ≤ 1) : xs.Nodup ∧ ∀ x ∈ xs, x ∉ seen := by
  induction xs generalizing seen with
  | nil => simp
  | cons x xs ih =>
    rw [firstDuplicate.search] at reported
    split at reported
    next known =>
      subst reported
      have := List.count_pos_iff.mpr known
      simp only [List.count_append, List.count_cons_self] at single
      omega
    next unknown =>
      have same : (x :: seen ++ xs).Perm (seen ++ x :: xs) := List.perm_middle.symm
      obtain ⟨nodup, fresh⟩ := ih reported (by rwa [same.count_eq])
      grind

theorem nodup_iff_of_firstDuplicate {xs : List String} (reported : firstDuplicate xs = "") :
    xs.Nodup ↔ xs.count "" ≤ 1 :=
  ⟨fun nodup => List.nodup_iff_count_le_one.mp nodup "",
    fun single => (nodup_of_search reported single).1⟩

/-! ## The two largest shares -/

/-- The index of the first largest share. -/
structure Wins (shares : List Rat) (best : Nat) (top : Rat) : Prop where
  attained : shares[best]? = some top
  largest : ∀ (i : Nat) p, shares[i]? = some p → p ≤ top
  first : ∀ (i : Nat) p, shares[i]? = some p → i < best → p < top

/-- The largest share at any other index, which is zero if there is none. -/
structure RunnerUp (shares : List Rat) (best : Nat) (second : Rat) : Prop where
  bounds : ∀ (i : Nat) p, shares[i]? = some p → i ≠ best → p ≤ second
  attained : (∃ i, i ≠ best ∧ shares[i]? = some second) ∨ shares.length = 1 ∧ second = 0

variable {log : Rat → Rat} {quote : String → String} {labels options : List String}
  {probs : List Rat} {entries : List (String × Rat)} {decision : Decision Rat}

theorem scan_concat (option : String) (p : Rat) :
    scan (entries ++ [(option, p)]) = (scan entries).see entries.length option p := by
  simp [scan, List.zipIdx_append]

structure Ranked (seen : List Rat) (scan : Scan) : Prop where
  wins : Wins seen scan.best scan.top
  runnerUp : RunnerUp seen scan.best scan.second
  nonneg : 0 ≤ scan.second
  ordered : scan.second ≤ scan.top

theorem Ranked.see {scan : Scan} {seen : List Rat} (ranked : Ranked seen scan)
    (option : String) {p : Rat} (nonneg : 0 ≤ p) :
    Ranked (seen ++ [p]) (scan.see seen.length option p) := by
  obtain ⟨⟨attained, largest, first⟩, ⟨bounds, reached⟩, positive, ordered⟩ := ranked
  have inside : scan.best < seen.length := (List.getElem?_eq_some_iff.mp attained).1
  rw [Scan.see]
  split
  · refine ⟨⟨by simp, ?_, ?_⟩, ⟨?_, .inl ⟨scan.best, inside.ne, ?_⟩⟩, ?_, ?_⟩ <;> grind
  · split
    · refine ⟨⟨?_, ?_, ?_⟩, ⟨?_, .inl ⟨seen.length, inside.ne', by simp⟩⟩, ?_, ?_⟩ <;> grind
    · have kept : ∃ i, i ≠ scan.best ∧ (seen ++ [p])[i]? = some scan.second := by
        rcases reached with ⟨i, other, found⟩ | ⟨single, zero⟩
        · exact ⟨i, other, by grind⟩
        · exact ⟨seen.length, inside.ne', by grind⟩
      refine ⟨⟨?_, ?_, ?_⟩, ⟨?_, .inl kept⟩, positive, ordered⟩ <;> grind

theorem ranked_scan (some : entries ≠ []) (nonneg : ∀ entry ∈ entries, 0 ≤ entry.2) :
    Ranked (entries.map Prod.snd) (scan entries) := by
  induction entries using List.reverseRecOn with
  | nil => exact absurd rfl some
  | append_singleton seen entry ih =>
    have positive : 0 ≤ entry.2 := nonneg entry (by simp)
    rw [scan_concat, List.map_append]
    rcases eq_or_ne seen [] with rfl | earlier
    · -- The initial zeros are the ranking of a single share of zero.
      rw [Scan.see]
      split <;> refine ⟨⟨?_, ?_, ?_⟩, ⟨?_, ?_⟩, ?_, ?_⟩ <;> grind [scan]
    · simpa using (ih earlier fun other member => nonneg other (by simp [member])).see
        entry.1 positive

/-! ## The distribution -/

theorem distribution_concat (option : String) (p : Rat) :
    (scan (entries ++ [(option, p)])).distribution =
      (scan entries).distribution.insert option p := by
  rw [scan_concat, Scan.see]
  split
  · rfl
  · split <;> rfl

theorem keys_scan (nodup : (entries.map Prod.fst).Nodup) :
    (scan entries).distribution.keys.Perm (entries.map Prod.fst) := by
  induction entries using List.reverseRecOn with
  | nil => rfl
  | append_singleton seen entry ih =>
    rw [List.map_append, List.nodup_append] at nodup
    have keys := ih nodup.1
    have fresh : entry.1 ∉ (scan seen).distribution.keys := fun known =>
      nodup.2.2 entry.1 (keys.mem_iff.mp known) entry.1 (by simp) rfl
    rw [distribution_concat, AList.keys_insert, List.erase_of_not_mem fresh, List.map_append]
    exact (keys.cons entry.1).trans (List.perm_append_singleton entry.1 _).symm

theorem lookup_scan (nodup : (entries.map Prod.fst).Nodup) :
    ∀ entry ∈ entries, (scan entries).distribution.lookup entry.1 = some entry.2 := by
  induction entries using List.reverseRecOn with
  | nil => simp
  | append_singleton seen entry ih =>
    rw [List.map_append, List.nodup_append] at nodup
    intro other member
    rw [distribution_concat, StringMap.lookup_insert_if]
    rcases List.mem_append.mp member with earlier | last
    · have different := nodup.2.2 other.1 (List.mem_map_of_mem earlier) entry.1 (by simp)
      simpa [different] using ih nodup.1 other earlier
    · simp [List.mem_singleton.mp last]

/-! ## Successful calls -/

theorem clamp_nonneg (p : Rat) : 0 ≤ clamp p := by
  rw [clamp]
  split <;> grind

theorem build_eq_ok_iff : build log quote labels options probs = .ok decision ↔
    (labels.length = options.length ∧ options.length = probs.length ∧ options ≠ [] ∧
      firstDuplicate options = "" ∧ firstDuplicate labels = "" ∧ 0 < total probs) ∧
    (scan (options.zip (shares probs))).decision log options = decision := by
  rw [build]
  split_ifs <;> grind

structure Exact (options : List String) (probs : List Rat) (decision : Decision Rat) : Prop where
  keys : decision.distribution.keys.Perm options
  probabilities : options.map decision.prob = shares probs
  normalized : (options.map decision.prob).foldl (· + ·) 0 = 1
  ranked : ∃ best top second, Wins (shares probs) best top ∧
    RunnerUp (shares probs) best second ∧ options[best]? = some decision.choice ∧
    decision.margin = top - second
  nonneg : 0 ≤ decision.margin
  tied : decision.margin = 0 ↔ ∃ i j : Nat, i ≠ j ∧ ∃ top, (shares probs)[i]? = some top ∧
    (shares probs)[j]? = some top ∧ ∀ p ∈ shares probs, p ≤ top

theorem foldl_shares (positive : 0 < total probs) : (shares probs).foldl (· + ·) 0 = 1 := by
  have summed : total probs = (probs.map clamp).sum := by
    rw [total, List.sum_eq_foldl, List.foldl_map]
  rw [← List.sum_eq_foldl, shares]
  have divided : (probs.map fun p => clamp p / total probs).sum =
      (probs.map clamp).sum / total probs := by
    simp only [div_eq_mul_inv, List.sum_map_mul_right]
  rw [divided, ← summed, div_self positive.ne']

/-- The shares are not all zero. -/
theorem Ranked.top_pos {scan : Scan} (ranked : Ranked (shares probs) scan)
    (positive : 0 < total probs) : 0 < scan.top := by
  by_contra low
  have none : ∀ p ∈ shares probs, p ≤ 0 := fun p member =>
    let ⟨i, found⟩ := List.mem_iff_getElem?.mp member
    (ranked.wins.largest i p found).trans (not_lt.mp low)
  have sum := List.sum_le_card_nsmul _ 0 none
  rw [nsmul_zero, List.sum_eq_foldl, foldl_shares positive] at sum
  exact absurd sum (by decide)

theorem length_shares : (shares probs).length = probs.length := List.length_map _

section Success

variable (lengths : options.length = probs.length)

include lengths

theorem map_fst_zip_shares : (options.zip (shares probs)).map Prod.fst = options :=
  List.map_fst_zip (by simp [length_shares, lengths])

theorem map_snd_zip_shares : (options.zip (shares probs)).map Prod.snd = shares probs :=
  List.map_snd_zip (by simp [length_shares, lengths])

theorem ranked_shares (given : options ≠ []) (positive : 0 < total probs) :
    Ranked (shares probs) (scan (options.zip (shares probs))) := by
  have ranked := @ranked_scan (options.zip (shares probs)) (fun empty => ?_) fun entry member => ?_
  · rwa [map_snd_zip_shares lengths] at ranked
  · exact given (by rw [← map_fst_zip_shares lengths, empty, List.map_nil])
  · obtain ⟨p, -, same⟩ := List.mem_map.mp (List.of_mem_zip member).2
    exact same ▸ div_nonneg (clamp_nonneg p) positive.le

theorem keys_zip (nodup : options.Nodup) :
    (scan (options.zip (shares probs))).distribution.keys.Perm options := by
  have keys := @keys_scan (options.zip (shares probs))
  rw [map_fst_zip_shares lengths] at keys
  exact keys nodup

/-- The winner is one of the options. -/
theorem choice_of_ranked (ranked : Ranked (shares probs) (scan (options.zip (shares probs)))) :
    options[(scan (options.zip (shares probs))).best]? =
      some ((scan (options.zip (shares probs))).decision log options).choice := by
  have inside := (List.getElem?_eq_some_iff.mp ranked.wins.attained).1
  rw [length_shares, ← lengths] at inside
  rw [Scan.decision, List.getElem?_eq_getElem inside, Option.getD_some]

theorem lookup_of_nodup (nodup : options.Nodup) {i : Nat} {option : String} {p : Rat}
    (placed : options[i]? = some option) (share : (shares probs)[i]? = some p) :
    (scan (options.zip (shares probs))).distribution.lookup option = some p :=
  lookup_scan (by rwa [map_fst_zip_shares lengths]) (option, p)
    (List.mem_of_getElem? (List.getElem?_zip_eq_some.mpr ⟨placed, share⟩))

theorem prob_of_nodup (nodup : options.Nodup) :
    options.map ((scan (options.zip (shares probs))).decision log options).prob = shares probs := by
  apply List.ext_getElem?
  intro i
  rw [List.getElem?_map]
  by_cases inside : i < options.length
  · have share : i < (shares probs).length := by simpa [length_shares, ← lengths] using inside
    rw [List.getElem?_eq_getElem inside, List.getElem?_eq_getElem share, Option.map_some,
      Decision.prob, Scan.decision, lookup_of_nodup lengths nodup
        (List.getElem?_eq_getElem inside) (List.getElem?_eq_getElem share), Option.getD_some]
  · have outside : ¬ i < (shares probs).length := by simpa [length_shares, ← lengths] using inside
    simp [List.getElem?_eq_none (Nat.le_of_not_lt inside),
      List.getElem?_eq_none (Nat.le_of_not_lt outside)]

end Success

/-- The margin is zero exactly if two indices share the maximum. -/
theorem Ranked.tied {shares : List Rat} {scan : Scan} (ranked : Ranked shares scan)
    (positive : 0 < scan.top) :
    scan.top - scan.second = 0 ↔ ∃ i j : Nat, i ≠ j ∧ ∃ top, shares[i]? = some top ∧
      shares[j]? = some top ∧ ∀ p ∈ shares, p ≤ top := by
  obtain ⟨⟨attained, largest, -⟩, ⟨bounds, reached⟩, -, ordered⟩ := ranked
  have greatest : ∀ p ∈ shares, p ≤ scan.top := fun p member =>
    let ⟨i, found⟩ := List.mem_iff_getElem?.mp member
    largest i p found
  rw [sub_eq_zero]
  constructor
  · intro same
    rcases reached with ⟨i, other, found⟩ | ⟨-, zero⟩
    · exact ⟨scan.best, i, other.symm, scan.top, attained, same ▸ found, greatest⟩
    · exact absurd (same.trans zero) positive.ne'
  · rintro ⟨i, j, different, top, first, second, bound⟩
    have equal : top = scan.top :=
      le_antisymm (largest i top first) (bound _ (List.mem_of_getElem? attained))
    subst equal
    refine le_antisymm ?_ ordered
    by_cases same : i = scan.best
    · exact bounds j _ second fun other => different (same.trans other.symm)
    · exact bounds i _ first same

theorem build_exact (labelled : labels.length = options.length)
    (lengths : options.length = probs.length) (given : options ≠ []) (distinct : options.Nodup)
    (distinctLabels : labels.Nodup) (positive : 0 < total probs) :
    ∃ decision, build log quote labels options probs = .ok decision ∧
      Exact options probs decision := by
  have ranked := ranked_shares lengths given positive
  refine ⟨_, build_eq_ok_iff.mpr ⟨⟨labelled, lengths, given, search_of_nodup distinct (by simp),
    search_of_nodup distinctLabels (by simp), positive⟩, rfl⟩, ?_⟩
  exact
    { keys := keys_zip lengths distinct
      probabilities := prob_of_nodup lengths distinct
      normalized := by rw [prob_of_nodup lengths distinct, foldl_shares positive]
      ranked := ⟨_, _, _, ranked.wins, ranked.runnerUp, choice_of_ranked lengths ranked, rfl⟩
      nonneg := sub_nonneg.mpr ranked.ordered
      tied := ranked.tied (ranked.top_pos positive) }

/-- A score that is leading alone. -/
theorem build_exact_two : ∃ decision,
    build id id ["A", "B", "C"] ["x", "y", "z"] [-1, 1, 3] = .ok decision ∧
      Exact ["x", "y", "z"] [-1, 1, 3] decision :=
  build_exact rfl rfl (by decide) (by decide) (by decide) (by decide +kernel)

structure Unambiguous (labels options : List String) (probs : List Rat)
    (decision : Decision Rat) : Prop where
  distinctLabels : labels.Nodup
  distinctOptions : options.Nodup
  keys : decision.distribution.keys.Perm options
  choice : ∃ best top, Wins (shares probs) best top ∧ options[best]? = some decision.choice ∧
    decision.distribution.lookup decision.choice = some top

theorem build_unambiguous_iff (success : build log quote labels options probs = .ok decision) :
    Unambiguous labels options probs decision ↔ labels.count "" ≤ 1 ∧ options.count "" ≤ 1 := by
  obtain ⟨⟨-, lengths, given, unrepeated, unrepeatedLabels, positive⟩, rfl⟩ :=
    build_eq_ok_iff.mp success
  have ranked := ranked_shares lengths given positive
  have chosen := @choice_of_ranked log _ _ lengths ranked
  rw [← nodup_iff_of_firstDuplicate unrepeated, ← nodup_iff_of_firstDuplicate unrepeatedLabels]
  refine ⟨fun unambiguous => ⟨unambiguous.distinctLabels, unambiguous.distinctOptions⟩,
    fun distinct => ?_⟩
  exact
    { distinctLabels := distinct.1
      distinctOptions := distinct.2
      keys := keys_zip lengths distinct.2
      choice := ⟨_, _, ranked.wins, chosen,
        lookup_of_nodup lengths distinct.2 chosen ranked.wins.attained⟩ }

theorem single_blank_unambiguous : ∃ decision,
    build id id ["A", ""] ["x", "y"] [1, 3] = .ok decision ∧
      Unambiguous ["A", ""] ["x", "y"] [1, 3] decision :=
  have success := build_eq_ok_iff.mpr ⟨by decide +kernel, rfl⟩
  ⟨_, success, (build_unambiguous_iff success).mpr (by decide)⟩

/-- Two options without a text are taken for different ones. -/
theorem blank_options_ambiguous : ∃ decision,
    build id id ["", ""] ["", ""] [1, 3] = .ok decision ∧
      ¬ ["", ""].Nodup ∧ decision.distribution.keys = [""] :=
  ⟨_, build_eq_ok_iff.mpr ⟨by decide +kernel, rfl⟩, by decide, by decide +kernel⟩

end Manglekit.Scoring

import Manglekit.Storage.QuadKeys
import Mathlib.Data.Finset.Card
import Mathlib.Data.Finset.Union

/-!
# The store of quads

A quad has a key in each index, and a counter of the quads is written with the keys.
-/

namespace Manglekit.Storage

/-- The keys without a value, the value of `KeyFactCount` and the counter in memory. -/
structure Store where
  keys : Finset (List UInt8) := ∅
  factCount : Option (List UInt8) := none
  numFacts : UInt64 := 0

def prefixes : List Index := [.spog, .posg, .psog, .gspo]

def quadKeys (quad : Quad) : Finset (List UInt8) := (prefixes.map (·.key quad)).toFinset

namespace Store

def initializeCounters (store : Store) : Store :=
  { store with
    numFacts := match store.factCount with
      | none => 0
      | some val => if val.length = 8 then uint64 val else 0 }

/-- The transaction of `AddFact` and the batch of `AddFacts`. -/
def write (store : Store) (newSet : Finset Quad) (newCount : UInt64) : Store :=
  let written := { store with keys := store.keys ∪ newSet.biUnion quadKeys }
  if newCount > 0 then
    let numFacts := store.numFacts + newCount
    { written with factCount := some (putUint64 numFacts), numFacts }
  else written

def newFact (store : Store) (quad : Quad) : UInt64 :=
  if Index.spog.key quad ∈ store.keys then 0 else 1

def addFact (store : Store) (quad : Quad) : Store := store.write {quad} (store.newFact quad)

/-- One quad of the scan for duplicates, with `newSet` and `newCount` so far. -/
def prescan (store : Store) (found : Finset Quad × UInt64) (quad : Quad) : Finset Quad × UInt64 :=
  if quad ∈ found.1 then found else (insert quad found.1, found.2 + store.newFact quad)

def addFacts (store : Store) (quads : List Quad) : Store :=
  let found := quads.foldl store.prescan (∅, 0)
  store.write found.1 found.2

inductive Call where
  | addFact (quad : Quad)
  | addFacts (quads : List Quad)
  | reopen

def Call.quads : Call → List Quad
  | addFact quad => [quad]
  | addFacts quads => quads
  | reopen => []

def call (store : Store) : Call → Store
  | .addFact quad => store.addFact quad
  | .addFacts quads => store.addFacts quads
  | .reopen => store.initializeCounters

/-! ## Runs -/

variable {store : Store} {index : Index} {quad : Quad} {quads : Finset Quad} {key : List UInt8}

/-- Both counters are the number of the quads whose keys are stored. -/
structure Holds (store : Store) (quads : Finset Quad) : Prop where
  keys : store.keys = quads.biUnion quadKeys
  numFacts : store.numFacts = .ofNat quads.card
  factCount : store.initializeCounters.numFacts = .ofNat quads.card

theorem mem_quadKeys : key ∈ quadKeys quad ↔ ∃ index : Index, index.key quad = key := by
  have listed (index : Index) : index ∈ prefixes := by cases index <;> simp [prefixes]
  simp [quadKeys, listed]

theorem addFact_eq_addFacts (store : Store) (quad : Quad) :
    store.addFact quad = store.addFacts [quad] := by
  simp [addFact, addFacts, prescan]

section

variable (holds : store.Holds quads)

include holds

theorem Holds.key_mem_iff : index.key quad ∈ store.keys ↔ quad ∈ quads := by
  simp only [holds.keys, Finset.mem_biUnion, mem_quadKeys]
  refine ⟨fun ⟨other, member, _, same⟩ => ?_, fun member => ⟨quad, member, index, rfl⟩⟩
  have decoded := same ▸ Index.decodeQuadKey_key _ other
  rw [Index.decodeQuadKey_key] at decoded
  exact Except.ok.inj decoded ▸ member

theorem Holds.write (newSet : Finset Quad) :
    (store.write newSet (.ofNat (newSet \ quads).card)).Holds (quads ∪ newSet) := by
  have total : store.numFacts + .ofNat (newSet \ quads).card = .ofNat (quads ∪ newSet).card := by
    rw [holds.numFacts, ← UInt64.ofNat_add, ← Finset.card_union_of_disjoint Finset.disjoint_sdiff,
      Finset.union_sdiff_self_eq_union]
  have keys : store.keys ∪ newSet.biUnion quadKeys = (quads ∪ newSet).biUnion quadKeys := by
    rw [holds.keys, Finset.union_biUnion]
  unfold Store.write
  split
  next => exact ⟨keys, total, (uint64_putUint64 _).trans total⟩
  next still =>
    -- A count that wraps to nothing leaves both counters as they are.
    have none : UInt64.ofNat (newSet \ quads).card = 0 := by simpa using still
    rw [none, UInt64.add_zero] at total
    exact ⟨keys, total, holds.factCount.trans (holds.numFacts.symm.trans total)⟩

theorem Holds.prescan (batch : List Quad) :
    batch.foldl store.prescan (∅, 0) = (batch.toFinset, .ofNat (batch.toFinset \ quads).card) := by
  induction batch using List.reverseRecOn with
  | nil => simp
  | append_singleton batch quad ih =>
    rw [List.foldl_concat, ih, Store.prescan, newFact, List.toFinset_append, Finset.union_comm,
      List.toFinset_cons, List.toFinset_nil, insert_empty_eq, Finset.singleton_union]
    split
    next seen => rw [Finset.insert_eq_of_mem seen]
    next unseen =>
      by_cases stored : quad ∈ quads
      · simp [holds.key_mem_iff, stored, Finset.insert_sdiff_of_mem]
      · simp [holds.key_mem_iff, stored, Finset.insert_sdiff_of_notMem, unseen]

theorem Holds.addFacts (batch : List Quad) :
    (store.addFacts batch).Holds (quads ∪ batch.toFinset) := by
  rw [Store.addFacts, holds.prescan]
  exact holds.write _

theorem Holds.call (call : Call) :
    (store.call call).Holds (quads ∪ call.quads.toFinset) := by
  cases call with
  | addFact quad =>
    rw [Store.call, addFact_eq_addFacts]
    exact holds.addFacts [quad]
  | addFacts batch => exact holds.addFacts batch
  | reopen =>
    rw [Call.quads, List.toFinset_nil, Finset.union_empty]
    exact ⟨holds.keys, holds.factCount, holds.factCount⟩

end

theorem holds_calls (calls : List Call) :
    (calls.foldl Store.call {}).Holds (calls.flatMap Call.quads).toFinset := by
  induction calls using List.reverseRecOn with
  | nil => exact ⟨rfl, rfl, rfl⟩
  | append_singleton calls call ih =>
    rw [List.foldl_concat, List.flatMap_append, List.toFinset_append, List.flatMap_singleton]
    exact ih.call call

/-- Whatever was added, in whichever order and however often, and whenever the store was opened
again, the quads are in all indexes and are counted once. -/
theorem numFacts_counts_stored (calls : List Call) :
    let store := calls.foldl Store.call {}
    let quads := (calls.flatMap Call.quads).toFinset
    store.keys = quads.biUnion quadKeys ∧
      (∀ index quad, Index.key index quad ∈ store.keys ↔ quad ∈ quads) ∧
      store.numFacts.toNat = quads.card % 2 ^ 64 ∧
      store.initializeCounters.numFacts = store.numFacts := by
  have holds := holds_calls calls
  refine ⟨holds.keys, fun _ _ => holds.key_mem_iff, ?_, ?_⟩
  · rw [holds.numFacts, UInt64.toNat_ofNat']
  · rw [holds.factCount, holds.numFacts]

/-- A batch leaves the keys and the counters that its quads leave one by one. -/
theorem addFacts_agrees_addFact (calls : List Call) (batch : List Quad) :
    let store := calls.foldl Store.call {}
    let batched := store.addFacts batch
    let single := batch.foldl Store.addFact store
    batched.keys = single.keys ∧ batched.numFacts = single.numFacts ∧
      batched.initializeCounters.numFacts = single.initializeCounters.numFacts := by
  have batched := (holds_calls calls).addFacts batch
  have single := holds_calls (calls ++ batch.map .addFact)
  rw [List.foldl_append, List.foldl_map, List.flatMap_append, List.flatMap_map,
    List.toFinset_append] at single
  simp only [Call.quads, List.flatMap_singleton'] at single
  exact ⟨batched.keys.trans single.keys.symm, batched.numFacts.trans single.numFacts.symm,
    batched.factCount.trans single.factCount.symm⟩

end Store

end Manglekit.Storage

import Mathlib.Data.List.Nodup

/-!
# Datalog terms, clauses and fact stores

Atoms carry their arguments as terms, and the facts of a store are the ground
ones.  Floats and compound constants (pairs, lists, maps, structs) are carried
by their printed text, and compound ones by the number of their type as well:
nothing else is ever read of them here.
-/

namespace Datalog

inductive Constant where
  | name (symbol : String)
  | string (value : String)
  | number (value : Int)
  | float (text : String)
  | compound (type : Nat) (text : String)
  deriving DecidableEq, Repr

inductive Term where
  | const (constant : Constant)
  | var (symbol : String)
  deriving DecidableEq, Repr

structure PredicateSym where
  symbol : String
  arity : Nat
  deriving DecidableEq, Repr

structure Atom where
  symbol : String
  args : List Term
  deriving DecidableEq, Repr

def Atom.predicate (atom : Atom) : PredicateSym := ⟨atom.symbol, atom.args.length⟩

inductive Premise where
  | atom (atom : Atom)
  | negAtom (atom : Atom)
  | eq (left right : Term)
  | ineq (left right : Term)
  deriving DecidableEq, Repr

structure Clause where
  head : Atom
  premises : List Premise
  deriving DecidableEq, Repr

/-- A clause without premises states a fact. -/
def Clause.isFact (clause : Clause) : Bool := clause.premises.isEmpty

abbrev Valuation := String → Constant

def Term.value (valuation : Valuation) : Term → Constant
  | .const constant => constant
  | .var symbol => valuation symbol

def Atom.ground (valuation : Valuation) (atom : Atom) : Atom :=
  ⟨atom.symbol, atom.args.map fun term => .const (term.value valuation)⟩

@[simp]
theorem Atom.ground_predicate (valuation : Valuation) (atom : Atom) :
    (atom.ground valuation).predicate = atom.predicate := by
  simp [Atom.ground, Atom.predicate]

/-- A set of facts in insertion order, without repetitions. -/
@[ext]
structure Store where
  facts : List Atom
  distinct : facts.Nodup

variable {store : Store} {atom : Atom}

namespace Store

instance : Membership Atom Store where
  mem store atom := atom ∈ store.facts

theorem mem_def : atom ∈ store ↔ atom ∈ store.facts := Iff.rfl

instance (store : Store) (atom : Atom) : Decidable (atom ∈ store) :=
  inferInstanceAs (Decidable (atom ∈ store.facts))

def empty : Store := ⟨[], List.nodup_nil⟩

@[simp]
theorem not_mem_empty (atom : Atom) : atom ∉ empty := by simp [mem_def, empty]

def contains (store : Store) (atom : Atom) : Bool := decide (atom ∈ store)

def add (store : Store) (atom : Atom) : Store :=
  if fresh : atom ∈ store.facts then store
  else ⟨store.facts ++ [atom], by
    refine List.nodup_append.mpr ⟨store.distinct, List.nodup_singleton atom, ?_⟩
    rintro first member _ equal rfl
    exact fresh (List.mem_singleton.mp equal ▸ member)⟩

@[simp]
theorem mem_add {added : Atom} : atom ∈ store.add added ↔ atom ∈ store ∨ atom = added := by
  unfold add
  split
  next present =>
    refine ⟨.inl, fun membership => membership.elim id ?_⟩
    rintro rfl
    exact present
  · simp [mem_def]

/-- Add every fact of a list. -/
def addAll (store : Store) (atoms : List Atom) : Store := atoms.foldl add store

@[simp]
theorem mem_addAll {atoms : List Atom} :
    atom ∈ store.addAll atoms ↔ atom ∈ store ∨ atom ∈ atoms := by
  induction atoms generalizing store with
  | nil => simp [addAll]
  | cons head tail ih =>
    have unfolded : store.addAll (head :: tail) = (store.add head).addAll tail := rfl
    rw [unfolded, ih, mem_add, List.mem_cons, or_assoc]

def merge (store other : Store) : Store := store.addAll other.facts

def filter (store : Store) (keep : Atom → Bool) : Store :=
  ⟨store.facts.filter keep, store.distinct.filter keep⟩

@[simp]
theorem mem_filter {keep : Atom → Bool} :
    atom ∈ store.filter keep ↔ atom ∈ store ∧ keep atom = true := List.mem_filter

/-- The facts of one predicate, in the order a lookup visits them. -/
def getFacts (store : Store) (predicate : PredicateSym) : List Atom :=
  store.facts.filter fun atom => decide (atom.predicate = predicate)

@[simp]
theorem mem_getFacts {predicate : PredicateSym} :
    atom ∈ store.getFacts predicate ↔ atom ∈ store ∧ atom.predicate = predicate := by
  simp [getFacts, mem_def]

def toSet (store : Store) : Set Atom := {atom | atom ∈ store}

@[simp]
theorem mem_toSet : atom ∈ store.toSet ↔ atom ∈ store := Iff.rfl

end Store

end Datalog

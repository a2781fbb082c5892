import Mathlib.Data.List.Infix
import Mathlib.Data.List.Range
import Mathlib.Data.List.Sigma

/-!
# Walks that mark pointers

A value is blank, a leaf, a pointer, or a container with labelled children.  A walk follows
the pointers to a container and goes through its children; the containers among them are
numbered and walked in turn.  Each pointer is marked when it is followed and never followed
again, containers are not marked.  What the walk records is compared with the occurrences of
values, which are told apart by their paths.
-/

namespace Traversal

universe u

inductive Shape (Label Ref : Type u) where
  | blank
  | leaf
  | pointer (target : Ref)
  | container (children : List (Label × Ref))

abbrev Path := List Nat

/-- A child of a container that is not blank: where it stands, and the value behind its
pointers. -/
@[ext]
structure Entry (Label Ref : Type u) where
  path : Path
  index : Nat
  label : Label
  value : Ref

/-- An entry with the number of its container, and its own one if it is a container. -/
structure Record (Label Ref : Type u) extends Entry Label Ref where
  parent : Nat
  number : Option Nat

def Entry.below {Label Ref : Type u} (entry : Entry Label Ref) : Path :=
  entry.path ++ [entry.index]

/-- The pointers that were followed with the places where they were, the containers that were
gone through, and the entries met there. -/
structure Walk (Label Ref : Type u) where
  count : Nat
  marks : List (Ref × Path)
  entered : List (Path × Ref)
  log : List (Record Label Ref)

namespace Walk

variable {Label Ref : Type u}

def start (Label Ref : Type u) : Walk Label Ref := ⟨0, [], [], []⟩

def enter (walk : Walk Label Ref) (path : Path) (container : Ref) : Walk Label Ref :=
  { walk with entered := walk.entered ++ [(path, container)] }

def addLeaf (walk : Walk Label Ref) (parent : Nat) (entry : Entry Label Ref) : Walk Label Ref :=
  { walk with log := walk.log ++ [⟨entry, parent, none⟩] }

def addContainer (walk : Walk Label Ref) (parent : Nat) (entry : Entry Label Ref) :
    Walk Label Ref :=
  { walk with
    count := walk.count + 1
    log := walk.log ++ [⟨entry, parent, some (walk.count + 1)⟩] }

def numbered (walk : Walk Label Ref) : List (Path × Nat) :=
  ([], 0) :: walk.log.filterMap fun record => record.number.map fun number =>
    (record.below, number)

end Walk

section Walking

variable {Label Ref : Type u} (shape : Ref → Shape Label Ref)

def unwrap : Nat → Ref → Option Ref
  | 0, _ => none
  | depth + 1, value =>
    match shape value with
    | .pointer target => unwrap depth target
    | _ => some value

variable [DecidableEq Ref]

/-- Follows the pointers as long as they are not marked, and marks them. -/
def follow (path : Path) : Nat → Ref → List (Ref × Path) →
    Option (Option Ref × List (Ref × Path))
  | 0, _, _ => none
  | depth + 1, value, marks =>
    match shape value with
    | .pointer target =>
      if target ∈ marks.map Prod.fst then some (none, marks)
      else follow path depth target ((target, path) :: marks)
    | .blank => some (none, marks)
    | _ => some (some value, marks)

section Children

variable (unwrapped : Ref → Option Ref)
  (recurse : Path → Ref → Walk Label Ref → Option (Walk Label Ref))

def walkChild (path : Path) (number : Nat) (position : (Label × Ref) × Nat)
    (walk : Walk Label Ref) : Option (Walk Label Ref) := do
  let ((label, child), index) := position
  let value ← unwrapped child
  match shape value with
  | .container _ =>
    recurse (path ++ [index]) child (walk.addContainer number ⟨path, index, label, value⟩)
  | .leaf => some (walk.addLeaf number ⟨path, index, label, value⟩)
  | _ => some walk

def walkChildren (path : Path) (number : Nat) : List ((Label × Ref) × Nat) →
    Walk Label Ref → Option (Walk Label Ref)
  | [], walk => some walk
  | position :: rest, walk => do
    let walk ← walkChild shape unwrapped recurse path number position walk
    walkChildren path number rest walk

end Children

/-- The walk from a value, with containers nested up to a depth.  The children of a container
are visited in an order that may differ from time to time. -/
def walkFrom (visit : Nat → Ref → List ((Label × Ref) × Nat)) :
    Nat → Path → Ref → Walk Label Ref → Option (Walk Label Ref)
  | 0, _, _, _ => none
  | depth + 1, path, value, walk => do
    let (reached, marks) ← follow shape path (depth + 1) value walk.marks
    match reached with
    | none => some { walk with marks := marks }
    | some final =>
      match shape final with
      | .container _ =>
        walkChildren shape (unwrap shape (depth + 1)) (walkFrom visit depth) path walk.count
          (visit walk.count final) ({ walk with marks := marks }.enter path final)
      | _ => some { walk with marks := marks }

end Walking

/-! ## Occurrences -/

section Occurrences

variable {Label Ref : Type u} (shape : Ref → Shape Label Ref)

def Next (value target : Ref) : Prop := shape value = .pointer target

/-- The second value stands behind the pointers of the first one. -/
structure Unwraps (value final : Ref) : Prop where
  reached : Relation.ReflTransGen (Next shape) value final
  last : ∀ target, shape final ≠ .pointer target

def Passes (value target : Ref) : Prop :=
  ∃ last, Relation.ReflTransGen (Next shape) value last ∧ Next shape last target

def IsContainer (value : Ref) : Prop := ∃ children, shape value = .container children

def ChildAt (container : Ref) (index : Nat) (label : Label) (child : Ref) : Prop :=
  ∃ children, shape container = .container children ∧ children[index]? = some (label, child)

inductive At (root : Ref) : Path → Ref → Prop where
  | root : At root [] root
  | child {path : Path} {value container child : Ref} {index : Nat} {label : Label} :
      At root path value → Unwraps shape value container →
      ChildAt shape container index label child → At root (path ++ [index]) child

def Visible (value : Ref) : Prop := shape value = .leaf ∨ IsContainer shape value

structure IsEntry (root : Ref) (entry : Entry Label Ref) : Prop where
  stands : ∃ value container child, At shape root entry.path value ∧
    Unwraps shape value container ∧ ChildAt shape container entry.index entry.label child ∧
    Unwraps shape child entry.value
  visible : Visible shape entry.value

/-- The container has a child that is not blank. -/
def HasContent (container : Ref) : Prop :=
  ∃ index label child value, ChildAt shape container index label child ∧
    Unwraps shape child value ∧ Visible shape value

def Unshared (root : Ref) : Prop :=
  ∀ target container, Unwraps shape target container → HasContent shape container →
    ∀ first second firstValue secondValue, At shape root first firstValue →
      At shape root second secondValue → Passes shape firstValue target →
      Passes shape secondValue target → first = second

/-- A container is a child of another one without a pointer between them. -/
def Direct (child container : Ref) : Prop :=
  IsContainer shape child ∧ ∃ index label, ChildAt shape container index label child

/-- The children of a container are visited in some order. -/
def Visits (visit : Nat → Ref → List ((Label × Ref) × Nat)) : Prop :=
  ∀ number container children, shape container = .container children →
    (visit number container).Perm children.zipIdx

end Occurrences

section Pointers

variable {Label Ref : Type u} {shape : Ref → Shape Label Ref} {value target final : Ref}

theorem Visible.not_pointer (visible : Visible shape value) (target : Ref) :
    shape value ≠ .pointer target := by
  rcases visible with leaf | ⟨children, container⟩
  · simp [leaf]
  · simp [container]

theorem Unwraps.self (last : ∀ target, shape value ≠ .pointer target) : Unwraps shape value value :=
  ⟨.refl, last⟩

theorem unwraps_iff_of_next (next : Next shape value target) :
    Unwraps shape value final ↔ Unwraps shape target final := by
  constructor
  · rintro ⟨reached, last⟩
    rcases Relation.ReflTransGen.cases_head reached with rfl | ⟨other, first, further⟩
    · exact absurd next (last target)
    · cases next.symm.trans first
      exact ⟨further, last⟩
  · rintro ⟨reached, last⟩
    exact ⟨.head next reached, last⟩

theorem unwraps_iff_of_last (last : ∀ target, shape value ≠ .pointer target) :
    Unwraps shape value final ↔ final = value := by
  constructor
  · rintro ⟨reached, -⟩
    rcases Relation.ReflTransGen.cases_head reached with rfl | ⟨other, first, -⟩
    · rfl
    · exact absurd first (last other)
  · rintro rfl
    exact .self last

theorem Unwraps.unique {other : Ref} (unwraps : Unwraps shape value final)
    (another : Unwraps shape value other) : final = other := by
  obtain ⟨reached, last⟩ := unwraps
  induction reached using Relation.ReflTransGen.head_induction_on with
  | refl => exact ((unwraps_iff_of_last last).mp another).symm
  | head next _ ih =>
    exact ih ((unwraps_iff_of_next next).mp another)

theorem passes_iff_of_next {passed : Ref} (next : Next shape value target) :
    Passes shape value passed ↔ passed = target ∨ Passes shape target passed := by
  constructor
  · rintro ⟨last, reached, step⟩
    rcases Relation.ReflTransGen.cases_head reached with rfl | ⟨other, first, further⟩
    · cases next.symm.trans step
      exact .inl rfl
    · cases next.symm.trans first
      exact .inr ⟨last, further, step⟩
  · rintro (rfl | ⟨last, reached, step⟩)
    · exact ⟨value, .refl, next⟩
    · exact ⟨last, .head next reached, step⟩

theorem not_passes_of_last (last : ∀ target, shape value ≠ .pointer target) (passed : Ref) :
    ¬ Passes shape value passed := by
  rintro ⟨other, reached, step⟩
  rcases Relation.ReflTransGen.cases_head reached with rfl | ⟨next, first, -⟩
  · exact last passed step
  · exact last next first

theorem Unwraps.of_passes (unwraps : Unwraps shape value final)
    (passes : Passes shape value target) : Unwraps shape target final := by
  obtain ⟨reached, last⟩ := unwraps
  induction reached using Relation.ReflTransGen.head_induction_on with
  | refl => exact absurd passes (not_passes_of_last last target)
  | head next further ih =>
    rcases (passes_iff_of_next next).mp passes with rfl | later
    · exact ⟨further, last⟩
    · exact ih later

theorem Unwraps.of_passed (unwraps : Unwraps shape target final)
    (passes : Passes shape value target) : Unwraps shape value final := by
  obtain ⟨last, reached, step⟩ := passes
  exact ⟨(reached.tail step).trans unwraps.reached, unwraps.last⟩

theorem Unwraps.not_passes_self (unwraps : Unwraps shape value final) :
    ¬ Passes shape value value := by
  obtain ⟨reached, last⟩ := unwraps
  induction reached using Relation.ReflTransGen.head_induction_on with
  | refl => exact not_passes_of_last last _
  | head next further ih =>
    intro passes
    rcases (passes_iff_of_next next).mp passes with rfl | ⟨other, onward, back⟩
    · exact ih passes
    · exact ih ⟨_, onward.tail back, next⟩

theorem unwrap_sound {depth : Nat} (unwrapped : unwrap shape depth value = some final) :
    Unwraps shape value final := by
  induction depth generalizing value with
  | zero => cases unwrapped
  | succ depth ih =>
    rw [unwrap] at unwrapped
    split at unwrapped
    next target isPointer =>
      exact (unwraps_iff_of_next isPointer).mpr (ih unwrapped)
    next last =>
      cases unwrapped
      exact .self last

theorem unwrap_mono {depth further : Nat} (deeper : depth ≤ further)
    (unwrapped : unwrap shape depth value = some final) :
    unwrap shape further value = some final := by
  induction depth generalizing value further with
  | zero => cases unwrapped
  | succ depth ih =>
    cases further with
    | zero => omega
    | succ further =>
      rw [unwrap] at unwrapped ⊢
      split
      next target isPointer =>
        rw [isPointer] at unwrapped
        exact ih (by omega) unwrapped
      next last =>
        split at unwrapped
        next target isPointer => exact absurd isPointer (last target)
        · exact unwrapped

theorem Unwraps.exists_unwrap (unwraps : Unwraps shape value final) :
    ∃ depth, unwrap shape depth value = some final := by
  obtain ⟨reached, last⟩ := unwraps
  induction reached using Relation.ReflTransGen.head_induction_on with
  | refl =>
    refine ⟨1, ?_⟩
    rw [unwrap]
    split
    next target isPointer => exact absurd isPointer (last target)
    · rfl
  | head next _ ih =>
    obtain ⟨depth, unwrapped⟩ := ih
    refine ⟨depth + 1, ?_⟩
    rw [unwrap, show shape _ = _ from next]
    exact unwrapped

end Pointers

/-! ## Marks -/

section Marks

variable {Label Ref : Type u} {shape : Ref → Shape Label Ref} {path : Path} {value : Ref}
  {marks after : List (Ref × Path)}

structure Followed (shape : Ref → Shape Label Ref) (path : Path) (value : Ref)
    (marks after : List (Ref × Path)) : Prop where
  added : ∃ added, after = added ++ marks ∧
    ∀ mark ∈ added, mark.2 = path ∧ Passes shape value mark.1
  nodup : (marks.map Prod.fst).Nodup → (after.map Prod.fst).Nodup

theorem Followed.refl : Followed shape path value marks marks := ⟨⟨[], rfl, by simp⟩, id⟩

theorem Followed.next {target : Ref} (next : Next shape value target)
    (unmarked : target ∉ marks.map Prod.fst)
    (followed : Followed shape path target ((target, path) :: marks) after) :
    Followed shape path value marks after := by
  obtain ⟨⟨added, rfl, own⟩, nodup⟩ := followed
  refine ⟨⟨added ++ [(target, path)], by simp, fun mark member => ?_⟩, fun before => ?_⟩
  · rcases List.mem_append.mp member with later | first
    · exact ⟨(own mark later).1, (passes_iff_of_next next).mpr (.inr (own mark later).2)⟩
    · cases List.mem_singleton.mp first
      exact ⟨rfl, (passes_iff_of_next next).mpr (.inl rfl)⟩
  · exact nodup (List.nodup_cons.mpr ⟨unmarked, before⟩)

/-- Following pointers ends behind them with all of them marked, or at a pointer that was
marked before. -/
theorem follow_spec [DecidableEq Ref] {depth : Nat} {reached : Option Ref}
    (ended : follow shape path depth value marks = some (reached, after)) :
    Followed shape path value marks after ∧
      (∀ final, reached = some final → Unwraps shape value final ∧ Visible shape final ∧
        ∀ target, Passes shape value target → (target, path) ∈ after) ∧
      (reached = none → ∀ final, Unwraps shape value final → Visible shape final →
        ∃ target ∈ marks.map Prod.fst, Passes shape value target) := by
  induction depth generalizing value marks with
  | zero => cases ended
  | succ depth ih =>
    rw [follow] at ended
    cases shaped : shape value with
    | blank =>
      rw [shaped] at ended
      cases ended
      refine ⟨.refl, by simp, fun _ final unwraps visible => ?_⟩
      rw [unwraps_iff_of_last (by simp [shaped])] at unwraps
      subst unwraps
      rcases visible with leaf | ⟨children, container⟩ <;> simp_all
    | leaf | container =>
      rw [shaped] at ended
      cases ended
      refine ⟨.refl, fun final same => ?_, by simp⟩
      cases same
      have last : ∀ target, shape value ≠ .pointer target := by simp [shaped]
      exact ⟨.self last, by simp [Visible, IsContainer, shaped],
        fun target passes => absurd passes (not_passes_of_last last target)⟩
    | pointer target =>
      rw [shaped] at ended
      have next : Next shape value target := shaped
      by_cases marked : target ∈ marks.map Prod.fst
      · simp only [if_pos marked, Option.some.injEq, Prod.mk.injEq] at ended
        obtain ⟨rfl, rfl⟩ := ended
        exact ⟨.refl, by simp, fun _ _ _ _ =>
          ⟨target, marked, (passes_iff_of_next next).mpr (.inl rfl)⟩⟩
      · simp only [if_neg marked] at ended
        obtain ⟨followed, behind, cut⟩ := ih ended
        refine ⟨followed.next next marked, fun final same => ?_,
          fun stopped final unwraps visible => ?_⟩
        · obtain ⟨unwraps, visible, passed⟩ := behind final same
          refine ⟨(unwraps_iff_of_next next).mpr unwraps, visible, fun other passes => ?_⟩
          rcases (passes_iff_of_next next).mp passes with rfl | later
          · obtain ⟨⟨added, rfl, -⟩, -⟩ := followed
            simp
          · exact passed other later
        · have onward := (unwraps_iff_of_next next).mp unwraps
          obtain ⟨other, marked, passes⟩ := cut stopped final onward visible
          rcases List.mem_cons.mp marked with rfl | before
          · exact absurd passes onward.not_passes_self
          · exact ⟨other, before, (passes_iff_of_next next).mpr (.inr passes)⟩

end Marks

/-! ## What a walk leaves behind -/

section Invariant

variable {Label Ref : Type u} (shape : Ref → Shape Label Ref) (root : Ref)

structure Tidy (walk : Walk Label Ref) : Prop where
  marked : (walk.marks.map Prod.fst).Nodup
  owned : ∀ mark ∈ walk.marks, ∃ value, At shape root mark.2 value ∧ Passes shape value mark.1
  behind : ∀ mark ∈ walk.marks, ∀ container, Unwraps shape mark.1 container →
    IsContainer shape container → ∃ path, (path, container) ∈ walk.entered
  entered : ∀ visited ∈ walk.entered, IsContainer shape visited.2 ∧
    ∃ value, At shape root visited.1 value ∧ Unwraps shape value visited.2 ∧
      ∀ target, Passes shape value target → (target, visited.1) ∈ walk.marks
  logged : ∀ record ∈ walk.log, IsEntry shape root record.toEntry ∧
    (record.number.isSome ↔ IsContainer shape record.value) ∧
    (record.path ∈ walk.entered.map Prod.fst) ∧ (record.path, record.parent) ∈ walk.numbered
  places : (walk.log.map fun record => record.below).Nodup
  numbers : walk.log.filterMap (·.number) = List.range' 1 walk.count

structure Done (walk : Walk Label Ref) (path : Path) (index : Nat) (label : Label)
    (child : Ref) : Prop where
  unwraps : ∃ value, Unwraps shape child value
  accessible : IsContainer shape child → Acc (Direct shape) child
  logged : ∀ value, Unwraps shape child value → Visible shape value →
    ∃ record ∈ walk.log, record.toEntry = ⟨path, index, label, value⟩
  entered : ∀ value, Unwraps shape child value → IsContainer shape value →
    (path ++ [index], value) ∈ walk.entered ∨
      ∃ mark ∈ walk.marks, Passes shape child mark.1 ∧ mark.2 ≠ path ++ [index]

def Finished (walk : Walk Label Ref) (visited : Path × Ref) : Prop :=
  ∀ index label child, ChildAt shape visited.2 index label child →
    Done shape walk visited.1 index label child

structure Extends (here : Path) (before after : Walk Label Ref) : Prop where
  marks : ∃ added, after.marks = added ++ before.marks ∧ ∀ mark ∈ added, here <+: mark.2
  entered : ∃ added, after.entered = before.entered ++ added ∧
    ∀ visited ∈ added, here <+: visited.1 ∧ Finished shape after visited
  log : ∃ added, after.log = before.log ++ added ∧ ∀ record ∈ added, here <+: record.below

/-- The walk has not been there. -/
structure Free (here : Path) (walk : Walk Label Ref) : Prop where
  marks : ∀ mark ∈ walk.marks, ¬ here <+: mark.2
  entered : ∀ visited ∈ walk.entered, ¬ here <+: visited.1

structure Unseen (here : Path) (walk : Walk Label Ref) : Prop extends Free here walk where
  log : ∀ record ∈ walk.log, ¬ here <+: record.below

/-- A walk that may go on from a value. -/
structure Ready (path : Path) (value : Ref) (walk : Walk Label Ref) : Prop where
  tidy : Tidy shape root walk
  free : Free path walk
  stands : At shape root path value
  numbered : (path, walk.count) ∈ walk.numbered

structure Inside (path : Path) (container : Ref) (number : Nat) (walk : Walk Label Ref) :
    Prop where
  tidy : Tidy shape root walk
  entered : (path, container) ∈ walk.entered
  numbered : (path, number) ∈ walk.numbered

structure Outcome (path : Path) (value : Ref) (before after : Walk Label Ref) : Prop where
  tidy : Tidy shape root after
  goesOn : Extends shape path before after
  reached : ∀ container, Unwraps shape value container → IsContainer shape container →
    (path, container) ∈ after.entered ∨ ∃ mark ∈ before.marks, Passes shape value mark.1

end Invariant

section Growth

variable {Label Ref : Type u} {shape : Ref → Shape Label Ref} {root : Ref} {here : Path}
  {before after walk : Walk Label Ref}

section

variable (goesOn : Extends shape here before after)

include goesOn

theorem Extends.marks_subset : before.marks ⊆ after.marks := by
  obtain ⟨added, split, -⟩ := goesOn.marks
  exact split ▸ List.subset_append_right _ _

theorem Extends.entered_subset : before.entered ⊆ after.entered := by
  obtain ⟨added, split, -⟩ := goesOn.entered
  exact split ▸ List.subset_append_left _ _

theorem Extends.log_subset : before.log ⊆ after.log := by
  obtain ⟨added, split, -⟩ := goesOn.log
  exact split ▸ List.subset_append_left _ _

end

variable {path : Path}

theorem Walk.mem_numbered_iff {number : Nat} :
    (path, number) ∈ walk.numbered ↔ (path = [] ∧ number = 0) ∨
      ∃ record ∈ walk.log, record.below = path ∧ record.number = some number := by
  simp [numbered, and_comm]

theorem Walk.numbered_subset (grown : before.log ⊆ after.log) :
    before.numbered ⊆ after.numbered := by
  rintro ⟨path, number⟩ member
  rw [mem_numbered_iff] at member ⊢
  refine member.imp_right ?_
  rintro ⟨record, logged, rest⟩
  exact ⟨record, grown logged, rest⟩

theorem Done.mono {index : Nat} {label : Label} {child : Ref}
    (done : Done shape before path index label child) (goesOn : Extends shape here before after) :
    Done shape after path index label child where
  unwraps := done.unwraps
  accessible := done.accessible
  logged := by
    intro value unwraps visible
    obtain ⟨record, member, same⟩ := done.logged value unwraps visible
    exact ⟨record, goesOn.log_subset member, same⟩
  entered := by
    intro value unwraps container
    rcases done.entered value unwraps container with member | ⟨mark, member, cut⟩
    · exact .inl (goesOn.entered_subset member)
    · exact .inr ⟨mark, goesOn.marks_subset member, cut⟩

theorem Finished.mono {visited : Path × Ref} (finished : Finished shape before visited)
    (goesOn : Extends shape here before after) : Finished shape after visited :=
  fun index label child childAt => (finished index label child childAt).mono goesOn

theorem Finished.acc {visited : Path × Ref} (finished : Finished shape walk visited) :
    Acc (Direct shape) visited.2 := by
  refine ⟨_, ?_⟩
  rintro child ⟨container, index, label, childAt⟩
  exact (finished index label child childAt).accessible container

theorem Extends.refl (here : Path) (walk : Walk Label Ref) : Extends shape here walk walk :=
  ⟨⟨[], rfl, by simp⟩, ⟨[], by simp, by simp⟩, ⟨[], by simp, by simp⟩⟩

theorem Extends.trans {first second : Path} {middle : Walk Label Ref}
    (start : Extends shape first before middle) (rest : Extends shape second middle after)
    (startBelow : here <+: first) (restBelow : here <+: second) :
    Extends shape here before after where
  marks := by
    obtain ⟨early, split, earlyBelow⟩ := start.marks
    obtain ⟨late, further, lateBelow⟩ := rest.marks
    refine ⟨late ++ early, by rw [further, split, List.append_assoc], fun mark member => ?_⟩
    rcases List.mem_append.mp member with inLate | inEarly
    · exact restBelow.trans (lateBelow mark inLate)
    · exact startBelow.trans (earlyBelow mark inEarly)
  entered := by
    obtain ⟨early, split, earlyBelow⟩ := start.entered
    obtain ⟨late, further, lateBelow⟩ := rest.entered
    refine ⟨early ++ late, by rw [further, split, List.append_assoc], fun visited member => ?_⟩
    rcases List.mem_append.mp member with inEarly | inLate
    · obtain ⟨below, finished⟩ := earlyBelow visited inEarly
      exact ⟨startBelow.trans below, finished.mono rest⟩
    · obtain ⟨below, finished⟩ := lateBelow visited inLate
      exact ⟨restBelow.trans below, finished⟩
  log := by
    obtain ⟨early, split, earlyBelow⟩ := start.log
    obtain ⟨late, further, lateBelow⟩ := rest.log
    refine ⟨early ++ late, by rw [further, split, List.append_assoc], fun record member => ?_⟩
    rcases List.mem_append.mp member with inEarly | inLate
    · exact startBelow.trans (earlyBelow record inEarly)
    · exact restBelow.trans (lateBelow record inLate)

theorem Inside.mono {container : Ref} {number : Nat}
    (inside : Inside shape root path container number before) (tidy : Tidy shape root after)
    (goesOn : Extends shape here before after) : Inside shape root path container number after :=
  ⟨tidy, goesOn.entered_subset inside.entered, Walk.numbered_subset goesOn.log_subset
    inside.numbered⟩

theorem eq_of_siblings {other : Path} {index sibling : Nat} (first : path ++ [index] <+: other)
    (second : path ++ [sibling] <+: other) : index = sibling := by
  have same := List.prefix_of_prefix_length_le first second (by simp)
  simpa using same.eq_of_length (by simp)

theorem Unseen.sibling {index sibling : Nat} (differs : index ≠ sibling)
    (unseen : Unseen (path ++ [sibling]) before)
    (goesOn : Extends shape (path ++ [index]) before after) :
    Unseen (path ++ [sibling]) after where
  marks := by
    obtain ⟨added, split, below⟩ := goesOn.marks
    intro mark member there
    rcases List.mem_append.mp (split ▸ member) with new | old
    · exact differs (eq_of_siblings (below mark new) there)
    · exact unseen.marks mark old there
  entered := by
    obtain ⟨added, split, below⟩ := goesOn.entered
    intro visited member there
    rcases List.mem_append.mp (split ▸ member) with old | new
    · exact unseen.entered visited old there
    · exact differs (eq_of_siblings (below visited new).1 there)
  log := by
    obtain ⟨added, split, below⟩ := goesOn.log
    intro record member there
    rcases List.mem_append.mp (split ▸ member) with old | new
    · exact unseen.log record old there
    · exact differs (eq_of_siblings (below record new) there)

end Growth

/-! ## Steps of a walk -/

section Steps

variable {Label Ref : Type u} {shape : Ref → Shape Label Ref} {root : Ref} {path : Path}
  {walk after : Walk Label Ref}

theorem Tidy.start (root : Ref) : Tidy shape root (Walk.start Label Ref) := by
  constructor <;> simp [Walk.start]

variable {marks : List (Ref × Path)}

theorem Tidy.follow {value : Ref} (tidy : Tidy shape root walk) (entering : List (Path × Ref))
    (stands : At shape root path value) (followed : Followed shape path value walk.marks marks)
    (entered : ∀ visited ∈ entering, visited.1 = path ∧ IsContainer shape visited.2 ∧
      Unwraps shape value visited.2 ∧ ∀ target, Passes shape value target → (target, path) ∈ marks)
    (behind : ∀ container, Unwraps shape value container → IsContainer shape container →
      ∃ path, (path, container) ∈ walk.entered ++ entering) :
    Tidy shape root { walk with marks := marks, entered := walk.entered ++ entering } := by
  obtain ⟨⟨added, rfl, own⟩, nodup⟩ := followed
  refine ⟨nodup tidy.marked, fun mark member => ?_,
    fun mark member container unwraps isContainer => ?_, fun visited member => ?_,
    fun record member => ?_, tidy.places, tidy.numbers⟩
  · rcases List.mem_append.mp member with new | old
    · obtain ⟨owner, passes⟩ := own mark new
      exact ⟨value, owner ▸ stands, passes⟩
    · exact tidy.owned mark old
  · rcases List.mem_append.mp member with new | old
    · exact behind container (unwraps.of_passed (own mark new).2) isContainer
    · obtain ⟨there, entered⟩ := tidy.behind mark old container unwraps isContainer
      exact ⟨there, List.mem_append_left _ entered⟩
  · rcases List.mem_append.mp member with old | new
    · obtain ⟨isContainer, other, otherStands, unwraps, passed⟩ := tidy.entered visited old
      exact ⟨isContainer, other, otherStands, unwraps,
        fun target passes => List.mem_append_right _ (passed target passes)⟩
    · obtain ⟨rfl, isContainer, unwraps, passed⟩ := entered visited new
      exact ⟨isContainer, value, stands, unwraps, passed⟩
  · obtain ⟨isEntry, number, there, parent⟩ := tidy.logged record member
    refine ⟨isEntry, number, ?_, parent⟩
    rw [List.map_append]
    exact List.mem_append_left _ there

theorem Tidy.add {record : Record Label Ref} {count : Nat} (tidy : Tidy shape root walk)
    (isEntry : IsEntry shape root record.toEntry)
    (number : record.number.isSome ↔ IsContainer shape record.value)
    (inside : record.path ∈ walk.entered.map Prod.fst)
    (parent : (record.path, record.parent) ∈ walk.numbered)
    (unseen : ∀ other ∈ walk.log, other.below ≠ record.below)
    (counted : List.range' 1 walk.count ++ record.number.toList = List.range' 1 count) :
    Tidy shape root { walk with count := count, log := walk.log ++ [record] } := by
  have grown : walk.log ⊆ walk.log ++ [record] := List.subset_append_left _ _
  refine ⟨tidy.marked, tidy.owned, tidy.behind, tidy.entered, fun other member => ?_, ?_, ?_⟩
  · rcases List.mem_append.mp member with old | new
    · obtain ⟨otherEntry, otherNumber, there, otherParent⟩ := tidy.logged other old
      exact ⟨otherEntry, otherNumber, there, Walk.numbered_subset grown otherParent⟩
    · cases List.mem_singleton.mp new
      exact ⟨isEntry, number, inside, Walk.numbered_subset grown parent⟩
  · rw [List.map_append]
    refine List.Nodup.append tidy.places (List.nodup_singleton _) ?_
    rintro place old new
    obtain ⟨other, member, rfl⟩ := List.mem_map.mp old
    exact unseen other member (List.mem_singleton.mp new)
  · rw [List.filterMap_append, tidy.numbers, ← counted]
    cases equal : record.number <;> simp [equal]

theorem Extends.add (record : Record Label Ref) (count : Nat) :
    Extends shape record.below walk { walk with count := count, log := walk.log ++ [record] } :=
  ⟨⟨[], rfl, by simp⟩, ⟨[], by simp, by simp⟩, ⟨[record], rfl, by simp⟩⟩

section Child

variable {unwrapped : Ref → Option Ref}
  {recurse : Path → Ref → Walk Label Ref → Option (Walk Label Ref)} {number index : Nat}
  {label : Label} {child container : Ref}

theorem walkChild_iff :
    walkChild shape unwrapped recurse path number ((label, child), index) walk = some after ↔
      ∃ value, unwrapped child = some value ∧
        (IsContainer shape value ∧ recurse (path ++ [index]) child
            (walk.addContainer number ⟨path, index, label, value⟩) = some after ∨
          shape value = .leaf ∧ after = walk.addLeaf number ⟨path, index, label, value⟩ ∨
          ¬ Visible shape value ∧ after = walk) := by
  rw [walkChild, Option.bind_eq_bind, Option.bind_eq_some_iff]
  refine exists_congr fun value => and_congr_right fun _ => ?_
  cases shaped : shape value <;> simp [Visible, IsContainer, shaped, eq_comm]

section

variable (sound : ∀ value final, unwrapped value = some final → Unwraps shape value final)
  (correct : ∀ path value walk after, Ready shape root path value walk →
    recurse path value walk = some after → Outcome shape root path value walk after)
  (inside : Inside shape root path container number walk)

include sound correct inside

theorem walkChild_spec (childAt : ChildAt shape container index label child)
    (unseen : Unseen (path ++ [index]) walk)
    (returned : walkChild shape unwrapped recurse path number ((label, child), index) walk =
      some after) :
    Tidy shape root after ∧ Extends shape (path ++ [index]) walk after ∧
      Done shape after path index label child := by
  obtain ⟨value, found, ended⟩ := walkChild_iff.mp returned
  have unwraps := sound child value found
  obtain ⟨isContainer, holder, holderStands, holderUnwraps, -⟩ :=
    inside.tidy.entered _ inside.entered
  have stands : At shape root (path ++ [index]) child := .child holderStands holderUnwraps childAt
  have here : path ∈ walk.entered.map Prod.fst := List.mem_map_of_mem inside.entered
  have fresh : ∀ other ∈ walk.log, other.below ≠ path ++ [index] :=
    fun other member same => unseen.log other member (same ▸ List.prefix_refl _)
  have isEntry (visible : Visible shape value) : IsEntry shape root ⟨path, index, label, value⟩ :=
    ⟨⟨holder, container, child, holderStands, holderUnwraps, childAt, unwraps⟩, visible⟩
  -- a value in the place of a child is the one that was found
  have same {other : Ref} (otherUnwraps : Unwraps shape child other) : other = value :=
    otherUnwraps.unique unwraps
  have own (childContainer : IsContainer shape child) : child = value :=
    same (.self (Visible.not_pointer (.inr childContainer)))
  rcases ended with ⟨valueContainer, ended⟩ | ⟨leaf, rfl⟩ | ⟨invisible, rfl⟩
  · have added : Extends shape (path ++ [index]) walk
        (walk.addContainer number ⟨path, index, label, value⟩) :=
      Extends.add ⟨⟨path, index, label, value⟩, number, some (walk.count + 1)⟩ _
    have tidy : Tidy shape root (walk.addContainer number ⟨path, index, label, value⟩) :=
      inside.tidy.add (isEntry (.inr valueContainer)) (by simpa using valueContainer) here
        inside.numbered fresh (by simp [List.range'_1_concat, Nat.add_comm])
    have ready : Ready shape root (path ++ [index]) child
        (walk.addContainer number ⟨path, index, label, value⟩) :=
      ⟨tidy, ⟨unseen.marks, unseen.entered⟩, stands, by
        simp [Walk.mem_numbered_iff, Walk.addContainer, Entry.below]⟩
    have outcome := correct _ _ _ _ ready ended
    have reached := outcome.reached value unwraps valueContainer
    refine ⟨outcome.tidy, added.trans outcome.goesOn (List.prefix_refl _) (List.prefix_refl _),
      ⟨value, unwraps⟩, fun childContainer => ?_, fun other otherUnwraps _ => ?_,
      fun other otherUnwraps _ => ?_⟩
    · cases own childContainer
      obtain ⟨new, split, finished⟩ := outcome.goesOn.entered
      rcases reached with entered | ⟨mark, -, passes⟩
      · rcases List.mem_append.mp (split ▸ entered) with old | inNew
        · exact absurd (List.prefix_refl _) (unseen.entered _ old)
        · exact (finished _ inNew).2.acc
      · exact absurd passes (not_passes_of_last (Visible.not_pointer (.inr childContainer)) mark.1)
    · cases same otherUnwraps
      refine ⟨_, outcome.goesOn.log_subset (List.mem_append_right _ List.mem_cons_self), rfl⟩
    · cases same otherUnwraps
      refine reached.imp_right ?_
      rintro ⟨mark, member, passes⟩
      exact ⟨mark, outcome.goesOn.marks_subset member, passes,
        fun there => unseen.marks mark member (there ▸ List.prefix_refl _)⟩
  · have notContainer : ¬ IsContainer shape value := by
      rintro ⟨children, shaped⟩
      cases leaf.symm.trans shaped
    refine ⟨inside.tidy.add (isEntry (.inl leaf)) (by simpa using notContainer) here
        inside.numbered fresh (by simp),
      Extends.add ⟨⟨path, index, label, value⟩, number, none⟩ _, ⟨value, unwraps⟩,
      fun childContainer => ?_, fun other otherUnwraps _ => ?_,
      fun other otherUnwraps otherContainer => ?_⟩
    · exact absurd (own childContainer ▸ childContainer) notContainer
    · cases same otherUnwraps
      exact ⟨_, List.mem_append_right _ List.mem_cons_self, rfl⟩
    · exact absurd (same otherUnwraps ▸ otherContainer) notContainer
  · refine ⟨inside.tidy, .refl _ _, ⟨value, unwraps⟩, fun childContainer => ?_,
      fun other otherUnwraps visible => ?_, fun other otherUnwraps otherContainer => ?_⟩
    · exact absurd (.inr (own childContainer ▸ childContainer)) invisible
    · exact absurd (same otherUnwraps ▸ visible) invisible
    · exact absurd (.inr (same otherUnwraps ▸ otherContainer)) invisible

theorem walkChildren_spec {positions : List ((Label × Ref) × Nat)}
    (children : ∀ position ∈ positions,
      ChildAt shape container position.2 position.1.1 position.1.2 ∧
        Unseen (path ++ [position.2]) walk)
    (once : (positions.map Prod.snd).Nodup)
    (returned : walkChildren shape unwrapped recurse path number positions walk = some after) :
    Tidy shape root after ∧ Extends shape path walk after ∧
      ∀ position ∈ positions, Done shape after path position.2 position.1.1 position.1.2 := by
  induction positions generalizing walk with
  | nil =>
    cases returned
    exact ⟨inside.tidy, .refl _ _, by simp⟩
  | cons position rest ih =>
    obtain ⟨middle, first, ended⟩ := Option.bind_eq_some_iff.mp returned
    obtain ⟨⟨childAt, unseen⟩, others⟩ := List.forall_mem_cons.mp children
    obtain ⟨notAgain, restOnce⟩ := List.nodup_cons.mp once
    obtain ⟨tidy, goesOn, done⟩ := walkChild_spec sound correct inside childAt unseen first
    have below : path <+: path ++ [position.2] := List.prefix_append _ _
    have otherChildren : ∀ other ∈ rest,
        ChildAt shape container other.2 other.1.1 other.1.2 ∧
          Unseen (path ++ [other.2]) middle := by
      intro other member
      obtain ⟨otherAt, otherUnseen⟩ := others other member
      refine ⟨otherAt, otherUnseen.sibling (fun same => notAgain ?_) goesOn⟩
      exact same ▸ List.mem_map_of_mem member
    obtain ⟨restTidy, restGoesOn, restDone⟩ :=
      ih (inside.mono tidy goesOn) otherChildren restOnce ended
    exact ⟨restTidy, goesOn.trans restGoesOn below (List.prefix_refl _),
      List.forall_mem_cons.mpr ⟨done.mono restGoesOn, restDone⟩⟩

end

end Child

section Value

variable {visit : Nat → Ref → List ((Label × Ref) × Nat)} {value : Ref} {depth : Nat}

theorem Visits.mem_iff (visits : Visits shape visit) {number index : Nat} {container child : Ref}
    {label : Label} (isContainer : IsContainer shape container) :
    ((label, child), index) ∈ visit number container ↔
      ChildAt shape container index label child := by
  obtain ⟨children, shaped⟩ := isContainer
  rw [(visits number container children shaped).mem_iff, List.mem_zipIdx_iff_getElem?]
  simp [ChildAt, shaped]

theorem Visits.nodup (visits : Visits shape visit) {container : Ref} (number : Nat)
    (isContainer : IsContainer shape container) :
    ((visit number container).map Prod.snd).Nodup := by
  obtain ⟨children, shaped⟩ := isContainer
  rw [((visits number container children shaped).map Prod.snd).nodup_iff]
  exact List.nodup_zipIdx_map_snd children

theorem walkFrom_iff [DecidableEq Ref] :
    walkFrom shape visit (depth + 1) path value walk = some after ↔
      ∃ reached marks, follow shape path (depth + 1) value walk.marks = some (reached, marks) ∧
        ((∀ final, reached = some final → ¬ IsContainer shape final) ∧
            after = { walk with marks := marks } ∨
          ∃ final, reached = some final ∧ IsContainer shape final ∧
            walkChildren shape (unwrap shape (depth + 1)) (walkFrom shape visit depth) path
              walk.count (visit walk.count final)
              { walk with marks := marks, entered := walk.entered ++ [(path, final)] } =
                some after) := by
  rw [walkFrom, Option.bind_eq_bind, Option.bind_eq_some_iff, Prod.exists]
  refine exists_congr fun reached => exists_congr fun marks => and_congr_right fun _ => ?_
  cases reached with
  | none => simp [eq_comm]
  | some final => cases shaped : shape final <;> simp [IsContainer, shaped, eq_comm, Walk.enter]

theorem Followed.extends (followed : Followed shape path value walk.marks marks) :
    Extends shape path walk { walk with marks := marks } := by
  obtain ⟨⟨added, rfl, own⟩, -⟩ := followed
  refine ⟨⟨added, rfl, fun mark member => ?_⟩, ⟨[], by simp, by simp⟩, ⟨[], by simp, by simp⟩⟩
  exact (own mark member).1 ▸ List.prefix_refl _

theorem Ready.unseen {final : Ref} {index : Nat} (ready : Ready shape root path value walk)
    (followed : Followed shape path value walk.marks marks) :
    Unseen (path ++ [index])
      { walk with marks := marks, entered := walk.entered ++ [(path, final)] } := by
  obtain ⟨⟨added, rfl, own⟩, -⟩ := followed
  have notHere : ¬ path ++ [index] <+: path := fun below => by
    have shorter := below.length_le
    rw [List.length_append, List.length_singleton] at shorter
    omega
  have above {other : Path} (below : path ++ [index] <+: other) : path <+: other :=
    (List.prefix_append _ _).trans below
  refine ⟨⟨fun mark member below => ?_, fun visited member below => ?_⟩,
    fun record member below => ?_⟩
  · rcases List.mem_append.mp member with new | old
    · exact notHere ((own mark new).1 ▸ below)
    · exact ready.free.marks mark old (above below)
  · rcases List.mem_append.mp member with old | new
    · exact ready.free.entered visited old (above below)
    · cases List.mem_singleton.mp new
      exact notHere below
  · obtain ⟨-, -, inside, -⟩ := ready.tidy.logged record member
    obtain ⟨visited, entered, there⟩ := List.mem_map.mp inside
    refine ready.free.entered visited entered (there ▸ ?_)
    rcases List.prefix_concat_iff.mp below with same | further
    · exact (List.append_inj_left' same rfl) ▸ List.prefix_refl _
    · exact above further

theorem walkFrom_spec [DecidableEq Ref] (visits : Visits shape visit)
    (ready : Ready shape root path value walk)
    (returned : walkFrom shape visit depth path value walk = some after) :
    Outcome shape root path value walk after := by
  induction depth generalizing path value walk after with
  | zero => cases returned
  | succ depth ih =>
    obtain ⟨reached, marks, ended, outcome⟩ := walkFrom_iff.mp returned
    obtain ⟨followed, behind, cut⟩ := follow_spec ended
    rcases outcome with ⟨noContainer, rfl⟩ | ⟨final, rfl, isContainer, ended⟩
    · -- a container behind the pointers was entered before
      have marked : ∀ container, Unwraps shape value container → IsContainer shape container →
          ∃ mark ∈ walk.marks, Passes shape value mark.1 := by
        intro container unwraps isContainer
        cases reached with
        | none =>
          obtain ⟨target, member, passes⟩ := cut rfl container unwraps (.inr isContainer)
          obtain ⟨mark, marked, rfl⟩ := List.mem_map.mp member
          exact ⟨mark, marked, passes⟩
        | some final =>
          have same := unwraps.unique (behind final rfl).1
          exact absurd (same ▸ isContainer) (noContainer final rfl)
      have tidy := ready.tidy.follow [] ready.stands followed (by simp) (by
        intro container unwraps isContainer
        obtain ⟨mark, member, passes⟩ := marked container unwraps isContainer
        rw [List.append_nil]
        exact ready.tidy.behind mark member container (unwraps.of_passes passes) isContainer)
      rw [List.append_nil] at tidy
      exact ⟨tidy, followed.extends, fun container unwraps isContainer =>
        .inr (marked container unwraps isContainer)⟩
    · obtain ⟨unwraps, -, passed⟩ := behind final rfl
      have tidy := ready.tidy.follow [(path, final)] ready.stands followed
        (by simpa using ⟨isContainer, unwraps, passed⟩)
        (fun container otherUnwraps _ => ⟨path, by simp [otherUnwraps.unique unwraps]⟩)
      have inside : Inside shape root path final walk.count
          { walk with marks := marks, entered := walk.entered ++ [(path, final)] } :=
        ⟨tidy, by simp, ready.numbered⟩
      obtain ⟨afterTidy, goesOn, done⟩ := walkChildren_spec
        (fun _ _ => unwrap_sound) (fun _ _ _ _ => ih) inside
        (fun position member => ⟨(visits.mem_iff isContainer).mp member, ready.unseen followed⟩)
        (visits.nodup _ isContainer) ended
      have finished : Finished shape after (path, final) :=
        fun index label child childAt => done _ ((visits.mem_iff isContainer).mpr childAt)
      refine ⟨afterTidy, ⟨?_, ?_, goesOn.log⟩, fun container otherUnwraps _ => .inl ?_⟩
      · obtain ⟨early, rfl, own⟩ := followed.added
        obtain ⟨late, split, below⟩ := goesOn.marks
        refine ⟨late ++ early, by rw [split, List.append_assoc], fun mark member => ?_⟩
        rcases List.mem_append.mp member with inLate | inEarly
        · exact below mark inLate
        · exact (own mark inEarly).1 ▸ List.prefix_refl _
      · obtain ⟨late, split, below⟩ := goesOn.entered
        exact ⟨(path, final) :: late, by simp [split],
          List.forall_mem_cons.mpr ⟨⟨List.prefix_refl _, finished⟩, below⟩⟩
      · cases otherUnwraps.unique unwraps
        exact goesOn.entered_subset inside.entered

end Value

end Steps

end Traversal

import Manglekit.Traversal.MarkedWalk
import Mathlib.Data.Set.Card

/-!
# Where marking walks end and what they miss

A walk that only marks pointers does not end at a container that contains itself directly,
and not at a child whose pointers lead in a circle.  Where it ends, it misses what stands
behind a pointer that was followed at another place.
-/

namespace Traversal

universe u

variable {Label Ref : Type u} {shape : Ref → Shape Label Ref} {root : Ref}

/-! ## Places -/

variable {path : Path} {container value : Ref} {index : Nat}

theorem at_concat_iff {child : Ref} :
    At shape root (path ++ [index]) child ↔ ∃ value container label, At shape root path value ∧
      Unwraps shape value container ∧ ChildAt shape container index label child := by
  constructor
  · generalize place : path ++ [index] = there
    intro stands
    cases stands with
    | root => simp at place
    | @child above value container child position label stands unwraps childAt =>
      obtain ⟨rfl, same⟩ := List.append_inj' place rfl
      cases same
      exact ⟨value, container, label, stands, unwraps, childAt⟩
  · rintro ⟨value, container, label, stands, unwraps, childAt⟩
    exact .child stands unwraps childAt

theorem ChildAt.unique {child other : Ref} {label otherLabel : Label}
    (childAt : ChildAt shape container index label child)
    (otherAt : ChildAt shape container index otherLabel other) :
    label = otherLabel ∧ child = other := by
  obtain ⟨children, shaped, found⟩ := childAt
  obtain ⟨others, otherShaped, otherFound⟩ := otherAt
  cases shaped.symm.trans otherShaped
  simpa using found.symm.trans otherFound

theorem At.unique {other : Ref} (stands : At shape root path value)
    (otherStands : At shape root path other) : value = other := by
  induction stands generalizing other with
  | root =>
    generalize place : ([] : Path) = path at otherStands
    cases otherStands with
    | root => rfl
    | child => simp at place
  | child _ unwraps childAt ih =>
    obtain ⟨holder, container, label, holderStands, holderUnwraps, otherAt⟩ :=
      at_concat_iff.mp otherStands
    cases ih holderStands
    cases unwraps.unique holderUnwraps
    exact (childAt.unique otherAt).2

def Occurs (shape : Ref → Shape Label Ref) (root value : Ref) : Prop :=
  ∃ path holder, At shape root path holder ∧ Unwraps shape holder value

theorem Occurs.child {container child value : Ref} {label : Label}
    (occurs : Occurs shape root container) (childAt : ChildAt shape container index label child)
    (unwraps : Unwraps shape child value) : Occurs shape root value := by
  obtain ⟨path, holder, stands, holderUnwraps⟩ := occurs
  exact ⟨path ++ [index], child, .child stands holderUnwraps childAt, unwraps⟩

/-- Containers contain each other directly only in one direction, and something stands behind
the pointers of every child. -/
structure Grounded (shape : Ref → Shape Label Ref) (root : Ref) : Prop where
  unnested : ∀ container, Occurs shape root container →
    ¬ Relation.TransGen (Direct shape) container container
  unwraps : ∀ container index label child, Occurs shape root container →
    ChildAt shape container index label child → ∃ value, Unwraps shape child value

theorem not_transGen_of_acc {Node : Type*} {relation : Node → Node → Prop} {node : Node}
    (accessible : Acc relation node) : ¬ Relation.TransGen relation node node := by
  induction accessible with
  | intro node _ ih =>
    intro cycle
    obtain ⟨last, reached, step⟩ := Relation.TransGen.tail'_iff.mp cycle
    exact ih last step (.head' step reached)

theorem Grounded.acc [Finite Ref] (grounded : Grounded shape root)
    (occurs : Occurs shape root container) : Acc (Direct shape) container := by
  let inside (child container : Ref) : Prop :=
    Relation.TransGen (Direct shape) child container ∧ Occurs shape root container
  have transitive : IsTrans Ref inside :=
    ⟨fun _ _ _ first second => ⟨first.1.trans second.1, second.2⟩⟩
  have irreflexive : Std.Irrefl inside :=
    ⟨fun container cycle => grounded.unnested container cycle.2 cycle.1⟩
  have accessible := (Finite.wellFounded_of_trans_of_irrefl inside).apply container
  induction accessible with
  | intro container _ ih =>
    refine ⟨_, ?_⟩
    rintro child ⟨isContainer, index, label, childAt⟩
    have childUnwraps : Unwraps shape child child := .self (Visible.not_pointer (.inr isContainer))
    exact ih child ⟨.single ⟨isContainer, index, label, childAt⟩, occurs⟩
      (occurs.child childAt childUnwraps)

/-! ## Numbers -/

theorem Tidy.eq_of_number {walk : Walk Label Ref} (tidy : Tidy shape root walk)
    {record other : Record Label Ref} {number : Nat} (logged : record ∈ walk.log)
    (otherLogged : other ∈ walk.log) (numbered : record.number = some number)
    (otherNumbered : other.number = some number) : record = other := by
  have apart : walk.log.Pairwise fun first second =>
      ∀ x ∈ first.number, ∀ y ∈ second.number, x ≠ y := by
    refine List.pairwise_filterMap.mp ?_
    rw [tidy.numbers]
    exact List.nodup_range'
  have symmetric : Std.Symm fun first second : Record Label Ref =>
      ∀ x ∈ first.number, ∀ y ∈ second.number, x ≠ y :=
    ⟨fun _ _ differs x member y otherMember same => differs y otherMember x member same.symm⟩
  by_contra differ
  exact apart.forall logged otherLogged differ number numbered number otherNumbered rfl

theorem Tidy.numbered_inj {walk : Walk Label Ref} (tidy : Tidy shape root walk) {other : Path}
    {number second : Nat} (member : (path, number) ∈ walk.numbered)
    (otherMember : (other, second) ∈ walk.numbered) : path = other ↔ number = second := by
  have positive : ∀ record ∈ walk.log, ∀ number, record.number = some number → number ≠ 0 := by
    intro record logged number numbered
    have counted : number ∈ walk.log.filterMap (·.number) :=
      List.mem_filterMap.mpr ⟨record, logged, numbered⟩
    rw [tidy.numbers, List.mem_range'_1] at counted
    omega
  rw [Walk.mem_numbered_iff] at member otherMember
  rcases member with ⟨rfl, rfl⟩ | ⟨record, logged, rfl, numbered⟩ <;>
    rcases otherMember with ⟨rfl, rfl⟩ | ⟨second, otherLogged, rfl, otherNumbered⟩
  · simp
  · exact ⟨fun same => by simp [Entry.below] at same,
      fun same => absurd same.symm (positive _ otherLogged _ otherNumbered)⟩
  · exact ⟨fun same => by simp [Entry.below] at same,
      fun same => absurd same (positive _ logged _ numbered)⟩
  · constructor
    · intro same
      cases List.inj_on_of_nodup_map tidy.places logged otherLogged same
      exact Option.some.inj (numbered.symm.trans otherNumbered)
    · rintro rfl
      rw [tidy.eq_of_number logged otherLogged numbered otherNumbered]

/-! ## A walk that has ended -/

section Ended

theorem Ready.start (root : Ref) : Ready shape root [] root (Walk.start Label Ref) :=
  ⟨.start root, ⟨by simp [Walk.start], by simp [Walk.start]⟩, .root, by simp [Walk.numbered,
    Walk.start]⟩

variable [DecidableEq Ref] {visit : Nat → Ref → List ((Label × Ref) × Nat)} {depth : Nat}
  {walk : Walk Label Ref} (visits : Visits shape visit)
  (ended : walkFrom shape visit depth [] root (Walk.start Label Ref) = some walk)

include visits ended

theorem tidy_of_ended : Tidy shape root walk := (walkFrom_spec visits (.start root) ended).tidy

theorem finished_of_ended {visited : Path × Ref} (entered : visited ∈ walk.entered) :
    Finished shape walk visited := by
  obtain ⟨added, split, finished⟩ := (walkFrom_spec visits (.start root) ended).goesOn.entered
  exact (finished visited (by simpa [split, Walk.start] using entered)).2

theorem root_entered_of_ended (unwraps : Unwraps shape root container)
    (isContainer : IsContainer shape container) : ([], container) ∈ walk.entered := by
  rcases (walkFrom_spec visits (.start root) ended).reached container unwraps isContainer with
    entered | ⟨mark, member, -⟩
  · exact entered
  · cases member

theorem entered_of_ended (occurs : Occurs shape root container)
    (isContainer : IsContainer shape container) : ∃ path, (path, container) ∈ walk.entered := by
  obtain ⟨path, value, stands, unwraps⟩ := occurs
  induction stands generalizing container with
  | root => exact ⟨[], root_entered_of_ended visits ended unwraps isContainer⟩
  | @child path value holder child index label _ holderUnwraps childAt ih =>
    have holderContainer : IsContainer shape holder := ⟨_, childAt.choose_spec.1⟩
    obtain ⟨place, entered⟩ := ih holderContainer holderUnwraps
    have done := finished_of_ended visits ended entered index label child childAt
    rcases done.entered container unwraps isContainer with there | ⟨mark, member, passes, -⟩
    · exact ⟨_, there⟩
    · exact (tidy_of_ended visits ended).behind mark member container
        (unwraps.of_passes passes) isContainer

theorem grounded_of_ended : Grounded shape root where
  unnested := by
    intro container occurs cycle
    obtain ⟨next, first, -⟩ := Relation.TransGen.head'_iff.mp cycle
    obtain ⟨path, entered⟩ := entered_of_ended visits ended occurs first.1
    exact not_transGen_of_acc (finished_of_ended visits ended entered).acc cycle
  unwraps := by
    intro container index label child occurs childAt
    obtain ⟨path, entered⟩ := entered_of_ended visits ended occurs ⟨_, childAt.choose_spec.1⟩
    exact (finished_of_ended visits ended entered index label child childAt).unwraps

theorem entered_of_unshared (unshared : Unshared shape root) (stands : At shape root path value)
    (unwraps : Unwraps shape value container) (content : HasContent shape container) :
    (path, container) ∈ walk.entered := by
  have isContainer : IsContainer shape container := by
    obtain ⟨_, _, _, _, ⟨children, shaped, -⟩, -⟩ := content
    exact ⟨children, shaped⟩
  induction stands generalizing container with
  | root => exact root_entered_of_ended visits ended unwraps isContainer
  | @child path value holder child index label holderStands holderUnwraps childAt
      ih =>
      have holderContent : HasContent shape holder :=
        ⟨index, label, child, container, childAt, unwraps, .inr isContainer⟩
      have holderEntered := ih holderUnwraps holderContent ⟨_, childAt.choose_spec.1⟩
      have done := finished_of_ended visits ended holderEntered index label child childAt
      rcases done.entered container unwraps isContainer with there | ⟨mark, member, passes, other⟩
      · exact there
      · obtain ⟨owner, ownerStands, ownerPasses⟩ := (tidy_of_ended visits ended).owned mark member
        refine absurd ?_ other
        exact unshared mark.1 container (unwraps.of_passes passes) content _ _ owner _ ownerStands
          (.child holderStands holderUnwraps childAt) ownerPasses passes

theorem covers_iff_unshared :
    (∀ entry, IsEntry shape root entry → ∃ record ∈ walk.log, record.toEntry = entry) ↔
      Unshared shape root := by
  have tidy := tidy_of_ended visits ended
  constructor
  · intro covers target container unwraps content first second firstValue secondValue firstStands
      secondStands firstPasses secondPasses
    -- the content is recorded at both places, so both have marked the pointer
    have marked : ∀ path value, At shape root path value → Passes shape value target →
        (target, path) ∈ walk.marks := by
      intro path value stands passes
      obtain ⟨index, label, child, final, childAt, childUnwraps, visible⟩ := content
      obtain ⟨record, logged, same⟩ := covers ⟨path, index, label, final⟩
        ⟨⟨value, container, child, stands, unwraps.of_passed passes, childAt, childUnwraps⟩,
          visible⟩
      obtain ⟨-, -, inside, -⟩ := tidy.logged record logged
      obtain ⟨visited, entered, there⟩ := List.mem_map.mp inside
      obtain ⟨-, other, otherStands, -, passed⟩ := tidy.entered visited entered
      have here : visited.1 = path := there.trans (congrArg Entry.path same)
      rw [here] at otherStands passed
      exact passed target (stands.unique otherStands ▸ passes)
    have once := List.inj_on_of_nodup_map tidy.marked
      (marked first firstValue firstStands firstPasses)
      (marked second secondValue secondStands secondPasses) rfl
    exact congrArg Prod.snd once
  · rintro unshared ⟨path, index, label, final⟩ ⟨⟨value, container, child, stands, unwraps, childAt,
      childUnwraps⟩, visible⟩
    have entered := entered_of_unshared visits ended unshared stands unwraps
      ⟨index, label, child, final, childAt, childUnwraps, visible⟩
    exact (finished_of_ended visits ended entered index label child childAt).logged final
      childUnwraps visible

end Ended

/-! ## Walks with more depth -/

variable {marks : List (Ref × Path)}

section Depth

variable {visit : Nat → Ref → List ((Label × Ref) × Nat)} {path : Path}
  {walk after : Walk Label Ref}

theorem follow_mono [DecidableEq Ref] {depth further : Nat} (deeper : depth ≤ further)
    {outcome : Option Ref × List (Ref × Path)}
    (ended : follow shape path depth value marks = some outcome) :
    follow shape path further value marks = some outcome := by
  induction depth generalizing value marks further with
  | zero => cases ended
  | succ depth ih =>
    cases further with
    | zero => omega
    | succ further =>
      rw [follow] at ended ⊢
      cases shaped : shape value with
      | pointer target =>
        simp only [shaped] at ended ⊢
        split
        next marked => rwa [if_pos marked] at ended
        next unmarked =>
          rw [if_neg unmarked] at ended
          exact ih (by omega) ended
      | blank | leaf | container children => simpa [shaped] using ended

section Children

variable {lowerUnwrapped upperUnwrapped : Ref → Option Ref}
  {lower upper : Path → Ref → Walk Label Ref → Option (Walk Label Ref)} {number : Nat}

section

variable
  (unwrapped : ∀ value final, lowerUnwrapped value = some final → upperUnwrapped value = some final)
  (recurse : ∀ path value walk after, lower path value walk = some after →
    upper path value walk = some after)

include unwrapped recurse

theorem walkChild_mono {position : (Label × Ref) × Nat}
    (ended : walkChild shape lowerUnwrapped lower path number position walk = some after) :
    walkChild shape upperUnwrapped upper path number position walk = some after := by
  obtain ⟨⟨label, child⟩, index⟩ := position
  obtain ⟨value, found, rest⟩ := walkChild_iff.mp ended
  refine walkChild_iff.mpr ⟨value, unwrapped child value found, rest.imp_left ?_⟩
  exact And.imp_right (recurse _ _ _ _)

theorem walkChildren_mono {positions : List ((Label × Ref) × Nat)}
    (ended : walkChildren shape lowerUnwrapped lower path number positions walk = some after) :
    walkChildren shape upperUnwrapped upper path number positions walk = some after := by
  induction positions generalizing walk with
  | nil => exact ended
  | cons position rest ih =>
    obtain ⟨middle, first, later⟩ := Option.bind_eq_some_iff.mp ended
    exact Option.bind_eq_some_iff.mpr ⟨middle, walkChild_mono unwrapped recurse first, ih later⟩

end

end Children

theorem walkFrom_mono [DecidableEq Ref] {depth further : Nat} (deeper : depth ≤ further)
    (ended : walkFrom shape visit depth path value walk = some after) :
    walkFrom shape visit further path value walk = some after := by
  induction depth generalizing path value walk after further with
  | zero => cases ended
  | succ depth ih =>
    cases further with
    | zero => omega
    | succ further =>
      obtain ⟨reached, marks, followed, rest⟩ := walkFrom_iff.mp ended
      refine walkFrom_iff.mpr ⟨reached, marks, follow_mono deeper followed, ?_⟩
      refine rest.imp_right ?_
      rintro ⟨final, reaches, isContainer, walked⟩
      exact ⟨final, reaches, isContainer, walkChildren_mono (fun _ _ => unwrap_mono deeper)
        (fun _ _ _ _ => ih (by omega)) walked⟩

end Depth

/-! ## Walks that end -/

section Ends

noncomputable def unmarked (marks : List (Ref × Path)) : Nat :=
  Set.ncard {target | target ∉ marks.map Prod.fst}

variable [Finite Ref]

theorem unmarked_cons_lt {target : Ref} (path : Path) (fresh : target ∉ marks.map Prod.fst) :
    unmarked ((target, path) :: marks) < unmarked marks := by
  refine Set.ncard_lt_ncard ⟨fun other => ?_, fun back => ?_⟩ (Set.toFinite _)
  · simp only [List.map_cons, List.mem_cons, Set.mem_ofPred_eq]
    exact fun absent present => absent (.inr present)
  · have : target ∉ List.map Prod.fst ((target, path) :: marks) := back fresh
    simp at this

variable [DecidableEq Ref] {visit : Nat → Ref → List ((Label × Ref) × Nat)}

theorem exists_follow (shape : Ref → Shape Label Ref) (path : Path) (value : Ref)
    (marks : List (Ref × Path)) :
    ∃ depth reached after, follow shape path (depth + 1) value marks = some (reached, after) ∧
      unmarked after ≤ unmarked marks ∧
      ∀ target, shape value = .pointer target → ∀ final, reached = some final →
        unmarked after < unmarked marks := by
  induction remaining : unmarked marks using Nat.strong_induction_on generalizing value marks with
  | _ _ ih =>
    subst remaining
    cases shaped : shape value with
    | pointer target =>
      by_cases marked : target ∈ marks.map Prod.fst
      · exact ⟨0, none, marks, by simp only [follow, shaped, if_pos marked], le_rfl, by simp⟩
      · have less := unmarked_cons_lt path marked
        obtain ⟨depth, reached, after, ended, fewer, -⟩ := ih _ less target _ rfl
        refine ⟨depth + 1, reached, after, ?_, by omega, fun _ _ _ _ => by omega⟩
        rw [follow]
        simpa only [shaped, if_neg marked] using ended
    | blank => exact ⟨0, none, marks, by simp only [follow, shaped], le_rfl, by simp⟩
    | leaf => exact ⟨0, some value, marks, by simp only [follow, shaped], le_rfl, by simp⟩
    | container children =>
      exact ⟨0, some value, marks, by simp only [follow, shaped], le_rfl, by simp⟩

/-- With so many pointers left, the children of the container can be walked. -/
def Ends (shape : Ref → Shape Label Ref) (visit : Nat → Ref → List ((Label × Ref) × Nat))
    (remaining : Nat) (container : Ref) : Prop :=
  ∀ path number walk positions, unmarked walk.marks ≤ remaining →
    (∀ position ∈ positions, ChildAt shape container position.2 position.1.1 position.1.2) →
    ∃ depth after, walkChildren shape (unwrap shape depth) (walkFrom shape visit depth) path number
      positions walk = some after ∧ unmarked after.marks ≤ unmarked walk.marks

variable {remaining : Nat}

omit [Finite Ref] in
theorem Ends.mono {fewer : Nat} {container : Ref}
    (ends : Ends shape visit remaining container) (less : fewer ≤ remaining) :
    Ends shape visit fewer container :=
  fun path number walk positions enough => ends path number walk positions (enough.trans less)

theorem exists_walkFrom (visits : Visits shape visit) (path : Path) (value : Ref)
    (walk : Walk Label Ref) (enough : unmarked walk.marks ≤ remaining)
    (direct : IsContainer shape value → Ends shape visit remaining value)
    (behind : ∀ fewer < remaining, ∀ container, Unwraps shape value container →
      IsContainer shape container → Ends shape visit fewer container) :
    ∃ depth after, walkFrom shape visit depth path value walk = some after ∧
      unmarked after.marks ≤ unmarked walk.marks := by
  obtain ⟨depth, reached, marks, followed, fewer, less⟩ := exists_follow shape path value walk.marks
  by_cases entering : ∃ final, reached = some final ∧ IsContainer shape final
  · obtain ⟨final, rfl, isContainer⟩ := entering
    obtain ⟨-, there, -⟩ := follow_spec followed
    obtain ⟨unwraps, -, -⟩ := there final rfl
    have ends : Ends shape visit (unmarked marks) final := by
      rcases Relation.ReflTransGen.cases_head unwraps.reached with rfl | ⟨target, first, -⟩
      · exact (direct isContainer).mono (fewer.trans enough)
      · exact behind _ ((less target first final rfl).trans_le enough) final unwraps isContainer
    obtain ⟨inner, after, ended, afterFewer⟩ := ends path walk.count
      { walk with marks := marks, entered := walk.entered ++ [(path, final)] }
      (visit walk.count final) le_rfl
      (fun position member => (visits.mem_iff isContainer).mp member)
    refine ⟨max depth inner + 1, after, walkFrom_iff.mpr ⟨some final, marks,
      follow_mono (by omega) followed, .inr ⟨final, rfl, isContainer, ?_⟩⟩, afterFewer.trans fewer⟩
    exact walkChildren_mono (fun _ _ => unwrap_mono (by omega))
      (fun _ _ _ _ => walkFrom_mono (by omega)) ended
  · refine ⟨depth + 1, { walk with marks := marks }, walkFrom_iff.mpr ⟨reached, marks, followed,
      .inl ⟨fun final same isContainer => entering ⟨final, same, isContainer⟩, rfl⟩⟩, fewer⟩

theorem Grounded.ends (grounded : Grounded shape root) (visits : Visits shape visit)
    (occurs : Occurs shape root container)
    (direct : ∀ child, Direct shape child container → Ends shape visit remaining child)
    (behind : ∀ fewer < remaining, ∀ other, Occurs shape root other →
      Ends shape visit fewer other) : Ends shape visit remaining container := by
  intro path number walk positions enough children
  induction positions generalizing walk with
  | nil => exact ⟨0, walk, rfl, le_rfl⟩
  | cons position rest ih =>
    obtain ⟨childAt, others⟩ := List.forall_mem_cons.mp children
    obtain ⟨⟨label, child⟩, index⟩ := position
    obtain ⟨value, unwraps⟩ := grounded.unwraps container index label child occurs childAt
    obtain ⟨outer, unwrapped⟩ := unwraps.exists_unwrap
    obtain ⟨depth, middle, walked, fewer⟩ : ∃ depth middle,
        walkChild shape (unwrap shape depth) (walkFrom shape visit depth) path number
          ((label, child), index) walk = some middle ∧
            unmarked middle.marks ≤ unmarked walk.marks := by
      by_cases isContainer : IsContainer shape value
      · obtain ⟨inner, middle, ended, fewer⟩ :=
          exists_walkFrom visits (path ++ [index]) child
            (walk.addContainer number ⟨path, index, label, value⟩) enough
            (fun childContainer => direct child ⟨childContainer, index, label, childAt⟩)
            (fun fewer less other otherUnwraps _ =>
              behind fewer less other (occurs.child childAt otherUnwraps))
        refine ⟨max outer inner, middle,
          walkChild_iff.mpr ⟨value, ?_, .inl ⟨isContainer, ?_⟩⟩, fewer⟩
        · exact unwrap_mono (le_max_left _ _) unwrapped
        · exact walkFrom_mono (le_max_right _ _) ended
      · by_cases leaf : shape value = .leaf
        · exact ⟨outer, _, walkChild_iff.mpr ⟨value, unwrapped, .inr (.inl ⟨leaf, rfl⟩)⟩, le_rfl⟩
        · exact ⟨outer, _, walkChild_iff.mpr ⟨value, unwrapped,
            .inr (.inr ⟨by simp [Visible, leaf, isContainer], rfl⟩)⟩, le_rfl⟩
    obtain ⟨later, after, ended, afterFewer⟩ := ih middle (fewer.trans enough) others
    refine ⟨max depth later, after, Option.bind_eq_some_iff.mpr ⟨middle, ?_, ?_⟩,
      afterFewer.trans fewer⟩
    · exact walkChild_mono (fun _ _ => unwrap_mono (le_max_left _ _))
        (fun _ _ _ _ => walkFrom_mono (le_max_left _ _)) walked
    · exact walkChildren_mono (fun _ _ => unwrap_mono (le_max_right _ _))
        (fun _ _ _ _ => walkFrom_mono (le_max_right _ _)) ended

theorem Grounded.ends_all (grounded : Grounded shape root) (visits : Visits shape visit)
    (remaining : Nat) (occurs : Occurs shape root container) :
    Ends shape visit remaining container := by
  induction remaining using Nat.strong_induction_on generalizing container with
  | _ remaining behind =>
    have accessible := grounded.acc occurs
    induction accessible with
    | intro container _ direct =>
      refine grounded.ends visits occurs (fun child contained => ?_)
        (fun fewer less other otherOccurs => behind fewer less otherOccurs)
      obtain ⟨isContainer, index, label, childAt⟩ := contained
      exact direct child ⟨isContainer, index, label, childAt⟩
        (occurs.child childAt (.self (Visible.not_pointer (.inr isContainer))))

theorem exists_walk_iff_grounded (visits : Visits shape visit) :
    (∃ depth walk, walkFrom shape visit depth [] root (Walk.start Label Ref) = some walk) ↔
      Grounded shape root := by
  constructor
  · rintro ⟨depth, walk, ended⟩
    exact grounded_of_ended visits ended
  · intro grounded
    obtain ⟨depth, walk, ended, -⟩ := exists_walkFrom visits [] root (Walk.start Label Ref) le_rfl
      (fun isContainer => grounded.ends_all visits _
        ⟨[], root, .root, .self (Visible.not_pointer (.inr isContainer))⟩)
      (fun fewer _ container unwraps _ => grounded.ends_all visits fewer ⟨[], root, .root, unwraps⟩)
    exact ⟨depth, walk, ended⟩

end Ends

end Traversal

import Mathlib.Data.Set.Finite.Basic
import Mathlib.Order.WellFounded

/-!
# Recursion along ordered tasks

A recursive procedure that works off the tasks of a node in order: a task is an attempt that
succeeds or fails, or a call of the procedure on another node.  The first failure ends every
call that is under way.  Nothing remembers the nodes that were met, so the procedure returns
exactly if it never comes back to a node that it is still working on.
-/

namespace Traversal

inductive Task (Node : Type*) where
  | attempt (succeeds : Bool)
  | call (node : Node)
  deriving DecidableEq

variable {Node : Type*} (tasks : Node → List (Task Node))

/-- The outcome of one thing after another: `none` is a call that has not returned, and
otherwise it succeeds or not. -/
def andThen (first rest : Option Bool) : Option Bool :=
  match first with
  | some true => rest
  | ended => ended

variable (rest : Option Bool)

@[simp]
theorem andThen_none : andThen none rest = none := rfl

@[simp]
theorem andThen_false : andThen (some false) rest = some false := rfl

@[simp]
theorem andThen_true : andThen (some true) rest = rest := rfl

def runTasks (run : Node → Option Bool) : List (Task Node) → Option Bool
  | [] => some true
  | .attempt succeeds :: rest => andThen (some succeeds) (runTasks run rest)
  | .call node :: rest => andThen (run node) (runTasks run rest)

theorem runTasks_append_eq (run : Node → Option Bool) (before rest : List (Task Node)) :
    runTasks run (before ++ rest) = andThen (runTasks run before) (runTasks run rest) := by
  induction before with
  | nil => rfl
  | cons task others ih =>
    cases task with
    | attempt succeeds => cases succeeds <;> simp [runTasks, ih]
    | call node =>
      rcases returned : run node with _ | _ | _ <;> simp [runTasks, returned, ih]

def run : Nat → Node → Option Bool
  | 0, _ => none
  | depth + 1, node => runTasks (run depth) (tasks node)

def Returns (node : Node) : Prop := ∃ depth outcome, run tasks depth node = some outcome

/-- Some task of the first node is a call on the second one. -/
def Links (node next : Node) : Prop := .call next ∈ tasks node

/-- Nothing fails, and no call comes back, at any node that can be met from this one. -/
structure Sound (node : Node) : Prop where
  succeeds : ∀ met, Relation.ReflTransGen (Links tasks) node met → .attempt false ∉ tasks met
  acyclic : ∀ met, Relation.ReflTransGen (Links tasks) node met →
    ¬ Relation.TransGen (Links tasks) met met

def Task.Sound : Task Node → Prop
  | .attempt succeeds => succeeds = true
  | .call node => Traversal.Sound tasks node

def Takes (node next : Node) : Prop :=
  ∃ before after, tasks node = before ++ .call next :: after ∧ ∀ task ∈ before, task.Sound tasks

variable {tasks} {node : Node}

theorem Takes.links {next : Node} (takes : Takes tasks node next) : Links tasks node next := by
  obtain ⟨before, after, split, -⟩ := takes
  rw [Links, split]
  simp

theorem Sound.next {next : Node} (sound : Sound tasks node) (links : Links tasks node next) :
    Sound tasks next :=
  ⟨fun met reached => sound.succeeds met (.head links reached),
    fun met reached => sound.acyclic met (.head links reached)⟩

/-! ## Successful calls -/

variable {depth : Nat} {list : List (Task Node)}

section Success

theorem runTasks_eq_true_iff {call : Node → Option Bool} :
    runTasks call list = some true ↔
      .attempt false ∉ list ∧ ∀ node, .call node ∈ list → call node = some true := by
  induction list with
  | nil => simp [runTasks]
  | cons task rest ih =>
    cases task with
    | attempt succeeds => cases succeeds <;> simp [runTasks, ih]
    | call node =>
      rcases returned : call node with _ | _ | _ <;> simp [runTasks, returned, ih]

theorem run_true_of_links {next : Node} (links : Links tasks node next)
    (succeeded : run tasks (depth + 1) node = some true) : run tasks depth next = some true :=
  (runTasks_eq_true_iff.mp succeeded).2 next links

theorem run_true_of_transGen {met : Node} (reached : Relation.TransGen (Links tasks) node met)
    (succeeded : run tasks depth node = some true) :
    ∃ lower < depth, run tasks lower met = some true := by
  induction reached with
  | single links =>
    cases depth with
    | zero => cases succeeded
    | succ depth => exact ⟨depth, depth.lt_succ_self, run_true_of_links links succeeded⟩
  | tail _ links ih =>
    obtain ⟨lower, below, met⟩ := ih
    cases lower with
    | zero => cases met
    | succ lower => exact ⟨lower, by omega, run_true_of_links links met⟩

theorem sound_of_run_true (succeeded : run tasks depth node = some true) : Sound tasks node := by
  have everywhere : ∀ met, Relation.ReflTransGen (Links tasks) node met →
      ∃ depth, run tasks depth met = some true := by
    intro met reached
    rcases Relation.reflTransGen_iff_eq_or_transGen.mp reached with rfl | further
    · exact ⟨depth, succeeded⟩
    · obtain ⟨lower, -, there⟩ := run_true_of_transGen further succeeded
      exact ⟨lower, there⟩
  refine ⟨fun met reached => ?_, fun met reached cycle => ?_⟩
  · obtain ⟨depth, there⟩ := everywhere met reached
    cases depth with
    | zero => cases there
    | succ depth => exact (runTasks_eq_true_iff.mp there).1
  · -- the least depth at which the call succeeds would not be the least
    obtain ⟨lower, below, there⟩ :=
      run_true_of_transGen cycle (Nat.find_spec (everywhere met reached))
    exact Nat.find_min (everywhere met reached) below there

end Success

/-! ## Calls that do not return -/

section Divergence

/-- Sound tasks are worked off, unless one of them does not return. -/
theorem runTasks_append {call : Node → Option Bool} {before : List (Task Node)}
    (sound : ∀ task ∈ before, task.Sound tasks)
    (unfailing : ∀ node, Sound tasks node → call node ≠ some false) (rest : List (Task Node)) :
    runTasks call (before ++ rest) = none ∨
      runTasks call (before ++ rest) = runTasks call rest := by
  have notFalse : runTasks call before ≠ some false := by
    induction before with
    | nil => simp [runTasks]
    | cons task others ih =>
      obtain ⟨first, othersSound⟩ := List.forall_mem_cons.mp sound
      cases task with
      | attempt succeeds =>
        cases first
        exact ih othersSound
      | call node =>
        have unfailed := unfailing node first
        rcases returned : call node with _ | _ | _
        · simp [runTasks, returned]
        · exact absurd returned unfailed
        · simpa [runTasks, returned] using ih othersSound
  rw [runTasks_append_eq]
  rcases worked : runTasks call before with _ | _ | _
  · exact .inl rfl
  · exact absurd worked notFalse
  · exact .inr rfl

theorem Sound.task_sound (sound : Sound tasks node) : ∀ task ∈ tasks node, task.Sound tasks := by
  intro task member
  cases task with
  | attempt succeeds =>
    cases succeeds with
    | false => exact absurd member (sound.succeeds node .refl)
    | true => rfl
  | call next => exact sound.next member

theorem Sound.run_ne_false (sound : Sound tasks node) (depth : Nat) :
    run tasks depth node ≠ some false := by
  induction depth generalizing node with
  | zero => simp [run]
  | succ depth ih =>
    have worked := runTasks_append sound.task_sound (fun next nextSound => ih nextSound) []
    rw [List.append_nil] at worked
    rcases worked with waits | done
    · simp [run, waits]
    · simp [run, done, runTasks]

theorem run_eq_none_of_takes {next : Node} (takes : Takes tasks node next)
    (waits : run tasks depth next = none) : run tasks (depth + 1) node = none := by
  obtain ⟨before, after, split, sound⟩ := takes
  rw [run, split]
  rcases runTasks_append sound (fun other otherSound => otherSound.run_ne_false depth)
    (.call next :: after) with earlier | there
  · exact earlier
  · rw [there, runTasks, waits, andThen_none]

theorem run_eq_none_of_cycle {met : Node} (reached : Relation.ReflTransGen (Takes tasks) node met)
    (cycle : Relation.TransGen (Takes tasks) met met) (depth : Nat) :
    run tasks depth node = none := by
  -- from every such node a call is made on another one
  have onward : ∃ next, Takes tasks node next ∧ Relation.ReflTransGen (Takes tasks) next met := by
    rcases Relation.ReflTransGen.cases_head reached with rfl | further
    · exact Relation.TransGen.head'_iff.mp cycle
    · exact further
  obtain ⟨next, takes, later⟩ := onward
  induction depth generalizing node next with
  | zero => rfl
  | succ depth ih =>
    refine run_eq_none_of_takes takes ?_
    rcases Relation.ReflTransGen.cases_head later with rfl | ⟨third, takesThird, remaining⟩
    · obtain ⟨third, takesThird, remaining⟩ := Relation.TransGen.head'_iff.mp cycle
      exact ih later third takesThird remaining
    · exact ih later third takesThird remaining

end Divergence

/-! ## Calls that return -/

section Return

theorem runTasks_mono {lower upper : Node → Option Bool}
    (agrees : ∀ node outcome, lower node = some outcome → upper node = some outcome)
    {outcome : Bool} (returned : runTasks lower list = some outcome) :
    runTasks upper list = some outcome := by
  induction list with
  | nil => exact returned
  | cons task rest ih =>
    cases task with
    | attempt succeeds => cases succeeds <;> simp_all [runTasks]
    | call node =>
      rcases first : lower node with _ | _ | _
      · simp [runTasks, first] at returned
      · simp_all [runTasks, agrees _ _ first]
      · simp_all [runTasks, agrees _ _ first]

theorem run_mono {further : Nat} (deeper : depth ≤ further) {outcome : Bool}
    (returned : run tasks depth node = some outcome) : run tasks further node = some outcome := by
  induction depth generalizing further node outcome with
  | zero => cases returned
  | succ depth ih =>
    cases further with
    | zero => omega
    | succ further =>
      exact runTasks_mono (fun _ _ there => ih (by omega) there) returned

theorem returns_of_takes (returns : ∀ next, Takes tasks node next → Returns tasks next) :
    Returns tasks node := by
  have remaining : ∀ before rest, tasks node = before ++ rest →
      (∀ task ∈ before, task.Sound tasks) →
      ∃ depth outcome, runTasks (run tasks depth) rest = some outcome := by
    intro before rest split sound
    induction rest generalizing before with
    | nil => exact ⟨0, true, rfl⟩
    | cons task rest ih =>
      cases task with
      | attempt succeeds =>
        cases succeeds with
        | false => exact ⟨0, false, rfl⟩
        | true =>
          obtain ⟨depth, outcome, returned⟩ :=
            ih (before ++ [.attempt true]) (by simp [split])
              (by simpa [or_imp, forall_and, Task.Sound] using sound)
          exact ⟨depth, outcome, returned⟩
      | call next =>
        obtain ⟨depth, outcome, returned⟩ := returns next ⟨before, rest, split, sound⟩
        cases outcome with
        | false => exact ⟨depth, false, by simp [runTasks, returned]⟩
        | true =>
          have nextSound := sound_of_run_true returned
          obtain ⟨later, outcome, rest⟩ :=
            ih (before ++ [.call next]) (by simp [split]) (by
              intro task member
              rcases List.mem_append.mp member with old | new
              · exact sound task old
              · cases List.mem_singleton.mp new
                exact nextSound)
          refine ⟨max depth later, outcome, ?_⟩
          rw [runTasks, run_mono (le_max_left _ _) returned, andThen_true]
          exact runTasks_mono (fun _ _ => run_mono (le_max_right _ _)) rest
  obtain ⟨depth, outcome, returned⟩ := remaining [] (tasks node) rfl (by simp)
  exact ⟨depth + 1, outcome, returned⟩

end Return

/-- With finitely many nodes to meet, a call returns exactly if none of the calls it makes
comes back. -/
theorem returns_iff {root : Node}
    (finite : {met | Relation.ReflTransGen (Links tasks) root met}.Finite) :
    Returns tasks root ↔ ∀ met, Relation.ReflTransGen (Takes tasks) root met →
      ¬ Relation.TransGen (Takes tasks) met met := by
  constructor
  · rintro ⟨depth, outcome, returned⟩ met reached cycle
    rw [run_eq_none_of_cycle reached cycle] at returned
    cases returned
  · intro acyclic
    let Met := {met // Relation.ReflTransGen (Takes tasks) root met}
    have finiteMet : Finite Met := by
      refine (finite.subset fun met reached => ?_).to_subtype
      exact Relation.ReflTransGen.mono (fun _ _ takes => Takes.links takes) _ _ reached
    let calls (next node : Met) : Prop := Takes tasks node.1 next.1
    have irreflexive : Std.Irrefl (Relation.TransGen calls) := by
      refine ⟨fun node cycle => acyclic node.1 node.2 ?_⟩
      exact Relation.TransGen.lift Subtype.val (fun _ _ => id) _ _ (Relation.transGen_swap.mp cycle)
    have wellFounded : WellFounded calls :=
      Subrelation.wf (fun call => Relation.TransGen.single call)
        (Finite.wellFounded_of_trans_of_irrefl (Relation.TransGen calls))
    have all : ∀ node : Met, Returns tasks node.1 := by
      intro node
      induction node using wellFounded.induction with
      | _ node ih =>
        exact returns_of_takes fun next takes => ih ⟨next, node.2.tail takes⟩ takes
    exact all ⟨root, .refl⟩

end Traversal

import Manglekit.Atomic.Commit
import Manglekit.Engine.CacheAllocation

/-!
# Reloads that fail

A reload of the policy and a load of files read the runtime section by section, build
and evaluate the new program on copies, and replace the state in their last section.
As long as they have not succeeded, every other call finds the runtime, and returns, as
if they had not been made.
-/

namespace Manglekit.Engine

open Core Datalog Atomic Process

def RuntimeCall.replaces : RuntimeCall → Bool
  | .load .. => true
  | .reloadFromSource .. => true
  | _ => false

section Calls

variable {Key : Type} (mangle : Mangle Key)

theorem commitsLast_reloadFromSource (ctx : Context) (source : String) :
    (reloadFromSource mangle ctx source).CommitsLast (· = none) := by
  unfold reloadFromSource
  split_ifs
  · trivial
  · refine .reads (fun _ => rfl) fun persistent => .reads (fun _ => rfl) fun names => ?_
    rcases reloadProgram mangle source persistent.1 persistent.2 names with
      err | ⟨units, program⟩
    · trivial
    · refine .reads (fun _ => rfl) fun kept => .reads (fun _ => rfl) fun settings => ?_
      rcases evaluate mangle ctx settings program kept.merged with ⟨evaluated, failure⟩
      cases failure with
      | some err => trivial
      | none => exact .commits fun _ => rfl

theorem commitsLast_load (ctx : Context) (path : String)
    (resolved : Except GoError (List SourceFile)) :
    (load mangle ctx path resolved).CommitsLast (· = none) := by
  unfold load
  split_ifs
  · trivial
  · rcases resolved with err | files
    · trivial
    · dsimp only
      rcases loadProgram mangle ctx path files with err | ⟨units, program, explicit, evaluated⟩
      · trivial
      · exact .commits fun _ => rfl

theorem commitsLast_call [DecidableEq Key] {call : RuntimeCall} (replaces : call.replaces = true) :
    (call.process mangle).CommitsLast (· = .updated none) := by
  have wrapped : ∀ failure, failure = none → CallResult.updated failure = .updated none := by
    rintro failure rfl
    rfl
  cases call with
  | load ctx path resolved => exact (commitsLast_load mangle ctx path resolved).wrapped wrapped
  | reloadFromSource ctx source =>
    exact (commitsLast_reloadFromSource mangle ctx source).wrapped wrapped
  | loadFacts | addPolicy | withMaxCreatedFacts | executeQuery | queryWithSolutions =>
    cases replaces

end Calls

section Interleaving

variable {Key : Type} [DecidableEq Key] (mangle : Mangle Key) {Thread : Type} [DecidableEq Thread]

/-- However any calls interleave with reloads and loads that fail, or have not returned
yet: at every moment the runtime and the other calls are where they would be had the
failing ones taken no turn, and no section of a failing one changes the runtime. -/
theorem failed_replacement_invisible (start : MangleRuntime Key) (calls : Thread → RuntimeCall)
    (schedule : List Thread) (failing : Thread → Bool)
    (replaces : ∀ thread, failing thread = true → (calls thread).replaces = true)
    (failed : ∀ thread, failing thread = true →
      ((callPool mangle start calls).run schedule).threads thread ≠ .done (.updated none))
    (before after : List Thread) (moment : schedule = before ++ after) :
    (((callPool mangle start calls).run before).state =
        ((callPool mangle start calls).run
          (before.filter fun thread => !failing thread)).state ∧
      ∀ thread, failing thread = false →
        ((callPool mangle start calls).run before).threads thread =
          ((callPool mangle start calls).run
            (before.filter fun thread => !failing thread)).threads thread) ∧
    ∀ thread later, after = thread :: later → failing thread = true →
      ((callPool mangle start calls).run (before ++ [thread])).state =
        ((callPool mangle start calls).run before).state := by
  have last : ∀ thread, failing thread = true →
      ((callPool mangle start calls).threads thread).CommitsLast (· = .updated none) :=
    fun thread isFailing => commitsLast_call mangle (replaces thread isFailing)
  -- A call that had returned success earlier would still have at the end.
  have without : ∀ reached rest, schedule = reached ++ rest →
      Pool.SameBut failing ((callPool mangle start calls).run reached)
        ((callPool mangle start calls).run
          (reached.filter fun thread => !failing thread)) := by
    rintro reached rest rfl
    refine (Pool.SameBut.refl _).run last reached fun thread isFailing result ended success => ?_
    subst success
    apply failed thread isFailing
    rw [Pool.run_append]
    exact Pool.threads_run_of_done ended rest
  refine ⟨⟨(without before after moment).state, (without before after moment).threads⟩, ?_⟩
  rintro thread later rfl isFailing
  have further := without (before ++ [thread]) later (by simp [moment])
  rw [further.state, (without before _ moment).state, List.filter_append,
    List.filter_cons_of_neg (by simp [isFailing]), List.filter_nil, List.append_nil]

end Interleaving

/-! ## A reload that does not parse, beside a query -/

inductive Rival where
  | policy
  | query
  | broken
  deriving DecidableEq

def Rival.call : Rival → RuntimeCall
  | .policy => .reloadFromSource {} "p(\"a\")."
  | .query => .executeQuery {} [] "p(\"a\")"
  | .broken => .reloadFromSource {} "p("

/-- The broken reload starts after the policy is in place and fails while the query is
on its way. -/
def Rival.schedule : List Rival :=
  [.policy, .policy, .policy, .policy, .policy, .query, .broken, .query, .broken, .query]

/-- Both reloads return, the second with an error, and the query is answered as if the
second had not been made. -/
theorem brokenReload_unseen :
    ((callPool Reference.mangle {} Rival.call).run Rival.schedule).threads .broken matches
        .done (.updated (some _)) ∧
      ((callPool Reference.mangle {} Rival.call).run Rival.schedule).threads .query =
        ((callPool Reference.mangle {} Rival.call).run
          (Rival.schedule.filter fun rival => !decide (rival = .broken))).threads .query := by
  have fails :
      ((callPool Reference.mangle {} Rival.call).run Rival.schedule).threads .broken matches
        .done (.updated (some _)) := by
    decide +kernel
  refine ⟨fails, ?_⟩
  have unseen := failed_replacement_invisible Reference.mangle {} Rival.call Rival.schedule
    (fun rival => decide (rival = .broken)) ?_ ?_ Rival.schedule [] (List.append_nil _).symm
  · exact unseen.1.2 .query rfl
  · rintro rival isBroken
    obtain rfl := of_decide_eq_true isBroken
    rfl
  · rintro rival isBroken success
    obtain rfl := of_decide_eq_true isBroken
    rw [success] at fails
    cases fails

end Manglekit.Engine

/-
What a rendering starts from has no part in whether it fails.

The base of a rendering is the lowest layer of what each task sets. If it is an environment it can
be merged and written like the layers above it, whatever is in it. So over any two such bases a
rendering fails with the same error, or with none. The induction follows the renderer: the scripts
of some steps fail alike, and what is made of them afterwards cannot fail because of the base.
-/

import Taskbook.Proofs.Environment
import Taskbook.Proofs.Rendering.Unfolding

namespace Taskbook

/-! ### Computations that fail alike -/

/-- Two computations fail with the same error, or both do not fail. -/
def FailLike {ε α β : Type} (first : Except ε α) (second : Except ε β) : Prop :=
  ∀ error, first = .error error ↔ second = .error error

section

variable {ε α β γ δ : Type} {first : Except ε α} {second : Except ε β}

theorem failLike_ok (value : α) (other : β) :
    FailLike (.ok value : Except ε α) (.ok other : Except ε β) := by
  intro error
  exact iff_of_false (fun failed => by cases failed) fun failed => by cases failed

theorem failLike_error (error : ε) :
    FailLike (.error error : Except ε α) (.error error : Except ε β) := by
  intro other
  simp only [Except.error.injEq]

theorem failLike_refl (outcome : Except ε α) : FailLike outcome outcome :=
  fun _ => Iff.rfl

/-- Chains fail alike if their first links do, and the rests do from there. -/
theorem FailLike.bind {next : α → Except ε γ} {other : β → Except ε δ}
    (alike : FailLike first second)
    (further : ∀ value result, first = .ok value → second = .ok result →
      FailLike (next value) (other result)) :
    FailLike (first >>= next) (second >>= other) := by
  cases given : first with
  | error error =>
    rw [(alike error).mp given]
    exact failLike_error error
  | ok value =>
    cases otherGiven : second with
    | error error =>
      rw [(alike error).mpr otherGiven] at given
      cases given
    | ok result => exact further value result given otherGiven

/-- A computation that fails like one that does not succeeds too. -/
theorem FailLike.exists_ok (alike : FailLike first second) {result : β}
    (given : second = .ok result) : ∃ value, first = .ok value := by
  cases outcome : first with
  | error error =>
    rw [(alike error).mp outcome] at given
    cases given
  | ok value => exact ⟨value, rfl⟩

theorem FailLike.orFault {first : Except Fault α} {second : Except Fault β}
    (alike : FailLike first second) : FailLike (orFault first) (orFault second) := by
  cases given : first with
  | error fault =>
    rw [(alike fault).mp given]
    exact failLike_error _
  | ok value =>
    obtain ⟨result, otherGiven⟩ : ∃ result, second = .ok result :=
      FailLike.exists_ok (fun fault => (alike fault).symm) given
    rw [otherGiven]
    exact failLike_ok _ _

end

/-! ### Renderings over different bases -/

namespace Registry

variable {registry : Registry} {base other : Value} {lowest otherLowest : Env}

section

variable (layered : base.layer = .ok lowest.entries)
  (otherLayered : other.layer = .ok otherLowest.entries)

include layered otherLayered

/-- The command of a task fails because of its condition only. -/
theorem frame_failLike (overlay : Env) (task : Task) (fragments others : List Shell.Script) :
    FailLike (registry.frame base overlay task fragments)
      (registry.frame other overlay task others) := by
  rw [frame, frame, bindings_eq_mergeAll layered, bindings_eq_mergeAll otherLayered]
  refine FailLike.bind ?_ fun _ _ _ _ => failLike_ok _ _
  unfold gated
  split
  · exact (failLike_refl _).bind fun _ _ _ _ => failLike_ok _ _
  · exact failLike_ok _ _

/-- The scripts of some steps fail alike over both bases. -/
theorem stepScripts_failLike (overlay : Env) (path : List Value) (owner : Value)
    (steps : List Step) :
    FailLike (stepScripts registry base overlay path owner steps).result
      (stepScripts registry other overlay path owner steps).result := by
  induction overlay, path, owner, steps using stepScripts.induct registry with
  | case1 overlay path owner =>
    rw [stepScripts_nil_result, stepScripts_nil_result]
    exact failLike_ok _ _
  | case2 overlay path owner step rest restHypothesis insideHypothesis =>
    have acts : FailLike (actionScript registry base overlay path owner step)
        (actionScript registry other overlay path owner step) := by
      rw [actionScript, actionScript]
      cases step.action with
      | run command => exact failLike_refl _
      | spawn target =>
        dsimp only
        split
        · exact failLike_error _
        · exact failLike_error _
        · rename_i name task found
          split
          · exact failLike_error _
          · rename_i fresh
            exact (insideHypothesis target name task found fresh).bind fun _ _ _ _ =>
              (frame_failLike layered otherLayered _ task _ _).orFault.bind fun _ _ _ _ =>
                failLike_ok _ _
    rw [stepScripts_cons_result, stepScripts_cons_result]
    refine (failLike_refl _).bind fun label otherLabel _ _ => ?_
    exact acts.bind fun _ _ _ _ => restHypothesis.bind fun _ _ _ _ => failLike_ok _ _

theorem taskCommand_failLike (task : Task) :
    FailLike (registry.taskCommand base task).result (registry.taskCommand other task).result := by
  rw [taskCommand_result, taskCommand_result]
  exact (stepScripts_failLike layered otherLayered _ _ _ _).bind fun _ _ _ _ =>
    (frame_failLike layered otherLayered _ task _ _).orFault

/-- Whatever is rendered over two environments fails alike. -/
theorem render_failLike (name : Value) :
    FailLike (registry.render name base).result (registry.render name other).result := by
  rw [render, render, Logged.result_bind, Logged.result_bind]
  refine (failLike_refl _).bind fun entry otherEntry found otherFound => ?_
  obtain rfl := Except.ok.inj (found.symm.trans otherFound)
  simp only [renderTask, Logged.result_bind]
  exact (taskCommand_failLike layered otherLayered entry.2).bind fun _ _ _ _ => failLike_ok _ _

end

end Registry

end Taskbook

/-
A pipeline of stages, each of which passes a value on, changed or not,
or drops it.

Stages that change nothing drop a value as soon as one of them does
(`run_eq_none_iff`). Stages that drop nothing decide nothing by
themselves: in front of others they only rewrite what these see
(`run_append_of_some`), behind others they leave a dropped value dropped
(`run_append_eq_none`).
-/
import Mathlib.Data.List.Basic

namespace PaimonFtindex.Lib

variable {σ α : Type} (apply : σ → α → Option α)

/-- A value sent through the stages, from left to right. -/
def run (stages : List σ) (x : α) : Option α :=
  stages.foldlM (fun x stage => apply stage x) x

@[simp] theorem run_nil (x : α) : run apply [] x = some x := rfl

theorem run_cons (stage : σ) (stages : List σ) (x : α) :
    run apply (stage :: stages) x = (apply stage x).bind (run apply stages) :=
  rfl

/-- Two pipelines, one behind the other. -/
theorem run_append (first second : List σ) (x : α) :
    run apply (first ++ second) x
      = (run apply first x).bind (run apply second) := by
  unfold run
  rw [List.foldlM_append]
  rfl

variable {apply}

/-- Stages that change nothing drop a value if one of them does. -/
theorem run_eq_none_iff {stages : List σ} {x : α}
    (h : ∀ stage ∈ stages, apply stage x = none ∨ apply stage x = some x) :
    run apply stages x = none ↔ ∃ stage ∈ stages, apply stage x = none := by
  induction stages with
  | nil => simp
  | cons stage stages ih =>
      rw [List.forall_mem_cons] at h
      rw [run_cons]
      simp only [List.exists_mem_cons_iff]
      rcases h.1 with hdrop | hpass
      · simp [hdrop]
      · rw [hpass, Option.bind_some, ih h.2]
        simp

/-- Behind stages that pass everything on, nothing more is dropped. -/
theorem run_append_eq_none {first second : List σ}
    (hsecond : ∀ y, (run apply second y).isSome) {x : α} :
    run apply (first ++ second) x = none ↔ run apply first x = none := by
  rw [run_append]
  cases run apply first x with
  | none => simp
  | some y =>
      simp only [Option.bind_some, reduceCtorEq, iff_false]
      exact Option.isSome_iff_ne_none.mp (hsecond y)

/-- Stages in front that passed a value on do not matter any more. -/
theorem run_append_of_some {first second : List σ} {x y : α}
    (h : run apply first x = some y) :
    run apply (first ++ second) x = run apply second y := by
  rw [run_append, h, Option.bind_some]

/-- The outputs of a list of values lack that of one of them exactly
when it is dropped. -/
theorem filterMap_without_iff {f : α → Option α} {before after : List α}
    {x : α} :
    (before ++ x :: after).filterMap f
        = before.filterMap f ++ after.filterMap f ↔ f x = none := by
  rw [List.filterMap_append, List.append_right_inj, List.filterMap_cons]
  cases f x with
  | none => simp
  | some y => simp

end PaimonFtindex.Lib

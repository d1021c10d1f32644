/-
The maximal runs of a predicate in a list whose items have a width.

`runs` walks the list once and reports each run with the place it starts
at. What makes it the list of the maximal runs is `mem_runs_iff`: it
reports exactly the runs that no item on either side could join; and
`runs_ordered`: it reports them from left to right, no two meeting. A
walk that stops at the first item outside goes on with the rest of the
list (`runs_append_cons`).
-/
import Mathlib.Algebra.BigOperators.Group.List.Basic
import Mathlib.Algebra.GroupWithZero.Nat
import Mathlib.Data.List.TakeWhile

namespace PaimonFtindex.Lib

variable {α : Type} (width : α → Nat) (p : α → Bool)

/-- The width of a list: that of its items together. -/
def widthOf (l : List α) : Nat := (l.map width).sum

@[simp] theorem widthOf_nil : widthOf width ([] : List α) = 0 := rfl

@[simp] theorem widthOf_cons (a : α) (l : List α) :
    widthOf width (a :: l) = width a + widthOf width l := by
  simp [widthOf]

@[simp] theorem widthOf_append (l l' : List α) :
    widthOf width (l ++ l') = widthOf width l + widthOf width l' := by
  simp [widthOf]

/-- The maximal runs of a list that starts at `start`, each with its own
start. -/
def runs (start : Nat) : List α → List (Nat × List α)
  | [] => []
  | a :: l =>
      if p a then
        (start, a :: l.takeWhile p)
          :: runs (start + widthOf width (a :: l.takeWhile p)) (l.dropWhile p)
      else runs (start + width a) l
termination_by l => l.length
decreasing_by
  · have := (List.dropWhile_suffix p (l := l)).length_le
    simp only [List.length_cons]
    omega
  · simp

/-- `l` is a run between two parts of a list: all its items satisfy the
predicate, and the neighbours of the run, where there are any, do not. -/
structure IsRun (l before run after : List α) : Prop where
  eq : l = before ++ run ++ after
  ne_nil : run ≠ []
  all : ∀ a ∈ run, p a = true
  left : ∀ a, before.getLast? = some a → p a = false
  right : ∀ a, after.head? = some a → p a = false

variable {width p}

-- ==================================================== one run at a time

theorem takeWhile_append_of_all {l rest : List α} (hall : ∀ a ∈ l, p a = true)
    (hrest : ∀ a, rest.head? = some a → p a = false) :
    (l ++ rest).takeWhile p = l ∧ (l ++ rest).dropWhile p = rest := by
  induction l with
  | nil =>
      cases rest with
      | nil => exact ⟨rfl, rfl⟩
      | cons b rest => simp [hrest b rfl]
  | cons a l ih =>
      rw [List.forall_mem_cons] at hall
      simp [hall.1, ih hall.2]

/-- A list of satisfying items in front of a rest that starts with none
is the first run, unless it is empty. -/
theorem runs_append {start : Nat} {l rest : List α}
    (hall : ∀ a ∈ l, p a = true)
    (hrest : ∀ a, rest.head? = some a → p a = false) :
    runs width p start (l ++ rest)
      = (if l = [] then [] else [(start, l)])
        ++ runs width p (start + widthOf width l) rest := by
  cases l with
  | nil => simp
  | cons a l =>
      rw [List.forall_mem_cons] at hall
      obtain ⟨htake, hdrop⟩ := takeWhile_append_of_all hall.2 hrest
      rw [List.cons_append, runs, if_pos hall.1, htake, hdrop]
      simp

/-- An item outside every run is passed over. -/
theorem runs_cons_of_not {start : Nat} {a : α} {l : List α}
    (h : p a = false) :
    runs width p start (a :: l) = runs width p (start + width a) l := by
  rw [runs, h]
  simp

/-- The walk up to and behind the first item outside. -/
theorem runs_append_cons {start : Nat} {l rest : List α} {a : α}
    (hall : ∀ b ∈ l, p b = true) (ha : p a = false) :
    runs width p start (l ++ a :: rest)
      = (if l = [] then [] else [(start, l)])
        ++ runs width p (start + widthOf width l + width a) rest := by
  have hhead : ∀ b, (a :: rest).head? = some b → p b = false := by
    intro b hb
    cases hb
    exact ha
  rw [runs_append hall hhead, runs_cons_of_not ha]

/-- A list of satisfying items is one run. -/
theorem runs_of_all {start : Nat} {l : List α} (hall : ∀ a ∈ l, p a = true) :
    runs width p start l = if l = [] then [] else [(start, l)] := by
  have h := @runs_append _ width p start l [] hall (by simp)
  rw [List.append_nil] at h
  rw [h, runs, List.append_nil]

-- ====================================================== the maximal runs

/-- A run does not start at an item outside. -/
theorem isRun_cons_iff {a : α} {l before run after : List α} (ha : p a = false) :
    IsRun p (a :: l) before run after
      ↔ ∃ before', before = a :: before' ∧ IsRun p l before' run after := by
  constructor
  · intro h
    cases before with
    | nil =>
        cases run with
        | nil => exact absurd rfl h.ne_nil
        | cons b run =>
            have heq := h.eq
            rw [List.nil_append, List.cons_append] at heq
            injection heq with hab
            have hb := h.all b List.mem_cons_self
            rw [← hab, ha] at hb
            cases hb
    | cons b before =>
        have heq := h.eq
        rw [List.cons_append, List.cons_append] at heq
        injection heq with hab heq
        refine ⟨before, by rw [hab], heq, h.ne_nil, h.all, ?_, h.right⟩
        intro c hc
        apply h.left c
        rw [List.getLast?_cons, hc]
        rfl
  · intro h
    obtain ⟨before', rfl, h⟩ := h
    refine ⟨by rw [h.eq]; rfl, h.ne_nil, h.all, ?_, h.right⟩
    intro c hc
    cases before' with
    | nil =>
        cases hc
        exact ha
    | cons b before' =>
        rw [List.getLast?_cons_cons] at hc
        exact h.left c hc

/-- What precedes a run ends outside, so the list starts as it does. -/
theorem IsRun.takeWhile_eq {l before run after : List α}
    (h : IsRun p l before run after) (hbefore : before ≠ []) :
    before.takeWhile p = l.takeWhile p := by
  have hlast := h.left _ (List.getLast?_eq_some_getLast hbefore)
  have hshort : (before.takeWhile p).length ≠ before.length := by
    intro hlen
    have hself := (List.takeWhile_prefix p).eq_of_length hlen
    have hmem : before.getLast hbefore ∈ before.takeWhile p := by
      rw [hself]
      exact List.getLast_mem hbefore
    have hpass := List.mem_takeWhile_imp hmem
    rw [hlast] at hpass
    cases hpass
  rw [h.eq, List.append_assoc, List.takeWhile_append, if_neg hshort]

/-- A stretch of satisfying items that ends where the rest starts with
none is itself a run, and every other run lies in the rest. -/
theorem isRun_append_iff {l rest before run after : List α} (hne : l ≠ [])
    (hall : ∀ a ∈ l, p a = true)
    (hrest : ∀ a, rest.head? = some a → p a = false) :
    IsRun p (l ++ rest) before run after
      ↔ (before = [] ∧ run = l ∧ after = rest)
        ∨ ∃ before', before = l ++ before' ∧ IsRun p rest before' run after := by
  obtain ⟨htake, hdrop⟩ := takeWhile_append_of_all hall hrest
  constructor
  · intro h
    by_cases hbefore : before = []
    · left
      have heq := h.eq
      rw [hbefore, List.nil_append] at heq
      obtain ⟨htake', hdrop'⟩ := takeWhile_append_of_all h.all h.right
      rw [← heq, htake] at htake'
      rw [← heq, hdrop] at hdrop'
      exact ⟨hbefore, htake'.symm, hdrop'.symm⟩
    · right
      -- the last item before the run is outside, so the stretch ends before it
      have hl := (h.takeWhile_eq hbefore).trans htake
      have hsplit := @List.takeWhile_append_dropWhile _ p before
      rw [hl] at hsplit
      refine ⟨before.dropWhile p, hsplit.symm, ?_, h.ne_nil, h.all, ?_, h.right⟩
      · have heq := h.eq
        rw [← hsplit, List.append_assoc, List.append_assoc] at heq
        rw [List.append_cancel_left heq, List.append_assoc]
      · intro c hc
        apply h.left c
        rw [← hsplit, List.getLast?_append, hc]
        rfl
  · intro h
    rcases h with ⟨rfl, rfl, rfl⟩ | ⟨before', rfl, h⟩
    · exact ⟨rfl, hne, hall, by simp, hrest⟩
    · refine ⟨?_, h.ne_nil, h.all, ?_, h.right⟩
      · rw [h.eq]
        simp
      · intro c hc
        cases before' with
        | nil =>
            -- the run would start the rest, which starts outside
            cases run with
            | nil => exact absurd rfl h.ne_nil
            | cons b run =>
                have hb := hrest b (by rw [h.eq]; rfl)
                rw [h.all b List.mem_cons_self] at hb
                cases hb
        | cons b before' =>
            rw [List.getLast?_append, List.getLast?_cons, Option.some_or] at hc
            exact h.left c (by rw [List.getLast?_cons]; exact hc)

/-- The reported runs are the maximal ones. -/
theorem mem_runs_iff {start : Nat} {l : List α} {place : Nat} {run : List α} :
    (place, run) ∈ runs width p start l
      ↔ ∃ before after, IsRun p l before run after
          ∧ place = start + widthOf width before := by
  induction start, l using runs.induct width p with
  | case1 start =>
      rw [runs]
      constructor
      · intro h
        cases h
      · intro h
        obtain ⟨before, after, h, -⟩ := h
        have heq := h.eq
        simp [h.ne_nil] at heq
  | case2 start a l ha ih =>
      have hall : ∀ b ∈ a :: l.takeWhile p, p b = true := by
        rw [List.forall_mem_cons]
        exact ⟨ha, fun b hb => List.mem_takeWhile_imp hb⟩
      have hrest : ∀ b, (l.dropWhile p).head? = some b → p b = false := by
        intro b hb
        have hnot := List.head?_dropWhile_not p l
        rw [hb] at hnot
        simpa using hnot
      have hl : a :: l = (a :: l.takeWhile p) ++ l.dropWhile p := by
        rw [List.cons_append, List.takeWhile_append_dropWhile]
      rw [runs, if_pos ha, List.mem_cons, ih]
      simp only [hl, isRun_append_iff (List.cons_ne_nil _ _) hall hrest]
      constructor
      · intro h
        rcases h with h | ⟨before, after, h, hplace⟩
        · injection h with hplace hrun
          exact ⟨[], _, .inl ⟨rfl, hrun, rfl⟩, by simp [hplace]⟩
        · refine ⟨_, after, .inr ⟨before, rfl, h⟩, ?_⟩
          rw [hplace, widthOf_append]
          omega
      · intro h
        obtain ⟨before, after, h, hplace⟩ := h
        rcases h with ⟨rfl, rfl, rfl⟩ | ⟨before', rfl, h⟩
        · left
          rw [hplace]
          simp
        · right
          refine ⟨before', after, h, ?_⟩
          rw [hplace, widthOf_append]
          omega
  | case3 start a l ha ih =>
      rw [Bool.not_eq_true] at ha
      rw [runs_cons_of_not ha, ih]
      simp only [isRun_cons_iff ha]
      constructor
      · intro h
        obtain ⟨before, after, h, hplace⟩ := h
        refine ⟨_, after, ⟨before, rfl, h⟩, ?_⟩
        rw [hplace, widthOf_cons]
        omega
      · intro h
        obtain ⟨_, after, ⟨before, rfl, h⟩, hplace⟩ := h
        refine ⟨before, after, h, ?_⟩
        rw [hplace, widthOf_cons]
        omega

/-- They are reported from left to right, and no two meet. -/
theorem runs_ordered (start : Nat) (l : List α) :
    (runs width p start l).Pairwise fun r s =>
      r.1 + widthOf width r.2 ≤ s.1 := by
  induction start, l using runs.induct width p with
  | case1 start =>
      rw [runs]
      exact List.Pairwise.nil
  | case2 start a l ha ih =>
      rw [runs, if_pos ha, List.pairwise_cons]
      refine ⟨?_, ih⟩
      intro s hs
      obtain ⟨before, after, -, hplace⟩ := mem_runs_iff.mp hs
      rw [hplace]
      exact Nat.le_add_right _ _
  | case3 start a l ha ih =>
      rw [Bool.not_eq_true] at ha
      rw [runs_cons_of_not ha]
      exact ih

end PaimonFtindex.Lib

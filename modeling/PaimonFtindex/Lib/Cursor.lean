/-
Cursors over increasing lists.

A cursor stands at a value, moves on by one, or seeks forward to a
target; behind the last value it stands at an end mark. `Lawful` says so
by what is left to visit: moving on drops the first of it, seeking drops
what lies below the target. Two things follow for every lawful cursor:
moving on until the end mark visits exactly what was left (`visits_eq`),
and a seek answers whether a value is among it (`seek_eq_iff`).
-/
import Mathlib.Data.List.TakeWhile
import Mathlib.Order.Lattice

namespace PaimonFtindex.Lib

/-- A cursor with states `σ` over values `α`; its two moves return the
value they arrive at. -/
structure Cursor (σ α : Type) where
  current : σ → α
  advance : σ → α × σ
  seek : σ → α → α × σ

variable {σ α : Type} [LinearOrder α]

namespace Cursor

/-- The cursor keeps to its contract: `Left s l` says that in the state
`s` the values of `l` are left to visit, the current one first. -/
structure Lawful (cursor : Cursor σ α) (stop : α) (Left : σ → List α → Prop) :
    Prop where
  increasing : ∀ s l, Left s l → l.Pairwise (· < ·)
  below : ∀ s l, Left s l → ∀ a ∈ l, a < stop
  current : ∀ s l, Left s l → cursor.current s = l.head?.getD stop
  advance : ∀ s l, Left s l → Left (cursor.advance s).2 l.tail
    ∧ (cursor.advance s).1 = cursor.current (cursor.advance s).2
  seek : ∀ s l target, Left s l → cursor.current s ≤ target →
    Left (cursor.seek s target).2 (l.dropWhile (· < target))
      ∧ (cursor.seek s target).1 = cursor.current (cursor.seek s target).2

/-- The values visited by moving on at most `n` times, up to the end
mark. -/
def visits (cursor : Cursor σ α) (stop : α) : Nat → σ → List α
  | 0, _ => []
  | n + 1, s =>
      if cursor.current s = stop then []
      else cursor.current s :: cursor.visits stop n (cursor.advance s).2

end Cursor

-- ======================================================= increasing lists

/-- What a seek keeps: the values from the target on. -/
theorem mem_dropWhile_lt_iff {l : List α} (h : l.Pairwise (· < ·))
    {target a : α} :
    a ∈ l.dropWhile (· < target) ↔ a ∈ l ∧ target ≤ a := by
  induction l with
  | nil => simp
  | cons b l ih =>
      rw [List.pairwise_cons] at h
      by_cases hb : b < target
      · rw [List.dropWhile_cons_of_pos (by simpa using hb), ih h.2,
          List.mem_cons]
        constructor
        · intro ha
          exact ⟨.inr ha.1, ha.2⟩
        · intro ha
          rcases ha with ⟨rfl | hmem, hle⟩
          · exact absurd hb (not_lt.mpr hle)
          · exact ⟨hmem, hle⟩
      · rw [List.dropWhile_cons_of_neg (by simpa using hb)]
        rw [not_lt] at hb
        refine ⟨fun ha => ⟨ha, ?_⟩, fun ha => ha.1⟩
        rcases List.mem_cons.mp ha with rfl | hmem
        · exact hb
        · exact hb.trans (h.1 a hmem).le

/-- No value of an increasing list comes before its first. -/
theorem head_le_of_mem {l : List α} (h : l.Pairwise (· < ·)) {stop a : α}
    (ha : a ∈ l) : l.head?.getD stop ≤ a := by
  cases l with
  | nil => cases ha
  | cons b l =>
      rw [List.pairwise_cons] at h
      rcases List.mem_cons.mp ha with rfl | hmem
      · exact le_refl _
      · exact (h.1 a hmem).le

namespace Cursor.Lawful

variable {cursor : Cursor σ α} {stop : α} {Left : σ → List α → Prop}

/-- The cursor stands at the end mark exactly when nothing is left. -/
theorem current_eq_stop_iff (h : cursor.Lawful stop Left) {s : σ} {l : List α}
    (hl : Left s l) : cursor.current s = stop ↔ l = [] := by
  rw [h.current s l hl]
  cases l with
  | nil => simp
  | cons a l =>
      have hlt := h.below s _ hl a List.mem_cons_self
      simp [hlt.ne]

/-- The cursor is never past what is left. -/
theorem current_le (h : cursor.Lawful stop Left) {s : σ} {l : List α}
    (hl : Left s l) {a : α} (ha : a ∈ l) : cursor.current s ≤ a := by
  rw [h.current s l hl]
  exact head_le_of_mem (h.increasing s l hl) ha

/-- A value the cursor is not short of is left exactly when the cursor
stands at it. -/
theorem current_eq_iff (h : cursor.Lawful stop Left) {s : σ} {l : List α}
    (hl : Left s l) {a : α} (hle : a ≤ cursor.current s) (hstop : a ≠ stop) :
    cursor.current s = a ↔ a ∈ l := by
  constructor
  · intro heq
    have hhead := h.current s l hl
    cases l with
    | nil => exact absurd (heq.symm.trans hhead) hstop
    | cons b l =>
        rw [← heq, hhead]
        exact List.mem_cons_self
  · intro ha
    exact le_antisymm (h.current_le hl ha) hle

/-- A seek finds its target exactly when it is left to visit. -/
theorem seek_eq_iff (h : cursor.Lawful stop Left) {s : σ} {l : List α}
    (hl : Left s l) {a : α} (hle : cursor.current s ≤ a) (hstop : a ≠ stop) :
    (cursor.seek s a).1 = a ↔ a ∈ l := by
  have hincreasing := h.increasing s l hl
  obtain ⟨hrest, hvalue⟩ := h.seek s l a hl hle
  have hmem := @mem_dropWhile_lt_iff _ _ l hincreasing a a
  have hhead := h.current _ _ hrest
  rw [hvalue, ← and_iff_left (a := a ∈ l) (le_refl a), ← hmem]
  constructor
  · intro heq
    cases hdrop : l.dropWhile (· < a) with
    | nil =>
        rw [hdrop, heq] at hhead
        exact absurd hhead hstop
    | cons b rest =>
        rw [hdrop, heq] at hhead
        rw [hhead]
        exact List.mem_cons_self
  · intro ha
    refine le_antisymm (h.current_le hrest ha) ?_
    rw [hhead]
    cases hdrop : l.dropWhile (· < a) with
    | nil =>
        rw [hdrop] at ha
        cases ha
    | cons b rest =>
        have hb : b ∈ l.dropWhile (· < a) := by
          rw [hdrop]
          exact List.mem_cons_self
        exact ((mem_dropWhile_lt_iff hincreasing).mp hb).2

/-- Moving on to the end mark visits what is left, in order. -/
theorem visits_eq (h : cursor.Lawful stop Left) {s : σ} {l : List α}
    (hl : Left s l) {n : Nat} (hn : l.length ≤ n) :
    cursor.visits stop n s = l := by
  induction l generalizing s n with
  | nil =>
      cases n with
      | zero => rfl
      | succ n =>
          unfold Cursor.visits
          rw [if_pos ((h.current_eq_stop_iff hl).mpr rfl)]
  | cons a l ih =>
      cases n with
      | zero => cases hn
      | succ n =>
          have hne : cursor.current s ≠ stop := by
            intro heq
            cases (h.current_eq_stop_iff hl).mp heq
          unfold Cursor.visits
          rw [if_neg hne, ih (h.advance s _ hl).1 (Nat.le_of_succ_le_succ hn),
            h.current s _ hl]
          rfl

end Cursor.Lawful

end PaimonFtindex.Lib

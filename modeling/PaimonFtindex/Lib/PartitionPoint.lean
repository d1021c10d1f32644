/-
Binary search for the place where the items of a list stop satisfying a
predicate.

The search halves a window. Its first item is the first of the list or
satisfies the predicate, and none behind it does; both survive a halving
when the list is partitioned, that is, when no item that satisfies the
predicate stands behind one that does not. So the search ends where a
walk from the front would (`partitionPoint_eq_findIdx`).
-/
import Mathlib.Data.List.Basic

namespace PaimonFtindex.Lib

variable {α : Type} (p : α → Bool)

/-- The item at a place satisfies the predicate. -/
def satisfiesAt (l : List α) (i : Nat) : Bool := l[i]?.any p

/-- The loop of the search, on the window of `size` items from `base`. -/
def partitionLoop (l : List α) (size base : Nat) : Nat :=
  if 1 < size then
    let half := size / 2
    let mid := base + half
    partitionLoop l (size - half) (if satisfiesAt p l mid then mid else base)
  else base
termination_by size
decreasing_by omega

/-- `slice::partition_point`. -/
def partitionPoint (l : List α) : Nat :=
  if l.length = 0 then 0
  else
    let base := partitionLoop p l l.length 0
    if satisfiesAt p l base then base + 1 else base

variable {p}

/-- In a partitioned list the items in front satisfy the predicate, and
no others. -/
theorem satisfiesAt_iff {l : List α}
    (h : l.Pairwise fun a b => p b = true → p a = true) {i : Nat} :
    satisfiesAt p l i = true ↔ i < l.findIdx fun a => !p a := by
  induction l generalizing i with
  | nil => simp [satisfiesAt]
  | cons a l ih =>
      rw [List.pairwise_cons] at h
      rw [List.findIdx_cons]
      cases ha : p a with
      | true =>
          cases i with
          | zero => simp [satisfiesAt, ha]
          | succ i => simpa [satisfiesAt] using ih h.2
      | false =>
          -- an item that satisfies the predicate would pass it on to `a`
          have hnone : satisfiesAt p (a :: l) i = false := by
            cases i with
            | zero => simp [satisfiesAt, ha]
            | succ i =>
                unfold satisfiesAt
                rw [List.getElem?_cons_succ]
                cases hget : l[i]? with
                | none => rfl
                | some b =>
                    have hb := h.1 b (List.mem_of_getElem? hget)
                    rw [ha] at hb
                    simpa using hb
          simp [hnone]

/-- What the loop keeps of its window, at its end. -/
theorem partitionLoop_window {l : List α}
    (h : l.Pairwise fun a b => p b = true → p a = true) (size base : Nat)
    (hsize : 0 < size)
    (hlow : base = 0 ∨ base < l.findIdx fun a => !p a)
    (hhigh : (l.findIdx fun a => !p a) ≤ base + size) :
    (partitionLoop p l size base = 0
        ∨ partitionLoop p l size base < l.findIdx fun a => !p a)
      ∧ (l.findIdx fun a => !p a) ≤ partitionLoop p l size base + 1 := by
  induction size, base using partitionLoop.induct p l with
  | case1 size base hlarge half mid ih =>
      rw [partitionLoop, if_pos hlarge]
      have hhalf : half = size / 2 := rfl
      have hmid := @satisfiesAt_iff _ p l h mid
      apply ih
      · omega
      · split
        · rename_i hsatisfies
          exact .inr (hmid.mp hsatisfies)
        · exact hlow
      · split
        · omega
        · rename_i hsatisfies
          have hnot := mt hmid.mpr hsatisfies
          omega
  | case2 size base hsmall =>
      rw [partitionLoop, if_neg hsmall]
      exact ⟨hlow, by omega⟩

/-- The search ends at the first item that does not satisfy the
predicate, or behind the last item. -/
theorem partitionPoint_eq_findIdx {l : List α}
    (h : l.Pairwise fun a b => p b = true → p a = true) :
    partitionPoint p l = l.findIdx fun a => !p a := by
  unfold partitionPoint
  have hle := @List.findIdx_le_length _ (fun a => !p a) l
  by_cases hempty : l.length = 0
  · rw [if_pos hempty]
    omega
  · rw [if_neg hempty]
    obtain ⟨hlow, hhigh⟩ := partitionLoop_window h l.length 0
      (Nat.pos_of_ne_zero hempty) (.inl rfl) (by omega)
    have hbase := @satisfiesAt_iff _ p l h (partitionLoop p l l.length 0)
    dsimp only
    split
    · rename_i hsatisfies
      have hlt := hbase.mp hsatisfies
      omega
    · rename_i hsatisfies
      have hnot := mt hbase.mpr hsatisfies
      omega

end PaimonFtindex.Lib

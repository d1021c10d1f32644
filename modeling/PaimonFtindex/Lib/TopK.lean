/-
The first `k` of a list in some order, taken from parts.

When no two elements tie, sorting and cutting each part before sorting
and cutting what is left of all of them gives the same as sorting and
cutting once (`topK_flatMap`): an element that is cut from its part has
`k` elements of the part before it. Filtering commutes with sorting
(`filter_insertionSort`), so what is first among the elements that pass
a filter does not depend on the others.
-/
import Mathlib.Data.List.Pairwise
import Mathlib.Data.List.Perm.Subperm
import Mathlib.Data.List.Sort

namespace PaimonFtindex.Lib

variable {α : Type} (le : α → α → Prop)

/-- The first `k` elements in order. -/
def topK [DecidableRel le] (k : Nat) (l : List α) : List α :=
  (l.insertionSort le).take k

/-- No two elements of the list come before each other. -/
def NoTies (l : List α) : Prop := l.Pairwise fun a b => ¬ (le a b ∧ le b a)

variable {le}

theorem NoTies.perm {l l' : List α} (h : NoTies le l) (hperm : l.Perm l') :
    NoTies le l' :=
  (hperm.pairwise_iff fun hab hba => hab ⟨hba.2, hba.1⟩).mp h

theorem NoTies.subperm {l l' : List α} (h : NoTies le l')
    (hsub : l.Subperm l') : NoTies le l := by
  obtain ⟨m, hperm, hm⟩ := hsub
  exact NoTies.perm (h.sublist hm) hperm

/-- Elements that come before each other are the same. -/
theorem NoTies.eq {l : List α} (h : NoTies le l) {a b : α} (ha : a ∈ l)
    (hb : b ∈ l) (hab : le a b) (hba : le b a) : a = b := by
  by_contra hne
  have : Std.Symm fun a b => ¬ (le a b ∧ le b a) :=
    ⟨fun a b hab hba => hab ⟨hba.2, hba.1⟩⟩
  exact List.Pairwise.forall h ha hb hne ⟨hab, hba⟩

section
variable [DecidableRel le]

theorem topK_subperm (k : Nat) (l : List α) : (topK le k l).Subperm l :=
  ((List.take_sublist k _).subperm).trans (List.perm_insertionSort le l).subperm

theorem flatMap_topK_subperm (k : Nat) (parts : List (List α)) :
    (parts.flatMap (topK le k)).Subperm parts.flatten := by
  induction parts with
  | nil => exact List.Subperm.refl _
  | cons l parts ih =>
      rw [List.flatMap_cons, List.flatten_cons]
      exact (topK_subperm k l).append ih

variable [Std.Total le] [IsTrans α le]

/-- The sorted list depends on the elements only. -/
theorem insertionSort_perm {l l' : List α} (hties : NoTies le l)
    (h : l.Perm l') : l.insertionSort le = l'.insertionSort le := by
  refine List.Perm.eq_of_pairwise ?_ (List.pairwise_insertionSort le l)
    (List.pairwise_insertionSort le l') ?_
  · intro a b ha hb hab hba
    rw [List.mem_insertionSort] at ha hb
    exact hties.eq ha (h.mem_iff.mpr hb) hab hba
  · calc (l.insertionSort le).Perm l := List.perm_insertionSort le l
      _ |>.Perm l' := h
      _ |>.Perm (l'.insertionSort le) := (List.perm_insertionSort le l').symm

theorem topK_perm {k : Nat} {l l' : List α} (hties : NoTies le l)
    (h : l.Perm l') : topK le k l = topK le k l' := by
  rw [topK, topK, insertionSort_perm hties h]

/-- Sorting what passes a filter is filtering what is sorted. -/
theorem filter_insertionSort {l : List α} (hties : NoTies le l)
    (p : α → Bool) :
    (l.insertionSort le).filter p = (l.filter p).insertionSort le := by
  refine List.Perm.eq_of_pairwise ?_
    ((List.pairwise_insertionSort le l).filter p)
    (List.pairwise_insertionSort le _) ?_
  · intro a b ha hb hab hba
    have ha' := (List.mem_filter.mp ha).1
    rw [List.mem_insertionSort] at ha' hb
    exact hties.eq ha' (List.mem_filter.mp hb).1 hab hba
  · exact ((List.perm_insertionSort le l).filter p).trans
      (List.perm_insertionSort le _).symm

omit [Std.Total le] in
/-- Inserting behind `k` elements leaves the first `k` alone. -/
theorem take_orderedInsert {x : α} {l : List α} (hsorted : l.Pairwise le)
    {k : Nat} (h : k ≤ l.countP fun y => decide ¬ le x y) :
    (l.orderedInsert le x).take k = l.take k := by
  induction l generalizing k with
  | nil =>
      rw [List.countP_nil] at h
      rw [Nat.le_zero.mp h]
      rfl
  | cons y l ih =>
      rw [List.pairwise_cons] at hsorted
      by_cases hxy : le x y
      · have hnone : (y :: l).countP (fun y => decide ¬ le x y) = 0 := by
          rw [List.countP_eq_zero]
          intro z hz
          rw [decide_eq_true_iff, not_not]
          rcases List.mem_cons.mp hz with rfl | hz
          · exact hxy
          · exact IsTrans.trans _ _ _ hxy (hsorted.1 z hz)
        rw [hnone] at h
        rw [Nat.le_zero.mp h]
        rfl
      · rw [List.orderedInsert_of_not_le le l hxy]
        cases k with
        | zero => rfl
        | succ k =>
            rw [List.countP_cons_of_pos (by simpa using hxy)] at h
            rw [List.take_succ_cons, List.take_succ_cons,
              ih hsorted.2 (by omega)]

/-- Elements with `k` others before them can be dropped. -/
theorem topK_append_of_before {k : Nat} {rest l : List α}
    (h : ∀ x ∈ rest, k ≤ l.countP fun y => decide ¬ le x y) :
    topK le k (rest ++ l) = topK le k l := by
  induction rest with
  | nil => rfl
  | cons x rest ih =>
      rw [← ih fun y hy => h y (List.mem_cons_of_mem _ hy)]
      unfold topK
      rw [List.cons_append, List.insertionSort_cons]
      apply take_orderedInsert (List.pairwise_insertionSort le _)
      rw [(List.perm_insertionSort le _).countP_eq, List.countP_append]
      have := h x List.mem_cons_self
      omega

/-- A part can be cut before the rest is looked at. -/
theorem topK_topK_append {k : Nat} {l rest : List α}
    (hties : NoTies le (l ++ rest)) :
    topK le k (topK le k l ++ rest) = topK le k (l ++ rest) := by
  have hsplit : (l ++ rest).Perm
      ((l.insertionSort le).drop k ++ (topK le k l ++ rest)) := by
    calc (l ++ rest).Perm (l.insertionSort le ++ rest) :=
          (List.perm_insertionSort le l).symm.append_right rest
      _ |>.Perm ((topK le k l ++ (l.insertionSort le).drop k) ++ rest) := by
          rw [topK, List.take_append_drop]
      _ |>.Perm (((l.insertionSort le).drop k ++ topK le k l) ++ rest) :=
          List.perm_append_comm.append_right rest
      _ |>.Perm _ := by rw [List.append_assoc]
  rw [topK_perm hties hsplit]
  refine (topK_append_of_before fun x hx => ?_).symm
  -- what was cut has all of the kept part before it
  have hlen : k < (l.insertionSort le).length := by
    have := List.length_pos_of_mem hx
    rw [List.length_drop] at this
    omega
  have hkept : (topK le k l).countP (fun y => decide ¬ le x y) = k := by
    rw [List.countP_eq_length.mpr, topK, List.length_take]
    · omega
    · intro y hy
      rw [decide_eq_true_iff]
      intro hxy
      have hsorted := List.pairwise_insertionSort le l
      rw [← List.take_append_drop k (l.insertionSort le),
        List.pairwise_append] at hsorted
      have hyx := hsorted.2.2 y hy x hx
      have hties' := hties.perm hsplit
      rw [NoTies, List.pairwise_append] at hties'
      exact hties'.2.2 x hx y (List.mem_append_left _ hy) ⟨hxy, hyx⟩
  rw [List.countP_append, hkept]
  omega

/-- Cutting every part first changes nothing. -/
theorem topK_flatMap {k : Nat} {parts : List (List α)}
    (hties : NoTies le parts.flatten) :
    topK le k (parts.flatMap (topK le k)) = topK le k parts.flatten := by
  induction parts with
  | nil => rfl
  | cons l parts ih =>
      rw [List.flatMap_cons, List.flatten_cons] at *
      have hcut := @flatMap_topK_subperm _ le _ k parts
      have hswap : NoTies le (parts.flatten ++ l) :=
        hties.perm List.perm_append_comm
      have hties' : NoTies le (parts.flatMap (topK le k) ++ l) :=
        hswap.subperm (hcut.append (List.Subperm.refl l))
      have hrest : NoTies le parts.flatten :=
        hties.subperm (List.sublist_append_right l _).subperm
      calc topK le k (topK le k l ++ parts.flatMap (topK le k))
          = topK le k (l ++ parts.flatMap (topK le k)) :=
            topK_topK_append (hties'.perm List.perm_append_comm)
        _ = topK le k (parts.flatMap (topK le k) ++ l) :=
            topK_perm (hties'.perm List.perm_append_comm) List.perm_append_comm
        _ = topK le k (topK le k (parts.flatMap (topK le k)) ++ l) :=
            (topK_topK_append hties').symm
        _ = topK le k (topK le k parts.flatten ++ l) := by rw [ih hrest]
        _ = topK le k (parts.flatten ++ l) := topK_topK_append hswap
        _ = topK le k (l ++ parts.flatten) :=
            topK_perm hswap List.perm_append_comm

end

end PaimonFtindex.Lib

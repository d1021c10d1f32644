/-
A left-to-right sweep over ranges, comparing each start with the end
before it.

The sweep only looks at neighbours, yet what it accepts is apart at any
distance: ends grow along the list, because no range ends before it
starts. So an accepted list is pairwise ordered
(`pairwise_of_sweeps`), and since being apart is symmetric, so is every
permutation of it (`pairwise_apart_of_sweeps_perm`) — in particular the
unsorted list a checker started from.

# Sorting first

A stable sort puts two members in the order of their keys, and leaves
them in list order where the keys tie. So sorting and then asking that
every member stand in some relation to those behind it is a question
about pairs of the unsorted list (`pairwise_mergeSort_iff`), and where
ties matter, so does the order of that list.
-/
import Mathlib.Order.Basic
import Mathlib.Data.List.Perm.Basic

namespace PaimonFtindex.Lib

variable {ρ α : Type} [Preorder α] (lo hi : ρ → α)

/-- Every range starts at or after the end of the one before it, the
first at or after `previousEnd`. -/
def Sweeps : α → List ρ → Prop
  | _, [] => True
  | previousEnd, r :: rs => previousEnd ≤ lo r ∧ Sweeps (hi r) rs

/-- Two half-open ranges do not meet: one ends before the other starts. -/
def Apart (r s : ρ) : Prop := hi r ≤ lo s ∨ hi s ≤ lo r

variable {lo hi}

theorem Apart.symm {r s : ρ} (h : Apart lo hi r s) : Apart lo hi s r :=
  Or.symm h

/-- A swept list starts nowhere before the bound it was swept from. -/
theorem le_lo_of_sweeps {previousEnd : α} {l : List ρ}
    (hle : ∀ r ∈ l, lo r ≤ hi r) (h : Sweeps lo hi previousEnd l) :
    ∀ r ∈ l, previousEnd ≤ lo r := by
  induction l generalizing previousEnd with
  | nil =>
      intro r hr
      cases hr
  | cons a l ih =>
      intro r hr
      rcases List.mem_cons.mp hr with rfl | hr
      · exact h.1
      · have hrest := ih (fun r hr => hle r (List.mem_cons_of_mem a hr)) h.2 r hr
        exact le_trans h.1 (le_trans (hle a List.mem_cons_self) hrest)

/-- Neighbours in order put every pair in order. -/
theorem pairwise_of_sweeps {previousEnd : α} {l : List ρ}
    (hle : ∀ r ∈ l, lo r ≤ hi r) (h : Sweeps lo hi previousEnd l) :
    l.Pairwise fun r s => hi r ≤ lo s := by
  induction l generalizing previousEnd with
  | nil => exact List.Pairwise.nil
  | cons a l ih =>
      have hle' : ∀ r ∈ l, lo r ≤ hi r := fun r hr =>
        hle r (List.mem_cons_of_mem a hr)
      exact List.Pairwise.cons (le_lo_of_sweeps hle' h.2) (ih hle' h.2)

/-- A list is swept from a bound exactly when the bound is in front of
it and its pairs are in order. -/
theorem sweeps_iff_pairwise {previousEnd : α} {l : List ρ}
    (hle : ∀ r ∈ l, lo r ≤ hi r) :
    Sweeps lo hi previousEnd l
      ↔ (∀ r ∈ l, previousEnd ≤ lo r) ∧ l.Pairwise fun r s => hi r ≤ lo s := by
  constructor
  · intro h
    exact ⟨le_lo_of_sweeps hle h, pairwise_of_sweeps hle h⟩
  · intro h
    obtain ⟨hfirst, hpairs⟩ := h
    induction l generalizing previousEnd with
    | nil => trivial
    | cons a l ih =>
        rw [List.pairwise_cons] at hpairs
        refine ⟨hfirst a List.mem_cons_self, ?_⟩
        exact ih (fun r hr => hle r (List.mem_cons_of_mem a hr)) hpairs.1 hpairs.2

/-- Whatever list the swept one is an ordering of, its members are
pairwise apart. -/
theorem pairwise_apart_of_sweeps_perm {previousEnd : α} {l l' : List ρ}
    (hp : l.Perm l') (hle : ∀ r ∈ l, lo r ≤ hi r)
    (h : Sweeps lo hi previousEnd l) : l'.Pairwise (Apart lo hi) := by
  have hl : l.Pairwise (Apart lo hi) :=
    (pairwise_of_sweeps hle h).imp fun hrs => Or.inl hrs
  exact (hp.pairwise_iff Apart.symm).mp hl

-- ======================================================== stable sorting

/-- What a relation asks of the pairs of a stably sorted list, it asks
of the pairs of the list, each taken in the order the sort gives it. -/
theorem pairwise_mergeSort_iff {le : ρ → ρ → Bool}
    (htrans : ∀ a b c, le a b → le b c → le a c)
    (htotal : ∀ a b, le a b || le b a) {P : ρ → ρ → Prop} {l : List ρ} :
    (l.mergeSort le).Pairwise P
      ↔ l.Pairwise fun a b => if le a b then P a b else P b a := by
  induction l with
  | nil => simp
  | cons a l ih =>
      obtain ⟨front, back, hsort, hrest, hfront⟩ :=
        List.mergeSort_cons htrans htotal a l
      have hmem : ∀ b, b ∈ l ↔ b ∈ front ∨ b ∈ back := by
        intro b
        rw [← List.mem_append, ← hrest, List.mem_mergeSort]
      -- what the sort puts behind `a` is not below it
      have hback : ∀ b ∈ back, le a b := by
        have hsorted := List.pairwise_mergeSort htrans htotal (a :: l)
        rw [hsort, List.pairwise_append, List.pairwise_cons] at hsorted
        exact hsorted.2.1.1
      rw [List.pairwise_cons, ← ih, hrest, hsort, List.pairwise_append,
        List.pairwise_append, List.pairwise_cons]
      constructor
      · intro h
        obtain ⟨hf, ⟨hab, hb⟩, hcross⟩ := h
        refine ⟨?_, hf, hb, ?_⟩
        · intro b hb
          rcases (hmem b).mp hb with hin | hin
          · rw [if_neg (by simpa using hfront b hin)]
            exact hcross b hin a List.mem_cons_self
          · rw [if_pos (hback b hin)]
            exact hab b hin
        · intro x hx y hy
          exact hcross x hx y (List.mem_cons_of_mem a hy)
      · intro h
        obtain ⟨hpairs, hf, hb, hcross⟩ := h
        refine ⟨hf, ⟨?_, hb⟩, ?_⟩
        · intro b hin
          have hpair := hpairs b ((hmem b).mpr (Or.inr hin))
          rwa [if_pos (hback b hin)] at hpair
        · intro x hx y hy
          rcases List.mem_cons.mp hy with rfl | hy
          · have hpair := hpairs x ((hmem x).mpr (Or.inl hx))
            rwa [if_neg (by simpa using hfront x hx)] at hpair
          · exact hcross x hx y hy

end PaimonFtindex.Lib

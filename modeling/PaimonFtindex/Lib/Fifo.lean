/-
Bounded first-in first-out queues of distinct keys.

A queue carries its two invariants as fields. Pushing a new key lets go
of as many keys as are too many, from the front; so the keys that left,
followed by the keys that are there, are always the keys that came, in
the order they came (`leaving_append_push`). Everything a reader wants
to know of a run of pushes follows from that one equation: how many keys
left, and that each was the one that had come first.
-/
import Mathlib.Data.List.Nodup

namespace PaimonFtindex.Lib

/-- Distinct keys in the order they came, at most `capacity` of them. -/
structure Fifo (κ : Type) (capacity : Nat) where
  keys : List κ
  nodup : keys.Nodup
  length_le : keys.length ≤ capacity

namespace Fifo

variable {κ : Type} {capacity : Nat}

def empty : Fifo κ capacity := ⟨[], List.nodup_nil, Nat.zero_le _⟩

/-- How many keys are too many once one more comes. -/
def excess (q : Fifo κ capacity) : Nat := q.keys.length + 1 - capacity

/-- The keys a push lets go of. -/
def leaving (q : Fifo κ capacity) : List κ := q.keys.take q.excess

/-- A new key comes. -/
def push (q : Fifo κ capacity) (key : κ) (hnew : key ∉ q.keys)
    (hcapacity : 0 < capacity) : Fifo κ capacity where
  keys := q.keys.drop q.excess ++ [key]
  nodup := by
    have hdrop : (q.keys.drop q.excess).Nodup :=
      q.nodup.sublist (List.drop_sublist _ _)
    rw [List.nodup_append]
    refine ⟨hdrop, List.nodup_singleton key, ?_⟩
    intro a ha b hb heq
    rw [List.mem_singleton.mp hb] at heq
    rw [heq] at ha
    exact hnew (List.mem_of_mem_drop ha)
  length_le := by
    have hle := q.length_le
    rw [List.length_append, List.length_singleton, List.length_drop]
    unfold excess
    omega

variable {q : Fifo κ capacity} {key : κ} {hnew : key ∉ q.keys}
  {hcapacity : 0 < capacity}

theorem push_keys : (q.push key hnew hcapacity).keys
    = q.keys.drop q.excess ++ [key] := rfl

/-- What left and what is there is what came. -/
theorem leaving_append_push :
    q.leaving ++ (q.push key hnew hcapacity).keys = q.keys ++ [key] := by
  unfold leaving
  rw [push_keys, ← List.append_assoc, List.take_append_drop]

/-- A queue with room lets nothing go. -/
theorem push_of_room (hroom : q.keys.length < capacity) :
    q.leaving = [] ∧ (q.push key hnew hcapacity).keys = q.keys ++ [key] := by
  have hexcess : q.excess = 0 := by
    unfold excess
    omega
  unfold leaving
  rw [push_keys, hexcess]
  exact ⟨rfl, rfl⟩

/-- A full queue lets go of the key that came first. -/
theorem push_of_full {oldest : κ} {kept : List κ}
    (hfull : q.keys.length = capacity) (hkeys : q.keys = oldest :: kept) :
    q.leaving = [oldest] ∧ (q.push key hnew hcapacity).keys = kept ++ [key] := by
  have hexcess : q.excess = 1 := by
    unfold excess
    omega
  unfold leaving
  rw [push_keys, hexcess, hkeys]
  exact ⟨rfl, rfl⟩

end Fifo

end PaimonFtindex.Lib

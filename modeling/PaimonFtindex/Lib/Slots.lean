/-
Last-write-wins assignment to named slots, and what the order of the
writes can do.

A state is seen through its slots (`SlotMap`: a lens for each name, the
lenses independent and together complete). A list of entries, each
writing at most one slot, is run from left to right, so the last write
to a slot stays.

The one question answered here is which final states the orders of a
fixed collection of entries can reach: exactly its readings
(`run_perm_iff_reads`), the states that give every slot a value some
entry writes there, or the initial one when no entry writes it.
-/
import Mathlib.Data.List.Induction
import Mathlib.Data.List.Perm.Basic

namespace PaimonFtindex.Lib

/-- A state read and written through independent named slots. -/
structure SlotMap (K : Type) (V : K → Type) (σ : Type) where
  get : ∀ k, σ → V k
  put : ∀ k, V k → σ → σ
  get_put_self : ∀ k v s, get k (put k v s) = v
  get_put_of_ne : ∀ k j v s, j ≠ k → get j (put k v s) = get j s
  ext : ∀ s t, (∀ k, get k s = get k t) → s = t

namespace SlotMap

variable {K : Type} {V : K → Type} {σ E : Type}
variable (S : SlotMap K V σ) (writes : E → Option (Σ k, V k))

/-- Perform one entry's write, if it has one. -/
def write (s : σ) (e : E) : σ :=
  match writes e with
  | some ⟨k, v⟩ => S.put k v s
  | none => s

/-- Perform the writes of a list of entries, from left to right. -/
def run (l : List E) (s : σ) : σ := l.foldl (S.write writes) s

/-- `t` is a reading of `l` from `s`: each slot holds a value some entry
writes there, or what it held in `s` when no entry writes it. -/
def Reads (l : List E) (s t : σ) : Prop :=
  ∀ k, (∃ e ∈ l, writes e = some ⟨k, S.get k t⟩)
    ∨ ((∀ e ∈ l, ∀ v, writes e ≠ some ⟨k, v⟩) ∧ S.get k t = S.get k s)

variable {S writes}

-- ==================================================== runs are readings

theorem run_append (l l' : List E) (s : σ) :
    S.run writes (l ++ l') s = S.run writes l' (S.run writes l s) :=
  List.foldl_append

/-- A write to `k` is what `k` then holds. -/
theorem get_write_self {e : E} {k : K} {v : V k}
    (h : writes e = some ⟨k, v⟩) (s : σ) :
    S.get k (S.write writes s e) = v := by
  unfold write
  rw [h]
  exact S.get_put_self k v s

/-- An entry that does not write `k` leaves it alone. -/
theorem get_write_of_ne {e : E} {k : K}
    (h : ∀ v, writes e ≠ some ⟨k, v⟩) (s : σ) :
    S.get k (S.write writes s e) = S.get k s := by
  unfold write
  split
  · rename_i j w hw
    refine S.get_put_of_ne j k w s fun hkj => ?_
    subst hkj
    exact h w hw
  · rfl

/-- Every run ends in a reading: the last writer of a slot is an entry
that writes it. -/
theorem reads_run (l : List E) (s : σ) :
    S.Reads writes l s (S.run writes l s) := by
  induction l using List.reverseRecOn with
  | nil =>
      intro k
      exact Or.inr ⟨fun e he => absurd he (by simp), rfl⟩
  | append_singleton l e ih =>
      intro k
      rw [run_append]
      show (∃ e' ∈ l ++ [e], writes e'
          = some ⟨k, S.get k (S.write writes (S.run writes l s) e)⟩)
        ∨ ((∀ e' ∈ l ++ [e], ∀ v, writes e' ≠ some ⟨k, v⟩)
          ∧ S.get k (S.write writes (S.run writes l s) e) = S.get k s)
      by_cases hk : ∃ v, writes e = some ⟨k, v⟩
      · obtain ⟨v, hv⟩ := hk
        refine Or.inl ⟨e, by simp, ?_⟩
        rw [get_write_self hv, hv]
      · have hne : ∀ v, writes e ≠ some ⟨k, v⟩ := fun v hv => hk ⟨v, hv⟩
        rw [get_write_of_ne hne]
        rcases ih k with ⟨e', he', hw⟩ | ⟨hnone, hget⟩
        · exact Or.inl ⟨e', List.mem_append_left _ he', hw⟩
        · refine Or.inr ⟨fun e' he' v => ?_, hget⟩
          rcases List.mem_append.mp he' with he' | he'
          · exact hnone e' he' v
          · rw [List.mem_singleton] at he'
            rw [he']
            exact hne v

/-- A reading only asks which entries there are. -/
theorem Reads.perm {l l' : List E} {s t : σ} (hp : l'.Perm l)
    (h : S.Reads writes l s t) : S.Reads writes l' s t := by
  intro k
  rcases h k with ⟨e, he, hw⟩ | ⟨hnone, hget⟩
  · exact Or.inl ⟨e, hp.mem_iff.mpr he, hw⟩
  · exact Or.inr ⟨fun e he => hnone e (hp.mem_iff.mp he), hget⟩

-- ================================================ readings are reached

/-- Two ways to say what an entry writes to its slot agree. -/
private theorem sigma_snd_eq {j k : K} {v : V k} {w : ∀ j, V j}
    (h : some (Sigma.mk k v) = some (Sigma.mk j (w j))) : v = w k := by
  rw [Option.some.injEq, Sigma.mk.injEq] at h
  obtain ⟨rfl, h⟩ := h
  exact eq_of_heq h

/-- Every reading is reached by some order: run the entries that agree
with it last. -/
theorem exists_perm_run_eq {l : List E} {s t : σ}
    (h : S.Reads writes l s t) :
    ∃ l', l'.Perm l ∧ S.run writes l' s = t := by
  classical
  let agrees : E → Bool := fun e =>
    decide (∃ k, writes e = some ⟨k, S.get k t⟩)
  refine ⟨l.filter (fun e => !agrees e) ++ l.filter agrees, ?_, ?_⟩
  · exact (List.perm_append_comm).trans (List.filter_append_perm agrees l)
  · refine S.ext _ _ fun k => ?_
    rw [run_append]
    -- after the agreeing entries, a slot they write holds the reading's
    -- value; a slot they do not write is written by no entry at all
    rcases @reads_run _ _ _ _ S writes (l.filter agrees)
        (S.run writes (l.filter fun e => !agrees e) s) k with
      ⟨e, he, hw⟩ | ⟨hnone, hget⟩
    · obtain ⟨j, hj⟩ := of_decide_eq_true (List.mem_filter.mp he).2
      rw [hw] at hj
      exact sigma_snd_eq (w := fun k => S.get k t) hj
    · rw [hget]
      rcases h k with ⟨e, he, hw⟩ | ⟨hnone', hget'⟩
      · exact absurd hw (hnone e (List.mem_filter.mpr
          ⟨he, decide_eq_true ⟨k, hw⟩⟩) _)
      · rcases @reads_run _ _ _ _ S writes
            (l.filter fun e => !agrees e) s k with ⟨e, he, hw⟩ | ⟨-, hget₂⟩
        · exact absurd hw (hnone' e (List.mem_filter.mp he).1 _)
        · rw [hget₂, hget']

/-- The states the orders of `l` reach are its readings. -/
theorem run_perm_iff_reads {l : List E} {s t : σ} :
    (∃ l', l'.Perm l ∧ S.run writes l' s = t) ↔ S.Reads writes l s t := by
  constructor
  · rintro ⟨l', hp, rfl⟩
    exact (reads_run l' s).perm hp.symm
  · exact exists_perm_run_eq

end SlotMap

end PaimonFtindex.Lib

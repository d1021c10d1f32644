/-
A map filled from a list of entries, one insertion after another, so
that the last entry of a key stays.

The one question answered here is when no entry is lost: a map filled
from nothing has as many entries as the list exactly when the keys of
the list are distinct (`length_insertAll`), and then every entry is
found under its own key (`lookup_insertAll`).
-/
import Mathlib.Data.List.AList
import Mathlib.Data.List.Dedup

namespace PaimonFtindex.Lib

variable {K V : Type} [DecidableEq K]

/-- Insert the entries of a list, from left to right. -/
def insertAll (entries : List (K × V)) (m : AList fun _ : K => V) :
    AList fun _ : K => V :=
  entries.foldl (fun m entry => m.insert entry.1 entry.2) m

theorem insertAll_cons (entry : K × V) (entries : List (K × V))
    (m : AList fun _ : K => V) :
    insertAll (entry :: entries) m
      = insertAll entries (m.insert entry.1 entry.2) := rfl

/-- The keys of the map are those it had and those of the list. -/
theorem mem_insertAll {entries : List (K × V)} {m : AList fun _ : K => V}
    {key : K} :
    key ∈ insertAll entries m ↔ key ∈ entries.map Prod.fst ∨ key ∈ m := by
  induction entries generalizing m with
  | nil => simp [insertAll]
  | cons entry entries ih =>
      rw [insertAll_cons, ih, AList.mem_insert, List.map_cons, List.mem_cons]
      constructor
      · intro h
        rcases h with h | h | h
        · exact .inl (.inr h)
        · exact .inl (.inl h)
        · exact .inr h
      · intro h
        rcases h with (h | h) | h
        · exact .inr (.inl h)
        · exact .inl h
        · exact .inr (.inr h)

/-- A key the list does not name keeps its value. -/
theorem lookup_insertAll_of_notMem {entries : List (K × V)}
    {m : AList fun _ : K => V} {key : K} (h : key ∉ entries.map Prod.fst) :
    (insertAll entries m).lookup key = m.lookup key := by
  induction entries generalizing m with
  | nil => rfl
  | cons entry entries ih =>
      rw [List.map_cons, List.mem_cons, not_or] at h
      rw [insertAll_cons, ih h.2, AList.lookup_insert_ne h.1]

/-- What is found comes from the list or was there. -/
theorem mem_or_of_lookup_insertAll {entries : List (K × V)}
    {m : AList fun _ : K => V} {key : K} {value : V}
    (h : (insertAll entries m).lookup key = some value) :
    (key, value) ∈ entries ∨ m.lookup key = some value := by
  induction entries generalizing m with
  | nil => exact .inr h
  | cons entry entries ih =>
      rw [insertAll_cons] at h
      rcases ih h with hmem | hlookup
      · exact .inl (List.mem_cons_of_mem _ hmem)
      · by_cases hkey : key = entry.1
        · rw [hkey, AList.lookup_insert] at hlookup
          cases hlookup
          rw [hkey]
          exact .inl List.mem_cons_self
        · rw [AList.lookup_insert_ne hkey] at hlookup
          exact .inr hlookup

/-- Entries of distinct keys are all found. -/
theorem lookup_insertAll {entries : List (K × V)}
    {m : AList fun _ : K => V} (h : (entries.map Prod.fst).Nodup)
    {entry : K × V} (hmem : entry ∈ entries) :
    (insertAll entries m).lookup entry.1 = some entry.2 := by
  induction entries generalizing m with
  | nil => cases hmem
  | cons first entries ih =>
      rw [List.map_cons, List.nodup_cons] at h
      rw [insertAll_cons]
      rcases List.mem_cons.mp hmem with rfl | hmem
      · rw [lookup_insertAll_of_notMem h.1, AList.lookup_insert]
      · exact ih h.2 hmem

/-- The keys of a map filled from nothing: those of the list, once each. -/
theorem keys_insertAll_perm (entries : List (K × V)) :
    (insertAll entries (∅ : AList fun _ : K => V)).keys.Perm
      (entries.map Prod.fst).dedup := by
  rw [List.perm_ext_iff_of_nodup (AList.keys_nodup _) (List.nodup_dedup _)]
  intro key
  rw [← AList.mem_keys, mem_insertAll, List.mem_dedup]
  simp [AList.notMem_empty]

/-- No entry is lost exactly when the keys are distinct. -/
theorem length_insertAll {entries : List (K × V)} :
    (insertAll entries (∅ : AList fun _ : K => V)).entries.length
        = entries.length
      ↔ (entries.map Prod.fst).Nodup := by
  have hlength := (keys_insertAll_perm entries).length_eq
  rw [AList.keys, List.keys, List.length_map] at hlength
  rw [hlength, ← List.length_map Prod.fst]
  constructor
  · intro h
    rw [← (List.dedup_sublist _).eq_of_length h]
    exact List.nodup_dedup _
  · intro h
    rw [h.dedup]

end PaimonFtindex.Lib

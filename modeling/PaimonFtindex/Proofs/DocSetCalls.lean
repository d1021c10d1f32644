/-
`SortedDocSet` answers every sequence of calls as a plain list with a
forward-only cursor does.

The set keeps its place twice, as a cursor and as the document there.
`SamePlace` ties both to the place of a list cursor, and every call keeps
it (`exec_samePlace`): the search by halves ends where a walk over the
rest of the documents would, since they ascend, and a set that does not
seek because it is there already is where that walk would end at once.
The cursor stays within the documents, so nothing panics, and there are
too few of them for the cast to wrap.
-/
import PaimonFtindex.Model.DocSetCalls
import PaimonFtindex.Proofs.DocSets

namespace PaimonFtindex.Proofs

open Model Lib

/-- The set stands where the list cursor stands. -/
structure SamePlace (set : SortedDocSet) (cursor : ListCursor DocId) : Prop where
  increasing : set.docs.Pairwise (· < ·)
  below : ∀ doc ∈ set.docs, doc < terminated
  docs : set.docs = cursor.items
  position : set.cursor = cursor.position
  doc : set.doc = cursor.current terminated

section
variable {set : SortedDocSet} {cursor : ListCursor DocId}

theorem samePlace_new {docs : List DocId} (hincreasing : docs.Pairwise (· < ·))
    (hbelow : ∀ doc ∈ docs, doc < terminated) :
    SamePlace (.new docs) (.start docs) := by
  refine ⟨hincreasing, hbelow, rfl, rfl, ?_⟩
  show docs.head?.getD terminated = docs[0]?.getD terminated
  rw [List.head?_eq_getElem?]

theorem SamePlace.within (h : SamePlace set cursor) :
    set.cursor ≤ set.docs.length := by
  rw [h.docs, h.position]
  exact cursor.within

/-- The set stands at the end mark exactly behind the last document. -/
theorem SamePlace.doc_eq_terminated_iff (h : SamePlace set cursor) :
    set.doc = terminated ↔ set.cursor = set.docs.length := by
  have hwithin := h.within
  rw [h.doc]
  unfold ListCursor.current
  rw [← h.docs, ← h.position]
  rcases Nat.lt_or_ge set.cursor set.docs.length with hlt | hge
  · have hdoc := h.below _ (List.getElem_mem hlt)
    rw [List.getElem?_eq_getElem hlt, Option.getD_some]
    constructor
    · intro heq
      exact absurd heq hdoc.ne
    · intro heq
      omega
  · rw [List.getElem?_eq_none hge, Option.getD_none]
    simp only [true_iff]
    omega

/-- Ascending documents below the end mark are fewer than it. -/
theorem length_le_terminated {docs : List DocId}
    (hincreasing : docs.Pairwise (· < ·))
    (hbelow : ∀ doc ∈ docs, doc < terminated) : docs.length ≤ terminated := by
  have hnodup : docs.Nodup := hincreasing.imp Nat.ne_of_lt
  have hsub : docs ⊆ List.range terminated := by
    intro doc hdoc
    exact List.mem_range.mpr (hbelow doc hdoc)
  have hle := (List.subperm_of_subset hnodup hsub).length_le
  rw [List.length_range] at hle
  exact hle

-- =========================================================== call by call

/-- A list cursor that need not seek stays. -/
theorem SamePlace.seek_eq_self (h : SamePlace set cursor) {target : DocId}
    (hthere : target ≤ set.doc) : cursor.seek target = cursor := by
  have hfirst : (cursor.items.drop cursor.position).findIdx
      (fun doc => decide (target ≤ doc)) = 0 := by
    rcases Nat.lt_or_ge cursor.position cursor.items.length with hlt | hge
    · rw [h.doc] at hthere
      unfold ListCursor.current at hthere
      rw [List.getElem?_eq_getElem hlt, Option.getD_some] at hthere
      rw [List.drop_eq_getElem_cons hlt, List.findIdx_cons]
      simp [hthere]
    · rw [List.drop_eq_nil_of_le hge]
      rfl
  unfold ListCursor.seek ListCursor.firstFrom
  simp [hfirst]

/-- A walk over the documents below the target ends at the first that is
not. -/
theorem length_takeWhile_lt (docs : List DocId) (target : DocId) :
    (docs.takeWhile fun doc => decide (doc < target)).length
      = docs.findIdx fun doc => !decide (doc < target) := by
  rw [List.takeWhile_eq_take_findIdx_not, List.length_take]
  exact min_eq_left List.findIdx_le_length

/-- The slice is in bounds, and halving it finds what walking it would:
the first document the target does not exceed. -/
theorem SamePlace.checkedSeek_eq (h : SamePlace set cursor) (target : DocId) :
    set.checkedSeek target = some (set.seek target) := by
  have hpartitioned : (set.docs.drop set.cursor).Pairwise fun a b =>
      decide (b < target) = true → decide (a < target) = true := by
    apply (h.increasing.sublist (List.drop_sublist _ _)).imp
    intro a b hab hb
    simp only [decide_eq_true_eq] at hb ⊢
    exact hab.trans hb
  unfold SortedDocSet.checkedSeek SortedDocSet.seek SortedDocSet.docsFromCursor
  rw [if_pos h.within]
  split
  · rfl
  · rw [Option.bind_eq_bind, Option.bind_some,
      partitionPoint_eq_findIdx hpartitioned, ← length_takeWhile_lt]
    rfl

/-- No difference is below zero, and no cast wraps. -/
theorem SamePlace.checkedSizeHint_eq (h : SamePlace set cursor) :
    ∃ hint, set.checkedSizeHint = some hint ∧ hint.toNat = cursor.left := by
  have hleft : cursor.left = set.docs.length - set.cursor := by
    unfold ListCursor.left
    rw [h.docs, h.position]
  unfold SortedDocSet.checkedSizeHint
  by_cases hend : set.doc = terminated
  · rw [if_pos hend, hleft, h.doc_eq_terminated_iff.mp hend]
    exact ⟨0, rfl, by simp⟩
  · rw [if_neg hend, if_pos h.within, hleft]
    refine ⟨_, rfl, ?_⟩
    have hfew := length_le_terminated h.increasing h.below
    unfold terminated at hfew
    rw [UInt32.toNat_ofNat']
    exact Nat.mod_eq_of_lt (by omega)

theorem SamePlace.advance (h : SamePlace set cursor) :
    SamePlace set.advance cursor.advance := by
  unfold SortedDocSet.advance ListCursor.advance
  by_cases hend : set.doc = terminated
  · have hlast := h.doc_eq_terminated_iff.mp hend
    rw [h.docs, h.position] at hlast
    rw [if_pos hend, dif_neg (by omega)]
    exact h
  · have hwithin := h.within
    have hlast := mt h.doc_eq_terminated_iff.mpr hend
    rw [h.docs, h.position] at hlast hwithin
    rw [if_neg hend, dif_pos (by omega)]
    refine ⟨h.increasing, h.below, h.docs, ?_, ?_⟩
    · rw [h.position]
    · unfold ListCursor.current
      rw [h.docs, h.position]

theorem SamePlace.seek (h : SamePlace set cursor) (target : DocId) :
    SamePlace (set.seek target) (cursor.seek target) := by
  have hnot : (fun doc : DocId => decide (target ≤ doc))
      = fun doc => !decide (doc < target) := by
    funext doc
    rw [← decide_not]
    exact decide_eq_decide.mpr not_lt.symm
  have hfirst : set.cursor + ((set.docs.drop set.cursor).takeWhile
      fun doc => decide (doc < target)).length = cursor.firstFrom target := by
    unfold ListCursor.firstFrom
    rw [length_takeWhile_lt, hnot, h.docs, h.position]
  by_cases hthere : target ≤ set.doc
  · rw [h.seek_eq_self hthere]
    unfold SortedDocSet.seek
    rw [if_pos hthere]
    exact h
  · unfold SortedDocSet.seek
    rw [if_neg hthere]
    dsimp only
    rw [hfirst]
    refine ⟨h.increasing, h.below, h.docs, rfl, ?_⟩
    show set.docs[cursor.firstFrom target]?.getD terminated
      = cursor.items[cursor.firstFrom target]?.getD terminated
    rw [h.docs]

/-- Every call is answered, as the list cursor answers it. -/
theorem exec_samePlace {set : SortedDocSet} {cursor : ListCursor DocId}
    (h : SamePlace set cursor) (call : CursorCall DocId) :
    ∃ set', set.exec call = some ((cursor.answer terminated call).1, set')
      ∧ SamePlace set' (cursor.answer terminated call).2 := by
  cases call with
  | current =>
      refine ⟨set, ?_, h⟩
      unfold SortedDocSet.exec ListCursor.answer
      dsimp only
      rw [h.doc]
  | advance =>
      refine ⟨set.advance, ?_, h.advance⟩
      unfold SortedDocSet.exec ListCursor.answer
      dsimp only
      rw [h.advance.doc]
  | seek target =>
      refine ⟨set.seek target, ?_, h.seek target⟩
      unfold SortedDocSet.exec ListCursor.answer
      dsimp only
      rw [h.checkedSeek_eq, Option.bind_eq_bind, Option.bind_some,
        (h.seek target).doc]
      rfl
  | left =>
      obtain ⟨hint, hhint, hleft⟩ := h.checkedSizeHint_eq
      refine ⟨set, ?_, h⟩
      unfold SortedDocSet.exec ListCursor.answer
      dsimp only
      rw [hhint, Option.bind_eq_bind, Option.bind_some, hleft]
      rfl

end

-- ================================================================== a run

/-- A list cursor over the documents, after these calls. -/
def cursorAfter (docs : List DocId) (calls : List (CursorCall DocId)) :
    ListCursor DocId :=
  (answers (ListCursor.answer terminated) (.start docs) calls).2

/-- Over ascending documents the set answers every sequence of calls, in
any order and without a panic, as a cursor over the plain list does, and
it stays where the cursor is. That never moves back, and not at all once
it is at the end. -/
theorem sortedDocSet_refines_list {docs : List DocId}
    (hincreasing : docs.Pairwise (· < ·))
    (hbelow : ∀ doc ∈ docs, doc < terminated)
    (calls : List (CursorCall DocId)) :
    (∃ set, tryCalls SortedDocSet.exec (.new docs) calls
          = some ((answers (ListCursor.answer terminated) (.start docs) calls).1,
              set)
        ∧ SamePlace set (cursorAfter docs calls))
      ∧ ∀ later,
        (cursorAfter docs calls).position
            ≤ (cursorAfter docs (calls ++ later)).position
          ∧ ((cursorAfter docs calls).current terminated = terminated →
            cursorAfter docs (calls ++ later) = cursorAfter docs calls) := by
  obtain ⟨set, hrun, hset⟩ := tryCalls_of_simulation
    (fun set cursor call h => @exec_samePlace set cursor h call)
    (samePlace_new hincreasing hbelow) calls
  refine ⟨⟨set, hrun, hset⟩, ?_⟩
  intro later
  have hlater : cursorAfter docs (calls ++ later)
      = (answers (ListCursor.answer terminated) (cursorAfter docs calls)
          later).2 :=
    answers_append _ _ _
  rw [hlater]
  refine ⟨ListCursor.position_le_answers _ later, ?_⟩
  intro hcurrent
  have hended := hset.doc_eq_terminated_iff.mp (hset.doc.trans hcurrent)
  rw [hset.docs, hset.position] at hended
  exact ListCursor.answers_of_ended hended later

/-- A seek to where the set stands, one behind it, one past a gap, and
calls at the end. -/
theorem threeDocs_answers :
    ∃ set, tryCalls SortedDocSet.exec (.new [3, 7, 20])
        [.advance, .seek 7, .left, .seek 2, .seek 8, .seek terminated, .advance,
          .seek 3, .current, .left]
      = some ([.item 7, .item 7, .count 2, .item 7, .item 20, .item terminated,
          .item terminated, .item terminated, .item terminated, .count 0],
          set) := by
  obtain ⟨⟨set, hrun, -⟩, -⟩ := @sortedDocSet_refines_list [3, 7, 20]
    (by decide) (by decide)
    [.advance, .seek 7, .left, .seek 2, .seek 8, .seek terminated, .advance,
      .seek 3, .current, .left]
  exact ⟨set, hrun⟩

end PaimonFtindex.Proofs

/-
The document sets of the crate keep to Tantivy's contract.

`SortedLeft` is the invariant of a `SortedDocSet`: its documents ascend,
and it stands at the one its cursor points to. Both moves keep it
(`lawful_sortedDocSet`), so the scorer behind a fuzzy term enumerates
its documents, each once and in order; with what it collects, these are
the union of the postings under the cap (`capped_expansion_exact`).
-/
import PaimonFtindex.Model.Scorer
import PaimonFtindex.Proofs.Expansion

namespace PaimonFtindex.Proofs

open Model Lib

/-- A scorer keeps to the contract of document sets, and scoring leaves
it where it is. -/
structure LawfulScorer {σ : Type} (scorer : Scorer σ)
    (Left : σ → List DocId → Prop) : Prop where
  docSet : scorer.toCursor.Lawful terminated Left
  score : ∀ s l, Left s l → Left (scorer.score s).2 l

-- ========================================================= the sorted set

/-- The set ascends, and `l` is what is left of it, the current document
first. -/
structure SortedLeft (set : SortedDocSet) (l : List DocId) : Prop where
  increasing : set.docs.Pairwise (· < ·)
  below : ∀ doc ∈ set.docs, doc < terminated
  left : set.docs.drop set.cursor = l
  doc : set.doc = l.head?.getD terminated

/-- A set starts at its first document. -/
theorem sortedLeft_new {docs : List DocId} (h : docs.Pairwise (· < ·))
    (hbelow : ∀ doc ∈ docs, doc < terminated) :
    SortedLeft (.new docs) docs :=
  ⟨h, hbelow, rfl, rfl⟩

/-- A set that has been moved to a later place. -/
theorem SortedLeft.move {set : SortedDocSet} {l : List DocId}
    (h : SortedLeft set l) (n : Nat) :
    SortedLeft { set with
        cursor := set.cursor + n
        doc := set.docs[set.cursor + n]?.getD terminated } (l.drop n) := by
  have hleft : set.docs.drop (set.cursor + n) = l.drop n := by
    rw [← h.left, List.drop_drop]
  refine ⟨h.increasing, h.below, hleft, ?_⟩
  rw [← hleft, List.head?_drop]

theorem SortedLeft.sublist {set : SortedDocSet} {l : List DocId}
    (h : SortedLeft set l) : l.Sublist set.docs := by
  rw [← h.left]
  exact List.drop_sublist _ _

/-- The set stands at the end exactly when nothing is left. -/
theorem SortedLeft.doc_eq_terminated_iff {set : SortedDocSet}
    {l : List DocId} (h : SortedLeft set l) :
    set.doc = terminated ↔ l = [] := by
  rw [h.doc]
  cases l with
  | nil => simp
  | cons doc l =>
      have hlt := h.below doc (h.sublist.mem List.mem_cons_self)
      simp [hlt.ne]

/-- `SortedDocSet` keeps to the contract. -/
theorem lawful_sortedDocSet :
    SortedDocSet.docSet.toCursor.Lawful terminated SortedLeft := by
  constructor
  · intro set l h
    exact h.increasing.sublist h.sublist
  · intro set l h doc hdoc
    exact h.below doc (h.sublist.mem hdoc)
  · intro set l h
    exact h.doc
  · intro set l h
    refine ⟨?_, rfl⟩
    show SortedLeft set.advance l.tail
    unfold SortedDocSet.advance
    by_cases hend : set.doc = terminated
    · rw [if_pos hend]
      cases h.doc_eq_terminated_iff.mp hend
      exact h
    · rw [if_neg hend, ← List.drop_one]
      exact h.move 1
  · intro set l target h hforward
    refine ⟨?_, rfl⟩
    show SortedLeft (set.seek target) (l.dropWhile (· < target))
    unfold SortedDocSet.seek
    by_cases hthere : target ≤ set.doc
    · rw [if_pos hthere]
      have hkeep : l.dropWhile (· < target) = l := by
        cases l with
        | nil => rfl
        | cons doc l =>
            have hdoc : set.doc = doc := h.doc
            rw [hdoc] at hthere
            exact List.dropWhile_cons_of_neg (by simpa using hthere)
      rw [hkeep]
      exact h
    · rw [if_neg hthere]
      have hdrop : l.drop (l.takeWhile (· < target)).length
          = l.dropWhile (· < target) := by
        have hsplit := @List.takeWhile_append_dropWhile _ (· < target) l
        calc l.drop (l.takeWhile (· < target)).length
            = (l.takeWhile (· < target) ++ l.dropWhile (· < target)).drop
                (l.takeWhile (· < target)).length := by rw [hsplit]
          _ = l.dropWhile (· < target) := List.drop_left
      dsimp only
      rw [h.left, ← hdrop]
      exact h.move _

/-- A `ConstScorer` keeps to it as its document set does. -/
theorem lawful_constScorer :
    LawfulScorer ConstScorer.scorer fun scorer l =>
      SortedLeft scorer.docset l := by
  constructor
  · constructor
    · intro scorer l h
      exact lawful_sortedDocSet.increasing _ _ h
    · intro scorer l h
      exact lawful_sortedDocSet.below _ _ h
    · intro scorer l h
      exact lawful_sortedDocSet.current _ _ h
    · intro scorer l h
      exact lawful_sortedDocSet.advance _ _ h
    · intro scorer l target h hforward
      exact lawful_sortedDocSet.seek _ _ target h hforward
  · intro scorer l h
    exact h

-- ==================================================== the capped expansion

/-- Moving on until the end, however long one goes on, visits exactly
these documents, in this order. -/
def Enumerates {σ : Type} (scorer : Scorer σ) (state : σ)
    (docs : List DocId) : Prop :=
  ∀ n, docs.length ≤ n → scorer.visits terminated n state = docs

/-- The documents a fuzzy term collects are documents of the segment. -/
theorem docs_below (weight : CappedAutomatonWeight) (reader : SegmentReader) :
    ∀ doc ∈ weight.docs reader, doc < terminated := by
  intro doc hdoc
  obtain ⟨entry, -, hentry⟩ := mem_docs_iff.mp hdoc
  exact entry.postings.below doc hentry

/-- The scorer behind a fuzzy term enumerates what it collected. -/
theorem enumerates_scorer (weight : CappedAutomatonWeight)
    (reader : SegmentReader) (boost : F32) :
    Enumerates ConstScorer.scorer (weight.scorer reader boost)
      (weight.docs reader) := by
  intro n hn
  apply lawful_constScorer.docSet.visits_eq ?_ hn
  exact sortedLeft_new (docs_increasing weight reader) (docs_below weight reader)

/-- Capped expansion is exact. For the terms that an automaton finds in
a dictionary, in its order, and under every cap: the scorer enumerates,
ascending, the union of the postings of as many of them as the cap lets
in; a larger cap loses no document, and one that lets all of them in
gives the whole union. -/
theorem capped_expansion_exact (field : Field)
    (automaton : PrefixedDfaAutomaton) (reader : SegmentReader) (boost : F32) :
    ∃ docs : UInt64 → List DocId, ∀ cap,
      Enumerates ConstScorer.scorer
          (CappedAutomatonWeight.scorer ⟨field, automaton, cap⟩ reader boost)
          (docs cap)
        ∧ (docs cap).Pairwise (· < ·)
        ∧ (∀ doc, doc ∈ docs cap
          ↔ ∃ entry ∈ (automaton.search (reader.invertedIndex field)).take
              cap.toNat, doc ∈ entry.postings.docs)
        ∧ (∀ cap', cap ≤ cap' → docs cap ⊆ docs cap')
        ∧ ((automaton.search (reader.invertedIndex field)).length ≤ cap.toNat →
            ∀ doc, doc ∈ docs cap
              ↔ ∃ entry ∈ automaton.search (reader.invertedIndex field),
                  doc ∈ entry.postings.docs) := by
  refine ⟨fun cap => CappedAutomatonWeight.docs ⟨field, automaton, cap⟩ reader,
    fun cap => ⟨?_, ?_, ?_, ?_, ?_⟩⟩
  · exact enumerates_scorer _ reader boost
  · exact docs_increasing _ reader
  · intro doc
    exact mem_docs_iff
  · intro cap' hcap doc hdoc
    obtain ⟨entry, hentry, hmem⟩ := mem_docs_iff.mp hdoc
    apply mem_docs_iff.mpr
    refine ⟨entry, ?_, hmem⟩
    exact (List.take_sublist_take_left (UInt64.le_iff_toNat_le.mp hcap)).mem
      hentry
  · intro hall doc
    rw [mem_docs_iff]
    unfold expandedTerms
    rw [List.take_of_length_le hall]

end PaimonFtindex.Proofs

/-
The capped expansion of a fuzzy term.

The scorer of a segment holds the documents of the first
`max_expansions` terms that the automaton finds in the segment's
dictionary (`mem_docs_iff`). So an exact hit survives as long as the
terms found before the token's own do not use the cap up
(`exact_hits_kept`); a token late in dictionary order can be cut off
(`exact_hit_lost`).
-/
import PaimonFtindex.Proofs.FuzzyAutomaton

namespace PaimonFtindex.Proofs

open Model Lib

-- ========================================================= the two loops

/-- Without empty blocks, the inner loop reads them all. -/
theorem appendBlocks_eq {blocks : List (List DocId)}
    (h : ∀ block ∈ blocks, block ≠ []) (docs : List DocId) :
    appendBlocks blocks docs = docs ++ blocks.flatten := by
  induction blocks generalizing docs with
  | nil => simp [appendBlocks]
  | cons block blocks ih =>
      have hne : block.isEmpty = false := by
        simp [h block List.mem_cons_self]
      rw [appendBlocks, hne]
      simp only [Bool.false_eq_true, if_false]
      rw [ih fun b hb => h b (List.mem_cons_of_mem _ hb), List.flatten_cons,
        List.append_assoc]

/-- The outer loop reads as many terms as the cap has left. -/
theorem expand_eq (weight : CappedAutomatonWeight) (expansions : Nat)
    (termStream : List TermEntry) (docs : List DocId) :
    weight.expand expansions termStream docs
      = docs ++ (termStream.take (weight.maxExpansions.toNat - expansions)).flatMap
          fun entry => entry.postings.docs := by
  induction termStream generalizing expansions docs with
  | nil => simp [CappedAutomatonWeight.expand]
  | cons entry termStream ih =>
      rw [CappedAutomatonWeight.expand]
      by_cases h : expansions < weight.maxExpansions.toNat
      · rw [if_pos h, ih, appendBlocks_eq entry.postings.nonempty,
          show weight.maxExpansions.toNat - expansions
            = weight.maxExpansions.toNat - (expansions + 1) + 1 by omega,
          List.take_succ_cons, List.flatMap_cons, List.append_assoc]
        rfl
      · rw [if_neg h, show weight.maxExpansions.toNat - expansions = 0 by omega,
          List.take_zero, List.flatMap_nil, List.append_nil]

/-- The terms the scorer of a segment reads. -/
def expandedTerms (weight : CappedAutomatonWeight) (reader : SegmentReader) :
    List TermEntry :=
  (weight.automaton.search (reader.invertedIndex weight.field)).take
    weight.maxExpansions.toNat

/-- The scorer holds the documents of those terms, and no others. -/
theorem mem_docs_iff {weight : CappedAutomatonWeight} {reader : SegmentReader}
    {doc : DocId} :
    doc ∈ weight.docs reader
      ↔ ∃ entry ∈ expandedTerms weight reader, doc ∈ entry.postings.docs := by
  unfold CappedAutomatonWeight.docs
  dsimp only
  rw [(List.pairwise_insertionSort (· ≤ ·) _).destutter_eq_dedup, List.mem_dedup,
    List.mem_insertionSort, expand_eq, List.nil_append, Nat.sub_zero,
    List.mem_flatMap]
  rfl

/-- The documents ascend, so none is there twice. -/
theorem docs_increasing (weight : CappedAutomatonWeight)
    (reader : SegmentReader) : (weight.docs reader).Pairwise (· < ·) := by
  unfold CappedAutomatonWeight.docs
  dsimp only
  have hsorted := List.pairwise_insertionSort (· ≤ ·)
    (weight.expand 0
      (weight.automaton.search (reader.invertedIndex weight.field)) [])
  rw [hsorted.destutter_eq_dedup]
  have hle := hsorted.sublist (List.dedup_sublist _)
  exact (hle.and (List.nodup_dedup _)).imp fun h => lt_of_le_of_ne h.1 h.2

-- ====================================================== where a term stands

/-- In an ascending list, an element is among the first `n` exactly when
fewer than `n` elements are below it. -/
theorem mem_take_iff_of_sorted {α : Type} {key : α → List UInt8} {l : List α}
    (hsorted : (l.map key).Pairwise (· < ·)) {x : α} (hx : x ∈ l) (n : Nat) :
    x ∈ l.take n ↔ (l.filter fun y => key y < key x).length < n := by
  induction l generalizing n with
  | nil => cases hx
  | cons y l ih =>
      rw [List.map_cons, List.pairwise_cons] at hsorted
      obtain ⟨hbelow, hsorted⟩ := hsorted
      cases n with
      | zero => simp
      | succ n =>
          rw [List.take_succ_cons, List.filter_cons]
          by_cases heq : x = y
          · subst heq
            have hnone : (l.filter fun y => key y < key x) = [] := by
              rw [List.filter_eq_nil_iff]
              intro y hy
              rw [decide_eq_true_iff]
              exact List.lt_asymm (hbelow _ (List.mem_map_of_mem hy))
            simp [hnone, List.lt_irrefl]
          · have hmem : x ∈ l := by
              rcases List.mem_cons.mp hx with h | h
              · exact absurd h heq
              · exact h
            have hlt : key y < key x := hbelow _ (List.mem_map_of_mem hmem)
            rw [if_pos (by simpa using hlt), List.length_cons, List.mem_cons,
              or_iff_right heq, ih hsorted hmem]
            omega

-- ============================================================== exact hits

section
variable {P : Type} {library : SearchLibrary P} {reader : SegmentReader}
  {doc : DocId} {scoring : Bool}

theorem matches_term_iff {term : Term} {option : IndexRecordOption} :
    (TantivyQuery.term term option : TantivyQuery P).matches library reader
        doc scoring = true
      ↔ ∃ entry ∈ (reader.invertedIndex term.field).terms,
          entry.key = utf8 term.text ∧ doc ∈ entry.postings.docs := by
  show ((reader.invertedIndex term.field).get (utf8 term.text)).any
    (fun entry => entry.postings.docs.contains doc) = true ↔ _
  rw [Option.any_eq_true]
  simp only [List.contains_iff_mem]
  constructor
  · intro h
    obtain ⟨entry, hget, hdoc⟩ := h
    refine ⟨entry, List.mem_of_find?_eq_some hget, ?_, hdoc⟩
    simpa using List.find?_some hget
  · intro h
    obtain ⟨entry, hmem, hkey, hdoc⟩ := h
    refine ⟨entry, ?_, hdoc⟩
    rw [← hkey]
    exact InvertedIndex.get_of_mem hmem

theorem matches_cappedFuzzyTerm_iff {term : Term} {distance : UInt8}
    {pre : String} {maxExpansions : UInt64} :
    (TantivyQuery.cappedFuzzyTerm term distance pre maxExpansions :
        TantivyQuery P).matches library reader doc scoring = true
      ↔ ∃ entry ∈ expandedTerms
          (cappedFuzzyWeight library term distance pre maxExpansions) reader,
        doc ∈ entry.postings.docs := by
  rw [← mem_docs_iff]
  exact List.contains_iff_mem

end

/-- The terms a fuzzy query finds before the given one. -/
def foundBefore (weight : CappedAutomatonWeight) (reader : SegmentReader)
    (key : List UInt8) : List TermEntry :=
  (reader.invertedIndex weight.field).terms.filter fun entry =>
    weight.automaton.finds entry.key && decide (entry.key < key)

/-- The term is expanded exactly when the automaton finds it and the
terms found before it leave room. -/
theorem mem_expandedTerms_iff {weight : CappedAutomatonWeight}
    {reader : SegmentReader} {entry : TermEntry}
    (hmem : entry ∈ (reader.invertedIndex weight.field).terms) :
    entry ∈ expandedTerms weight reader
      ↔ weight.automaton.finds entry.key = true
        ∧ (foundBefore weight reader entry.key).length
            < weight.maxExpansions.toNat := by
  have hfilter : ∀ l : List TermEntry,
      (l.filter fun e => weight.automaton.finds e.key
        && decide (e.key < entry.key))
      = (l.filter fun e => weight.automaton.finds e.key).filter
          fun e => decide (e.key < entry.key) := by
    intro l
    rw [List.filter_filter]
    congr 1
    funext e
    rw [Bool.and_comm]
  have hsorted : ((weight.automaton.search
      (reader.invertedIndex weight.field)).map TermEntry.key).Pairwise
        (· < ·) := by
    have hsub : (weight.automaton.search
        (reader.invertedIndex weight.field)).Sublist
        (reader.invertedIndex weight.field).terms := List.filter_sublist
    exact (reader.invertedIndex weight.field).sorted.sublist (hsub.map _)
  unfold expandedTerms foundBefore
  rw [hfilter]
  by_cases hfind : weight.automaton.finds entry.key = true
  · rw [and_iff_right hfind]
    exact mem_take_iff_of_sorted hsorted (List.mem_filter.mpr ⟨hmem, hfind⟩) _
  · constructor
    · intro h
      exact absurd (List.mem_filter.mp (List.mem_of_mem_take h)).2 hfind
    · intro h
      exact absurd h.1 hfind

/-- The terms of the segment that a fuzzy query finds before the token's
own fit under its cap; an exact query has none to fit. -/
def RoomForToken {P : Type} (library : SearchLibrary P)
    (reader : SegmentReader) : TantivyQuery P → Prop
  | .cappedFuzzyTerm term distance pre maxExpansions =>
      (foundBefore (cappedFuzzyWeight library term distance pre maxExpansions)
        reader (utf8 term.text)).length < maxExpansions.toNat
  | _ => True

theorem one_or_two {n : UInt8} (hzero : ¬ n = 0) (htwo : ¬ 2 < n) :
    n = 1 ∨ n = 2 := by
  rw [← UInt8.toNat_inj] at hzero
  rw [UInt8.lt_iff_toNat_lt] at htwo
  rw [← UInt8.toNat_inj, ← UInt8.toNat_inj]
  simp at hzero htwo ⊢
  omega

/-- With room for the token, the fuzzy query loses no exact hit. -/
theorem exact_hits_kept {P : Type} (library : SearchLibrary P)
    (reader : SegmentReader) (field : Field) (token : String)
    (fuzziness : Option UInt8) (maxExpansions : UInt64) (prefixLength : UInt32)
    (within : UInt8 → List UInt8 → Prop)
    (hself : ∀ distance, distance = 1 ∨ distance = 2 →
      within distance (utf8 token))
    (hdfa : ∀ distance, distance = 1 ∨ distance = 2 →
      LawfulDfa (library.buildDfa distance true token) (within distance))
    {exact fuzzy : TantivyQuery P}
    (hexact : buildTokenQuery field token (some 0) maxExpansions prefixLength
      = .ok exact)
    (hfuzzy : buildTokenQuery field token fuzziness maxExpansions prefixLength
      = .ok fuzzy)
    (hroom : RoomForToken library reader fuzzy) (doc : DocId) (scoring : Bool)
    (h : exact.matches library reader doc scoring = true) :
    fuzzy.matches library reader doc scoring = true := by
  have hterm : exact = .term ⟨field, token⟩ .withFreqs := by
    cases hexact
    rfl
  unfold buildTokenQuery at hfuzzy
  dsimp only at hfuzzy
  split at hfuzzy
  · -- automatic fuzziness of a short token is none
    cases hfuzzy
    rw [← hterm]
    exact h
  · rename_i hzero
    split at hfuzzy
    · cases hfuzzy
    · rename_i htwo
      cases hfuzzy
      rw [hterm, matches_term_iff] at h
      obtain ⟨entry, hmem, hkey, hdoc⟩ := h
      rw [matches_cappedFuzzyTerm_iff]
      refine ⟨entry, (mem_expandedTerms_iff hmem).mpr ⟨?_, ?_⟩, hdoc⟩
      · have hdistance := one_or_two hzero htwo
        rw [hkey, finds_iff (hdfa _ hdistance)]
        exact ⟨hself _ hdistance, utf8_takeChars_prefix _ _⟩
      · rw [hkey]
        exact hroom

-- ------------------------------------------ four words, one of them exact

/-- Documents 0 to 3 are "aac", "abc", "acc" and "bbc". -/
def abcReader : SegmentReader where
  maxDoc := 4
  invertedIndex _ :=
    { terms :=
        [⟨utf8 "aac", .single 0⟩, ⟨utf8 "abc", .single 1⟩,
          ⟨utf8 "acc", .single 2⟩, ⟨utf8 "bbc", .single 3⟩]
      sorted := by decide }
  fastU64 _ := .ok fun doc => some (UInt64.ofNat doc)

/-- "aac" comes first, so a cap of two still reaches "abc". -/
theorem abc_kept :
    (TantivyQuery.cappedFuzzyTerm ⟨1, "abc"⟩ 1 "" 2).matches
      substitutionLibrary abcReader 1 true = true := by
  refine exact_hits_kept substitutionLibrary abcReader 1 "abc" (some 1) 2 0
    (fun distance word => ((substitutionDfa distance (utf8 "abc")).distance
      (dfaRun (substitutionDfa distance (utf8 "abc")) word)).isExact = true)
    ?_ ?_ rfl rfl ?_ 1 true (by decide)
  · intro distance h
    rcases h with rfl | rfl <;> decide
  · intro distance _
    exact ⟨fun _ => rfl, rfl, fun _ => Iff.rfl⟩
  · show (foundBefore _ _ _).length < 2
    decide +kernel

/-- With a cap of one the fuzzy query finds "aac" and not "abc". -/
theorem exact_hit_lost :
    ∃ exact fuzzy : TantivyQuery String,
      buildTokenQuery 1 "abc" (some 0) 1 0 = .ok exact
        ∧ buildTokenQuery 1 "abc" (some 1) 1 0 = .ok fuzzy
        ∧ exact.matches substitutionLibrary abcReader 1 true = true
        ∧ fuzzy.matches substitutionLibrary abcReader 1 true = false := by
  refine ⟨_, _, rfl, rfl, ?_, ?_⟩
  · decide
  · decide +kernel

end PaimonFtindex.Proofs

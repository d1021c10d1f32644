/-
Whether the cut into segments matters.

Below its caps a query matches document by document
(`matches_eq_docMatches`), so what it finds depends on the documents
and not on how they are divided (`matchedRows_division`). The cap of a
fuzzy term counts the terms of one segment's dictionary, and a query
over its cap can find more in smaller segments
(`division_over_cap`).
-/
import PaimonFtindex.Proofs.Expansion
import PaimonFtindex.Proofs.FilteredSearch

namespace PaimonFtindex.Proofs

open Model Lib

section
variable {P : Type} (library : SearchLibrary P)

-- ================================================== document by document

mutual

/-- The capped expansions that decide what a query matches. -/
def cappedLeaves : TantivyQuery P → List CappedAutomatonWeight
  | .cappedFuzzyTerm term distance pre maxExpansions =>
      [cappedFuzzyWeight library term distance pre maxExpansions]
  | .boolean children => childLeaves children
  | .boost query _ => cappedLeaves query
  | .demote positive _ _ => cappedLeaves positive
  | _ => []

def childLeaves : List (Occur × TantivyQuery P) → List CappedAutomatonWeight
  | [] => []
  | (_, query) :: children => cappedLeaves query ++ childLeaves children

end

/-- No term of the query is cut off in the segment. -/
def WithinCaps (reader : SegmentReader) (query : TantivyQuery P) : Prop :=
  ∀ weight ∈ cappedLeaves library query,
    (weight.automaton.search (reader.invertedIndex weight.field)).length
      ≤ weight.maxExpansions.toNat

variable (tokenTexts : String → List String)
  (parsedMatches : P → TantivyDocument → Bool) (document : TantivyDocument)

mutual

/-- What the query matches, looking at one document only. -/
def docMatches : TantivyQuery P → Bool
  | .empty => false
  | .term term _ =>
      (documentKeys tokenTexts term.field document).contains (utf8 term.text)
  | .cappedFuzzyTerm term distance pre maxExpansions =>
      (documentKeys tokenTexts term.field document).any fun key =>
        (cappedFuzzyWeight library term distance pre
          maxExpansions).automaton.finds key
  | .parsed query => parsedMatches query document
  | .boolean children => booleanMatches (docChildMatches children)
  | .boost query _ => docMatches query
  | .demote positive _ _ => docMatches positive

def docChildMatches : List (Occur × TantivyQuery P) → List (Occur × Bool)
  | [] => []
  | (occur, query) :: children =>
      (occur, docMatches query) :: docChildMatches children

end

end

section
variable {P : Type} {library : SearchLibrary P}
  {tokenTexts : String → List String} {rowIdName : String} {rowIdField : Field}
  {parsedMatches : P → TantivyDocument → Bool}

theorem matches_term_eq
    {segment : IndexedSegment tokenTexts rowIdName rowIdField} {doc : DocId}
    {added : AddedDocument rowIdField}
    (hdoc : segment.documents[doc]? = some added) (term : Term)
    (option : IndexRecordOption) (scoring : Bool) :
    (TantivyQuery.term term option : TantivyQuery P).matches library
        segment.reader doc scoring
      = docMatches library tokenTexts parsedMatches added.document
          (.term term option) := by
  rw [Bool.eq_iff_iff, matches_term_iff, segment.mem_postings, hdoc, docMatches,
    List.contains_iff_mem]
  simp

/-- Below its cap a fuzzy term matches the documents with a token that
its automaton finds. -/
theorem matches_cappedFuzzyTerm_eq
    {segment : IndexedSegment tokenTexts rowIdName rowIdField} {doc : DocId}
    {added : AddedDocument rowIdField}
    (hdoc : segment.documents[doc]? = some added) (term : Term)
    (distance : UInt8) (pre : String) (maxExpansions : UInt64) (scoring : Bool)
    (hcaps : WithinCaps library segment.reader
      (.cappedFuzzyTerm term distance pre maxExpansions)) :
    (TantivyQuery.cappedFuzzyTerm term distance pre maxExpansions :
        TantivyQuery P).matches library segment.reader doc scoring
      = docMatches library tokenTexts parsedMatches added.document
          (.cappedFuzzyTerm term distance pre maxExpansions) := by
  have hcap := hcaps _ (by rw [cappedLeaves]; exact List.mem_singleton.mpr rfl)
  rw [Bool.eq_iff_iff, matches_cappedFuzzyTerm_iff, docMatches, List.any_eq_true]
  unfold expandedTerms
  rw [List.take_of_length_le hcap]
  constructor
  · intro h
    obtain ⟨entry, hentry, hmem⟩ := h
    obtain ⟨hterms, hfinds⟩ := List.mem_filter.mp hentry
    obtain ⟨added', hadded', hkey⟩ :=
      (segment.mem_postings _ _ doc).mp ⟨entry, hterms, rfl, hmem⟩
    rw [hdoc] at hadded'
    cases hadded'
    exact ⟨entry.key, hkey, hfinds⟩
  · intro h
    obtain ⟨key, hkey, hfinds⟩ := h
    obtain ⟨entry, hterms, rfl, hmem⟩ :=
      (segment.mem_postings _ _ doc).mpr ⟨added, hdoc, hkey⟩
    exact ⟨entry, List.mem_filter.mpr ⟨hterms, hfinds⟩, hmem⟩

variable {segment : IndexedSegment tokenTexts rowIdName rowIdField}
  {doc : DocId} {added : AddedDocument rowIdField}

mutual

/-- Below its caps a query matches a document of a segment by what is in
the document. -/
theorem matches_eq_docMatches (hdoc : segment.documents[doc]? = some added)
    (hparsed : ∀ query, library.parsedMatches query segment.reader doc
      = parsedMatches query added.document) (scoring : Bool) :
    ∀ query : TantivyQuery P, WithinCaps library segment.reader query →
      query.matches library segment.reader doc scoring
        = docMatches library tokenTexts parsedMatches added.document query
  | .empty, _ => by
      rw [docMatches]
      rfl
  | .term term option, _ => matches_term_eq hdoc term option scoring
  | .cappedFuzzyTerm term distance pre maxExpansions, hcaps =>
      matches_cappedFuzzyTerm_eq hdoc term distance pre maxExpansions scoring
        hcaps
  | .parsed query, _ => by
      rw [docMatches]
      exact hparsed query
  | .boolean children, hcaps => by
      rw [docMatches, TantivyQuery.matches, TantivyQuery.weight, Weight.matches,
        childMatches_eq_docChildMatches hdoc hparsed scoring children]
      intro weight hweight
      exact hcaps weight (by rw [cappedLeaves]; exact hweight)
  | .boost query boost, hcaps => by
      rw [docMatches, matches_boost]
      apply matches_eq_docMatches hdoc hparsed scoring query
      intro weight hweight
      exact hcaps weight (by rw [cappedLeaves]; exact hweight)
  | .demote positive negative negativeBoost, hcaps => by
      rw [docMatches, matches_demote]
      apply matches_eq_docMatches hdoc hparsed scoring positive
      intro weight hweight
      exact hcaps weight (by rw [cappedLeaves]; exact hweight)

theorem childMatches_eq_docChildMatches
    (hdoc : segment.documents[doc]? = some added)
    (hparsed : ∀ query, library.parsedMatches query segment.reader doc
      = parsedMatches query added.document) (scoring : Bool) :
    ∀ children : List (Occur × TantivyQuery P),
      (∀ weight ∈ childLeaves library children,
        (weight.automaton.search
            (segment.reader.invertedIndex weight.field)).length
          ≤ weight.maxExpansions.toNat) →
      childMatches library segment.reader doc
          (childWeights library scoring children)
        = docChildMatches library tokenTexts parsedMatches added.document
            children
  | [], _ => by
      rw [docChildMatches]
      rfl
  | (occur, query) :: children, hcaps => by
      rw [docChildMatches, childWeights, childMatches,
        childMatches_eq_docChildMatches hdoc hparsed scoring children]
      · congr 2
        apply matches_eq_docMatches hdoc hparsed scoring query
        intro weight hweight
        exact hcaps weight (by
          rw [childLeaves]
          exact List.mem_append_left _ hweight)
      · intro weight hweight
        exact hcaps weight (by
          rw [childLeaves]
          exact List.mem_append_right _ hweight)

end

end

-- ================================================================== the rows

section
variable {P : Type} {tokenTexts : String → List String} {rowIdName : String}
  {rowIdField : Field}

/-- The row ids of the matches of a query over all segments. -/
def matchedRows (library : SearchLibrary P) (query : TantivyQuery P)
    (segments : List (IndexedSegment tokenTexts rowIdName rowIdField)) :
    List Int64 := (allHits library query segments).map (rowIdAt segments)

/-- A row is matched when some segment matches its document. -/
theorem mem_matchedRows {library : SearchLibrary P} {query : TantivyQuery P}
    {segments : List (IndexedSegment tokenTexts rowIdName rowIdField)}
    {rowId : Int64} :
    rowId ∈ matchedRows library query segments
      ↔ ∃ segment ∈ segments, ∃ doc added,
          segment.documents[doc]? = some added
          ∧ query.matches library segment.reader doc true = true
          ∧ added.rowId = rowId := by
  unfold matchedRows
  rw [List.mem_map]
  constructor
  · intro h
    obtain ⟨hit, hhit, hrow⟩ := h
    obtain ⟨segment, added, hsegment, hadded, hid⟩ := mem_allHits hhit
    refine ⟨segment, List.mem_of_getElem? hsegment, hit.2.docId, added, hadded,
      ?_, ?_⟩
    · obtain ⟨hits, hhits, hmem⟩ := List.mem_flatten.mp hhit
      obtain ⟨⟨segment', ord⟩, hentry, rfl⟩ := List.mem_map.mp hhits
      have hord := (mem_segmentHits hmem).1
      have hget := List.mk_mem_zipIdx_iff_getElem?.mp hentry
      rw [← hord, hsegment] at hget
      cases hget
      obtain ⟨doc, hdoc, rfl⟩ := List.mem_map.mp hmem
      exact (List.mem_filter.mp hdoc).2
    · rw [← hrow, rowIdAt, hid, Option.getD_some]
  · intro h
    obtain ⟨segment, hsegment, doc, added, hadded, hmatch, hrow⟩ := h
    obtain ⟨ord, hord⟩ := List.mem_iff_getElem?.mp hsegment
    have hdoc : doc < segment.reader.maxDoc := by
      rw [segment.maxDoc_eq]
      exact (List.getElem?_eq_some_iff.mp hadded).1
    refine ⟨(library.score (query.weight library true) segment.reader doc,
      ⟨ord, doc⟩), ?_, ?_⟩
    · refine List.mem_flatten.mpr ⟨_, List.mem_map.mpr
        ⟨(segment, ord), List.mk_mem_zipIdx_iff_getElem?.mpr hord, rfl⟩, ?_⟩
      exact List.mem_map.mpr ⟨doc, List.mem_filter.mpr
        ⟨List.mem_range.mpr hdoc, hmatch⟩, rfl⟩
    · unfold rowIdAt addedRowId
      rw [hord, Option.bind_some, hadded, Option.map_some, Option.getD_some,
        hrow]

/-- What a query within its caps finds is decided by the documents. -/
theorem mem_matchedRows_of_withinCaps {library : SearchLibrary P}
    {query : TantivyQuery P} {parsedMatches : P → TantivyDocument → Bool}
    {segments : List (IndexedSegment tokenTexts rowIdName rowIdField)}
    (hparsed : ∀ segment ∈ segments, ∀ doc added,
      segment.documents[doc]? = some added →
      ∀ query, library.parsedMatches query segment.reader doc
        = parsedMatches query added.document)
    (hcaps : ∀ segment ∈ segments, WithinCaps library segment.reader query)
    {rowId : Int64} :
    rowId ∈ matchedRows library query segments
      ↔ ∃ added ∈ segments.flatMap IndexedSegment.documents,
          docMatches library tokenTexts parsedMatches added.document query
              = true
            ∧ added.rowId = rowId := by
  rw [mem_matchedRows]
  constructor
  · intro h
    obtain ⟨segment, hsegment, doc, added, hadded, hmatch, hrow⟩ := h
    refine ⟨added, List.mem_flatMap.mpr
      ⟨segment, hsegment, List.mem_of_getElem? hadded⟩, ?_, hrow⟩
    rw [← matches_eq_docMatches hadded
      (hparsed segment hsegment doc added hadded) true query
      (hcaps segment hsegment)]
    exact hmatch
  · intro h
    obtain ⟨added, hmem, hmatch, hrow⟩ := h
    obtain ⟨segment, hsegment, hdocument⟩ := List.mem_flatMap.mp hmem
    obtain ⟨doc, hadded⟩ := List.mem_iff_getElem?.mp hdocument
    refine ⟨segment, hsegment, doc, added, hadded, ?_, hrow⟩
    rw [matches_eq_docMatches hadded
      (hparsed segment hsegment doc added hadded) true query
      (hcaps segment hsegment)]
    exact hmatch

end

/-- Two divisions of the same documents into segments give a query the
same rows, as long as none of its fuzzy terms is cut off in a segment of
either. Phrases are assumed to be found document by document, in these
segments. -/
theorem matchedRows_division [F32Display] {P : Type}
    (library : SearchLibrary P) (index : Index) (config : FullTextIndexConfig)
    {tokenTexts : String → List String} {rowIdName : String}
    {rowIdField : Field} (parsedMatches : P → TantivyDocument → Bool)
    (one two : List (IndexedSegment tokenTexts rowIdName rowIdField))
    (hparsed : ∀ segment ∈ one ++ two, ∀ doc added,
      segment.documents[doc]? = some added →
      ∀ query, library.parsedMatches query segment.reader doc
        = parsedMatches query added.document)
    (hdocuments : (one.flatMap IndexedSegment.documents).Perm
      (two.flatMap IndexedSegment.documents)) :
    ∀ spec query,
      buildQuery index config library.toQueryLibrary spec = .ok query →
      (∀ segment ∈ one, WithinCaps library segment.reader query) →
      (∀ segment ∈ two, WithinCaps library segment.reader query) →
      ∀ rowId, rowId ∈ matchedRows library query one
        ↔ rowId ∈ matchedRows library query two := by
  intro spec query _ hone htwo rowId
  rw [mem_matchedRows_of_withinCaps
      (fun segment hsegment => hparsed segment (List.mem_append_left _ hsegment))
      hone,
    mem_matchedRows_of_withinCaps
      (fun segment hsegment => hparsed segment (List.mem_append_right _ hsegment))
      htwo]
  refine exists_congr fun added => and_congr_left' ?_
  exact hdocuments.mem_iff

-- ------------------------------- a phrase and a typo, cut in two ways

/-- Words follow each other somewhere. -/
def follow (positions : String → List Nat) : List String → Bool
  | [] => false
  | word :: words => (positions word).any fun start =>
      words.zipIdx.all fun next =>
        (positions next.1).contains (start + next.2 + 1)

/-- The words between blanks. -/
def blankWords (text : String) : List String :=
  (splitChars text [' ']).filter fun word => !word.isEmpty

/-- Tokens are the words, and a phrase is found where its words follow
each other. -/
def phraseLibrary : SearchLibrary (Field × List String) where
  tokenTexts _ := blankWords
  parseQuery fields text :=
    .ok (fields.headD 0,
      blankWords (String.ofList (text.toList.filter fun c => c ≠ '\"')))
  buildDfa distance _ word := substitutionDfa distance (utf8 word)
  parsedMatches query reader doc :=
    follow (fun word => positionsIn reader query.1 (utf8 word) doc) query.2
  score _ _ _ := F32.one

/-- The same, in a document. -/
def phraseInDocument (query : Field × List String)
    (document : TantivyDocument) : Bool :=
  follow (fun word =>
    placesOf (utf8 word) (documentKeys blankWords query.1 document)) query.2

/-- A segment of documents, by their words. -/
abbrev WordSegment : Type := IndexedSegment blankWords "row_id" 0

/-- The phrases of an indexed segment are those of its documents. -/
theorem phraseLibrary_parsedMatches {documents : List (AddedDocument 0)}
    {h : documents.length ≤ terminated} {doc : DocId} {added : AddedDocument 0}
    (hget : documents[doc]? = some added) (query : Field × List String) :
    phraseLibrary.parsedMatches query
        (indexed _ documents "row_id" h : WordSegment).reader doc
      = phraseInDocument query added.document := by
  show follow _ query.2 = follow _ query.2
  congr 1
  funext word
  exact positionsIn_indexed hget query.1 (utf8 word)

theorem pet_rowIds : 0 ≤ (1 : Int64) ∧ 0 ≤ (2 : Int64) := by decide

/-- Rows 1 and 2 are "cat dog" and "dog cat", in one segment. -/
def onePetSegment : List WordSegment :=
  [indexed _ [addedText 1 pet_rowIds.1 "cat dog",
    addedText 2 pet_rowIds.2 "dog cat"] "row_id" (Nat.le_of_ble_eq_true rfl)]

/-- The same documents, one segment each. -/
def twoPetSegments : List WordSegment :=
  [indexed _ [addedText 1 pet_rowIds.1 "cat dog"] "row_id"
      (Nat.le_of_ble_eq_true rfl),
    indexed _ [addedText 2 pet_rowIds.2 "dog cat"] "row_id"
      (Nat.le_of_ble_eq_true rfl)]

/-- "cot" with one typo and the phrase "cat dog". -/
def petQuery : QuerySpec :=
  .boolean [] [.match none "cot" .or F32.one (some 1) 2 0,
    .matchPhrase none "cat dog" 0] [] []

/-- What it is compiled to. -/
def petTantivyQuery : TantivyQuery (Field × List String) :=
  .boolean [(.must, .cappedFuzzyTerm ⟨1, "cot"⟩ 1 "" 2),
    (.must, .parsed (1, ["cat", "dog"]))]

/-- The one segment is searched like the two: row 1 has the phrase, row 2
has the words the other way round. -/
theorem pets_division :
    1 ∈ matchedRows phraseLibrary petTantivyQuery onePetSegment
      ∧ 2 ∉ matchedRows phraseLibrary petTantivyQuery onePetSegment := by
  have hdivision := @matchedRows_division ⟨fun _ => ""⟩ _ phraseLibrary
    defaultIndex {} _ _ _ phraseInDocument onePetSegment twoPetSegments ?_
    (List.Perm.of_eq rfl) petQuery petTantivyQuery rfl ?_ ?_
  · rw [hdivision, hdivision]
    decide +kernel
  · intro segment hsegment doc added hget query
    simp only [onePetSegment, twoPetSegments, List.cons_append, List.nil_append,
      List.mem_cons, List.not_mem_nil, or_false] at hsegment
    rcases hsegment with rfl | rfl | rfl
    · exact phraseLibrary_parsedMatches hget query
    · exact phraseLibrary_parsedMatches hget query
    · exact phraseLibrary_parsedMatches hget query
  · unfold WithinCaps
    decide +kernel
  · unfold WithinCaps
    decide +kernel

-- ----------------------------------------- "aac" and "abc", over the cap

/-- Rows 1 and 2 are "aac" and "abc", in one segment. -/
def oneSegment : List (IndexedSegment (fun text => [text]) "row_id" 0) :=
  [twoWords 1 2 "aac" "abc" (by decide)]

/-- The same documents, one segment each. -/
def twoSegments : List (IndexedSegment (fun text => [text]) "row_id" 0) :=
  [oneWord 1 "aac" (by decide), oneWord 2 "abc" (by decide)]

/-- "abc" with one typo, expanded to that many terms. -/
def abcQuery (maxExpansions : UInt64) : QuerySpec :=
  .match none "abc" .or F32.one (some 1) maxExpansions 0

/-- With a cap of one, the one segment yields "aac" alone, the two yield
"aac" and "abc". -/
theorem division_over_cap :
    ∃ query, @buildQuery defaultIndex {} _ substitutionLibrary.toQueryLibrary
        ⟨fun _ => ""⟩ (abcQuery 1) = .ok query
      ∧ oneSegment.flatMap IndexedSegment.documents
        = twoSegments.flatMap IndexedSegment.documents
      ∧ matchedRows substitutionLibrary query oneSegment = [1]
      ∧ matchedRows substitutionLibrary query twoSegments = [1, 2] := by
  refine ⟨.cappedFuzzyTerm ⟨1, "abc"⟩ 1 "" 1, rfl, rfl, ?_, ?_⟩
  · decide +kernel
  · decide +kernel

end PaimonFtindex.Proofs

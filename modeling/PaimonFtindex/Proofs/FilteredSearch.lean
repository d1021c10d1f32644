/-
Filtering comes before truncation.

`ranking` is every match of a query over all segments, best first.
A search returns its beginning (`search_eq`), a filtered search the
beginning of what is left of it when the rows outside the filter are
struck out (`searchWithRoaringFilter_eq`): cutting per segment loses
nothing (`topK_flatMap`), and a filter can be moved behind the sorting
(`filter_insertionSort`), because no two hits have one address.
-/
import PaimonFtindex.Model.Search
import PaimonFtindex.Proofs.IndexedSegment

namespace PaimonFtindex.Proofs

open Model Lib

section
variable {P : Type} (library : SearchLibrary P)
  {tokenTexts : String → List String} {rowIdName : String} {rowIdField : Field}

-- ================================================================ the ranking

/-- The hits of a query, segment by segment. -/
def allHits (query : TantivyQuery P)
    (segments : List (IndexedSegment tokenTexts rowIdName rowIdField)) :
    List Hit :=
  (segments.zipIdx.map fun (segment, ord) =>
    segmentHits library query segment.reader ord).flatten

/-- Every match of a query, best first. -/
def ranking (query : TantivyQuery P)
    (segments : List (IndexedSegment tokenTexts rowIdName rowIdField)) :
    List Hit := (allHits library query segments).insertionSort rankLe

/-- The row id the document at a hit's address was added under. -/
def addedRowId
    (segments : List (IndexedSegment tokenTexts rowIdName rowIdField))
    (hit : Hit) : Option Int64 :=
  segments[hit.2.segmentOrd]?.bind fun segment =>
    segment.documents[hit.2.docId]?.map AddedDocument.rowId

/-- The row of the hit is allowed. -/
def allowed (filter : RoaringTreemap)
    (segments : List (IndexedSegment tokenTexts rowIdName rowIdField))
    (hit : Hit) : Bool :=
  (addedRowId segments hit).any fun rowId => filter.contains rowId.toUInt64

variable {library}

/-- A hit is at a matching document of its segment. -/
theorem mem_segmentHits {query : TantivyQuery P} {reader : SegmentReader}
    {ord : Nat} {hit : Hit} (h : hit ∈ segmentHits library query reader ord) :
    hit.2.segmentOrd = ord ∧ hit.2.docId < reader.maxDoc := by
  unfold segmentHits at h
  obtain ⟨doc, hdoc, rfl⟩ := List.mem_map.mp h
  exact ⟨rfl, List.mem_range.mp (List.mem_filter.mp hdoc).1⟩

theorem mem_allHits {query : TantivyQuery P}
    {segments : List (IndexedSegment tokenTexts rowIdName rowIdField)}
    {hit : Hit} (h : hit ∈ allHits library query segments) :
    ∃ segment added, segments[hit.2.segmentOrd]? = some segment
      ∧ segment.documents[hit.2.docId]? = some added
      ∧ addedRowId segments hit = some added.rowId := by
  obtain ⟨hits, hhits, hmem⟩ := List.mem_flatten.mp h
  obtain ⟨⟨segment, ord⟩, hsegment, rfl⟩ := List.mem_map.mp hhits
  obtain ⟨hord, hdoc⟩ := mem_segmentHits hmem
  have hget : segments[hit.2.segmentOrd]? = some segment := by
    rw [hord]
    exact List.mk_mem_zipIdx_iff_getElem?.mp hsegment
  rw [segment.maxDoc_eq] at hdoc
  have hadded := List.getElem?_eq_getElem hdoc
  refine ⟨segment, _, hget, hadded, ?_⟩
  unfold addedRowId
  rw [hget, Option.bind_some, hadded]
  rfl

/-- No two hits have one address, so none tie. -/
theorem noTies_allHits (query : TantivyQuery P)
    (segments : List (IndexedSegment tokenTexts rowIdName rowIdField)) :
    NoTies rankLe (allHits library query segments) := by
  have hdistinct : (allHits library query segments).Pairwise fun a b =>
      a.2 ≠ b.2 := by
    unfold allHits
    rw [List.pairwise_flatten]
    constructor
    · intro hits hhits
      obtain ⟨⟨segment, ord⟩, -, rfl⟩ := List.mem_map.mp hhits
      unfold segmentHits
      rw [List.pairwise_map]
      refine (List.nodup_range.filter _).imp ?_
      intro a b hne heq
      exact hne (congrArg DocAddress.docId heq)
    · rw [List.pairwise_map]
      have hord : segments.zipIdx.Pairwise fun a b => a.2 < b.2 := by
        have hrange := @List.pairwise_lt_range' 0 segments.length 1
        rw [← List.zipIdx_map_snd 0 segments, List.pairwise_map] at hrange
        exact hrange (by omega)
      apply hord.imp
      intro a b hlt x hx y hy heq
      have hx' := (mem_segmentHits hx).1
      have hy' := (mem_segmentHits hy).1
      rw [heq, hy'] at hx'
      omega
  apply hdistinct.imp
  intro a b hne htie
  apply hne
  obtain ⟨_, ⟨ao, ad⟩⟩ := a
  obtain ⟨_, ⟨bo, bd⟩⟩ := b
  unfold rankLe at htie
  rw [DocAddress.mk.injEq]
  grind

-- ============================================================== collecting

/-- Cutting every segment and then all of them is cutting once. -/
theorem searchTopDocs_eq {limit : UInt64} {parts : List (List Hit)}
    (hties : NoTies rankLe parts.flatten) :
    searchTopDocs limit parts
      = (parts.flatten.insertionSort rankLe).take limit.toNat :=
  topK_flatMap hties

/-- The row id column decides as the row ids do. -/
theorem filterCollector_eq {query : TantivyQuery P}
    {segments : List (IndexedSegment tokenTexts rowIdName rowIdField)}
    (filter : RoaringTreemap)
    {segment : IndexedSegment tokenTexts rowIdName rowIdField} {ord : Nat}
    (h : segments[ord]? = some segment) :
    filterCollector rowIdName filter.contains segment.reader
        (segmentHits library query segment.reader ord)
      = .ok ((segmentHits library query segment.reader ord).filter
          (allowed filter segments)) := by
  unfold filterCollector
  rw [segment.fastU64_eq]
  show Except.ok _ = Except.ok _
  congr 1
  refine List.filter_congr fun hit hhit => ?_
  obtain ⟨hord, hdoc⟩ := mem_segmentHits hhit
  rw [segment.maxDoc_eq] at hdoc
  have hadded := List.getElem?_eq_getElem hdoc
  unfold allowed addedRowId
  rw [hord, h, Option.bind_some, hadded, segment.column_eq _ _ hadded,
    (AddedDocument.rowId_spec _).2]
  rfl

variable {crates : SearchCrates P} {self : FullTextIndexReader}
  {query : TantivyQuery P}
  {segments : List (IndexedSegment tokenTexts rowIdName rowIdField)}

/-- The hits per segment, as `collect` lists them. -/
theorem zipIdx_readers :
    ((segments.map IndexedSegment.reader).zipIdx.map fun entry =>
      (entry.1, segmentHits crates.tantivy query entry.1 entry.2))
      = segments.zipIdx.map fun entry => (entry.1.reader,
          segmentHits crates.tantivy query entry.1.reader entry.2) := by
  rw [List.zipIdx_map, List.map_map]
  rfl

theorem collect_none (limit : UInt64) :
    self.collect crates (segments.map IndexedSegment.reader) query limit none
      = .ok ((ranking crates.tantivy query segments).take limit.toNat) := by
  unfold FullTextIndexReader.collect
  rw [zipIdx_readers]
  dsimp only
  rw [List.map_map]
  show Except.ok (searchTopDocs limit (segments.zipIdx.map fun entry =>
    segmentHits crates.tantivy query entry.1.reader entry.2)) = _
  have hties : NoTies rankLe (allHits crates.tantivy query segments) :=
    noTies_allHits query segments
  rw [searchTopDocs_eq hties]
  rfl

theorem collect_some (hname : self.metadata.config.rowIdField = rowIdName)
    (limit : UInt64) (filter : RoaringTreemap) :
    self.collect crates (segments.map IndexedSegment.reader) query limit
        (some filter)
      = .ok (((ranking crates.tantivy query segments).filter
          (allowed filter segments)).take limit.toNat) := by
  have hkept : (segments.zipIdx.map fun entry => (entry.1.reader,
      segmentHits crates.tantivy query entry.1.reader entry.2)).mapM
        (fun entry => filterCollector self.metadata.config.rowIdField
          filter.contains entry.1 entry.2)
      = .ok (segments.zipIdx.map fun entry =>
          (segmentHits crates.tantivy query entry.1.reader entry.2).filter
            (allowed filter segments)) := by
    rw [mapM_eq_ok, List.forall₂_map_left_iff, List.forall₂_map_right_iff,
      List.forall₂_same, hname]
    intro entry hentry
    exact filterCollector_eq filter (List.mem_zipIdx_iff_getElem?.mp hentry)
  have hflatten : (segments.zipIdx.map fun entry =>
      (segmentHits crates.tantivy query entry.1.reader entry.2).filter
        (allowed filter segments)).flatten
      = (allHits crates.tantivy query segments).filter
          (allowed filter segments) := by
    unfold allHits
    rw [List.filter_flatten, List.map_map]
    rfl
  have hties : NoTies rankLe (allHits crates.tantivy query segments) :=
    noTies_allHits query segments
  have hties' : NoTies rankLe (((allHits crates.tantivy query segments).filter
      (allowed filter segments))) := hties.sublist List.filter_sublist
  unfold FullTextIndexReader.collect
  rw [zipIdx_readers]
  dsimp only
  rw [hkept]
  show Except.ok (searchTopDocs limit _) = _
  rw [searchTopDocs_eq (by rw [hflatten]; exact hties'), hflatten,
    ← filter_insertionSort hties]
  rfl

-- ================================================================ the row ids

/-- The row id a search returns for a hit. -/
def rowIdAt
    (segments : List (IndexedSegment tokenTexts rowIdName rowIdField))
    (hit : Hit) : Int64 := (addedRowId segments hit).getD 0

/-- It is the one the document was added under. -/
theorem hitRowId_eq (hname : self.metadata.config.rowIdField = rowIdName)
    {hit : Hit} (h : hit ∈ allHits library query segments) :
    self.hitRowId (segments.map IndexedSegment.reader) hit
      = .ok (rowIdAt segments hit) := by
  obtain ⟨segment, added, hsegment, hadded, hrow⟩ := mem_allHits h
  unfold FullTextIndexReader.hitRowId
  rw [List.getElem?_map, hsegment, Option.map_some]
  unfold rowIdOf rowIdAt
  dsimp only
  rw [hname, segment.fastU64_eq, hrow]
  show Except.ok ((segment.column hit.2.docId).getD 0).toInt64 = _
  rw [segment.column_eq _ _ hadded, added.rowId_spec.2, Option.getD_some,
    Option.getD_some, Int64.toInt64_toUInt64]

theorem mapM_hitRowId (hname : self.metadata.config.rowIdField = rowIdName)
    {hits : List Hit} (h : ∀ hit ∈ hits, hit ∈ allHits library query segments) :
    hits.mapM (self.hitRowId (segments.map IndexedSegment.reader))
      = .ok (hits.map (rowIdAt segments)) := by
  rw [mapM_eq_ok, List.forall₂_map_right_iff, List.forall₂_same]
  intro hit hhit
  exact hitRowId_eq hname (h hit hhit)

-- ================================================================ the searches

variable [F32Display]

/-- A search that gets as far as collecting returns what was collected. -/
theorem searchWithFilter_eq
    (hname : self.metadata.config.rowIdField = rowIdName)
    (hsearcher : self.searcher = .ok (segments.map IndexedSegment.reader))
    {text : String} {spec : QuerySpec}
    (hparse : QuerySpec.fromJson crates.serde text = .ok spec)
    (hbuild : buildQuery self.index self.metadata.config
      crates.tantivy.toQueryLibrary spec = .ok query)
    {limit : UInt64} (hlimit : limit ≠ 0) {filter : Option RoaringTreemap}
    {hits : List Hit}
    (hcollect : self.collect crates (segments.map IndexedSegment.reader) query
      limit filter = .ok hits)
    (hsub : ∀ hit ∈ hits, hit ∈ ranking crates.tantivy query segments) :
    self.searchWithFilter crates text limit filter
      = .ok { rowIds := hits.map (rowIdAt segments)
              scores := hits.map Prod.fst } := by
  have hmem : ∀ hit ∈ hits, hit ∈ allHits crates.tantivy query segments :=
    fun hit hhit => (List.mem_insertionSort rankLe).mp (hsub hit hhit)
  unfold FullTextIndexReader.searchWithFilter
  rw [if_neg hlimit, hsearcher, hparse]
  show (buildQuery self.index self.metadata.config
    crates.tantivy.toQueryLibrary spec >>= _) = _
  rw [hbuild]
  show (self.collect crates (segments.map IndexedSegment.reader) query limit
    filter >>= _) = _
  rw [hcollect]
  show (hits.mapM (self.hitRowId (segments.map IndexedSegment.reader)) >>= _) = _
  rw [mapM_hitRowId hname hmem]
  rfl

end

/-- A filtered search returns the first `limit` entries of the ranking
restricted to the allowed rows, rows and scores aligned, each row id the
non-negative one its document was added under. With room for every
match it is the unfiltered result without the rows outside the filter. -/
theorem searchWithRoaringFilter_exact [F32Display] {P : Type}
    (crates : SearchCrates P) (self : FullTextIndexReader)
    {tokenTexts : String → List String} {rowIdField : Field}
    (segments : List (IndexedSegment tokenTexts
      self.metadata.config.rowIdField rowIdField))
    (hsearcher : self.searcher = .ok (segments.map IndexedSegment.reader))
    {text : String} {spec : QuerySpec} {query : TantivyQuery P}
    (hparse : QuerySpec.fromJson crates.serde text = .ok spec)
    (hbuild : buildQuery self.index self.metadata.config
      crates.tantivy.toQueryLibrary spec = .ok query)
    (limit : UInt64) (hlimit : limit ≠ 0) {bytes : List UInt8}
    {filter : RoaringTreemap}
    (hfilter : crates.deserializeRoaring bytes = .ok filter) :
    ∃ result, self.searchWithRoaringFilter crates text limit bytes = .ok result
      ∧ result.rowIds.length = result.scores.length
      ∧ result.rowIds.zip result.scores
        = (((ranking crates.tantivy query segments).filter
            (allowed filter segments)).take limit.toNat).map
          (fun hit => (rowIdAt segments hit, hit.1))
      ∧ (∀ hit ∈ ranking crates.tantivy query segments,
          ∃ segment added, segments[hit.2.segmentOrd]? = some segment
            ∧ segment.documents[hit.2.docId]? = some added
            ∧ rowIdAt segments hit = added.rowId ∧ 0 ≤ added.rowId)
      ∧ ((ranking crates.tantivy query segments).length ≤ limit.toNat →
          ∃ full, self.search crates text limit = .ok full
            ∧ result.rowIds.zip result.scores
              = (full.rowIds.zip full.scores).filter
                  fun entry => filter.contains entry.1.toUInt64) := by
  let ranked := ranking crates.tantivy query segments
  have hrow : ∀ hit ∈ ranked, ∃ segment added,
      segments[hit.2.segmentOrd]? = some segment
        ∧ segment.documents[hit.2.docId]? = some added
        ∧ addedRowId segments hit = some added.rowId := fun hit hhit =>
    mem_allHits ((List.mem_insertionSort rankLe).mp hhit)
  have hfiltered := searchWithFilter_eq rfl hsearcher hparse hbuild hlimit
    (collect_some rfl limit filter)
    (fun hit hhit => (List.mem_filter.mp (List.mem_of_mem_take hhit)).1)
  have hunfiltered := searchWithFilter_eq rfl hsearcher hparse hbuild hlimit
    (collect_none limit) (fun hit hhit => List.mem_of_mem_take hhit)
  have hzip : ∀ hits : List Hit,
      (hits.map (rowIdAt segments)).zip (hits.map Prod.fst)
        = hits.map fun hit => (rowIdAt segments hit, hit.1) := by
    intro hits
    rw [List.zip_map']
  refine ⟨{
    rowIds := ((ranked.filter (allowed filter segments)).take
      limit.toNat).map (rowIdAt segments)
    scores := ((ranked.filter (allowed filter segments)).take
      limit.toNat).map Prod.fst }, ?_, ?_, hzip _, ?_, ?_⟩
  · unfold FullTextIndexReader.searchWithRoaringFilter decodeRoaringFilter
    rw [hfilter]
    exact hfiltered
  · rw [List.length_map, List.length_map]
  · intro hit hhit
    obtain ⟨segment, added, hsegment, hadded, hid⟩ := hrow hit hhit
    refine ⟨segment, added, hsegment, hadded, ?_, added.rowId_spec.1⟩
    rw [rowIdAt, hid, Option.getD_some]
  · intro hroom
    refine ⟨_, hunfiltered, ?_⟩
    have hroom' := List.length_filter_le (allowed filter segments) ranked
    rw [hzip, hzip, List.take_of_length_le hroom,
      List.take_of_length_le (hroom'.trans hroom), List.filter_map]
    congr 1
    refine List.filter_congr fun hit hhit => ?_
    obtain ⟨segment, added, -, -, hid⟩ := hrow hit hhit
    show (addedRowId segments hit).any _
      = filter.contains (rowIdAt segments hit).toUInt64
    rw [rowIdAt, hid, Option.any_some, Option.getD_some]

-- --------------------------------------- two segments, the best row outside

/-- Whole texts are tokens, and every match scores one. -/
def textLibrary : SearchLibrary String where
  tokenTexts _ text := [text]
  parseQuery _ text := .ok text
  buildDfa _ _ _ := ⟨0, fun _ _ => 0, fun _ => .atLeast 1⟩
  parsedMatches _ _ _ := false
  score _ _ _ := F32.one

def lakeText : String := "\x7b\"match\":\x7b\"query\":\"lake\"\x7d\x7d"

/-- The set of the row id 3, as RoaringTreemap writes it. -/
def lakeFilterBytes : List UInt8 :=
  [1, 0, 0, 0, 0, 0, 0, 0, 0, 0, 0, 0, 0x3A, 0x30, 0, 0, 1, 0, 0, 0,
    0, 0, 0, 0, 16, 0, 0, 0, 3, 0]

/-- The crates on that query text and those bytes. -/
def lakeCrates : SearchCrates String where
  tantivy := textLibrary
  serde :=
    { parse := fun text =>
        if text = lakeText then
          .ok (.object [("match", .object [("query", .string "lake")])])
        else .error ⟨"expected value"⟩
      toF32 := fun _ => F32.one
      ofF32 := fun _ => .posInt 1 }
  deserializeRoaring bytes :=
    if bytes = lakeFilterBytes then .ok ⟨fun rowId => rowId == 3⟩
    else .error "unexpected end of file"

/-- Row 7 is "lake" in the first segment, row 3 in the second. -/
def lakeSegments : List (IndexedSegment (fun text => [text]) "row_id" 0) :=
  [oneWord 7 "lake" (by decide),
    twoWords 3 4 "lake" "paimon" (by decide)]

def lakeReader : FullTextIndexReader where
  index := defaultIndex
  metadata := {}
  searcher := .ok (lakeSegments.map IndexedSegment.reader)

/-- One hit is asked for, and the allowed row gets it. -/
theorem search_lake :
    ∃ result, @FullTextIndexReader.searchWithRoaringFilter _ lakeCrates
        ⟨fun _ => ""⟩ lakeReader lakeText 1 lakeFilterBytes = .ok result
      ∧ result.rowIds.zip result.scores = [(3, F32.one)] := by
  obtain ⟨result, hok, -, hzip, -⟩ :=
    @searchWithRoaringFilter_exact ⟨fun _ => ""⟩ _ lakeCrates lakeReader _ _
      lakeSegments rfl lakeText
      (.match none "lake" .or F32.one (some 0) 50 0)
      (.term ⟨1, "lake"⟩ .withFreqs) rfl rfl 1 (by decide) lakeFilterBytes
      ⟨fun rowId => rowId == 3⟩ rfl
  refine ⟨result, hok, hzip.trans ?_⟩
  decide +kernel

end PaimonFtindex.Proofs

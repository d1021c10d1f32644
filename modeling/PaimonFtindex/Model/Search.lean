/-
Searching an index (core/src/index.rs, `search_with_filter` and the two
entry points in front of it).

A search scores the matching documents of every segment, keeps the best
`limit` of each segment and merges them. Tantivy's collectors are given
by what they are documented to do: `TopDocs` returns the best documents
of those it is given, a higher score first and a lower address among
equal scores; `FilterCollector` hands on the documents whose value in
the column passes the predicate.
-/
import PaimonFtindex.Lib.TopK
import PaimonFtindex.Model.Weight

namespace PaimonFtindex.Model

open Lib

-- ================================================================== hits

/-- `DocAddress`. -/
structure DocAddress where
  segmentOrd : Nat
  docId : DocId
  deriving DecidableEq, Repr

/-- A score and where it was reached. -/
abbrev Hit := F32 × DocAddress

/-- A better score, or as good a one at a lower address. -/
def rankLe (a b : Hit) : Prop :=
  b.1.key < a.1.key
    ∨ (a.1.key = b.1.key
      ∧ (a.2.segmentOrd < b.2.segmentOrd
        ∨ (a.2.segmentOrd = b.2.segmentOrd ∧ a.2.docId ≤ b.2.docId)))

instance : DecidableRel rankLe := fun _ _ =>
  inferInstanceAs (Decidable (_ ∨ _))

instance : Std.Total rankLe where
  total a b := by
    unfold rankLe
    grind

instance : IsTrans Hit rankLe where
  trans a b c := by
    unfold rankLe
    grind

/-- `TopDocs::with_limit(limit).order_by_score()` on some documents. -/
def topDocs (limit : UInt64) (hits : List Hit) : List Hit :=
  topK rankLe limit.toNat hits

/-- `Searcher::search` with it: per segment, then merged. -/
def searchTopDocs (limit : UInt64) (segments : List (List Hit)) : List Hit :=
  topDocs limit (segments.flatMap (topDocs limit))

section
variable {P : Type} (library : SearchLibrary P)

/-- The documents of a segment that a scored query matches, in order. -/
def segmentHits (query : TantivyQuery P) (reader : SegmentReader)
    (segmentOrd : Nat) : List Hit :=
  ((List.range reader.maxDoc).filter fun doc =>
      query.matches library reader doc true).map fun doc =>
    (library.score (query.weight library true) reader doc, ⟨segmentOrd, doc⟩)

/-- `FilterCollector` on the documents of a segment. -/
def filterCollector (field : String) (predicate : UInt64 → Bool)
    (reader : SegmentReader) (hits : List Hit) : Result (List Hit) := do
  let column ← liftError FtIndexError.tantivy (reader.fastU64 field)
  return hits.filter fun hit => (column hit.2.docId).any predicate

/-- `first_or_default_col(0)`, then `as i64`. -/
def rowIdOf (field : String) (reader : SegmentReader) (doc : DocId) :
    Result Int64 := do
  let column ← liftError FtIndexError.tantivy (reader.fastU64 field)
  return ((column doc).getD 0).toInt64

end

-- ============================================================== the reader

/-- `RoaringTreemap`, as far as it is asked. -/
structure RoaringTreemap where
  contains : UInt64 → Bool

/-- `FullTextSearchResult`. -/
structure FullTextSearchResult where
  rowIds : List Int64
  scores : List F32
  deriving DecidableEq, Repr

/-- `FullTextIndexReader`; `searcher` is what its method returns, the
readers of the segments in their order. -/
structure FullTextIndexReader where
  index : Index
  metadata : FullTextIndexMetadata
  searcher : Result (List SegmentReader)

/-- The crates a search goes through. -/
structure SearchCrates (P : Type) where
  tantivy : SearchLibrary P
  serde : SerdeJson
  deserializeRoaring : List UInt8 → Except String RoaringTreemap

section
variable {P : Type} (crates : SearchCrates P) [F32Display]

/-- `decode_roaring_filter`. -/
def decodeRoaringFilter (bytes : List UInt8) : Result RoaringTreemap :=
  match crates.deserializeRoaring bytes with
  | .ok filter => .ok filter
  | .error e => invalidQuery s!"invalid RoaringTreemap filter: {e}"

namespace FullTextIndexReader

/-- The row id of a hit; addresses of a search are in range. -/
def hitRowId (self : FullTextIndexReader) (readers : List SegmentReader)
    (hit : Hit) : Result Int64 :=
  match readers[hit.2.segmentOrd]? with
  | some reader => rowIdOf self.metadata.config.rowIdField reader hit.2.docId
  | none => .error (.tantivy ⟨"segment ordinal out of range"⟩)

/-- The best hits, of all documents or of those in the filter. -/
def collect (self : FullTextIndexReader) (readers : List SegmentReader)
    (query : TantivyQuery P) (limit : UInt64) (filter : Option RoaringTreemap) :
    Result (List Hit) := do
  let hits := readers.zipIdx.map fun (reader, ord) =>
    (reader, segmentHits crates.tantivy query reader ord)
  match filter with
  | some filter =>
      let kept ← hits.mapM fun (reader, hits) =>
        filterCollector self.metadata.config.rowIdField filter.contains reader
          hits
      return searchTopDocs limit kept
  | none => return searchTopDocs limit (hits.map Prod.snd)

/-- `search_with_filter`. -/
def searchWithFilter (self : FullTextIndexReader) (query : String)
    (limit : UInt64) (filter : Option RoaringTreemap) :
    Result FullTextSearchResult := do
  if limit = 0 then
    invalidQuery "search limit must be positive"
  else
    let searcher ← self.searcher
    let query ← QuerySpec.fromJson crates.serde query
    let tantivyQuery ← buildQuery self.index self.metadata.config
      crates.tantivy.toQueryLibrary query
    let hits ← self.collect crates searcher tantivyQuery limit filter
    let rowIds ← hits.mapM (self.hitRowId searcher)
    return { rowIds, scores := hits.map Prod.fst }

/-- `search`. -/
def search (self : FullTextIndexReader) (query : String) (limit : UInt64) :
    Result FullTextSearchResult :=
  self.searchWithFilter crates query limit none

/-- `search_with_roaring_filter`. -/
def searchWithRoaringFilter (self : FullTextIndexReader) (query : String)
    (limit : UInt64) (roaringFilterBytes : List UInt8) :
    Result FullTextSearchResult := do
  let filter ← decodeRoaringFilter crates roaringFilterBytes
  self.searchWithFilter crates query limit (some filter)

end FullTextIndexReader

end

end PaimonFtindex.Model

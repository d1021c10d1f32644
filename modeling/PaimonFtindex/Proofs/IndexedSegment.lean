/-
Segments that hold documents.

Tantivy builds a segment from documents that were added: a term's
documents are those with such a token in the field, and the row id
column has the row ids. `IndexedSegment` carries this beside the
segment's reader, and `AddedDocument` carries the call of
`add_document_fields` that the document came from.
-/
import PaimonFtindex.Model.Weight
import PaimonFtindex.Proofs.WriterLifeCycle

namespace PaimonFtindex.Proofs

open Model

/-- A document and the row id it was added under. -/
structure AddedDocument (rowIdField : Field) where
  rowId : Int64
  document : TantivyDocument
  added : ∃ (session : IndexSession) (answer : Except TantivyError Unit)
      (fields : List (String × String)) (session' : IndexSession),
    session.writer.rowIdField = rowIdField
      ∧ session.addDocumentFields answer rowId fields = (.ok (), session')
      ∧ session'.documents = session.documents ++ [document]

/-- The first value of a `u64` field. -/
def u64Value (field : Field) (document : TantivyDocument) : Option UInt64 :=
  document.findSome? fun
    | (f, .u64 value) => if f = field then some value else none
    | (_, .text _) => none

/-- The dictionary key of a `u64`: its bytes, the highest first. -/
def u64Key (value : UInt64) : List UInt8 :=
  toBeBytes (value >>> 32).toUInt32 ++ toBeBytes value.toUInt32

/-- The dictionary keys of a document in a field, in the order they come
in. -/
def documentKeys (tokenTexts : String → List String) (field : Field)
    (document : TantivyDocument) : List (List UInt8) :=
  document.flatMap fun
    | (f, .text text) => if f = field then (tokenTexts text).map utf8 else []
    | (f, .u64 value) => if f = field then [u64Key value] else []

/-- The document has its row id where the column is read, and the row id
is not negative. -/
theorem AddedDocument.rowId_spec {rowIdField : Field}
    (added : AddedDocument rowIdField) :
    0 ≤ added.rowId
      ∧ u64Value rowIdField added.document = some added.rowId.toUInt64 := by
  obtain ⟨session, answer, fields, session', hfield, hadd, hdocs⟩ := added.added
  rcases addDocumentFields_cases session answer added.rowId fields with
    ⟨e, heq⟩ | ⟨next, doc, hprepare, heq⟩
  · rw [heq] at hadd
    cases hadd
  · rw [heq] at hadd
    cases hadd
    obtain ⟨hneg, -, -, texts, -, hdoc⟩ := prepare_ok hprepare
    have hdocument : doc = added.document := by
      simpa using hdocs
    rw [← hdocument, hdoc, hfield]
    exact ⟨Int64.not_lt.mp hneg, by simp [u64Value]⟩

/-- A segment and the documents it was built from. -/
structure IndexedSegment (tokenTexts : String → List String)
    (rowIdName : String) (rowIdField : Field) where
  reader : SegmentReader
  documents : List (AddedDocument rowIdField)
  maxDoc_eq : reader.maxDoc = documents.length
  mem_postings : ∀ field key doc,
    (∃ entry ∈ (reader.invertedIndex field).terms,
      entry.key = key ∧ doc ∈ entry.postings.docs)
    ↔ ∃ added, documents[doc]? = some added
      ∧ key ∈ documentKeys tokenTexts field added.document
  column : DocId → Option UInt64
  fastU64_eq : reader.fastU64 rowIdName = .ok column
  column_eq : ∀ doc added, documents[doc]? = some added →
    column doc = u64Value rowIdField added.document

-- ============================================================ indexing

section
variable (tokenTexts : String → List String) {rowIdField : Field}
  (documents : List (AddedDocument rowIdField)) (field : Field)

/-- The keys of the document with an id. -/
def keysAt (doc : DocId) : List (List UInt8) :=
  ((documents[doc]?).map fun added =>
    documentKeys tokenTexts field added.document).getD []

theorem keysAt_of_getElem? {doc : DocId} {added : AddedDocument rowIdField}
    (h : documents[doc]? = some added) :
    keysAt tokenTexts documents field doc
      = documentKeys tokenTexts field added.document := by
  rw [keysAt, h]
  rfl

/-- The documents with a key. -/
def docsWith (key : List UInt8) : List DocId :=
  (List.range documents.length).filter fun doc =>
    (keysAt tokenTexts documents field doc).contains key

theorem mem_docsWith {key : List UInt8} {doc : DocId} :
    doc ∈ docsWith tokenTexts documents field key
      ↔ ∃ added, documents[doc]? = some added
        ∧ key ∈ documentKeys tokenTexts field added.document := by
  rw [docsWith, List.mem_filter, List.mem_range, List.contains_iff_mem]
  constructor
  · intro h
    obtain ⟨hdoc, hkey⟩ := h
    have hget := List.getElem?_eq_getElem hdoc
    rw [keysAt_of_getElem? tokenTexts documents field hget] at hkey
    exact ⟨_, hget, hkey⟩
  · intro h
    obtain ⟨added, hget, hkey⟩ := h
    rw [keysAt_of_getElem? tokenTexts documents field hget]
    exact ⟨(List.getElem?_eq_some_iff.mp hget).1, hkey⟩

/-- The places of a key among others. -/
def placesOf (key : List UInt8) (keys : List (List UInt8)) : List Nat :=
  (List.range keys.length).filter fun i => keys[i]? = some key

/-- The postings of a key, a block for each document. -/
def indexedPostings (h : documents.length ≤ terminated) (key : List UInt8) :
    Postings where
  blocks := (docsWith tokenTexts documents field key).map fun doc => [doc]
  nonempty := by simp
  increasing := by
    rw [← List.flatMap_def, List.flatMap_singleton']
    exact List.pairwise_lt_range.filter _
  below := by
    intro doc hdoc
    rw [← List.flatMap_def, List.flatMap_singleton', mem_docsWith] at hdoc
    obtain ⟨added, hget, -⟩ := hdoc
    exact (List.getElem?_eq_some_iff.mp hget).1.trans_le h
  positions doc := placesOf key (keysAt tokenTexts documents field doc)

theorem docs_indexedPostings (h : documents.length ≤ terminated)
    (key : List UInt8) :
    (indexedPostings tokenTexts documents field h key).docs
      = docsWith tokenTexts documents field key := by
  show ((docsWith tokenTexts documents field key).map _).flatten = _
  rw [← List.flatMap_def, List.flatMap_singleton']

/-- The keys of all documents, ascending. -/
def sortedKeys : List (List UInt8) :=
  (documents.flatMap fun added =>
    documentKeys tokenTexts field added.document).dedup.insertionSort (· ≤ ·)

theorem mem_sortedKeys {key : List UInt8} :
    key ∈ sortedKeys tokenTexts documents field
      ↔ ∃ doc, doc ∈ docsWith tokenTexts documents field key := by
  rw [sortedKeys, List.mem_insertionSort, List.mem_dedup, List.mem_flatMap]
  simp only [mem_docsWith]
  constructor
  · intro h
    obtain ⟨added, hmem, hkey⟩ := h
    obtain ⟨doc, hget⟩ := List.mem_iff_getElem?.mp hmem
    exact ⟨doc, added, hget, hkey⟩
  · intro h
    obtain ⟨doc, added, hget, hkey⟩ := h
    exact ⟨added, List.mem_of_getElem? hget, hkey⟩

theorem sortedKeys_pairwise :
    (sortedKeys tokenTexts documents field).Pairwise (· < ·) := by
  have hsorted := List.pairwise_insertionSort (· ≤ ·)
    (documents.flatMap fun added =>
      documentKeys tokenTexts field added.document).dedup
  have hnodup := (List.perm_insertionSort (· ≤ ·)
    (documents.flatMap fun added =>
      documentKeys tokenTexts field added.document).dedup).nodup_iff.mpr
      (List.nodup_dedup _)
  exact hsorted.imp₂ (fun _ _ hle hne => Std.lt_of_le_of_ne hle hne) hnodup

/-- The dictionary of a field. -/
def indexedDictionary (h : documents.length ≤ terminated) : InvertedIndex where
  terms := (sortedKeys tokenTexts documents field).map fun key =>
    ⟨key, indexedPostings tokenTexts documents field h key⟩
  sorted := by
    rw [List.map_map]
    exact (List.map_id _).symm ▸ sortedKeys_pairwise tokenTexts documents field

/-- The segment of any documents, as many as it can number. -/
def indexed (rowIdName : String) (h : documents.length ≤ terminated) :
    IndexedSegment tokenTexts rowIdName rowIdField where
  reader :=
    { maxDoc := documents.length
      invertedIndex := fun field => indexedDictionary tokenTexts documents field h
      fastU64 := fun _ => .ok fun doc =>
        documents[doc]?.bind fun added => u64Value rowIdField added.document }
  documents := documents
  maxDoc_eq := rfl
  mem_postings := by
    intro field key doc
    rw [← mem_docsWith]
    constructor
    · intro hentry
      obtain ⟨entry, hmem, hkey, hdoc⟩ := hentry
      obtain ⟨key', -, rfl⟩ := List.mem_map.mp hmem
      cases hkey
      rw [docs_indexedPostings] at hdoc
      exact hdoc
    · intro hdoc
      refine ⟨_, List.mem_map_of_mem ((mem_sortedKeys ..).mpr ⟨doc, hdoc⟩), rfl,
        ?_⟩
      rw [docs_indexedPostings]
      exact hdoc
  column := fun doc =>
    documents[doc]?.bind fun added => u64Value rowIdField added.document
  fastU64_eq := rfl
  column_eq := by
    intro doc added hget
    rw [hget]
    rfl

end

/-- Where a key stands in a document of a segment. -/
def positionsIn (reader : SegmentReader) (field : Field) (key : List UInt8)
    (doc : DocId) : List Nat :=
  (((reader.invertedIndex field).get key).map fun entry =>
    entry.postings.positions doc).getD []

/-- In a segment of documents, a key stands where it does in the
document. -/
theorem positionsIn_indexed {tokenTexts : String → List String}
    {rowIdField : Field} {documents : List (AddedDocument rowIdField)}
    {rowIdName : String} {h : documents.length ≤ terminated} {doc : DocId}
    {added : AddedDocument rowIdField} (hget : documents[doc]? = some added)
    (field : Field) (key : List UInt8) :
    positionsIn (indexed tokenTexts documents rowIdName h).reader field key doc
      = placesOf key (documentKeys tokenTexts field added.document) := by
  have hkeys := keysAt_of_getElem? tokenTexts documents field hget
  let dictionary := indexedDictionary tokenTexts documents field h
  show ((dictionary.get key).map _).getD [] = _
  by_cases hmem : key ∈ sortedKeys tokenTexts documents field
  · have hentry : dictionary.get key
        = some ⟨key, indexedPostings tokenTexts documents field h key⟩ :=
      @InvertedIndex.get_of_mem dictionary ⟨key, _⟩ (List.mem_map_of_mem hmem)
    rw [hentry, ← hkeys]
    rfl
  · have hnone : dictionary.get key = none := by
      unfold InvertedIndex.get
      rw [List.find?_eq_none]
      intro entry hentry hkey
      obtain ⟨key', hkey', rfl⟩ := List.mem_map.mp hentry
      rw [decide_eq_true_iff] at hkey
      exact hmem (hkey ▸ hkey')
    have habsent : key ∉ documentKeys tokenTexts field added.document := by
      intro hkey
      apply hmem
      rw [mem_sortedKeys]
      exact ⟨doc, (mem_docsWith ..).mpr ⟨added, hget, hkey⟩⟩
    rw [hnone]
    refine (List.filter_eq_nil_iff.mpr ?_).symm
    intro i _ hi
    rw [decide_eq_true_iff] at hi
    exact habsent (List.mem_of_getElem? hi)

-- ---------------------------------------------------- documents of one text

/-- The index of the default configuration. -/
def defaultIndex : Index where
  schema := buildSchema {} default_distinctNames
  tokenizers _ := some { base := .raw, filters := [] }

/-- A session of an open writer with that configuration. -/
def openSession : IndexSession where
  writer :=
    { config := {}, state := some { tempDir := [] }, rowIdField := 0,
      textFields := [("text", 1)], documentCount := 0 }

/-- The text, added under the row id. -/
def addedText (rowId : Int64) (h : 0 ≤ rowId) (text : String) :
    AddedDocument 0 where
  rowId := rowId
  document := [(0, .u64 rowId.toUInt64), (1, .text text)]
  added := by
    have hneg : ¬ rowId < 0 := Int64.not_lt.mpr h
    have hprepare : openSession.writer.prepare rowId [("text", text)]
        = .ok (1, [(0, .u64 rowId.toUInt64), (1, .text text)]) := by
      unfold FullTextIndexWriter.prepare
      rw [if_neg hneg]
      rfl
    refine ⟨openSession, .ok (), [("text", text)],
      { writer := { openSession.writer with documentCount := 1 }
        documents := [[(0, .u64 rowId.toUInt64), (1, .text text)]] },
      rfl, ?_, rfl⟩
    unfold IndexSession.addDocumentFields
    rw [hprepare]
    rfl

/-- A segment of one document whose whole text is a token. -/
def oneWord (rowId : Int64) (word : String) (hrow : 0 ≤ rowId) :
    IndexedSegment (fun text => [text]) "row_id" 0 :=
  indexed _ [addedText rowId hrow word] "row_id"
    (Nat.le_of_ble_eq_true rfl)

/-- A segment of two such documents. -/
def twoWords (rowId₁ rowId₂ : Int64) (word₁ word₂ : String)
    (hrow : 0 ≤ rowId₁ ∧ 0 ≤ rowId₂) :
    IndexedSegment (fun text => [text]) "row_id" 0 :=
  indexed _ [addedText rowId₁ hrow.1 word₁, addedText rowId₂ hrow.2 word₂]
    "row_id" (Nat.le_of_ble_eq_true rfl)

end PaimonFtindex.Proofs

/-
What the crate sees of a Tantivy segment: for each field a sorted
dictionary of terms, for each term its documents in blocks, and the
fast columns.

The invariants Tantivy keeps are fields of the structures: keys ascend
in byte order, the documents of a term ascend, no block is empty.
-/
import Mathlib.Algebra.GroupWithZero.Nat
import Mathlib.Data.List.Nodup
import PaimonFtindex.Model.Schema

namespace PaimonFtindex.Model

/-- `DocId`: the position of a document in its segment. -/
abbrev DocId := Nat

/-- `TERMINATED`: `i32::MAX`. -/
def terminated : DocId := 2 ^ 31 - 1

/-- The documents of one term, as the blocks they are stored in, and
where the term stands in each of them. A field that is indexed without
positions has none. -/
structure Postings where
  blocks : List (List DocId)
  nonempty : ∀ block ∈ blocks, block ≠ []
  increasing : blocks.flatten.Pairwise (· < ·)
  below : ∀ doc ∈ blocks.flatten, doc < terminated
  positions : DocId → List Nat := fun _ => []

instance : NeZero terminated := ⟨by decide⟩

/-- The postings of a term in one document. -/
def Postings.single (doc : Fin terminated) : Postings where
  blocks := [[doc.val]]
  nonempty := by simp
  increasing := by simp
  below := by
    intro doc' hdoc
    rw [List.mem_singleton.mp hdoc]
    exact doc.isLt

def Postings.docs (postings : Postings) : List DocId := postings.blocks.flatten

structure TermEntry where
  key : List UInt8
  postings : Postings

/-- `InvertedIndexReader` with its term dictionary. -/
structure InvertedIndex where
  terms : List TermEntry
  sorted : (terms.map TermEntry.key).Pairwise (· < ·)

/-- `TermDictionary::get`. -/
def InvertedIndex.get (index : InvertedIndex) (key : List UInt8) :
    Option TermEntry :=
  index.terms.find? fun entry => entry.key = key

/-- `SegmentReader`; a fast column may hold a value per document. -/
structure SegmentReader where
  maxDoc : Nat
  invertedIndex : Field → InvertedIndex
  fastU64 : String → Except TantivyError (DocId → Option UInt64)

/-- A key stands in the dictionary once. -/
theorem InvertedIndex.get_of_mem {index : InvertedIndex} {entry : TermEntry}
    (h : entry ∈ index.terms) : index.get entry.key = some entry := by
  have hinj : ∀ other ∈ index.terms, other.key = entry.key →
      other = entry := by
    have hnodup : (index.terms.map TermEntry.key).Nodup := by
      apply index.sorted.imp
      intro a b hlt heq
      rw [heq] at hlt
      exact List.lt_irrefl _ hlt
    intro other hother heq
    exact List.inj_on_of_nodup_map hnodup hother h heq
  unfold InvertedIndex.get
  cases hfind : index.terms.find? fun other => other.key = entry.key with
  | none =>
      rw [List.find?_eq_none] at hfind
      exact absurd (by simp) (hfind entry h)
  | some other =>
      have hkey : other.key = entry.key := by
        simpa using List.find?_some hfind
      rw [hinj other (List.mem_of_find?_eq_some hfind) hkey]

end PaimonFtindex.Model

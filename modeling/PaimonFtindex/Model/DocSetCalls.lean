/-
The calls of `SortedDocSet` (core/src/index.rs), with what can go wrong
in them: `seek` slices the documents at its cursor, which panics behind
their end, and searches the slice by halves; `size_hint` takes a
difference that panics below zero, and casts it. A panic is `none`.

`advance` and the fields are those of Model/Fuzzy.lean.
-/
import PaimonFtindex.Lib.ListCursor
import PaimonFtindex.Lib.PartitionPoint
import PaimonFtindex.Model.Fuzzy

namespace PaimonFtindex.Model

open Lib

namespace SortedDocSet

/-- `self.docs[self.cursor..]`. -/
def docsFromCursor (self : SortedDocSet) : Option (List DocId) :=
  if self.cursor ≤ self.docs.length then some (self.docs.drop self.cursor)
  else none

/-- `SortedDocSet::seek`. -/
def checkedSeek (self : SortedDocSet) (target : DocId) :
    Option SortedDocSet :=
  if target ≤ self.doc then some self
  else do
    let docs ← self.docsFromCursor
    let relativeCursor := partitionPoint (fun doc => decide (doc < target)) docs
    let cursor := self.cursor + relativeCursor
    return { self with cursor, doc := self.docs[cursor]?.getD terminated }

/-- `SortedDocSet::size_hint`. -/
def checkedSizeHint (self : SortedDocSet) : Option UInt32 :=
  if self.doc = terminated then some 0
  else if self.cursor ≤ self.docs.length then
    some (UInt32.ofNat (self.docs.length - self.cursor))
  else none

/-- One call of the interface, and what it returns. -/
def exec (self : SortedDocSet) :
    CursorCall DocId → Option (CursorAnswer DocId × SortedDocSet)
  | .current => some (.item self.doc, self)
  | .advance => some (.item self.advance.doc, self.advance)
  | .seek target => do
      let docset ← self.checkedSeek target
      return (.item docset.doc, docset)
  | .left => do
      let hint ← self.checkedSizeHint
      return (.count hint.toNat, self)

end SortedDocSet

end PaimonFtindex.Model

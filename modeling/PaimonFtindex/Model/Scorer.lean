/-
Document sets and scorers, Tantivy's interface and the crate's two
implementations of it (core/src/index.rs): the sorted set behind a fuzzy
term, in its `ConstScorer`, and the scorer of a demotion.

`DocSet` and `Scorer` hold the methods of the traits over a state; a
method that moves returns the document it arrives at, and `score` may
change the state as well.
-/
import PaimonFtindex.Lib.Cursor
import PaimonFtindex.Model.Fuzzy

namespace PaimonFtindex.Model

open Lib

/-- `f32` multiplication; nothing is assumed of it. -/
class F32Mul where
  mul : F32 → F32 → F32

/-- `tantivy::DocSet`: `doc` is `current`. -/
structure DocSet (σ : Type) extends Cursor σ DocId where
  sizeHint : σ → Nat

/-- `tantivy::query::Scorer`. -/
structure Scorer (σ : Type) extends DocSet σ where
  score : σ → F32 × σ

-- ========================================================== the fuzzy terms

/-- `impl DocSet for SortedDocSet`. -/
def SortedDocSet.docSet : DocSet SortedDocSet where
  current self := self.doc
  advance self := (self.advance.doc, self.advance)
  seek self target := ((self.seek target).doc, self.seek target)
  sizeHint self := self.sizeHint

/-- `ConstScorer`: the moves of its document set, and one score. -/
def ConstScorer.scorer : Scorer ConstScorer where
  current self := self.docset.doc
  advance self :=
    let (doc, docset) := SortedDocSet.docSet.advance self.docset
    (doc, { self with docset })
  seek self target :=
    let (doc, docset) := SortedDocSet.docSet.seek self.docset target
    (doc, { self with docset })
  sizeHint self := self.docset.sizeHint
  score self := (self.score, self)

-- ============================================================= demotion

/-- `matches_doc`. -/
def matchesDoc {τ : Type} (docset : DocSet τ) (state : τ) (doc : DocId) :
    Bool × τ :=
  if doc = terminated then (false, state)
  else
    let current := docset.current state
    if current < doc then
      let (found, state) := docset.seek state doc
      (found == doc, state)
    else (current == doc, state)

/-- `DemoteScorer`, its two scorers by their states. -/
structure DemoteScorer (σ τ : Type) where
  positive : σ
  negative : τ
  negativeBoost : F32

/-- `impl DocSet` and `impl Scorer` for `DemoteScorer`. -/
def DemoteScorer.scorer [F32Mul] {σ τ : Type} (positive : Scorer σ)
    (negative : DocSet τ) : Scorer (DemoteScorer σ τ) where
  current self := positive.current self.positive
  advance self :=
    let (doc, state) := positive.advance self.positive
    (doc, { self with positive := state })
  seek self target :=
    let (doc, state) := positive.seek self.positive target
    (doc, { self with positive := state })
  sizeHint self := positive.sizeHint self.positive
  score self :=
    let (positiveScore, state) := positive.score self.positive
    let (matched, negativeState) :=
      matchesDoc negative self.negative (positive.current state)
    (if matched then F32Mul.mul positiveScore self.negativeBoost
      else positiveScore,
      { self with positive := state, negative := negativeState })

end PaimonFtindex.Model

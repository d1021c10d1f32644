/-
Fuzzy terms (core/src/index.rs, `CappedFuzzyTermQuery` and what is
behind it): a Levenshtein automaton with an exact prefix is run over the
dictionary of each segment, and the documents of the first terms it
accepts are collected.

The automaton itself is the crate levenshtein_automata's.
`LevenshteinDfa` is its interface; `TermDictionary::search` is the
pruned search of `Lib.Automaton`.
-/
import Mathlib.Data.List.Destutter
import Mathlib.Data.List.Sort
import PaimonFtindex.Lib.Automaton
import PaimonFtindex.Model.Segment

namespace PaimonFtindex.Model

open Lib

-- ========================================================= the automaton

/-- `levenshtein_automata::Distance`. -/
inductive Distance where
  | exact (d : UInt8)
  | atLeast (d : UInt8)
  deriving DecidableEq, Repr

/-- `levenshtein_automata::DFA`. -/
structure LevenshteinDfa where
  initialState : UInt32
  transition : UInt32 → UInt8 → UInt32
  distance : UInt32 → Distance

/-- `SINK_STATE`. -/
def sinkState : UInt32 := 0

/-- `matches!(distance, Distance::Exact(_))`. -/
def Distance.isExact : Distance → Bool
  | .exact _ => true
  | .atLeast _ => false

/-- `PrefixedDfaAutomaton`. -/
structure PrefixedDfaAutomaton where
  dfa : LevenshteinDfa
  pre : List UInt8

namespace PrefixedDfaAutomaton

/-- The prefix state of `accept`. -/
def prefixState (self : PrefixedDfaAutomaton) (byte : UInt8) :
    Option Nat → Option Nat
  | none => none
  | some pos =>
      if h : pos < self.pre.length then
        if self.pre[pos] = byte then some (pos + 1) else none
      else some pos

/-- The `Automaton` implementation. -/
def automaton (self : PrefixedDfaAutomaton) :
    Automaton (UInt32 × Option Nat) UInt8 where
  start := (self.dfa.initialState, some 0)
  isMatch state :=
    (self.dfa.distance state.1).isExact
      && match state.2 with
        | some pos => decide (self.pre.length ≤ pos)
        | none => false
  canMatch state := state.1 != sinkState && state.2.isSome
  accept state byte :=
    (self.dfa.transition state.1 byte, self.prefixState byte state.2)

/-- Whether `search` on the dictionary yields the key. -/
def finds (self : PrefixedDfaAutomaton) (key : List UInt8) : Bool :=
  self.automaton.visits self.automaton.start key

/-- `TermDictionary::search`. -/
def search (self : PrefixedDfaAutomaton) (index : InvertedIndex) :
    List TermEntry :=
  index.terms.filter fun entry => self.finds entry.key

end PrefixedDfaAutomaton

-- ======================================================== the document set

/-- `SortedDocSet`. -/
structure SortedDocSet where
  docs : List DocId
  cursor : Nat
  doc : DocId
  deriving DecidableEq, Repr

namespace SortedDocSet

/-- `SortedDocSet::new`. -/
def new (docs : List DocId) : SortedDocSet :=
  { docs, cursor := 0, doc := docs.head?.getD terminated }

def advance (self : SortedDocSet) : SortedDocSet :=
  if self.doc = terminated then self
  else
    let cursor := self.cursor + 1
    { self with cursor, doc := self.docs[cursor]?.getD terminated }

/-- `partition_point` on a partitioned slice is the length of the
matching run at its start. -/
def seek (self : SortedDocSet) (target : DocId) : SortedDocSet :=
  if target ≤ self.doc then self
  else
    let relativeCursor :=
      ((self.docs.drop self.cursor).takeWhile fun doc => doc < target).length
    let cursor := self.cursor + relativeCursor
    { self with cursor, doc := self.docs[cursor]?.getD terminated }

def sizeHint (self : SortedDocSet) : Nat :=
  if self.doc = terminated then 0 else self.docs.length - self.cursor

end SortedDocSet

-- ============================================================= the weight

/-- `CappedAutomatonWeight<PrefixedDfaAutomaton>`. -/
structure CappedAutomatonWeight where
  field : Field
  automaton : PrefixedDfaAutomaton
  maxExpansions : UInt64

/-- `ConstScorer<SortedDocSet>`. -/
structure ConstScorer where
  docset : SortedDocSet
  score : F32
  deriving DecidableEq, Repr

/-- The inner loop of `scorer`: block after block, up to an empty one. -/
def appendBlocks : List (List DocId) → List DocId → List DocId
  | [], docs => docs
  | blockDocs :: blocks, docs =>
      if blockDocs.isEmpty then docs else appendBlocks blocks (docs ++ blockDocs)

namespace CappedAutomatonWeight

/-- The outer loop of `scorer`: term after term, up to the cap. -/
def expand (self : CappedAutomatonWeight) (expansions : Nat) :
    List TermEntry → List DocId → List DocId
  | [], docs => docs
  | entry :: termStream, docs =>
      if expansions < self.maxExpansions.toNat then
        self.expand (expansions + 1) termStream
          (appendBlocks entry.postings.blocks docs)
      else docs

/-- The documents `scorer` collects. -/
def docs (self : CappedAutomatonWeight) (reader : SegmentReader) :
    List DocId :=
  let termStream := self.automaton.search (reader.invertedIndex self.field)
  ((self.expand 0 termStream []).insertionSort (· ≤ ·)).destutter (· ≠ ·)

/-- `CappedAutomatonWeight::scorer`. -/
def scorer (self : CappedAutomatonWeight) (reader : SegmentReader)
    (boost : F32) : ConstScorer :=
  { docset := .new (self.docs reader), score := boost }

end CappedAutomatonWeight

end PaimonFtindex.Model

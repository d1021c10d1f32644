/-
What a query matches in a segment: the weights Tantivy makes of the
queries of `build_query`, with and without scoring, and the documents
they match.

Two of the weights are the crate's own, the capped automaton of
`Model.Fuzzy` and the demotion (core/src/index.rs, `DemoteQuery`). The
others are Tantivy's: a term matches the documents of its postings, a
parsed phrase what Tantivy says, a boost what it boosts, and a boolean
query follows `booleanMatches`.
-/
import PaimonFtindex.Model.BuildQuery
import PaimonFtindex.Model.Fuzzy

namespace PaimonFtindex.Model

/-- The bytes of a string in a dictionary. -/
def utf8 (s : String) : List UInt8 := s.toUTF8.data.toList

/-- `Box<dyn Weight>`. -/
inductive Weight (P : Type) where
  | empty
  | term (term : Term)
  | cappedAutomaton (weight : CappedAutomatonWeight)
  | parsed (query : P)
  | boolean (children : List (Occur × Weight P))
  | boost (weight : Weight P) (boost : F32)
  | demote (positive negative : Weight P) (negativeBoost : F32)

/-- Tantivy while a query runs: the automaton builder, the phrases its
query parser made, and the scores. -/
structure SearchLibrary (P : Type) extends QueryLibrary P where
  buildDfa : UInt8 → Bool → String → LevenshteinDfa
  parsedMatches : P → SegmentReader → DocId → Bool
  score : Weight P → SegmentReader → DocId → F32

section
variable {P : Type} (library : SearchLibrary P)

/-- `CappedFuzzyTermQuery::weight`. -/
def cappedFuzzyWeight (term : Term) (distance : UInt8) (pre : String)
    (maxExpansions : UInt64) : CappedAutomatonWeight where
  field := term.field
  automaton :=
    { dfa := library.buildDfa distance true term.text, pre := utf8 pre }
  maxExpansions := maxExpansions

mutual

/-- `Query::weight`. Without scoring a demotion is its positive part, and
its negative part is never scored. -/
def TantivyQuery.weight (scoring : Bool) : TantivyQuery P → Weight P
  | .empty => .empty
  | .term term _ => .term term
  | .cappedFuzzyTerm term distance pre maxExpansions =>
      .cappedAutomaton
        (cappedFuzzyWeight library term distance pre maxExpansions)
  | .parsed query => .parsed query
  | .boolean children => .boolean (childWeights scoring children)
  | .boost query boost => .boost (query.weight scoring) boost
  | .demote positive negative negativeBoost =>
      if !scoring then positive.weight scoring
      else .demote (positive.weight scoring) (negative.weight false)
        negativeBoost

def childWeights (scoring : Bool) :
    List (Occur × TantivyQuery P) → List (Occur × Weight P)
  | [] => []
  | (occur, query) :: children =>
      (occur, query.weight scoring) :: childWeights scoring children

end

/-- `BooleanQuery`: all of must, none of must not and, without a must, at
least one of should. -/
def booleanMatches (clauses : List (Occur × Bool)) : Bool :=
  (clauses.all fun clause => clause.1 != .must || clause.2)
    && (clauses.all fun clause => clause.1 != .mustNot || !clause.2)
    && ((clauses.any fun clause => clause.1 == .must)
      || clauses.any fun clause => clause.1 == .should && clause.2)

variable (reader : SegmentReader) (doc : DocId)

mutual

/-- Whether the scorer of the weight stops at the document. A
`DemoteScorer` advances and seeks with its positive part. -/
def Weight.matches : Weight P → Bool
  | .empty => false
  | .term term =>
      ((reader.invertedIndex term.field).get (utf8 term.text)).any
        fun entry => entry.postings.docs.contains doc
  | .cappedAutomaton weight =>
      (weight.scorer reader F32.one).docset.docs.contains doc
  | .parsed query => library.parsedMatches query reader doc
  | .boolean children => booleanMatches (childMatches children)
  | .boost weight _ => weight.matches
  | .demote positive _ _ => positive.matches

def childMatches : List (Occur × Weight P) → List (Occur × Bool)
  | [] => []
  | (occur, weight) :: children =>
      (occur, weight.matches) :: childMatches children

end

/-- Whether a search for the query, scored or not, finds the document. -/
def TantivyQuery.matches (scoring : Bool) (query : TantivyQuery P) : Bool :=
  (query.weight library scoring).matches library reader doc

end

section
variable {P : Type} {library : SearchLibrary P} {reader : SegmentReader}
  {doc : DocId} {scoring : Bool}

theorem childMatches_childWeights (children : List (Occur × TantivyQuery P)) :
    childMatches library reader doc (childWeights library scoring children)
      = children.map fun child =>
          (child.1, child.2.matches library reader doc scoring) := by
  induction children with
  | nil => rfl
  | cons child children ih =>
      obtain ⟨occur, query⟩ := child
      rw [childWeights, childMatches, ih]
      rfl

@[simp] theorem matches_empty :
    (TantivyQuery.empty : TantivyQuery P).matches library reader doc scoring
      = false := rfl

@[simp] theorem matches_boost (query : TantivyQuery P) (boost : F32) :
    (TantivyQuery.boost query boost).matches library reader doc scoring
      = query.matches library reader doc scoring := rfl

/-- A demotion matches what its positive part matches, scored or not. -/
@[simp] theorem matches_demote (positive negative : TantivyQuery P)
    (negativeBoost : F32) :
    (TantivyQuery.demote positive negative negativeBoost).matches library
        reader doc scoring
      = positive.matches library reader doc scoring := by
  cases scoring <;> rfl

end

end PaimonFtindex.Model

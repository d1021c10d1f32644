/-
Demotion hits exactly the negative matches.

The negative cursor of a `DemoteScorer` moves only when a document is
scored, and only forward. `Demoting` is what relates it to the positive
one: among the documents the positive scorer has still to visit, what
the negative cursor has left is what it had at the start. Every call
keeps that (`Demoting.step`), and a scored document is looked up in the
negative set by it, so the scorer runs as the positive one does, with
the scores of negative matches demoted (`demotion_exact`).
-/
import PaimonFtindex.Proofs.DocSets

namespace PaimonFtindex.Proofs

open Model Lib

-- =============================================================== the calls

/-- A call on a scorer. -/
inductive ScorerCall where
  | advance
  | seek (target : DocId)
  | score
  deriving DecidableEq, Repr

/-- What a call returns. -/
inductive Reply where
  | doc (doc : DocId)
  | score (score : F32)
  deriving DecidableEq, Repr

section
variable {σ : Type}

def callScorer (scorer : Scorer σ) (state : σ) : ScorerCall → Reply × σ
  | .advance =>
      (.doc (scorer.advance state).1, (scorer.advance state).2)
  | .seek target =>
      (.doc (scorer.seek state target).1, (scorer.seek state target).2)
  | .score => (.score (scorer.score state).1, (scorer.score state).2)

/-- The replies to some calls, one after the other. -/
def replies (scorer : Scorer σ) (state : σ) : List ScorerCall → List Reply
  | [] => []
  | call :: calls =>
      (callScorer scorer state call).1
        :: replies scorer (callScorer scorer state call).2 calls

/-- No seek is to a document below the current one. -/
def SeeksForward (scorer : Scorer σ) (state : σ) : List ScorerCall → Prop
  | [] => True
  | call :: calls =>
      (∀ target, call = .seek target → scorer.current state ≤ target)
        ∧ SeeksForward scorer (callScorer scorer state call).2 calls

end

section
variable {σ τ : Type} {positive : Scorer σ} {negative : DocSet τ}
  {Positive : σ → List DocId → Prop} {Negative : τ → List DocId → Prop}

-- ========================================================= the negative side

/-- `matches_doc` answers whether the document is left to the negative
cursor, and loses none from that document on. -/
theorem matchesDoc_spec (hlaw : negative.Lawful terminated Negative)
    {state : τ} {left : List DocId} (hleft : Negative state left)
    (doc : DocId) :
    ((matchesDoc negative state doc).1 = true ↔ doc ∈ left)
      ∧ ∃ left', Negative (matchesDoc negative state doc).2 left'
        ∧ ∀ later, doc ≤ later → (later ∈ left' ↔ later ∈ left) := by
  unfold matchesDoc
  by_cases hend : doc = terminated
  · rw [if_pos hend]
    constructor
    · constructor
      · intro h
        cases h
      · intro h
        exact absurd hend (hlaw.below _ _ hleft doc h).ne
    · exact ⟨left, hleft, fun _ _ => Iff.rfl⟩
  · rw [if_neg hend]
    dsimp only
    by_cases hbehind : negative.current state < doc
    · rw [if_pos hbehind]
      constructor
      · rw [beq_iff_eq]
        exact hlaw.seek_eq_iff hleft hbehind.le hend
      · refine ⟨_, (hlaw.seek _ _ doc hleft hbehind.le).1, ?_⟩
        intro later hlater
        rw [mem_dropWhile_lt_iff (hlaw.increasing _ _ hleft)]
        exact and_iff_left hlater
    · rw [if_neg hbehind]
      constructor
      · rw [beq_iff_eq]
        exact hlaw.current_eq_iff hleft (not_lt.mp hbehind) hend
      · exact ⟨left, hleft, fun _ _ => Iff.rfl⟩

-- ============================================================ the invariant

/-- Among the documents left to the positive scorer, those left to the
negative cursor are the negative matches. -/
structure Demoting (Positive : σ → List DocId → Prop)
    (Negative : τ → List DocId → Prop) (negatives : List DocId)
    (state : DemoteScorer σ τ) (left : List DocId) : Prop where
  documents : Positive state.positive left
  hits : ∃ negativeLeft, Negative state.negative negativeLeft
    ∧ ∀ doc ∈ left, doc ∈ negativeLeft ↔ doc ∈ negatives

/-- The current document is a negative match exactly when the negative
cursor has it left. -/
theorem current_mem_iff (hpositive : LawfulScorer positive Positive)
    (hnegative : negative.Lawful terminated Negative)
    {negatives left negativeLeft : List DocId}
    (hbelow : ∀ doc ∈ negatives, doc < terminated) {state : σ} {other : τ}
    (hleft : Positive state left) (hother : Negative other negativeLeft)
    (hsame : ∀ doc ∈ left, doc ∈ negativeLeft ↔ doc ∈ negatives) :
    positive.current state ∈ negativeLeft
      ↔ positive.current state ∈ negatives := by
  by_cases hend : positive.current state = terminated
  · constructor
    · intro h
      exact absurd hend (hnegative.below _ _ hother _ h).ne
    · intro h
      exact absurd hend (hbelow _ h).ne
  · apply hsame
    exact (hpositive.docSet.current_eq_iff hleft (le_refl _) hend).mp rfl

variable [F32Mul]

/-- Scoring: the reply, and the invariant for what is left. -/
theorem Demoting.score (hpositive : LawfulScorer positive Positive)
    (hnegative : negative.Lawful terminated Negative)
    {negatives left : List DocId}
    (hbelow : ∀ doc ∈ negatives, doc < terminated)
    {self : DemoteScorer σ τ}
    (h : Demoting Positive Negative negatives self left) :
    ((DemoteScorer.scorer positive negative).score self).1
        = (if positive.current self.positive ∈ negatives then
            F32Mul.mul (positive.score self.positive).1 self.negativeBoost
          else (positive.score self.positive).1)
      ∧ Demoting Positive Negative negatives
          ((DemoteScorer.scorer positive negative).score self).2 left := by
  obtain ⟨negativeLeft, hleft, hsame⟩ := h.hits
  have hstay := hpositive.score _ _ h.documents
  have hcurrent : positive.current (positive.score self.positive).2
      = positive.current self.positive := by
    rw [hpositive.docSet.current _ _ hstay,
      hpositive.docSet.current _ _ h.documents]
  obtain ⟨hmatched, negativeLeft', hleft', hlater⟩ := matchesDoc_spec hnegative
    hleft (positive.current (positive.score self.positive).2)
  constructor
  · rw [hcurrent, current_mem_iff hpositive hnegative hbelow h.documents hleft
      hsame, ← hcurrent] at hmatched
    show (if (matchesDoc negative self.negative
        (positive.current (positive.score self.positive).2)).1 = true then _
      else _) = _
    rw [← hcurrent]
    simp only [hmatched]
  · refine ⟨hstay, negativeLeft', hleft', ?_⟩
    intro doc hdoc
    rw [← hsame doc hdoc]
    exact hlater doc (hpositive.docSet.current_le hstay hdoc)

/-- The scorer of a demotion keeps to the contract, over the documents of
its positive part. -/
theorem lawful_demote (hpositive : LawfulScorer positive Positive)
    (hnegative : negative.Lawful terminated Negative)
    {negatives : List DocId} (hbelow : ∀ doc ∈ negatives, doc < terminated) :
    LawfulScorer (DemoteScorer.scorer positive negative)
      (Demoting Positive Negative negatives) := by
  constructor
  · constructor
    · intro self left h
      exact hpositive.docSet.increasing _ _ h.documents
    · intro self left h
      exact hpositive.docSet.below _ _ h.documents
    · intro self left h
      exact hpositive.docSet.current _ _ h.documents
    · intro self left h
      obtain ⟨hrest, hreply⟩ := hpositive.docSet.advance _ _ h.documents
      obtain ⟨negativeLeft, hleft, hsame⟩ := h.hits
      refine ⟨⟨hrest, negativeLeft, hleft, ?_⟩, hreply⟩
      exact fun doc hdoc => hsame doc (List.mem_of_mem_tail hdoc)
    · intro self left target h hforward
      obtain ⟨hrest, hreply⟩ :=
        hpositive.docSet.seek _ _ target h.documents hforward
      obtain ⟨negativeLeft, hleft, hsame⟩ := h.hits
      refine ⟨⟨hrest, negativeLeft, hleft, ?_⟩, hreply⟩
      exact fun doc hdoc => hsame doc ((List.dropWhile_sublist _).mem hdoc)
  · intro self left h
    exact (h.score hpositive hnegative hbelow).2

-- ================================================================= the runs

/-- The replies of the positive scorer, the scores of negative matches
demoted. -/
def demotedReplies (positive : Scorer σ) (negatives : List DocId)
    (negativeBoost : F32) (state : σ) : List ScorerCall → List Reply
  | [] => []
  | call :: calls =>
      (match (callScorer positive state call).1 with
        | .doc doc => .doc doc
        | .score score =>
            if positive.current state ∈ negatives then
              .score (F32Mul.mul score negativeBoost)
            else .score score)
        :: demotedReplies positive negatives negativeBoost
            (callScorer positive state call).2 calls

/-- The replies of a demotion in any state of a run. -/
theorem replies_demote (hpositive : LawfulScorer positive Positive)
    (hnegative : negative.Lawful terminated Negative)
    {negatives left : List DocId}
    (hbelow : ∀ doc ∈ negatives, doc < terminated)
    {self : DemoteScorer σ τ}
    (h : Demoting Positive Negative negatives self left)
    {calls : List ScorerCall}
    (hseeks : SeeksForward (DemoteScorer.scorer positive negative) self calls) :
    replies (DemoteScorer.scorer positive negative) self calls
      = demotedReplies positive negatives self.negativeBoost self.positive
          calls := by
  have hlaw := lawful_demote hpositive hnegative hbelow
  induction calls generalizing self left with
  | nil => rfl
  | cons call calls ih =>
      obtain ⟨hforward, hseeks⟩ := hseeks
      cases call with
      | advance =>
          have hrest := ih (hlaw.docSet.advance _ _ h).1 hseeks
          unfold replies demotedReplies
          dsimp only [callScorer]
          rw [hrest]
          rfl
      | seek target =>
          have hnext := hlaw.docSet.seek _ _ target h (hforward target rfl)
          have hrest := ih hnext.1 hseeks
          unfold replies demotedReplies
          dsimp only [callScorer]
          rw [hrest]
          rfl
      | score =>
          obtain ⟨hreply, hnext⟩ := h.score hpositive hnegative hbelow
          have hrest := ih hnext hseeks
          unfold replies demotedReplies
          dsimp only [callScorer]
          rw [hrest, hreply]
          congr 1
          split <;> rfl

/-- Demotion is exact. Over scorers that keep to the contract, for any
calls that never seek backwards: the scorer of a demotion replies as its
positive scorer does, but for the scores of the documents in the negative
set, which come back multiplied, however often and whenever they are
asked for; and it visits the positive scorer's documents. -/
theorem demotion_exact (hpositive : LawfulScorer positive Positive)
    (hnegative : negative.Lawful terminated Negative) {state : σ} {other : τ}
    {documents negatives : List DocId} (hdocuments : Positive state documents)
    (hnegatives : Negative other negatives) (negativeBoost : F32) :
    (∀ calls, SeeksForward (DemoteScorer.scorer positive negative)
          ⟨state, other, negativeBoost⟩ calls →
        replies (DemoteScorer.scorer positive negative)
            ⟨state, other, negativeBoost⟩ calls
          = demotedReplies positive negatives negativeBoost state calls)
      ∧ ∀ n, documents.length ≤ n →
          (DemoteScorer.scorer positive negative).visits terminated n
            ⟨state, other, negativeBoost⟩ = documents := by
  have hbelow := hnegative.below _ _ hnegatives
  have hstart : Demoting Positive Negative negatives
      ⟨state, other, negativeBoost⟩ documents :=
    ⟨hdocuments, negatives, hnegatives, fun _ _ => Iff.rfl⟩
  constructor
  · intro calls hseeks
    exact replies_demote hpositive hnegative hbelow hstart hseeks
  · intro n hn
    exact (lawful_demote hpositive hnegative hbelow).docSet.visits_eq hstart hn

end

/-- A constant scorer over some documents. -/
def constOver (docs : List DocId) (score : F32) : ConstScorer where
  docset := .new docs
  score := score

/-- Multiplication by one. -/
@[reducible] def unitMul : F32Mul := ⟨fun x y => if x = F32.one then y else x⟩

/-- Documents 1, 3 and 5 score one, 3 and 4 are negative; 3 is scored
twice and 1 is left out. -/
theorem demotion_exact_three :
    replies (@DemoteScorer.scorer unitMul _ _ ConstScorer.scorer
          ConstScorer.scorer.toDocSet)
        ⟨constOver [1, 3, 5] F32.one, constOver [3, 4] F32.one, F32.half⟩
        [.advance, .score, .score, .seek 4, .score, .advance, .score]
      = [.doc 3, .score F32.half, .score F32.half, .doc 5, .score F32.one,
          .doc terminated, .score F32.one] := by
  have h := (@demotion_exact _ _ ConstScorer.scorer ConstScorer.scorer.toDocSet
    _ _ unitMul lawful_constScorer lawful_constScorer.docSet
    (constOver [1, 3, 5] F32.one) (constOver [3, 4] F32.one) _ _
    (@sortedLeft_new [1, 3, 5] (by decide) (by decide))
    (@sortedLeft_new [3, 4] (by decide) (by decide)) F32.half).1
    [.advance, .score, .score, .seek 4, .score, .advance, .score]
  rw [h]
  · decide
  · refine ⟨?_, ?_, ?_, ?_, ?_, ?_, ?_, trivial⟩
    all_goals
      intro target htarget
      cases htarget
    decide

end PaimonFtindex.Proofs

/-
Searching a sorted list of words with an automaton that can give up.

The search walks the words as a trie: it follows a word letter by letter
and leaves it as soon as the automaton says that nothing can match any
more (`visits`). When giving up is sound, nothing is lost: the words
found are the words the automaton accepts (`visits_eq`), and the walk
over the trie yields them in the order of the list (`search_eq`).
-/
import Mathlib.Data.List.Basic

namespace PaimonFtindex.Lib

/-- A deterministic automaton over letters `β`. -/
structure Automaton (σ β : Type) where
  start : σ
  isMatch : σ → Bool
  canMatch : σ → Bool
  accept : σ → β → σ

namespace Automaton

variable {σ β : Type} (A : Automaton σ β)

/-- The state after a word. -/
def run (s : σ) (word : List β) : σ := word.foldl A.accept s

/-- Whether a search that starts in `s` gets to the end of the word and
finds a match there. -/
def visits : σ → List β → Bool
  | s, [] => A.isMatch s
  | s, b :: word => A.canMatch s && visits (A.accept s b) word

/-- Once the automaton gives up, no continuation matches. -/
def SoundPruning : Prop :=
  ∀ s word, A.canMatch s = false → A.isMatch (A.run s word) = false

variable {A}

/-- Sound pruning loses nothing. -/
theorem visits_eq (h : A.SoundPruning) (s : σ) (word : List β) :
    A.visits s word = A.isMatch (A.run s word) := by
  induction word generalizing s with
  | nil => rfl
  | cons b word ih =>
      rw [visits, ih]
      cases hs : A.canMatch s with
      | true => rfl
      | false =>
          rw [Bool.false_and]
          exact (h s (b :: word) hs).symm

/-- Pruning is sound when giving up is for good and never a match. -/
theorem soundPruning_of_absorbing
    (hstep : ∀ s b, A.canMatch s = false → A.canMatch (A.accept s b) = false)
    (hdead : ∀ s, A.canMatch s = false → A.isMatch s = false) :
    A.SoundPruning := by
  intro s word hs
  induction word generalizing s with
  | nil => exact hdead s hs
  | cons b word ih => exact ih (A.accept s b) (hstep s b hs)

end Automaton

-- ============================================================== the tries

mutual

/-- A set of words, branching at their letters. -/
inductive Trie (β : Type) where
  | node (isFinal : Bool) (branches : Branches β)

inductive Branches (β : Type) where
  | nil
  | cons (letter : β) (child : Trie β) (rest : Branches β)

end

variable {σ β : Type}

mutual

/-- The words of a trie, in the order of its branches. -/
def Trie.words : Trie β → List (List β)
  | .node isFinal branches =>
      (if isFinal then [[]] else []) ++ branches.words

def Branches.words : Branches β → List (List β)
  | .nil => []
  | .cons letter child rest => child.words.map (letter :: ·) ++ rest.words

end

mutual

/-- The words found by walking the trie from a state: a node whose state
cannot match any more is not descended from. -/
def Trie.search (A : Automaton σ β) (s : σ) : Trie β → List (List β)
  | .node isFinal branches =>
      (if isFinal && A.isMatch s then [[]] else [])
        ++ if A.canMatch s then branches.search A s else []

def Branches.search (A : Automaton σ β) (s : σ) : Branches β → List (List β)
  | .nil => []
  | .cons letter child rest =>
      (child.search A (A.accept s letter)).map (letter :: ·)
        ++ rest.search A s

end

mutual

/-- The walk yields the words it gets to the end of. -/
theorem Trie.search_eq_visits (A : Automaton σ β) (s : σ) :
    (t : Trie β) → t.search A s = t.words.filter (A.visits s)
  | .node isFinal branches => by
      rw [Trie.search, Trie.words, List.filter_append,
        branches.search_eq_visits A s]
      cases isFinal with
      | false => rfl
      | true =>
          cases hmatch : A.isMatch s <;> simp [Automaton.visits, hmatch]

theorem Branches.search_eq_visits (A : Automaton σ β) (s : σ) :
    (b : Branches β) →
      (if A.canMatch s then b.search A s else []) = b.words.filter (A.visits s)
  | .nil => by simp [Branches.search, Branches.words]
  | .cons letter child rest => by
      have hrest := rest.search_eq_visits A s
      have hchild := child.search_eq_visits A (A.accept s letter)
      rw [Branches.words, List.filter_append, List.filter_map, ← hrest]
      cases hs : A.canMatch s with
      | true =>
          have hvisits : A.visits s ∘ (letter :: ·)
              = A.visits (A.accept s letter) := by
            funext word
            simp [Automaton.visits, hs]
          rw [Branches.search, hvisits, hchild]
          rfl
      | false =>
          have hvisits : A.visits s ∘ (letter :: ·) = fun _ => false := by
            funext word
            simp [Automaton.visits, hs]
          rw [hvisits]
          simp

end

/-- With sound pruning the walk yields the accepted words, in order. -/
theorem Trie.search_eq {A : Automaton σ β} (h : A.SoundPruning) (t : Trie β) :
    t.search A A.start
      = t.words.filter fun word => A.isMatch (A.run A.start word) := by
  rw [Trie.search_eq_visits]
  congr 1
  funext word
  exact Automaton.visits_eq h A.start word

end PaimonFtindex.Lib

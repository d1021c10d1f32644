/-
What the prefixed fuzzy automaton finds in a dictionary.

`LawfulDfa` is what is relied on of a Levenshtein automaton: the sink
state is never left and never a match, and it accepts exactly the words
within its distance. Under it the search finds a key when the automaton
accepts the key and the key starts with the prefix (`finds_iff`).
-/
import PaimonFtindex.Model.Weight

namespace PaimonFtindex.Proofs

open Model Lib

/-- The state of the automaton after a word. -/
def dfaRun (dfa : LevenshteinDfa) (word : List UInt8) : UInt32 :=
  word.foldl dfa.transition dfa.initialState

/-- `accepts` says which words the automaton is for. -/
structure LawfulDfa (dfa : LevenshteinDfa) (accepts : List UInt8 → Prop) :
    Prop where
  sink_transition : ∀ byte, dfa.transition sinkState byte = sinkState
  sink_distance : (dfa.distance sinkState).isExact = false
  exact_iff : ∀ word, (dfa.distance (dfaRun dfa word)).isExact = true
    ↔ accepts word

variable {self : PrefixedDfaAutomaton}

-- =============================================================== the prefix

/-- The prefix state after a word. -/
def prefixRun (self : PrefixedDfaAutomaton) (state : Option Nat)
    (word : List UInt8) : Option Nat :=
  word.foldl (fun state byte => self.prefixState byte state) state

@[simp] theorem prefixRun_none (word : List UInt8) :
    prefixRun self none word = none := by
  induction word with
  | nil => rfl
  | cons byte word ih => exact ih

/-- A finished prefix stays finished. -/
theorem prefixRun_done {pos : Nat} (h : self.pre.length ≤ pos)
    (word : List UInt8) : prefixRun self (some pos) word = some pos := by
  induction word with
  | nil => rfl
  | cons byte word ih =>
      have hstep : self.prefixState byte (some pos) = some pos := by
        rw [PrefixedDfaAutomaton.prefixState, dif_neg (by omega)]
      show prefixRun self (self.prefixState byte (some pos)) word = some pos
      rw [hstep, ih]

/-- The rest of the prefix has been read exactly when the word starts
with it. -/
theorem prefixRun_iff {pos : Nat} (h : pos ≤ self.pre.length)
    (word : List UInt8) :
    (∃ p, prefixRun self (some pos) word = some p ∧ self.pre.length ≤ p)
      ↔ self.pre.drop pos <+: word := by
  induction word generalizing pos with
  | nil =>
      rw [List.prefix_nil, List.drop_eq_nil_iff]
      constructor
      · intro hp
        obtain ⟨p, hp, hle⟩ := hp
        cases hp
        exact hle
      · intro hle
        exact ⟨pos, rfl, hle⟩
  | cons byte word ih =>
      by_cases hdone : self.pre.length ≤ pos
      · rw [prefixRun_done hdone, List.drop_eq_nil_of_le hdone]
        simp [hdone]
      · have hlt : pos < self.pre.length := by omega
        rw [List.drop_eq_getElem_cons hlt, List.cons_prefix_cons]
        show (∃ p, prefixRun self (self.prefixState byte (some pos)) word
          = some p ∧ _) ↔ _
        rw [PrefixedDfaAutomaton.prefixState, dif_pos hlt]
        by_cases hbyte : self.pre[pos] = byte
        · rw [if_pos hbyte, ih (by omega)]
          simp [hbyte]
        · rw [if_neg hbyte, prefixRun_none]
          simp [hbyte]

-- ============================================================ the automaton

/-- The two components run side by side. -/
theorem automaton_run (s : UInt32 × Option Nat) (word : List UInt8) :
    self.automaton.run s word
      = (word.foldl self.dfa.transition s.1, prefixRun self s.2 word) := by
  induction word generalizing s with
  | nil => rfl
  | cons byte word ih => exact ih _

/-- A dead automaton stays dead and never matches. -/
theorem soundPruning {accepts : List UInt8 → Prop}
    (h : LawfulDfa self.dfa accepts) : self.automaton.SoundPruning := by
  have hdead : ∀ s : UInt32 × Option Nat, self.automaton.canMatch s = false ↔
      s.1 = sinkState ∨ s.2 = none := by
    intro s
    obtain ⟨state, pos⟩ := s
    cases pos <;> simp [PrefixedDfaAutomaton.automaton]
  apply Automaton.soundPruning_of_absorbing
  · intro s byte hs
    rw [hdead] at hs ⊢
    rcases hs with hsink | hnone
    · left
      show self.dfa.transition s.1 byte = sinkState
      rw [hsink, h.sink_transition]
    · right
      show self.prefixState byte s.2 = none
      rw [hnone]
      rfl
  · intro s hs
    rcases (hdead s).mp hs with hsink | hnone
    · show ((self.dfa.distance s.1).isExact && _) = false
      rw [hsink, h.sink_distance, Bool.false_and]
    · obtain ⟨state, pos⟩ := s
      cases hnone
      exact Bool.and_false _

/-- Running over a word ends in a matching state. -/
def accepted (self : PrefixedDfaAutomaton) (word : List UInt8) : Bool :=
  self.automaton.isMatch (self.automaton.run self.automaton.start word)

/-- That is: the word starts with the prefix, and the automaton accepts
it. -/
theorem accepted_iff {word : List UInt8} :
    accepted self word = true
      ↔ self.pre <+: word
        ∧ (self.dfa.distance (dfaRun self.dfa word)).isExact = true := by
  have hprefix := @prefixRun_iff self 0 (Nat.zero_le _) word
  rw [List.drop_zero] at hprefix
  unfold accepted
  rw [automaton_run, ← hprefix]
  unfold PrefixedDfaAutomaton.automaton
  dsimp only
  rw [Bool.and_eq_true, and_comm]
  apply and_congr_left
  intro _
  cases prefixRun self (some 0) word with
  | none => simp
  | some pos => simp

/-- The search finds the accepted keys. -/
theorem finds_eq {accepts : List UInt8 → Prop}
    (h : LawfulDfa self.dfa accepts) (key : List UInt8) :
    self.finds key = accepted self key :=
  Automaton.visits_eq (soundPruning h) _ key

/-- The search finds the accepted keys that start with the prefix. -/
theorem finds_iff {accepts : List UInt8 → Prop}
    (h : LawfulDfa self.dfa accepts) {key : List UInt8} :
    self.finds key = true ↔ accepts key ∧ self.pre <+: key := by
  rw [finds_eq h, accepted_iff, h.exact_iff, and_comm]

/-- The prefix state never points behind the prefix. -/
theorem prefixRun_le {pos p : Nat} (h : pos ≤ self.pre.length)
    {word : List UInt8} (hp : prefixRun self (some pos) word = some p) :
    p ≤ self.pre.length := by
  induction word generalizing pos with
  | nil =>
      cases hp
      exact h
  | cons byte word ih =>
      change prefixRun self (self.prefixState byte (some pos)) word = some p at hp
      rw [PrefixedDfaAutomaton.prefixState] at hp
      split at hp
      · split at hp
        · exact ih (by omega) hp
        · rw [prefixRun_none] at hp
          cases hp
      · exact ih h hp

-- =============================================================== the prefix

/-- The bytes of the first characters start the bytes of the token. -/
theorem utf8_takeChars_prefix (n : Nat) (token : String) :
    utf8 (takeChars n token) <+: utf8 token := by
  have hsplit : takeChars n token ++ String.ofList (token.toList.drop n)
      = token := by
    unfold takeChars
    rw [← String.ofList_append, List.take_append_drop, String.ofList_toList]
  have hbytes : utf8 token = utf8 (takeChars n token)
      ++ utf8 (String.ofList (token.toList.drop n)) := by
    conv_lhs => rw [← hsplit]
    unfold utf8
    simp [String.toByteArray_append]
  rw [hbytes]
  exact List.prefix_append _ _

-- ========================================================== a query's terms

/-- The automaton of a fuzzy token is exact. For every token whose
fuzziness comes to one or two edits, the query is a capped automaton
that accepts a word exactly when it starts with the bytes of the token's
first characters and is within the distance; once it gives up no longer
word is accepted; so a search of a dictionary, as a walk or as a stream
of its terms, yields the accepted terms in order; and the place in the
prefix stays inside the prefix. -/
theorem prefixed_fuzzy_exact {P : Type} (library : SearchLibrary P)
    (field : Field) (token : String) (fuzziness : Option UInt8)
    {distance : UInt8} (cap : UInt64) (prefixLength : UInt32)
    (hfuzziness : fuzziness.getD (autoFuzziness token) = distance)
    (hdistance : distance = 1 ∨ distance = 2) {within : List UInt8 → Prop}
    (hdfa : LawfulDfa (library.buildDfa distance true token) within) :
    ∃ (query : TantivyQuery P) (automaton : PrefixedDfaAutomaton),
      buildTokenQuery field token fuzziness cap prefixLength = .ok query
        ∧ (∀ scoring, query.weight library scoring
            = .cappedAutomaton ⟨field, automaton, cap⟩)
        ∧ (∀ word, accepted automaton word = true
          ↔ utf8 (String.ofList (token.toList.take prefixLength.toNat)) <+: word
            ∧ within word)
        ∧ (∀ word more,
            automaton.automaton.canMatch (automaton.automaton.run
              automaton.automaton.start word) = false →
            accepted automaton (word ++ more) = false)
        ∧ (∀ trie : Trie UInt8,
            trie.search automaton.automaton automaton.automaton.start
              = trie.words.filter (accepted automaton))
        ∧ (∀ index, automaton.search index
            = index.terms.filter fun entry => accepted automaton entry.key)
        ∧ ∀ word pos,
            (automaton.automaton.run automaton.automaton.start word).2 = some pos →
            pos ≤ automaton.pre.length := by
  have hsound := @soundPruning
    ⟨library.buildDfa distance true token, utf8 (takeChars prefixLength.toNat token)⟩
    within hdfa
  have hbuild : (buildTokenQuery field token fuzziness cap prefixLength :
      Result (TantivyQuery P)) = .ok (.cappedFuzzyTerm ⟨field, token⟩ distance
        (takeChars prefixLength.toNat token) cap) := by
    unfold buildTokenQuery
    rw [hfuzziness]
    rcases hdistance with rfl | rfl <;> rfl
  refine ⟨_, _, hbuild, fun scoring => rfl, ?_, ?_, ?_, ?_, ?_⟩
  · intro word
    rw [accepted_iff, hdfa.exact_iff]
    rfl
  · intro word more hdead
    unfold accepted
    rw [Automaton.run, List.foldl_append]
    exact hsound _ more hdead
  · intro trie
    exact Trie.search_eq hsound trie
  · intro index
    unfold PrefixedDfaAutomaton.search
    congr 1
    funext entry
    exact finds_eq hdfa entry.key
  · intro word pos hpos
    rw [automaton_run] at hpos
    exact prefixRun_le (Nat.zero_le _) hpos

/-- An automaton that counts substitutions. On words as long as its own
that is the edit distance, as long as no transposition is shorter. -/
def substitutionDfa (distance : UInt8) (word : List UInt8) : LevenshteinDfa where
  initialState := 1
  transition state byte :=
    if state = 0 then 0
    else
      let pos := (state.toNat - 1) / 3
      let errors := (state.toNat - 1) % 3
      match word[pos]? with
      | none => 0
      | some expected =>
          let errors := if expected = byte then errors else errors + 1
          if distance.toNat < errors then 0
          else UInt32.ofNat (1 + 3 * (pos + 1) + errors)
  distance state :=
    if state ≠ 0 ∧ (state.toNat - 1) / 3 = word.length then
      .exact (UInt8.ofNat ((state.toNat - 1) % 3))
    else .atLeast (distance + 1)

def substitutionLibrary : SearchLibrary String where
  tokenTexts _ text := [text]
  parseQuery _ text := .ok text
  buildDfa distance _ word := substitutionDfa distance (utf8 word)
  parsedMatches _ _ _ := false
  score _ _ _ := F32.one

/-- Substitutions in "äbc" behind its first character, two bytes wide. -/
theorem prefixed_fuzzy_exact_accent :
    ∃ (query : TantivyQuery String) (automaton : PrefixedDfaAutomaton),
      buildTokenQuery 1 "äbc" (some 1) 50 1 = .ok query
        ∧ (∀ scoring, query.weight substitutionLibrary scoring
            = .cappedAutomaton ⟨1, automaton, 50⟩)
        ∧ accepted automaton (utf8 "äbd") = true
        ∧ accepted automaton (utf8 "åbc") = false := by
  obtain ⟨query, automaton, hquery, hweight, haccepted, -⟩ :=
    @prefixed_fuzzy_exact String substitutionLibrary 1 "äbc" (some 1) 1 50 1 rfl
      (.inl rfl)
      (fun word => ((substitutionDfa 1 (utf8 "äbc")).distance
        (dfaRun (substitutionDfa 1 (utf8 "äbc")) word)).isExact = true)
      ⟨fun _ => rfl, rfl, fun _ => Iff.rfl⟩
  refine ⟨query, automaton, hquery, hweight, ?_, ?_⟩
  · rw [haccepted]
    decide +kernel
  · rw [← Bool.not_eq_true, haccepted]
    decide +kernel

end PaimonFtindex.Proofs

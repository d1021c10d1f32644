/-
The text of a phrase cannot leave its quotes.

`readPhrase` is the query grammar of a double-quoted phrase: inside the
quotes a backslash makes the next character literal and the first other
quote closes; a slop may follow. Escaping backslashes first and quotes
second is escaping character by character (`replaceChar_replaceChar`),
so the grammar reads the text of a phrase back as its terms and its slop
(`readPhrase_phraseText`), and two phrases never share a text.
-/
import PaimonFtindex.Lib.Outcome
import PaimonFtindex.Model.BuildQuery

namespace PaimonFtindex.Proofs

open Model Lib

-- =========================================================== the grammar

/-- The rest of a literal: its characters, and what follows its closing
quote. -/
def readQuoted : List Char → Option (List Char × List Char)
  | [] => none
  | '"' :: rest => some ([], rest)
  | ['\\'] => none
  | '\\' :: c :: rest => (readQuoted rest).map fun r => (c :: r.1, r.2)
  | c :: rest => (readQuoted rest).map fun r => (c :: r.1, r.2)

/-- An optional slop, up to the end of the input. -/
def readSlop : List Char → Option Nat
  | [] => some 0
  | '~' :: digits => if digits.isEmpty then none else digitsValue digits
  | _ => none

/-- One literal and its slop, with nothing left over. -/
def readPhrase (query : String) : Option (String × Nat) :=
  match query.toList with
  | '"' :: rest => do
      let (terms, rest) ← readQuoted rest
      return (String.ofList terms, ← readSlop rest)
  | _ => none

-- ========================================================== the escaping

/-- A character as it is written between quotes. -/
def escapeChar (c : Char) : List Char :=
  if c = '\\' then ['\\', '\\']
  else if c = '"' then ['\\', '"']
  else [c]

/-- A character stands behind a backslash, or is none that needs it. -/
theorem escapeChar_cases (c : Char) :
    escapeChar c = ['\\', c]
      ∨ (escapeChar c = [c] ∧ c ≠ '\\' ∧ c ≠ '"') := by
  unfold escapeChar
  by_cases hbackslash : c = '\\'
  · rw [if_pos hbackslash, hbackslash]
    exact .inl rfl
  · by_cases hquote : c = '"'
    · rw [if_neg hbackslash, if_pos hquote, hquote]
      exact .inl rfl
    · rw [if_neg hbackslash, if_neg hquote]
      exact .inr ⟨rfl, hbackslash, hquote⟩

/-- Escaping backslashes and then quotes escapes each character. -/
theorem escapes_char (c : Char) :
    (if c = '\\' then "\\\\".toList else [c]).flatMap
        (fun d => if d = '"' then "\\\"".toList else [d]) = escapeChar c := by
  unfold escapeChar
  by_cases hbackslash : c = '\\'
  · rw [if_pos hbackslash, if_pos hbackslash]
    rfl
  · rw [if_neg hbackslash, if_neg hbackslash, List.flatMap_singleton]
    rfl

/-- The two replacements, one after the other, escape every character. -/
theorem replaceChar_replaceChar (terms : String) :
    (replaceChar (replaceChar terms '\\' "\\\\") '"' "\\\"").toList
      = terms.toList.flatMap escapeChar := by
  unfold replaceChar
  simp only [String.toList_ofList, List.flatMap_assoc]
  apply List.flatMap_congr
  intro c _
  exact escapes_char c

/-- The grammar reads escaped characters back, up to the quote behind
them. -/
theorem readQuoted_escaped (cs rest : List Char) :
    readQuoted (cs.flatMap escapeChar ++ '"' :: rest) = some (cs, rest) := by
  induction cs with
  | nil => rw [List.flatMap_nil, List.nil_append, readQuoted]
  | cons c cs ih =>
      rw [List.flatMap_cons, List.append_assoc]
      rcases escapeChar_cases c with hc | ⟨hc, hbackslash, hquote⟩
      · rw [hc]
        simp [readQuoted, ih]
      · rw [hc]
        simp [readQuoted, hbackslash, ih]

-- ============================================================== the slop

theorem digitValue_of_isDigit {c : Char} (h : c.isDigit = true) :
    digitValue c = some (c.toNat - '0'.toNat) := by
  unfold digitValue
  rw [if_pos]
  unfold Char.isDigit at h
  simpa [Char.le_def] using h

theorem digitsValue_of_isDigit {cs : List Char} (n : Nat)
    (h : ∀ c ∈ cs, c.isDigit = true) :
    cs.foldlM (fun n c => (digitValue c).map (n * 10 + ·)) n
      = some (Nat.ofDigitChars 10 cs n) := by
  induction cs generalizing n with
  | nil => rfl
  | cons c cs ih =>
      rw [List.forall_mem_cons] at h
      rw [List.foldlM_cons, digitValue_of_isDigit h.1, Nat.ofDigitChars_cons,
        Nat.mul_comm 10 n]
      exact ih _ h.2

/-- A number is read back from its decimal digits. -/
theorem readSlop_repr (n : Nat) : readSlop ('~' :: n.repr.toList) = some n := by
  rw [Nat.toList_repr]
  have hdigits : ∀ c ∈ Nat.toDigits 10 n, c.isDigit = true := fun c hc =>
    Nat.isDigit_of_mem_toDigits (by decide) (by decide) hc
  have hvalue : digitsValue (Nat.toDigits 10 n) = some n := by
    unfold digitsValue
    rw [digitsValue_of_isDigit 0 hdigits, Nat.ofDigitChars_ten_toDigits]
  have hne : (Nat.toDigits 10 n).isEmpty = false := by
    rw [List.isEmpty_eq_false_iff]
    exact Nat.toDigits_ne_nil
  show (if (Nat.toDigits 10 n).isEmpty = true then none
    else digitsValue (Nat.toDigits 10 n)) = some n
  rw [hne, hvalue]
  rfl

-- ======================================================== the whole phrase

/-- What the parser is handed: the escaped terms between quotes, and the
slop unless it is zero. -/
theorem toList_phraseText (terms : String) (slop : UInt32) :
    (phraseText terms slop).toList
      = '"' :: (terms.toList.flatMap escapeChar ++ '"' ::
          if slop = 0 then [] else '~' :: slop.toNat.repr.toList) := by
  have hquote : (toString "\"").toList = ['"'] := rfl
  have htilde : (toString "\"~").toList = ['"', '~'] := rfl
  have hslop : toString slop = slop.toNat.repr := rfl
  have hescaped : (toString (replaceChar (replaceChar terms '\\' "\\\\") '"'
      "\\\"")).toList = terms.toList.flatMap escapeChar :=
    replaceChar_replaceChar terms
  unfold phraseText
  by_cases h : slop = 0
  · simp [h, hquote, hescaped, String.toList_append]
  · simp [h, hquote, htilde, hslop, hescaped, String.toList_append]

/-- The text of a phrase is read back as the phrase. -/
theorem readPhrase_phraseText (terms : String) (slop : UInt32) :
    readPhrase (phraseText terms slop) = some (terms, slop.toNat) := by
  unfold readPhrase
  rw [toList_phraseText]
  show (do
    let (terms, rest) ← readQuoted (terms.toList.flatMap escapeChar ++ '"' ::
      if slop = 0 then [] else '~' :: slop.toNat.repr.toList)
    return (String.ofList terms, ← readSlop rest)) = some (terms, slop.toNat)
  rw [readQuoted_escaped]
  by_cases h : slop = 0
  · rw [if_pos h, h]
    simp [readSlop]
  · rw [if_neg h]
    dsimp only [bind, Option.bind]
    rw [readSlop_repr]
    simp

/-- Phrases of one text are one phrase. -/
theorem phraseText_inj {terms terms' : String} {slop slop' : UInt32}
    (h : phraseText terms slop = phraseText terms' slop') :
    terms = terms' ∧ slop = slop' := by
  have hread := readPhrase_phraseText terms slop
  rw [h, readPhrase_phraseText] at hread
  simp only [Option.some.injEq, Prod.mk.injEq] at hread
  exact ⟨hread.1.symm, UInt32.toNat_inj.mp hread.2.symm⟩

-- ============================================================= the queries

section
variable [F32Display] {P : Type} {index : Index} {config : FullTextIndexConfig}
  {library : QueryLibrary P}

/-- A phrase query is what the parser makes of its text. -/
theorem buildQuery_matchPhrase_eq_ok {column : Option String} {terms : String}
    {slop : UInt32} {query : TantivyQuery P} :
    buildQuery index config library (.matchPhrase column terms slop) = .ok query
      ↔ config.tokenizer.withPosition = true
        ∧ ∃ field parsed, resolveTextField index config column = .ok field
          ∧ library.parseQuery [field] (phraseText terms slop) = .ok parsed
          ∧ query = .parsed parsed := by
  rw [buildQuery]
  by_cases hposition : config.tokenizer.withPosition = true
  · rw [hposition]
    simp only [Bool.not_true, Bool.false_eq_true, if_false, true_and]
    rw [except_bind_eq_ok]
    apply exists_congr
    intro field
    cases hparse : library.parseQuery [field] (phraseText terms slop) with
    | ok parsed => simp [pure, Except.pure, @eq_comm _ query]
    | error message => simp [invalidQuery]
  · simp [hposition, invalidQuery]

end

/-- A phrase cannot leave its quotes: the text the parser is asked about
is one literal with the given terms and slop and nothing behind it, and
no other phrase has that text. -/
theorem phrase_stays_quoted [F32Display] {P : Type} (library : QueryLibrary P)
    (index : Index) (config : FullTextIndexConfig) (column : Option String)
    (terms : String) (slop : UInt32) :
    (∀ query,
      buildQuery index config library (.matchPhrase column terms slop)
          = .ok query
        ↔ config.tokenizer.withPosition = true
          ∧ ∃ field parsed, resolveTextField index config column = .ok field
            ∧ library.parseQuery [field] (phraseText terms slop) = .ok parsed
            ∧ query = .parsed parsed)
      ∧ readPhrase (phraseText terms slop) = some (terms, slop.toNat)
      ∧ ∀ terms' slop', phraseText terms' slop' = phraseText terms slop →
          terms' = terms ∧ slop' = slop := by
  refine ⟨?_, readPhrase_phraseText terms slop, ?_⟩
  · intro query
    exact buildQuery_matchPhrase_eq_ok
  · intro terms' slop' h
    exact phraseText_inj h

/-- A quote behind backslashes stays inside. -/
example : phraseText "a\\\"~9" 2 = "\"a\\\\\\\"~9\"~2" := by decide

end PaimonFtindex.Proofs

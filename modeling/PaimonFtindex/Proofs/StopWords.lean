/-
What becomes of a configured stop word.

The filters of `build_text_analyzer` are the length limit, the two that
rewrite a token, the stop words and the folding, in this order
(`filters_of_build`). So the stop words do not meet the word the base
tokenizer found, but its lower-cased stem (`rewritten`), while the
configured list is compared as it was written. `stop_word_removed_iff`
is the exact condition under which a listed word is removed.
-/
import PaimonFtindex.Lib.Outcome
import PaimonFtindex.Model.Analyzer

namespace PaimonFtindex.Proofs

open Model Lib

-- ============================================================ the filters

/-- The filters that rewrite a token in front of the stop words. -/
def rewriters (config : TokenizerConfig) (language : Language) :
    List TokenFilter :=
  (if config.lowerCase then [.lowerCaser] else [])
    ++ if config.stem then [.stemmer language] else []

/-- The lists of stop words a token is compared with. -/
def stopLists (library : AnalyzerLibrary) (config : TokenizerConfig)
    (language : Language) : List (List String) :=
  (library.stopWordFilterNew language).toList
    ++ if config.stopWords.isEmpty then [] else [config.stopWords]

section
variable [UnicodeCase] {library : AnalyzerLibrary} {config : TokenizerConfig}

theorem stopWordFilters_eq_ok {filters : List TokenFilter}
    (h : stopWordFilters library config = .ok filters) :
    ∃ language, parseLanguage config.language = .ok language
      ∧ filters = (stopLists library config language).map .stopWords := by
  unfold stopWordFilters at h
  obtain ⟨language, hlanguage, h⟩ := except_bind_eq_ok.mp h
  refine ⟨language, hlanguage, ?_⟩
  unfold stopLists
  cases hwords : library.stopWordFilterNew language with
  | some words =>
      rw [hwords] at h
      cases h
      by_cases hown : config.stopWords.isEmpty = true
      · simp [hown]
      · simp [hown]
  | none =>
      rw [hwords] at h
      by_cases hown : config.stopWords.isEmpty = true
      · simp only [hown, if_true] at h
        obtain ⟨_, hthrow, -⟩ := except_bind_eq_ok.mp h
        cases hthrow
      · simp only [hown] at h
        cases h
        simp [hown]

/-- The stages one after the other, for an analyzer that removes stop
words. -/
theorem buildTextAnalyzer_eq (hremove : config.removeStopWords = true) :
    buildTextAnalyzer library config = (do
      let base ← baseTokenizer library config
      let stems ← (if config.stem then
          (fun language => [TokenFilter.stemmer language])
            <$> parseLanguage config.language
        else pure [])
      let stops ← stopWordFilters library config
      return {
        base
        filters := [.removeLong config.maxTokenLength]
          ++ ((if config.lowerCase then [.lowerCaser] else []) ++ stems)
          ++ (stops ++ if config.asciiFolding then [.asciiFolding] else []) }) := by
  unfold buildTextAnalyzer
  rw [hremove]
  by_cases hlower : config.lowerCase = true
  · by_cases hstem : config.stem = true
    · by_cases hfold : config.asciiFolding = true
      · simp [hlower, hstem, hfold]
      · simp [hlower, hstem, hfold]
    · by_cases hfold : config.asciiFolding = true
      · simp [hlower, hstem, hfold]
      · simp [hlower, hstem, hfold]
  · by_cases hstem : config.stem = true
    · by_cases hfold : config.asciiFolding = true
      · simp [hlower, hstem, hfold]
      · simp [hlower, hstem, hfold]
    · by_cases hfold : config.asciiFolding = true
      · simp [hlower, hstem, hfold]
      · simp [hlower, hstem, hfold]

/-- The filters of an analyzer that removes stop words. -/
theorem filters_of_build {analyzer : TextAnalyzer}
    (h : buildTextAnalyzer library config = .ok analyzer)
    (hremove : config.removeStopWords = true) :
    ∃ language, parseLanguage config.language = .ok language
      ∧ analyzer.filters = [.removeLong config.maxTokenLength]
        ++ rewriters config language
        ++ ((stopLists library config language).map .stopWords
          ++ if config.asciiFolding then [.asciiFolding] else []) := by
  rw [buildTextAnalyzer_eq hremove] at h
  obtain ⟨base, -, h⟩ := except_bind_eq_ok.mp h
  obtain ⟨stems, hstems, h⟩ := except_bind_eq_ok.mp h
  obtain ⟨stops, hstops, h⟩ := except_bind_eq_ok.mp h
  cases h
  obtain ⟨language, hlanguage, rfl⟩ := stopWordFilters_eq_ok hstops
  refine ⟨language, hlanguage, ?_⟩
  have hstem : stems = if config.stem then [.stemmer language] else [] := by
    rw [hlanguage] at hstems
    by_cases hstem : config.stem = true
    · rw [if_pos hstem] at hstems ⊢
      cases hstems
      rfl
    · rw [if_neg hstem] at hstems ⊢
      cases hstems
      rfl
  rw [hstem]
  rfl

end

-- =============================================================== a word

section
variable {tokens : TokenLibrary} {config : TokenizerConfig}
  {language : Language}

/-- What a word has become when the stop words meet it. -/
def rewritten (tokens : TokenLibrary) (config : TokenizerConfig)
    (language : Language) (word : String) : String :=
  let lowered := if config.lowerCase then tokens.lowercased word else word
  if config.stem then tokens.stemmed language lowered else lowered

theorem run_rewriters (word : String) :
    run (TokenFilter.apply tokens) (rewriters config language) word
      = some (rewritten tokens config language word) := by
  unfold rewriters rewritten
  by_cases hlower : config.lowerCase = true
  · by_cases hstem : config.stem = true
    · simp [hlower, hstem, run_cons, TokenFilter.apply]
    · simp [hlower, hstem, run_cons, TokenFilter.apply]
  · by_cases hstem : config.stem = true
    · simp [hlower, hstem, run_cons, TokenFilter.apply]
    · simp [hlower, hstem]

/-- The stop words drop what one of their lists has. -/
theorem run_stopWords_eq_none {lists : List (List String)} {text : String} :
    run (TokenFilter.apply tokens) (lists.map .stopWords) text = none
      ↔ ∃ words ∈ lists, text ∈ words := by
  rw [run_eq_none_iff]
  · constructor
    · intro h
      obtain ⟨filter, hfilter, hdrop⟩ := h
      obtain ⟨words, hwords, rfl⟩ := List.mem_map.mp hfilter
      refine ⟨words, hwords, ?_⟩
      by_cases hmem : text ∈ words
      · exact hmem
      · simp [TokenFilter.apply, hmem] at hdrop
    · intro h
      obtain ⟨words, hwords, hmem⟩ := h
      refine ⟨.stopWords words, List.mem_map_of_mem hwords, ?_⟩
      simp [TokenFilter.apply, hmem]
  · intro filter hfilter
    obtain ⟨words, -, rfl⟩ := List.mem_map.mp hfilter
    by_cases hmem : text ∈ words
    · left
      simp [TokenFilter.apply, hmem]
    · right
      simp [TokenFilter.apply, hmem]

theorem isSome_run_folding (text : String) :
    (run (TokenFilter.apply tokens)
      (if config.asciiFolding then [.asciiFolding] else []) text).isSome := by
  by_cases hfold : config.asciiFolding = true
  · simp [hfold, run_cons, TokenFilter.apply]
  · simp [hfold]

/-- A word of at least the length limit is dropped, and so is one whose
rewritten form is a stop word; every other word comes out. -/
theorem filterText_eq_none_iff {library : AnalyzerLibrary}
    {analyzer : TextAnalyzer}
    (hfilters : analyzer.filters = [.removeLong config.maxTokenLength]
        ++ rewriters config language
        ++ ((stopLists library config language).map .stopWords
          ++ if config.asciiFolding then [.asciiFolding] else []))
    {word : String} :
    analyzer.filterText tokens word = none
      ↔ config.maxTokenLength.toNat ≤ word.utf8ByteSize
        ∨ ∃ words ∈ stopLists library config language,
          rewritten tokens config language word ∈ words := by
  unfold TextAnalyzer.filterText
  rw [hfilters, List.append_assoc, List.singleton_append, run_cons]
  by_cases hlong : word.utf8ByteSize < config.maxTokenLength.toNat
  · have hshort : TokenFilter.apply tokens (.removeLong config.maxTokenLength)
        word = some word := if_pos hlong
    rw [hshort, Option.bind_some, run_append_of_some (run_rewriters word),
      run_append_eq_none isSome_run_folding, run_stopWords_eq_none]
    simp [Nat.not_le.mpr hlong]
  · have hdrop : TokenFilter.apply tokens (.removeLong config.maxTokenLength)
        word = none := if_neg hlong
    rw [hdrop]
    simp [Nat.not_lt.mp hlong]

end

/-- Of the two lists, the configured one and that of the language. -/
def IsStopWord (library : AnalyzerLibrary) (config : TokenizerConfig)
    (language : Language) (word : String) : Prop :=
  word ∈ config.stopWords
    ∨ ∃ words, library.stopWordFilterNew language = some words ∧ word ∈ words

theorem isStopWord_iff {library : AnalyzerLibrary} {config : TokenizerConfig}
    {language : Language} {word : String} :
    IsStopWord library config language word
      ↔ ∃ words ∈ stopLists library config language, word ∈ words := by
  unfold IsStopWord stopLists
  by_cases hown : config.stopWords = []
  · simp [hown]
  · simp [hown, or_comm]

/-- An occurrence of a word, a configured stop word for one, leaves no
token exactly when the word is too long for one, or when lower-casing and
stemming, where they are on, turn it into a stop word. -/
theorem stop_word_removed_iff [UnicodeCase] (library : AnalyzerLibrary)
    (tokens : TokenLibrary) {config : TokenizerConfig}
    {analyzer : TextAnalyzer}
    (hbuild : buildTextAnalyzer library config = .ok analyzer)
    (hremove : config.removeStopWords = true) {word text : String}
    {before after : List String}
    (hbase : tokens.baseTexts analyzer.base text = before ++ word :: after) :
    analyzer.tokenTexts tokens text
        = before.filterMap (analyzer.filterText tokens)
          ++ after.filterMap (analyzer.filterText tokens)
      ↔ config.maxTokenLength.toNat ≤ word.utf8ByteSize
        ∨ ∃ language, parseLanguage config.language = .ok language
          ∧ IsStopWord library config language
              (rewritten tokens config language word) := by
  obtain ⟨language, hlanguage, hfilters⟩ := filters_of_build hbuild hremove
  unfold TextAnalyzer.tokenTexts
  rw [hbase, filterMap_without_iff, filterText_eq_none_iff hfilters,
    hlanguage]
  simp [isStopWord_iff]

-- ---------------------------------------------------- two listed words

/-- Tantivy's stop words, of which only English is asked for. -/
def englishWords : AnalyzerLibrary where
  ngramNew _ _ _ := .ok ()
  stopWordFilterNew _ := some
    ["a", "an", "and", "are", "as", "at", "be", "but", "by", "for", "if",
      "in", "into", "is", "it", "no", "not", "of", "on", "or", "such", "that",
      "the", "their", "then", "there", "these", "they", "this", "to", "was",
      "will", "with"]

/-- Words between blanks; the English stemmer on words whose stem is the
word or the word without its final `e`. -/
def englishTokens : TokenLibrary where
  baseTexts _ text :=
    (splitChars text [' ']).filter fun word => !word.isEmpty
  lowercased := asciiCase.toLowercase
  stemmed _ word :=
    match word.toList.reverse with
    | 'e' :: rest => String.ofList rest.reverse
    | _ => word
  folded word := word

/-- The default settings, with two words listed. -/
def listedConfig : TokenizerConfig := { stopWords := ["apache", "paimon"] }

def listedAnalyzer : TextAnalyzer where
  base := .simple
  filters :=
    [.removeLong 40, .lowerCaser, .stemmer .english,
      .stopWords ((englishWords.stopWordFilterNew .english).getD []),
      .stopWords ["apache", "paimon"], .asciiFolding]

/-- The stem of "paimon" is "paimon", which is listed. -/
theorem paimon_removed :
    listedAnalyzer.tokenTexts englishTokens "data paimon"
      = ["data"].filterMap (listedAnalyzer.filterText englishTokens)
        ++ [].filterMap (listedAnalyzer.filterText englishTokens) := by
  apply (@stop_word_removed_iff asciiCase englishWords englishTokens
    listedConfig listedAnalyzer (by rfl) rfl "paimon" "data paimon" ["data"]
    [] (by decide)).mpr
  right
  exact ⟨.english, by decide, .inl (by decide)⟩

/-- The stem of "apache" is not: a listed word comes out under the
default settings. -/
theorem listed_word_survives :
    @buildTextAnalyzer asciiCase englishWords listedConfig = .ok listedAnalyzer
      ∧ listedConfig.removeStopWords = true
      ∧ "apache" ∈ listedConfig.stopWords
      ∧ englishTokens.baseTexts listedAnalyzer.base "apache paimon"
        = [] ++ "apache" :: ["paimon"]
      ∧ listedAnalyzer.tokenTexts englishTokens "apache paimon"
        ≠ [].filterMap (listedAnalyzer.filterText englishTokens)
          ++ ["paimon"].filterMap (listedAnalyzer.filterText englishTokens) := by
  refine ⟨rfl, rfl, ?_, ?_, ?_⟩
  · decide
  · decide
  · decide

end PaimonFtindex.Proofs

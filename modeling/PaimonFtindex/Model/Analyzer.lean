/-
The text analyzer of an index (core/src/index.rs,
`build_text_analyzer`, `parse_language`): a base tokenizer and the
filters behind it, in the order a token meets them.

The tokenizers and filters are Tantivy's; the crate decides which ones
there are, in what order and with what arguments, and that is what is
modelled. `AnalyzerLibrary` answers the two questions Tantivy is asked
while the chain is built, and `TokenLibrary` does the work on a text that
is not just keeping or dropping a token.
-/
import PaimonFtindex.Lib.Pipeline
import PaimonFtindex.Model.Tokenizer

namespace PaimonFtindex.Model

open Lib

/-- `tantivy::tokenizer::Language`. -/
inductive Language where
  | arabic
  | danish
  | dutch
  | english
  | finnish
  | french
  | german
  | greek
  | hungarian
  | italian
  | norwegian
  | portuguese
  | romanian
  | russian
  | spanish
  | swedish
  | tamil
  | turkish
  deriving DecidableEq, Repr

/-- `parse_language`. -/
def parseLanguage [UnicodeCase] (language : String) : Result Language :=
  match UnicodeCase.toLowercase (trim language) with
  | "arabic" => .ok .arabic
  | "danish" => .ok .danish
  | "dutch" => .ok .dutch
  | "english" | "en" => .ok .english
  | "finnish" => .ok .finnish
  | "french" | "fr" => .ok .french
  | "german" | "de" => .ok .german
  | "greek" => .ok .greek
  | "hungarian" => .ok .hungarian
  | "italian" | "it" => .ok .italian
  | "norwegian" => .ok .norwegian
  | "portuguese" | "pt" => .ok .portuguese
  | "romanian" => .ok .romanian
  | "russian" | "ru" => .ok .russian
  | "spanish" | "es" => .ok .spanish
  | "swedish" => .ok .swedish
  | "tamil" => .ok .tamil
  | "turkish" => .ok .turkish
  | other =>
      .error (.invalidOption "language"
        s!"unsupported tokenizer language '{other}'")

inductive BaseTokenizer where
  | simple
  | whitespace
  | raw
  | ngram (minGram maxGram : UInt64) (prefixOnly : Bool)
  | jieba (searchMode ordinalPosition : Bool)
  | icu (simpleSplit : Bool)
  deriving DecidableEq, Repr

inductive TokenFilter where
  | removeLong (limit : UInt64)
  | lowerCaser
  | stemmer (language : Language)
  | stopWords (words : List String)
  | asciiFolding
  deriving DecidableEq, Repr

/-- `TextAnalyzer`. -/
structure TextAnalyzer where
  base : BaseTokenizer
  filters : List TokenFilter
  deriving DecidableEq, Repr

/-- What Tantivy answers while an analyzer is built: whether it takes
the gram sizes, and the stop words it has for a language. -/
structure AnalyzerLibrary where
  ngramNew : UInt64 → UInt64 → Bool → Except TantivyError Unit
  stopWordFilterNew : Language → Option (List String)

/-- The tokenizer `match` of `build_text_analyzer`. -/
def baseTokenizer (library : AnalyzerLibrary) (config : TokenizerConfig) :
    Result BaseTokenizer :=
  match config.tokenizer with
  | .default | .simple => .ok .simple
  | .whitespace => .ok .whitespace
  | .raw => .ok .raw
  | .ngram =>
      match library.ngramNew config.ngramMinGram config.ngramMaxGram
          config.ngramPrefixOnly with
      | .ok () => .ok (.ngram config.ngramMinGram config.ngramMaxGram
          config.ngramPrefixOnly)
      | .error e => .error (.invalidOption "ngram" e.message)
  | .jieba =>
      .ok (.jieba config.jiebaSearchMode config.jiebaOrdinalPosition)
  | .icu => .ok (.icu false)
  | .icuSplit => .ok (.icu true)

/-- The `remove_stop_words` branch: Tantivy's words for the language,
then the configured ones; a language without words needs some. -/
def stopWordFilters [UnicodeCase] (library : AnalyzerLibrary)
    (config : TokenizerConfig) : Result (List TokenFilter) := do
  let language ← parseLanguage config.language
  let own : List TokenFilter :=
    if config.stopWords.isEmpty then [] else [.stopWords config.stopWords]
  match library.stopWordFilterNew language with
  | some words => return .stopWords words :: own
  | none =>
      if config.stopWords.isEmpty then
        throw (.invalidOption "language"
          s!"removing stop words for language '{config.language}' is not supported")
      return own

/-- `build_text_analyzer`. -/
def buildTextAnalyzer [UnicodeCase] (library : AnalyzerLibrary)
    (config : TokenizerConfig) : Result TextAnalyzer := do
  let base ← baseTokenizer library config
  let mut filters : List TokenFilter := [.removeLong config.maxTokenLength]
  if config.lowerCase then
    filters := filters ++ [.lowerCaser]
  if config.stem then
    filters := filters ++ [.stemmer (← parseLanguage config.language)]
  if config.removeStopWords then
    filters := filters ++ (← stopWordFilters library config)
  if config.asciiFolding then
    filters := filters ++ [.asciiFolding]
  return { base, filters }

-- ============================================================= the tokens

/-- Tantivy while a text is analyzed: the texts of the tokens of a base
tokenizer, and what three of the filters make of a token's text. -/
structure TokenLibrary where
  baseTexts : BaseTokenizer → String → List String
  lowercased : String → String
  stemmed : Language → String → String
  folded : String → String

/-- What a filter makes of a token's text; `none` drops the token. -/
def TokenFilter.apply (library : TokenLibrary) :
    TokenFilter → String → Option String
  | .removeLong limit, text =>
      if text.utf8ByteSize < limit.toNat then some text else none
  | .lowerCaser, text => some (library.lowercased text)
  | .stemmer language, text => some (library.stemmed language text)
  | .stopWords words, text => if words.contains text then none else some text
  | .asciiFolding, text => some (library.folded text)

namespace TextAnalyzer

variable (analyzer : TextAnalyzer) (library : TokenLibrary)

/-- The filters, one after the other. -/
def filterText (text : String) : Option String :=
  run (TokenFilter.apply library) analyzer.filters text

/-- The texts of the tokens of `TextAnalyzer::token_stream`. -/
def tokenTexts (text : String) : List String :=
  (library.baseTexts analyzer.base text).filterMap
    (analyzer.filterText library)

end TextAnalyzer

end PaimonFtindex.Model

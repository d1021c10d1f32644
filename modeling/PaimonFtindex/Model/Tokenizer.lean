/-
core/src/tokenizer.rs: the tokenizer settings, their defaults, the
option loop that fills them and the checks on the result.

A `HashMap` of options is modelled by the list of its entries in the
order the loop meets them. `from_options` is a fold over that list, so
every question about the map's order is a question about the list.
-/
import PaimonFtindex.Model.Error
import PaimonFtindex.Model.Str

namespace PaimonFtindex.Model

/-- `TokenizerKind`. -/
inductive TokenizerKind where
  | default
  | simple
  | whitespace
  | raw
  | ngram
  | jieba
  | icu
  | icuSplit
  deriving DecidableEq, Repr

/-- `TokenizerConfig`, with `TokenizerConfig::default` as the field
defaults. -/
structure TokenizerConfig where
  tokenizer : TokenizerKind := .default
  ngramMinGram : UInt64 := 3
  ngramMaxGram : UInt64 := 3
  ngramPrefixOnly : Bool := false
  jiebaSearchMode : Bool := true
  jiebaOrdinalPosition : Bool := true
  lowerCase : Bool := true
  maxTokenLength : UInt64 := 40
  asciiFolding : Bool := true
  stem : Bool := true
  language : String := "english"
  removeStopWords : Bool := true
  stopWords : List String := []
  withPosition : Bool := true
  deriving DecidableEq, Repr

/-- One entry of the option map. -/
abbrev OptionEntry := String × String

-- ========================================================== the parsers

/-- `raw_key` without its `fulltext.` or `tantivy.` prefix. Both option
loops strip it before they trim, so a blank in front keeps it. -/
def stripOptionPrefix (rawKey : String) : String :=
  ((stripPrefix "fulltext." rawKey).orElse fun _ =>
    stripPrefix "tantivy." rawKey).getD rawKey

section
variable [UnicodeCase]

/-- tokenizer.rs `normalize_option_key`: no `_` is turned into `-`. -/
def TokenizerConfig.normalizeOptionKey (key : String) : String :=
  UnicodeCase.toLowercase (trim key)

/-- `parse_tokenizer`. -/
def parseTokenizer (value : String) : Result TokenizerKind :=
  match UnicodeCase.toLowercase (trim value) with
  | "default" => .ok .default
  | "simple" => .ok .simple
  | "whitespace" => .ok .whitespace
  | "raw" => .ok .raw
  | "ngram" => .ok .ngram
  | "jieba" => .ok .jieba
  | "icu" => .ok .icu
  | "icu/split" => .ok .icuSplit
  | other =>
      .error (.invalidOption "tokenizer" s!"unsupported tokenizer '{other}'")

/-- `parse_usize`. -/
def parseUsize (key value : String) : Result UInt64 :=
  match parseUsizeStr (trim value) with
  | some n => .ok n
  | none =>
      .error (.invalidOption key s!"expected unsigned integer, got '{value}'")

/-- `parse_bool`. -/
def parseBool (key value : String) : Result Bool :=
  match UnicodeCase.toLowercase (trim value) with
  | "true" => .ok true
  | "false" => .ok false
  | _ => .error (.invalidOption key s!"expected boolean, got '{value}'")

/-- The `stop-words` value: non-blank pieces between semicolons. -/
def splitStopWords (value : String) : List String :=
  ((splitChars value [';']).map trim).filter fun word => !word.isEmpty

-- ============================================================ the loop

/-- The `match` of the option loop of `TokenizerConfig::from_options`. -/
def TokenizerConfig.setKey (config : TokenizerConfig) (key value : String) :
    Result TokenizerConfig := do
  match key with
  | "tokenizer" => return { config with tokenizer := ← parseTokenizer value }
  | "ngram.min-gram" =>
      return { config with ngramMinGram := ← parseUsize key value }
  | "ngram.max-gram" =>
      return { config with ngramMaxGram := ← parseUsize key value }
  | "ngram.prefix-only" =>
      return { config with ngramPrefixOnly := ← parseBool key value }
  | "jieba.search-mode" =>
      return { config with jiebaSearchMode := ← parseBool key value }
  | "jieba.ordinal-position" | "jieba.ordinal-position-mode" =>
      return { config with jiebaOrdinalPosition := ← parseBool key value }
  | "lower-case" => return { config with lowerCase := ← parseBool key value }
  | "max-token-length" =>
      return { config with maxTokenLength := ← parseUsize key value }
  | "ascii-folding" =>
      return { config with asciiFolding := ← parseBool key value }
  | "stem" => return { config with stem := ← parseBool key value }
  | "language" =>
      return { config with language := UnicodeCase.toLowercase (trim value) }
  | "remove-stop-words" =>
      return { config with removeStopWords := ← parseBool key value }
  | "stop-words" => return { config with stopWords := splitStopWords value }
  | "with-position" =>
      return { config with withPosition := ← parseBool key value }
  | _ => return config

/-- The body of that loop. -/
def TokenizerConfig.setOption (config : TokenizerConfig)
    (entry : OptionEntry) : Result TokenizerConfig :=
  config.setKey
    (TokenizerConfig.normalizeOptionKey (stripOptionPrefix entry.1)) entry.2

end

/-- `TokenizerConfig::validate`. -/
def TokenizerConfig.validate (config : TokenizerConfig) : Result Unit :=
  if config.ngramMinGram = 0 then
    .error (.invalidOption "ngram.min-gram" "must be positive")
  else if config.ngramMaxGram = 0 then
    .error (.invalidOption "ngram.max-gram" "must be positive")
  else if config.ngramMaxGram < config.ngramMinGram then
    .error (.invalidOption "ngram.min-gram" "must not exceed ngram.max-gram")
  else if config.maxTokenLength = 0 then
    .error (.invalidOption "max-token-length" "must be positive")
  else if !config.removeStopWords && !config.stopWords.isEmpty then
    .error (.invalidOption "stop-words" "requires remove-stop-words=true")
  else .ok ()

/-- `TokenizerConfig::from_options` over the entries in loop order. -/
def TokenizerConfig.fromOptions [UnicodeCase] (options : List OptionEntry) :
    Result TokenizerConfig := do
  let config ← options.foldlM TokenizerConfig.setOption {}
  config.validate
  return config

end PaimonFtindex.Model

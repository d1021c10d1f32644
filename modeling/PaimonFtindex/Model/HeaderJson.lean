/-
core/src/storage.rs, core/src/config.rs and core/src/tokenizer.rs: what
serde derives for the header of the envelope, from `IndexHeader` down to
`TokenizerKind`.

serde_json's text is `JsonText`: printing a value and parsing one stay
outside, the readers and writers of the header's types are here. A
derived reader takes an object, its members in any order and those of
unknown names skipped, or an array of the fields in their order.
-/
import PaimonFtindex.Model.Query
import PaimonFtindex.Model.Storage

namespace PaimonFtindex.Model

open Lib

/-- serde_json's text, from outside. -/
structure JsonText where
  print : Json → Bytes
  parse : Bytes → Except JsonError Json

/-- `bool`. -/
def readBool : Json → Except JsonError Bool
  | .bool b => .ok b
  | _ => invalidType "a boolean"

/-- `Vec<String>`. -/
def stringsToJson (strings : List String) : Json :=
  .array (strings.map Json.string)

/-- The derived writer of a struct: its fields in their order. -/
def derivedToJson {F : Type} (fields : List F) (names : F → List String)
    (toJson : F → Json) : Json :=
  .object (fields.map fun f => ((names f).headD "", toJson f))

-- ==================================================== the tokenizer kind

/-- The variant names, in snake case but for the renamed last. -/
def TokenizerKind.tag : TokenizerKind → String
  | .default => "default"
  | .simple => "simple"
  | .whitespace => "whitespace"
  | .raw => "raw"
  | .ngram => "ngram"
  | .jieba => "jieba"
  | .icu => "icu"
  | .icuSplit => "icu/split"

/-- The variant of a name. -/
def TokenizerKind.ofTag : String → Except JsonError TokenizerKind
  | "default" => .ok .default
  | "simple" => .ok .simple
  | "whitespace" => .ok .whitespace
  | "raw" => .ok .raw
  | "ngram" => .ok .ngram
  | "jieba" => .ok .jieba
  | "icu" => .ok .icu
  | "icu/split" => .ok .icuSplit
  | tag => .error ⟨s!"unknown variant {tag}"⟩

/-- A unit variant is written as its name. -/
def TokenizerKind.toJson (kind : TokenizerKind) : Json := .string kind.tag

/-- A unit variant is its name, or an object of its name and `null`. -/
def readTokenizerKind (remaining : Nat) : Json → Except JsonError TokenizerKind
  | .string tag => TokenizerKind.ofTag tag
  | .object [(tag, content)] => enter remaining fun _ => do
      let kind ← TokenizerKind.ofTag tag
      match content with
      | .null => return kind
      | _ => invalidType "unit variant"
  | _ => invalidType "enum TokenizerKind"

-- ================================================= the tokenizer settings

/-- The fields of `TokenizerConfig`, in their order. -/
inductive TokenizerField where
  | tokenizer
  | ngramMinGram
  | ngramMaxGram
  | ngramPrefixOnly
  | jiebaSearchMode
  | jiebaOrdinalPosition
  | lowerCase
  | maxTokenLength
  | asciiFolding
  | stem
  | language
  | removeStopWords
  | stopWords
  | withPosition
  deriving DecidableEq, Repr

namespace TokenizerField

/-- The type of each field. -/
def Value : TokenizerField → Type
  | tokenizer => TokenizerKind
  | ngramMinGram | ngramMaxGram | maxTokenLength => UInt64
  | ngramPrefixOnly | jiebaSearchMode | jiebaOrdinalPosition => Bool
  | lowerCase | asciiFolding | stem | removeStopWords | withPosition => Bool
  | language => String
  | stopWords => List String

def all : List TokenizerField :=
  [tokenizer, ngramMinGram, ngramMaxGram, ngramPrefixOnly, jiebaSearchMode,
    jiebaOrdinalPosition, lowerCase, maxTokenLength, asciiFolding, stem,
    language, removeStopWords, stopWords, withPosition]

/-- No field has an alias. -/
def names : TokenizerField → List String
  | tokenizer => ["tokenizer"]
  | ngramMinGram => ["ngram_min_gram"]
  | ngramMaxGram => ["ngram_max_gram"]
  | ngramPrefixOnly => ["ngram_prefix_only"]
  | jiebaSearchMode => ["jieba_search_mode"]
  | jiebaOrdinalPosition => ["jieba_ordinal_position"]
  | lowerCase => ["lower_case"]
  | maxTokenLength => ["max_token_length"]
  | asciiFolding => ["ascii_folding"]
  | stem => ["stem"]
  | language => ["language"]
  | removeStopWords => ["remove_stop_words"]
  | stopWords => ["stop_words"]
  | withPosition => ["with_position"]

/-- The reader of each field. -/
def read (remaining : Nat) :
    (f : TokenizerField) → Json → Except JsonError f.Value
  | tokenizer => readTokenizerKind remaining
  | ngramMinGram | ngramMaxGram | maxTokenLength => readUsize
  | ngramPrefixOnly | jiebaSearchMode | jiebaOrdinalPosition => readBool
  | lowerCase | asciiFolding | stem | removeStopWords | withPosition => readBool
  | language => readString
  | stopWords => readVec (fun _ => readString) remaining

/-- The field of a configuration. -/
def get (config : TokenizerConfig) : (f : TokenizerField) → f.Value
  | tokenizer => config.tokenizer
  | ngramMinGram => config.ngramMinGram
  | ngramMaxGram => config.ngramMaxGram
  | ngramPrefixOnly => config.ngramPrefixOnly
  | jiebaSearchMode => config.jiebaSearchMode
  | jiebaOrdinalPosition => config.jiebaOrdinalPosition
  | lowerCase => config.lowerCase
  | maxTokenLength => config.maxTokenLength
  | asciiFolding => config.asciiFolding
  | stem => config.stem
  | language => config.language
  | removeStopWords => config.removeStopWords
  | stopWords => config.stopWords
  | withPosition => config.withPosition

/-- The writer of each field. -/
def toJson (config : TokenizerConfig) : TokenizerField → Json
  | tokenizer => config.tokenizer.toJson
  | ngramMinGram => usizeToJson config.ngramMinGram
  | ngramMaxGram => usizeToJson config.ngramMaxGram
  | ngramPrefixOnly => .bool config.ngramPrefixOnly
  | jiebaSearchMode => .bool config.jiebaSearchMode
  | jiebaOrdinalPosition => .bool config.jiebaOrdinalPosition
  | lowerCase => .bool config.lowerCase
  | maxTokenLength => usizeToJson config.maxTokenLength
  | asciiFolding => .bool config.asciiFolding
  | stem => .bool config.stem
  | language => .string config.language
  | removeStopWords => .bool config.removeStopWords
  | stopWords => stringsToJson config.stopWords
  | withPosition => .bool config.withPosition

/-- `#[serde(default)]` on the struct: what is absent is as in
`TokenizerConfig::default()`. -/
def finish (_missing : String → JsonError) (slots : Slots Value) :
    Except JsonError TokenizerConfig :=
  let field (f : TokenizerField) : f.Value := (slots f).getD (get {} f)
  .ok
    { tokenizer := field tokenizer
      ngramMinGram := field ngramMinGram
      ngramMaxGram := field ngramMaxGram
      ngramPrefixOnly := field ngramPrefixOnly
      jiebaSearchMode := field jiebaSearchMode
      jiebaOrdinalPosition := field jiebaOrdinalPosition
      lowerCase := field lowerCase
      maxTokenLength := field maxTokenLength
      asciiFolding := field asciiFolding
      stem := field stem
      language := field language
      removeStopWords := field removeStopWords
      stopWords := field stopWords
      withPosition := field withPosition }

end TokenizerField

/-- The derived `TokenizerConfig::serialize`. -/
def TokenizerConfig.toJson (config : TokenizerConfig) : Json :=
  derivedToJson TokenizerField.all TokenizerField.names (TokenizerField.toJson config)

/-- The derived `TokenizerConfig::deserialize`. -/
def readTokenizerConfig : Nat → Json → Except JsonError TokenizerConfig :=
  structVariant
    (fun remaining => namedFields TokenizerField.all TokenizerField.names
      (TokenizerField.read remaining))
    TokenizerField.all TokenizerField.finish

-- ==================================================== the configuration

/-- The fields of `FullTextIndexConfig`. -/
inductive ConfigField where
  | rowIdField
  | textFields
  | tokenizer
  deriving DecidableEq, Repr

namespace ConfigField

def Value : ConfigField → Type
  | rowIdField => String
  | textFields => List String
  | tokenizer => TokenizerConfig

def all : List ConfigField := [rowIdField, textFields, tokenizer]

def names : ConfigField → List String
  | rowIdField => ["row_id_field"]
  | textFields => ["text_fields"]
  | tokenizer => ["tokenizer"]

/-- The names of the text fields and the tokenizer are one level further
down. -/
def read (remaining : Nat) : (f : ConfigField) → Json → Except JsonError f.Value
  | rowIdField => readString
  | textFields => readVec (fun _ => readString) remaining
  | tokenizer => readTokenizerConfig remaining

/-- The field of a configuration. -/
def get (config : FullTextIndexConfig) : (f : ConfigField) → f.Value
  | rowIdField => config.rowIdField
  | textFields => config.textFields
  | tokenizer => config.tokenizer

def toJson (config : FullTextIndexConfig) : ConfigField → Json
  | rowIdField => .string config.rowIdField
  | textFields => stringsToJson config.textFields
  | tokenizer => config.tokenizer.toJson

/-- Every field has a default. -/
def finish (_missing : String → JsonError) (slots : Slots Value) :
    Except JsonError FullTextIndexConfig :=
  .ok
    { rowIdField := (slots rowIdField).getD defaultRowIdField
      textFields := (slots textFields).getD defaultTextFields
      tokenizer := (slots tokenizer).getD ({} : TokenizerConfig) }

end ConfigField

/-- The derived `FullTextIndexConfig::serialize`. -/
def FullTextIndexConfig.toJson (config : FullTextIndexConfig) : Json :=
  derivedToJson ConfigField.all ConfigField.names (ConfigField.toJson config)

/-- The derived `FullTextIndexConfig::deserialize`. -/
def readFullTextIndexConfig :
    Nat → Json → Except JsonError FullTextIndexConfig :=
  structVariant
    (fun remaining => namedFields ConfigField.all ConfigField.names
      (ConfigField.read remaining))
    ConfigField.all ConfigField.finish

-- ========================================================= the metadata

/-- The fields of `FullTextIndexMetadata`. -/
inductive MetadataField where
  | config
  | documentCount
  | tantivyVersion
  deriving DecidableEq, Repr

namespace MetadataField

def Value : MetadataField → Type
  | config => FullTextIndexConfig
  | documentCount => UInt64
  | tantivyVersion => String

def all : List MetadataField := [config, documentCount, tantivyVersion]

def names : MetadataField → List String
  | config => ["config"]
  | documentCount => ["document_count"]
  | tantivyVersion => ["tantivy_version"]

def read (remaining : Nat) :
    (f : MetadataField) → Json → Except JsonError f.Value
  | config => readFullTextIndexConfig remaining
  | documentCount => readUsize
  | tantivyVersion => readString

/-- The field of the metadata. -/
def get (metadata : FullTextIndexMetadata) : (f : MetadataField) → f.Value
  | config => metadata.config
  | documentCount => metadata.documentCount
  | tantivyVersion => metadata.tantivyVersion

def toJson (metadata : FullTextIndexMetadata) : MetadataField → Json
  | config => metadata.config.toJson
  | documentCount => usizeToJson metadata.documentCount
  | tantivyVersion => .string metadata.tantivyVersion

/-- Every field has a default. -/
def finish (_missing : String → JsonError) (slots : Slots Value) :
    Except JsonError FullTextIndexMetadata :=
  .ok
    { config := (slots config).getD ({} : FullTextIndexConfig)
      documentCount := (slots documentCount).getD (0 : UInt64)
      tantivyVersion := (slots tantivyVersion).getD "" }

end MetadataField

/-- The derived `FullTextIndexMetadata::serialize`. -/
def FullTextIndexMetadata.toJson (metadata : FullTextIndexMetadata) : Json :=
  derivedToJson MetadataField.all MetadataField.names (MetadataField.toJson metadata)

/-- The derived `FullTextIndexMetadata::deserialize`. -/
def readFullTextIndexMetadata :
    Nat → Json → Except JsonError FullTextIndexMetadata :=
  structVariant
    (fun remaining => namedFields MetadataField.all MetadataField.names
      (MetadataField.read remaining))
    MetadataField.all MetadataField.finish

-- ========================================================== the entries

/-- The fields of `ArchiveFileEntry`. -/
inductive EntryField where
  | name
  | offset
  | length
  deriving DecidableEq, Repr

namespace EntryField

def Value : EntryField → Type
  | name => String
  | offset | length => UInt64

def all : List EntryField := [name, offset, length]

def names : EntryField → List String
  | name => ["name"]
  | offset => ["offset"]
  | length => ["length"]

def read : (f : EntryField) → Json → Except JsonError f.Value
  | name => readString
  | offset | length => readUsize

/-- The field of an entry. -/
def get (entry : ArchiveFileEntry) : (f : EntryField) → f.Value
  | name => entry.name
  | offset => entry.offset
  | length => entry.length

def toJson (entry : ArchiveFileEntry) : EntryField → Json
  | name => .string entry.name
  | offset => usizeToJson entry.offset
  | length => usizeToJson entry.length

/-- No field has a default. -/
def finish (missing : String → JsonError) (slots : Slots Value) :
    Except JsonError ArchiveFileEntry := do
  let name : String ← required (missing "name") (slots name)
  let offset : UInt64 ← required (missing "offset") (slots offset)
  let length : UInt64 ← required (missing "length") (slots length)
  return ⟨name, offset, length⟩

end EntryField

/-- The derived `ArchiveFileEntry::serialize`. -/
def ArchiveFileEntry.toJson (entry : ArchiveFileEntry) : Json :=
  derivedToJson EntryField.all EntryField.names (EntryField.toJson entry)

/-- The derived `ArchiveFileEntry::deserialize`. -/
def readArchiveFileEntry : Nat → Json → Except JsonError ArchiveFileEntry :=
  structVariant
    (fun _ => namedFields EntryField.all EntryField.names EntryField.read)
    EntryField.all EntryField.finish

-- =========================================================== the header

/-- The fields of `IndexHeader`. -/
inductive HeaderField where
  | metadata
  | files
  deriving DecidableEq, Repr

namespace HeaderField

def Value : HeaderField → Type
  | metadata => FullTextIndexMetadata
  | files => List ArchiveFileEntry

def all : List HeaderField := [metadata, files]

def names : HeaderField → List String
  | metadata => ["metadata"]
  | files => ["files"]

def read (remaining : Nat) : (f : HeaderField) → Json → Except JsonError f.Value
  | metadata => readFullTextIndexMetadata remaining
  | files => readVec readArchiveFileEntry remaining

/-- The field of a header. -/
def get (header : IndexHeader) : (f : HeaderField) → f.Value
  | metadata => header.metadata
  | files => header.files

def toJson (header : IndexHeader) : HeaderField → Json
  | metadata => header.metadata.toJson
  | files => .array (header.files.map ArchiveFileEntry.toJson)

/-- No field has a default: an archive without a list of files is refused. -/
def finish (missing : String → JsonError) (slots : Slots Value) :
    Except JsonError IndexHeader := do
  let metadata : FullTextIndexMetadata ←
    required (missing "metadata") (slots metadata)
  let files : List ArchiveFileEntry ← required (missing "files") (slots files)
  return ⟨metadata, files⟩

end HeaderField

/-- The derived `IndexHeader::serialize`. -/
def IndexHeader.toJson (header : IndexHeader) : Json :=
  derivedToJson HeaderField.all HeaderField.names (HeaderField.toJson header)

/-- The derived `IndexHeader::deserialize`. -/
def readIndexHeader : Nat → Json → Except JsonError IndexHeader :=
  structVariant
    (fun remaining => namedFields HeaderField.all HeaderField.names
      (HeaderField.read remaining))
    HeaderField.all HeaderField.finish

/-- `serde_json::to_vec` and `serde_json::from_slice` at the header. -/
def JsonText.headerJson (text : JsonText) : HeaderJson where
  toVec header := .ok (text.print header.toJson)
  fromSlice bytes := do
    let json ← text.parse bytes
    readIndexHeader recursionLimit json

end PaimonFtindex.Model

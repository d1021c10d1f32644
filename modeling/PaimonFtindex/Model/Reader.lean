/-
core/src/index.rs, the reader: `FullTextIndexReader::open` and the
metered input it reads through.

Tantivy and serde_json answer from outside: `OpenEnv` holds their
answers. Opening an index reads its directory as Tantivy likes, so what
`Index::open` returns may depend on the whole input.
-/
import PaimonFtindex.Model.BuildQuery
import PaimonFtindex.Model.Directory

namespace PaimonFtindex.Model

-- ========================================================== the directory

/-- The answers `open` meets; `tantivyVersion` is `tantivy::version()`. -/
structure OpenEnv where
  serde : HeaderJson
  tantivyVersion : String
  indexOpen : SeekRead → ArchiveDirectory → Except TantivyError Index
  library : AnalyzerLibrary

/-- `validate_tantivy_version`. -/
def validateTantivyVersion (runtimeVersion : String)
    (metadata : FullTextIndexMetadata) : Result Unit :=
  if metadata.tantivyVersion ≠ runtimeVersion then
    .error (.invalidStorage s!"unsupported Tantivy index version {metadata.tantivyVersion}, runtime uses {runtimeVersion}")
  else .ok ()

/-- A `FullTextIndexReader` as `open` leaves it, without a searcher. -/
structure OpenIndex where
  directory : ArchiveDirectory
  index : Index
  metadata : FullTextIndexMetadata

/-- `FullTextIndexReader::open`. -/
def openIndex [UnicodeCase] (env : OpenEnv) (input : SeekRead) :
    Result OpenIndex := do
  let (header, bodyStart) ← readHeader env.serde input
  validateTantivyVersion env.tantivyVersion header.metadata
  let directory ← ArchiveDirectory.new bodyStart header.files
  let index ← liftError FtIndexError.tantivy (env.indexOpen input directory)
  let index ← registerTokenizer env.library index
    header.metadata.config.tokenizer
  return { directory, index, metadata := header.metadata }

end PaimonFtindex.Model

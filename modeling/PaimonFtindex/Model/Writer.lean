/-
core/src/index.rs, the writer: `FullTextIndexWriter` with its three
operations, and the archive it writes from the directory Tantivy leaves.

Tantivy, the temporary directory and the output answer from outside:
`CreateEnv` and `WriteEnv` hold their answers, so that every failure the
source can meet is one of their values. What Tantivy has taken is kept
beside the writer, in `IndexSession`, since the writer drops its handle
when it is finalized.
-/
import PaimonFtindex.Model.Analyzer
import PaimonFtindex.Model.Schema
import PaimonFtindex.Model.Storage

namespace PaimonFtindex.Model

-- ======================================================= the index files

/-- `IndexFile`. -/
structure IndexFile where
  name : String
  path : OsPath
  length : UInt64
  deriving DecidableEq, Repr

/-- A directory entry: its name and whether it is a regular file. -/
structure DirEntry where
  fileName : Bytes
  isFile : Except IoError Bool

/-- The file system under the temporary directory. -/
structure Disk where
  readDir : OsPath → Except IoError (List (Except IoError DirEntry))
  metadata : OsPath → Except IoError UInt64
  file : FileSystem

/-- The first loop of `collect_index_files`: the names of the regular
files. -/
def regularFiles : List (Except IoError DirEntry) → Result (List Bytes)
  | [] => return []
  | entry :: entries => do
      let entry ← liftError FtIndexError.io entry
      let isFile ← liftError FtIndexError.io entry.isFile
      let rest ← regularFiles entries
      return if isFile then entry.fileName :: rest else rest

/-- `dir.join(name)`. -/
def joinPath (dir : OsPath) (name : Bytes) : OsPath := dir ++ [0x2f] ++ name

/-- The second loop of `collect_index_files`. -/
def statFiles (disk : Disk) (dir : OsPath) :
    List Bytes → Result (List IndexFile)
  | [] => return []
  | fileName :: fileNames => do
      let name ← match String.fromUTF8? ⟨fileName.toArray⟩ with
        | some name => pure name
        | none => throw (.invalidStorage "non-utf8 file name")
      if name.endsWith ".lock" then
        statFiles disk dir fileNames
      else
        let path := joinPath dir fileName
        let length ← liftError FtIndexError.io (disk.metadata path)
        return { name, path, length } :: (← statFiles disk dir fileNames)

/-- `collect_index_files`. The paths share their directory, so they sort
as their file names do, byte by byte. -/
def collectIndexFiles (disk : Disk) (dir : OsPath) :
    Result (List IndexFile) := do
  let entries ← liftError FtIndexError.io (disk.readDir dir)
  let fileNames ← regularFiles entries
  statFiles disk dir (fileNames.mergeSort fun a b => decide (a ≤ b))

/-- The `for file in &files` loop of `write`: each file starts where the
one before it ended. -/
def archiveEntries (offset : UInt64) :
    List IndexFile → Result (List ArchiveFileEntry)
  | [] => return []
  | file :: files => do
      let next ← match checkedAdd offset file.length with
        | some next => pure next
        | none => throw (.invalidStorage "full-text archive size overflow")
      return { name := file.name, offset, length := file.length }
        :: (← archiveEntries next files)

-- ============================================================ the writer

/-- `FullTextIndexWriterState`: the handle on Tantivy's writer is all in
`IndexSession.documents`; the temporary directory is its path. -/
structure FullTextIndexWriterState where
  tempDir : OsPath
  deriving DecidableEq, Repr

/-- `FullTextIndexWriter`; the map of text fields by its entries. -/
structure FullTextIndexWriter where
  config : FullTextIndexConfig
  state : Option FullTextIndexWriterState
  rowIdField : Field
  textFields : List (String × Field)
  documentCount : UInt64
  deriving DecidableEq, Repr

/-- A writer and the documents Tantivy has taken from it. -/
structure IndexSession where
  writer : FullTextIndexWriter
  documents : List TantivyDocument := []

/-- The answers `FullTextIndexWriter::new` meets. -/
structure CreateEnv where
  tempDir : Except IoError OsPath
  createInDir : Except TantivyError Unit
  library : AnalyzerLibrary
  indexWriter : Except TantivyError Unit

/-- `FullTextIndexWriter::new`. -/
def FullTextIndexWriter.new [UnicodeCase] (env : CreateEnv)
    (config : FullTextIndexConfig) : Result FullTextIndexWriter :=
  match hvalid : config.validate with
  | .error e => .error e
  | .ok () => do
      let tempDir ← liftError FtIndexError.io env.tempDir
      let schema := buildSchema config (nodup_of_validate hvalid)
      liftError FtIndexError.tantivy env.createInDir
      let _ ← buildTextAnalyzer env.library config.tokenizer
      let rowIdField ← match schema.getField config.rowIdField with
        | some field => pure field
        | none => throw (.invalidStorage "missing row_id field")
      let textFields ← textFieldMap schema config
      liftError FtIndexError.tantivy env.indexWriter
      return { config, state := some { tempDir }, rowIdField, textFields,
               documentCount := 0 }

-- =================================================== adding documents

/-- `validate_indexed_field`. -/
def validateIndexedField (config : FullTextIndexConfig) (field : String) :
    Result Unit :=
  if isBlank field then
    .error (.invalidStorage "document field name must not be empty")
  else if config.indexedTextFields.contains field then
    .ok ()
  else
    .error (.invalidStorage s!"document field '{field}' is not configured for this index")

/-- The field loop of `add_document_fields`: the text values in order. -/
def FullTextIndexWriter.textValues (self : FullTextIndexWriter) :
    List (String × String) → Result TantivyDocument
  | [] => return []
  | (name, text) :: fields => do
      validateIndexedField self.config name
      let textField ← match self.textFields.lookup name with
        | some field => pure field
        | none => throw (.invalidStorage s!"document field '{name}' is not configured for this index")
      return (textField, .text text) :: (← self.textValues fields)

/-- `add_document_fields` up to the call of Tantivy: the new count and
the document. -/
def FullTextIndexWriter.prepare (self : FullTextIndexWriter) (rowId : Int64)
    (fields : List (String × String)) : Result (UInt64 × TantivyDocument) := do
  if rowId < 0 then
    throw (.invalidStorage s!"row id must be non-negative, got {rowId}")
  if self.state.isNone then
    throw (.invalidStorage "full-text index writer is already finalized")
  let nextDocumentCount ← match checkedAdd self.documentCount 1 with
    | some next => pure next
    | none => throw (.invalidStorage "full-text document count overflow")
  let texts ← self.textValues fields
  if texts.isEmpty then
    throw (.invalidStorage "document must contain at least one text field")
  return (nextDocumentCount, (self.rowIdField, .u64 rowId.toUInt64) :: texts)

/-- `add_document_fields`; `answer` is Tantivy's, and a failing add adds
nothing. -/
def IndexSession.addDocumentFields (session : IndexSession)
    (answer : Except TantivyError Unit) (rowId : Int64)
    (fields : List (String × String)) : Result Unit × IndexSession :=
  match session.writer.prepare rowId fields with
  | .error e => (.error e, session)
  | .ok (nextDocumentCount, doc) =>
      match answer with
      | .error e => (.error (.tantivy e), session)
      | .ok () =>
          (.ok (),
            { writer := { session.writer with documentCount := nextDocumentCount }
              documents := session.documents ++ [doc] })

/-- `add_document`. -/
def IndexSession.addDocument (session : IndexSession)
    (answer : Except TantivyError Unit) (rowId : Int64) (text : String) :
    Result Unit × IndexSession :=
  session.addDocumentFields answer rowId
    [(session.writer.config.defaultTextField, text)]

-- =============================================================== writing

/-- The answers `write` meets besides those of its output. -/
structure WriteEnv where
  commit : Except TantivyError Unit
  waitMergingThreads : Except TantivyError Unit
  disk : Disk
  tantivyVersion : String
  serde : HeaderJson

/-- `?` on a result inside a writer. -/
def WriteM.ofResult {α : Type} (r : Result α) : WriteM α := fun output =>
  match r with
  | .ok a => .ok a output
  | .error e => .error e output

/-- The header `write` puts in front of the files. -/
def FullTextIndexWriter.header (self : FullTextIndexWriter) (env : WriteEnv)
    (entries : List ArchiveFileEntry) : IndexHeader where
  metadata :=
    { config := self.config
      documentCount := self.documentCount
      tantivyVersion := env.tantivyVersion }
  files := entries

/-- `write` after the state has been taken. -/
def FullTextIndexWriter.finish (self : FullTextIndexWriter) (env : WriteEnv)
    (state : FullTextIndexWriterState) : WriteM Unit := do
  WriteM.ofResult (liftError FtIndexError.tantivy env.commit)
  WriteM.ofResult (liftError FtIndexError.tantivy env.waitMergingThreads)
  let files ← WriteM.ofResult (collectIndexFiles env.disk state.tempDir)
  let entries ← WriteM.ofResult (archiveEntries 0 files)
  writeEnvelopeFromPaths env.serde env.disk.file (self.header env entries)
    (files.map IndexFile.path)

/-- `write`: the state is taken before anything can fail. -/
def IndexSession.write (session : IndexSession) (env : WriteEnv)
    (output : Output) : Result Unit × IndexSession × Output :=
  match session.writer.state with
  | none =>
      (.error (.invalidStorage "full-text index writer is already finalized"),
        session, output)
  | some state =>
      let taken := { session.writer with state := none }
      match taken.finish env state output with
      | .ok () output => (.ok (), { session with writer := taken }, output)
      | .error e output => (.error e, { session with writer := taken }, output)

end PaimonFtindex.Model

/-
core/src/storage.rs: the v1 envelope, its two writers, its reader and
the checks on the archive layout it carries.

serde_json stands behind `HeaderJson`; what the source relies on, that
decoding undoes encoding, is `HeaderJson.RoundTrips`, assumed by name
where it is used. Paths are Unix paths, with `/` as the only separator.

The streaming writer keeps its one 64 KiB buffer across chunks and
files, as the source does: `copyChunks` threads it, so that what a chunk
leaves behind its own bytes is still there for the next one.
-/
import PaimonFtindex.Model.Config
import PaimonFtindex.Model.Io

namespace PaimonFtindex.Model

/-- `FORMAT_MAGIC`, the bytes of `PFTIDX01`. -/
def formatMagic : Bytes := [0x50, 0x46, 0x54, 0x49, 0x44, 0x58, 0x30, 0x31]

def formatVersion : UInt32 := 1

def maxHeaderBytes : Nat := 16 * 1024 * 1024

def archiveWriteBufferBytes : Nat := 64 * 1024

structure ArchiveFileEntry where
  name : String
  offset : UInt64
  length : UInt64
  deriving DecidableEq, Repr

structure IndexHeader where
  metadata : FullTextIndexMetadata
  files : List ArchiveFileEntry
  deriving DecidableEq, Repr

/-- serde_json at the header type. -/
structure HeaderJson where
  toVec : IndexHeader → Except JsonError Bytes
  fromSlice : Bytes → Except JsonError IndexHeader

/-- serde_json decodes what it encodes. -/
def HeaderJson.RoundTrips (serde : HeaderJson) : Prop :=
  ∀ header json, serde.toVec header = .ok json →
    serde.fromSlice json = .ok header

-- ============================================================== writing

/-- `File::open` on a path: the content, or the error of opening it. A
file whose reads fail half-way behaves as one that ends there. -/
abbrev FileSystem := OsPath → Except IoError Bytes

/-- `?` on an I/O result inside a writer. -/
def WriteM.io {α : Type} (r : Except IoError α) : WriteM α := fun output =>
  match r with
  | .ok a => .ok a output
  | .error error => .error (.io error) output

/-- `file.read_exact(&mut buffer[..n])`: the buffer afterwards and the
rest of the file. -/
def readExact (buffer : Bytes) (n : Nat) (file : Bytes) :
    Except IoError (Bytes × Bytes) :=
  if file.length < n then
    .error ⟨.unexpectedEof, "failed to fill whole buffer"⟩
  else .ok (file.take n ++ buffer.drop n, file.drop n)

/-- The `while remaining > 0` loop; it hands the buffer on. -/
def copyChunks (remaining : Nat) (file buffer : Bytes) : WriteM Bytes := do
  if remaining = 0 then
    return buffer
  else
    let chunkLen := min remaining archiveWriteBufferBytes
    let (buffer, file) ← WriteM.io (readExact buffer chunkLen file)
    writeAll (buffer.take chunkLen)
    copyChunks (remaining - chunkLen) file buffer
termination_by remaining
decreasing_by
  simp only [archiveWriteBufferBytes]
  omega

/-- The `for (entry, path)` loop of `write_envelope_from_paths`. -/
def copyFiles (fs : FileSystem) :
    List (ArchiveFileEntry × OsPath) → Bytes → WriteM Unit
  | [], _ => return
  | (entry, path) :: rest, buffer => do
      let file ← WriteM.io (fs path)
      let buffer ← copyChunks entry.length.toNat file buffer
      copyFiles fs rest buffer

def writeEnvelopeHeader (serde : HeaderJson) (header : IndexHeader) :
    WriteM Unit := do
  let headerJson ← match serde.toVec header with
    | .ok json => pure json
    | .error error => throw (.json error)
  if maxHeaderBytes < headerJson.length then
    throw (.invalidStorage s!"header too large: {headerJson.length} bytes exceeds {maxHeaderBytes} bytes")
  writeAll formatMagic
  writeAll (toBeBytes formatVersion)
  if 2 ^ 32 ≤ headerJson.length then
    throw (.invalidStorage "header too large")
  writeAll (toBeBytes (UInt32.ofNat headerJson.length))
  writeAll headerJson

/-- The `for (_, data)` loop of `write_envelope`. -/
def writeFiles : List (String × Bytes) → WriteM Unit
  | [] => return
  | (_, data) :: files => do
      writeAll data
      writeFiles files

def writeEnvelope (serde : HeaderJson) (header : IndexHeader)
    (files : List (String × Bytes)) : WriteM Unit := do
  writeEnvelopeHeader serde header
  writeFiles files
  flush

def writeEnvelopeFromPaths (serde : HeaderJson) (fs : FileSystem)
    (header : IndexHeader) (paths : List OsPath) : WriteM Unit := do
  if header.files.length ≠ paths.length then
    throw (.invalidStorage s!"archive header contains {header.files.length} files but {paths.length} paths were provided")
  writeEnvelopeHeader serde header
  copyFiles fs (header.files.zip paths)
    (List.replicate archiveWriteBufferBytes 0)
  flush

-- =========================================================== file names

/-- `std::path::Component`. -/
inductive Component where
  | rootDir
  | curDir
  | parentDir
  | normal (name : String)
  deriving DecidableEq, Repr

/-- The component a piece between separators stands for: empty pieces
and `.` stand for none. -/
def pieceComponent (piece : String) : Option Component :=
  if piece = "" then none
  else if piece = "." then none
  else if piece = ".." then some .parentDir
  else some (.normal piece)

/-- `Path::components`: a leading separator is the root, a leading `.`
of a relative path is kept, everything else is piece by piece. -/
def components (path : String) : List Component :=
  let pieces := splitChars path ['/']
  let start :=
    if path.toList.head? = some '/' then [Component.rootDir]
    else if pieces.head? = some "." then [Component.curDir]
    else []
  start ++ pieces.filterMap pieceComponent

def validateArchiveFileName (name : String) : Result Unit :=
  if name.isEmpty then
    .error (.invalidStorage "archive file name must not be empty")
  else match components name with
    | [.normal _] => .ok ()
    | _ => .error (.invalidStorage s!"archive file '{name}' must be a plain file name")

-- ============================================================== reading

/-- `read_exact_at`. -/
def readExactAt (input : SeekRead) (pos : UInt64) (len : Nat) : Result Bytes :=
  match input.pread [⟨pos, len⟩] with
  | .ok bufs => .ok bufs.flatten
  | .error error => .error (.io error)

/-- A file's range as `validate_header` collects it: start, end, name. -/
structure FileRange where
  start : UInt64
  stop : UInt64
  name : String
  deriving DecidableEq, Repr

/-- The loop of `validate_header` over the files; `names` are the ones
seen so far. -/
def collectRanges (names : List String) :
    List ArchiveFileEntry → Result (List FileRange)
  | [] => return []
  | file :: files => do
      validateArchiveFileName file.name
      if names.contains file.name then
        throw (.invalidStorage s!"duplicate archive file '{file.name}'")
      let stop ← match checkedAdd file.offset file.length with
        | some stop => pure stop
        | none => throw (.invalidStorage s!"archive file '{file.name}' range overflow")
      let ranges ← collectRanges (file.name :: names) files
      return ⟨file.offset, stop, file.name⟩ :: ranges

/-- The sweep of `validate_header` over the sorted ranges. -/
def sweepRanges (previousEnd : UInt64) : List FileRange → Result Unit
  | [] => .ok ()
  | range :: ranges =>
      if range.start < previousEnd then
        .error (.invalidStorage s!"archive file '{range.name}' overlaps a previous file")
      else sweepRanges range.stop ranges

/-- `sort_by_key` on the start: a stable sort. -/
def sortByStart (ranges : List FileRange) : List FileRange :=
  ranges.mergeSort fun r s => decide (r.start ≤ s.start)

def validateHeader (header : IndexHeader) : Result Unit := do
  header.metadata.config.validate
  if isBlank header.metadata.tantivyVersion then
    throw (.invalidStorage "missing Tantivy version in index metadata")
  if header.files.isEmpty then
    throw (.invalidStorage "archive file list must not be empty")
  let ranges ← collectRanges [] header.files
  sweepRanges 0 (sortByStart ranges)

def readHeader (serde : HeaderJson) (input : SeekRead) :
    Result (IndexHeader × UInt64) := do
  let fixed ← readExactAt input 0 16
  if fixed.take 8 ≠ formatMagic then
    throw (.invalidStorage "bad magic")
  let version := fromBeBytes (slice fixed 8 4)
  if version ≠ formatVersion then
    throw (.invalidStorage s!"unsupported format version {version}")
  let headerLen := (fromBeBytes (slice fixed 12 4)).toNat
  if maxHeaderBytes < headerLen then
    throw (.invalidStorage s!"header too large: {headerLen} bytes exceeds {maxHeaderBytes} bytes")
  let headerJson ← readExactAt input 16 headerLen
  let header ← match serde.fromSlice headerJson with
    | .ok header => pure header
    | .error error => throw (.json error)
  validateHeader header
  return (header, 16 + UInt64.ofNat headerLen)

end PaimonFtindex.Model

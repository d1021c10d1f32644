/-
core/src/storage.rs: reading archive files in batches.

Files wait in `pending` until the next one would go over a limit of the
batch; then all of them are read with one `pread` and handed to
`consume`, one after the other. What a run does to its surroundings is
kept in `ReadEnv`: the state of the closure `consume`, and every `pread`
and every call of `consume` in order, each with its outcome.

A file's buffer is allocated when it joins the batch, zeroed, so a
pending file holds no more of it than its length. `usize` is 64 bits
wide: the conversion of a length to `usize` cannot fail.
-/
import PaimonFtindex.Model.ArchiveDirectory

namespace PaimonFtindex.Model

def maxArchiveReadBatchBytes : UInt64 := 64 * 1024 * 1024

def maxArchiveReadBatchRanges : Nat := 64

-- ======================================================= the environment

/-- A call that leaves the crate, and whether it succeeded. -/
inductive ReadEvent where
  | pread (ranges : List ReadRequest) (succeeded : Bool)
  | consume (name : String) (data : Bytes) (succeeded : Bool)
  deriving DecidableEq, Repr

/-- The call succeeded. -/
def ReadEvent.Succeeded : ReadEvent → Prop
  | pread _ succeeded => succeeded = true
  | consume _ _ succeeded => succeeded = true

/-- What `consume` has captured, and the calls made so far. -/
structure ReadEnv (σ : Type) where
  closure : σ
  events : List ReadEvent := []

/-- How a batched read fails: with an error or by panicking. -/
inductive BatchFault where
  | error (error : FtIndexError)
  | panic (kind : Panic)
  deriving DecidableEq, Repr

abbrev BatchM (σ : Type) := EStateM BatchFault (ReadEnv σ)

/-- The closure `consume`, over what it has captured. -/
abbrev Consume (σ τ : Type) := String → Bytes → EStateM FtIndexError σ τ

variable {σ τ : Type}

/-- `input.pread(&mut requests)?`. -/
def preadBatch (input : SeekRead) (ranges : List ReadRequest) :
    BatchM σ (List Bytes) := fun env =>
  match input.pread ranges with
  | .ok bufs =>
      .ok bufs { env with events := env.events ++ [.pread ranges true] }
  | .error error =>
      .error (.error (.io error))
        { env with events := env.events ++ [.pread ranges false] }

/-- `consume(&name, &data)?`. -/
def callConsume (consume : Consume σ τ) (name : String) (data : Bytes) :
    BatchM σ τ := fun env =>
  match consume name data env.closure with
  | .ok item closure =>
      .ok item ⟨closure, env.events ++ [.consume name data true]⟩
  | .error error closure =>
      .error (.error error) ⟨closure, env.events ++ [.consume name data false]⟩

/-- `vec![0u8; length]`: more than `isize::MAX` bytes panic. -/
def allocate (length : UInt64) : BatchM σ Unit :=
  if 2 ^ 63 ≤ length.toNat then throw (.panic .capacityOverflow)
  else return

-- ============================================================= one batch

/-- `PendingArchiveFile`. -/
structure PendingArchiveFile where
  name : String
  pos : UInt64
  length : UInt64
  deriving DecidableEq, Repr

def PendingArchiveFile.request (file : PendingArchiveFile) : ReadRequest :=
  ⟨file.pos, file.length.toNat⟩

/-- The `drain(..)` loop: each file is handed to `consume`. -/
def drain (consume : Consume σ τ) :
    List (PendingArchiveFile × Bytes) → List τ → BatchM σ (List τ)
  | [], output => return output
  | (file, data) :: files, output => do
      let item ← callConsume consume file.name data
      drain consume files (output ++ [item])

/-- `read_archive_file_batch`; it leaves `pending` empty. -/
def readArchiveFileBatch (input : SeekRead) (pending : List PendingArchiveFile)
    (consume : Consume σ τ) (output : List τ) : BatchM σ (List τ) := do
  let bufs ← preadBatch input (pending.map PendingArchiveFile.request)
  drain consume (pending.zip bufs) output

-- ============================================================== the loop

/-- `pending` and `pending_bytes`. -/
structure PendingBatch where
  pending : List PendingArchiveFile := []
  pendingBytes : UInt64 := 0
  deriving DecidableEq, Repr

/-- There are pending files, and one more of this length goes over a
limit. -/
def PendingBatch.full (batch : PendingBatch) (length : UInt64) : Bool :=
  !batch.pending.isEmpty
    && (decide (maxArchiveReadBatchRanges ≤ batch.pending.length)
      || decide (maxArchiveReadBatchBytes
          < saturatingAdd batch.pendingBytes length))

def PendingBatch.push (batch : PendingBatch) (file : PendingArchiveFile) :
    PendingBatch where
  pending := batch.pending ++ [file]
  pendingBytes := saturatingAdd batch.pendingBytes file.length

/-- `body_start.checked_add(file.offset)`, or the error of its overflow. -/
def filePosition (bodyStart : UInt64) (file : ArchiveFileEntry) :
    BatchM σ UInt64 :=
  match checkedAdd bodyStart file.offset with
  | some pos => return pos
  | none => throw (.error (.invalidStorage s!"archive file '{file.name}' offset overflow"))

/-- The `if` in front of a file: a full batch is read first. -/
def flushIfFull (input : SeekRead) (consume : Consume σ τ) (length : UInt64)
    (batch : PendingBatch) (output : List τ) :
    BatchM σ (PendingBatch × List τ) :=
  if batch.full length then do
    let output ← readArchiveFileBatch input batch.pending consume output
    return ({}, output)
  else return (batch, output)

/-- The `for file in files` loop, and the last batch behind it. -/
def readFiles (input : SeekRead) (bodyStart : UInt64)
    (consume : Consume σ τ) :
    List ArchiveFileEntry → PendingBatch → List τ → BatchM σ (List τ)
  | [], batch, output =>
      if batch.pending.isEmpty then return output
      else readArchiveFileBatch input batch.pending consume output
  | file :: files, batch, output => do
      let pos ← filePosition bodyStart file
      let (batch, output) ← flushIfFull input consume file.length batch output
      allocate file.length
      readFiles input bodyStart consume files
        (batch.push ⟨file.name, pos, file.length⟩) output

def readArchiveFilesWith (input : SeekRead) (bodyStart : UInt64)
    (files : List ArchiveFileEntry) (consume : Consume σ τ) :
    BatchM σ (List τ) :=
  readFiles input bodyStart consume files {} []

def readArchiveFiles (input : SeekRead) (bodyStart : UInt64)
    (files : List ArchiveFileEntry) : BatchM Unit (List (String × Bytes)) :=
  readArchiveFilesWith input bodyStart files fun name data => return (name, data)

end PaimonFtindex.Model

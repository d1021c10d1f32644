/-
core/src/io.rs: positional reads, sequential writes and the cache
counters.

A reader answers a batch of requests or fails; `Immutable` says it
serves one fixed byte string, which is all an archive reader relies on.
A writer is seen through the buffers passed to `write_all`: `Output`
records them and lets every call, `write_all` or `flush`, succeed or
fail as the environment likes.
-/
import PaimonFtindex.Lib.Outcome
import PaimonFtindex.Model.Error
import PaimonFtindex.Model.Num

namespace PaimonFtindex.Model

open Lib

abbrev Bytes := List UInt8

/-- A path or file name as Unix keeps it. -/
abbrev OsPath := Bytes

/-- The bytes `[start, start + len)`. -/
def slice (data : Bytes) (start len : Nat) : Bytes :=
  (data.drop start).take len

-- ============================================================== reading

/-- `ReadRequest`: a position and the length of the buffer to fill. -/
structure ReadRequest where
  pos : UInt64
  len : Nat
  deriving DecidableEq, Repr

/-- An implementation of `SeekRead`: the buffers of a successful `pread`
keep their lengths. -/
structure SeekRead where
  pread : List ReadRequest → Except IoError (List Bytes)
  pread_length : ∀ ranges bufs, pread ranges = .ok bufs →
    List.Forall₂ (fun range buf => buf.length = range.len) ranges bufs

/-- The reader serves `data`: a `pread` fills every buffer with the bytes
at its position, or fails. -/
def SeekRead.Immutable (input : SeekRead) (data : Bytes) : Prop :=
  ∀ ranges bufs, input.pread ranges = .ok bufs →
    List.Forall₂ (fun range buf =>
      range.pos.toNat + range.len ≤ data.length
        ∧ buf = slice data range.pos.toNat range.len) ranges bufs

/-- One request of `SliceReader::pread`. -/
def SliceReader.readRange (data : Bytes) (range : ReadRequest) :
    Except IoError Bytes :=
  if 2 ^ 64 ≤ range.pos.toNat + range.len then
    .error ⟨.invalidInput, "range overflow"⟩
  else if data.length < range.pos.toNat + range.len then
    .error ⟨.unexpectedEof, "read past end of slice"⟩
  else .ok (slice data range.pos.toNat range.len)

theorem slice_length {data : Bytes} {start len : Nat}
    (h : start + len ≤ data.length) : (slice data start len).length = len := by
  unfold slice
  rw [List.length_take, List.length_drop]
  omega

/-- What a prefix still has of a slice is what the whole has there. -/
theorem slice_of_prefix {data : Bytes} {n start len : Nat}
    (h : (slice (data.take n) start len).length = len) :
    slice (data.take n) start len = slice data start len := by
  unfold slice at h ⊢
  rw [List.drop_take, List.take_take, List.length_take] at h
  rw [List.drop_take, List.take_take]
  congr 1
  omega

/-- What one request of a slice reader returns. -/
theorem SliceReader.readRange_eq_ok {data : Bytes} {range : ReadRequest}
    {buf : Bytes} (h : SliceReader.readRange data range = .ok buf) :
    range.pos.toNat + range.len ≤ data.length
      ∧ buf = slice data range.pos.toNat range.len := by
  unfold SliceReader.readRange at h
  split at h
  · cases h
  · split at h
    · cases h
    · rename_i hle
      cases h
      exact ⟨by omega, rfl⟩

/-- `SliceReader`. -/
def sliceReader (data : Bytes) : SeekRead where
  pread ranges := ranges.mapM (SliceReader.readRange data)
  pread_length ranges bufs h := (mapM_eq_ok.mp h).imp fun range buf hr => by
    obtain ⟨hle, rfl⟩ := SliceReader.readRange_eq_ok hr
    exact slice_length hle

theorem sliceReader_immutable (data : Bytes) :
    (sliceReader data).Immutable data := fun _ _ h =>
  (mapM_eq_ok.mp h).imp fun _ _ => SliceReader.readRange_eq_ok

-- ============================================================== writing

/-- An implementation of `SeekWrite`, as its calls see it: the buffers
passed so far, the number of calls made, and the error each call would
answer with. -/
structure Output where
  passed : List Bytes := []
  calls : Nat := 0
  fault : Nat → Option IoError := fun _ => none

/-- The bytes a writer has accepted when every call succeeded. -/
def Output.bytes (output : Output) : Bytes := output.passed.flatten

/-- Code that writes: it may fail, and the output it was given stays
changed when it does. -/
abbrev WriteM := EStateM FtIndexError Output

/-- `SeekWrite::write_all`. -/
def writeAll (buf : Bytes) : WriteM Unit := fun output =>
  let output' := { output with
    passed := output.passed ++ [buf]
    calls := output.calls + 1 }
  match output.fault output.calls with
  | none => .ok () output'
  | some error => .error (.io error) output'

/-- `SeekWrite::flush`. -/
def flush : WriteM Unit := fun output =>
  let output' := { output with calls := output.calls + 1 }
  match output.fault output.calls with
  | none => .ok () output'
  | some error => .error (.io error) output'

/-- A buffer that went through is at the end of those passed. -/
theorem passed_of_writeAll {buf : Bytes} {output output' : Output}
    (h : writeAll buf output = .ok () output') :
    output'.passed = output.passed ++ [buf] := by
  unfold writeAll at h
  split at h <;> cases h
  rfl

theorem passed_of_flush {output output' : Output}
    (h : flush output = .ok () output') : output'.passed = output.passed := by
  unfold flush at h
  split at h <;> cases h
  rfl

end PaimonFtindex.Model

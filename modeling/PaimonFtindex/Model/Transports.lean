/-
Inputs and outputs across the language borders: `FfiInputFile` and
`FfiOutputFile` of ffi/src/lib.rs, the callbacks that
python/paimon_ftindex/reader.py and writer.py put behind them, and
`JavaInput` and `JavaOutput` of jni/src/lib.rs.

What a callback or a Java object does is its own: it has a state, which
every call may change, and any call may fail. A buffer to read into comes
zeroed, so only its length is passed on.
-/
import PaimonFtindex.Model.Io

namespace PaimonFtindex.Model

variable {σ : Type}

/-- An implementation of `SeekWrite`, with its state. -/
structure Sink (σ : Type) where
  writeAll : Bytes → EStateM IoError σ Unit
  flush : EStateM IoError σ Unit

/-- `for range in ranges`, up to the first range that fails. -/
def readEach {ε : Type} (readRange : ReadRequest → EStateM ε σ Bytes) :
    List ReadRequest → EStateM ε σ (List Bytes)
  | [] => return []
  | range :: ranges => do
      let buf ← readRange range
      return buf :: (← readEach readRange ranges)

-- ============================================================ C callbacks

/-- `pread_fn`: a position and a buffer, answered with a status and the
buffer as the callback leaves it. -/
abbrev PreadFn (σ : Type) :=
  UInt64 → (len : Nat) → σ → (Int32 × { buf : Bytes // buf.length = len }) × σ

/-- One range of `FfiInputFile::pread`. -/
def FfiInputFile.readRange (preadFn : PreadFn σ) (range : ReadRequest) :
    EStateM IoError σ Bytes := fun s =>
  match preadFn range.pos range.len s with
  | ((status, buf), s) =>
      if status ≠ 0 then
        .error ⟨.other, s!"pread callback failed at offset {range.pos} length {range.len}"⟩ s
      else .ok buf s

/-- `FfiInputFile::pread`. -/
def FfiInputFile.pread (preadFn : Option (PreadFn σ))
    (ranges : List ReadRequest) : EStateM IoError σ (List Bytes) :=
  match preadFn with
  | none => throw ⟨.other, "pread_fn is null"⟩
  | some preadFn => readEach (FfiInputFile.readRange preadFn) ranges

/-- `write_fn` and `flush_fn`, answered with a status. -/
abbrev WriteFn (σ : Type) := Bytes → σ → Int32 × σ

abbrev FlushFn (σ : Type) := σ → Int32 × σ

/-- `FfiOutputFile::write_all`. -/
def FfiOutputFile.writeAll (writeFn : Option (WriteFn σ)) (buf : Bytes) :
    EStateM IoError σ Unit := fun s =>
  match writeFn with
  | none => .error ⟨.other, "write_fn is null"⟩ s
  | some writeFn =>
      match writeFn buf s with
      | (status, s) =>
          if status = 0 then .ok () s
          else .error ⟨.other, "write callback failed"⟩ s

/-- `FfiOutputFile::flush`. -/
def FfiOutputFile.flush (flushFn : Option (FlushFn σ)) :
    EStateM IoError σ Unit := fun s =>
  match flushFn with
  | none => .ok () s
  | some flushFn =>
      match flushFn s with
      | (status, s) =>
          if status ≠ 0 then .error ⟨.other, "flush callback failed"⟩ s
          else .ok () s

def FfiOutputFile.sink (writeFn : Option (WriteFn σ))
    (flushFn : Option (FlushFn σ)) : Sink σ where
  writeAll := FfiOutputFile.writeAll writeFn
  flush := FfiOutputFile.flush flushFn

-- ================================================================= Python

/-- How a call on a Python object ends. The callbacks catch every
`Exception`; what else may be raised, a `KeyboardInterrupt` or a
`SystemExit`, leaves them without a result, and the native side then finds
some `status`. -/
inductive PyAnswer (α : Type) where
  | returned (value : α)
  | raisedException
  | raisedOther (status : Int32)
  deriving DecidableEq, Repr

/-- The input object of a Python reader: `pread(pos, length)`. -/
abbrev PyInput (σ : Type) := Nat → Nat → σ → PyAnswer Bytes × σ

/-- `pread_fn` of `FullTextIndexReader.__init__`. -/
def pyPreadFn (input : PyInput σ) : PreadFn σ := fun pos len s =>
  match input pos.toNat len s with
  | (.returned data, s) =>
      if h : data.length = len then ((0, ⟨data, h⟩), s)
      else ((-1, ⟨List.replicate len 0, List.length_replicate⟩), s)
  | (.raisedException, s) =>
      ((-1, ⟨List.replicate len 0, List.length_replicate⟩), s)
  | (.raisedOther status, s) =>
      ((status, ⟨List.replicate len 0, List.length_replicate⟩), s)

/-- The output object of a Python writer: `write(data)` and, where it has
one, `flush()`. -/
structure PyOutput (σ : Type) where
  write : Bytes → σ → PyAnswer Unit × σ
  flush : Option (σ → PyAnswer Unit × σ)

/-- The status a callback answers with. -/
def PyAnswer.status : PyAnswer Unit → Int32
  | .returned () => 0
  | .raisedException => -1
  | .raisedOther status => status

/-- `write_fn` of `FullTextIndexWriter.write`. -/
def pyWriteFn (output : PyOutput σ) : WriteFn σ := fun buf s =>
  let (answer, s) := output.write buf s
  (answer.status, s)

/-- `flush_fn` of `FullTextIndexWriter.write`. -/
def pyFlushFn (output : PyOutput σ) : FlushFn σ := fun s =>
  match output.flush with
  | none => (0, s)
  | some flush =>
      let (answer, s) := flush s
      (answer.status, s)

-- =================================================================== Java

/-- A failure of the JVM or of a Java method, behind some words of the
source. -/
def jvmCall {α : Type} (words : String) (call : EStateM String σ α) :
    EStateM IoError σ α := fun s =>
  match call s with
  | .ok a s => .ok a s
  | .error e s => .error ⟨.other, words ++ e⟩ s

/-- The JVM as both directions see it: attaching the thread, and granting
a byte array. -/
structure JavaVm (σ : Type) where
  attachCurrentThread : EStateM String σ Unit
  grantsArray : Int32 → EStateM String σ Unit

/-- `new_byte_array`. -/
def JavaVm.newByteArray (jvm : JavaVm σ) (len : Int32) :
    EStateM String σ (List Int8) := do
  if len < 0 then throw "NegativeArraySizeException"
  jvm.grantsArray len
  return List.replicate len.toInt.toNat 0

/-- `JavaOutput`: the object's `write(buffer, offset, length)` and
`flush()`. -/
structure JavaOutput (σ : Type) where
  jvm : JavaVm σ
  writeMethod : List Int8 → Int32 → Int32 → EStateM String σ Unit
  flushMethod : EStateM String σ Unit

/-- `set_byte_array_region` from the start; the region's length is a
`jsize`. -/
def setByteArrayRegion (array signed : List Int8) :
    EStateM String σ (List Int8) := do
  let len := Int32.ofNat signed.length
  if len < 0 ∨ array.length < len.toInt.toNat then
    throw "ArrayIndexOutOfBoundsException"
  return signed.take len.toInt.toNat ++ array.drop len.toInt.toNat

/-- `JavaOutput::write_all`. -/
def JavaOutput.writeAll (self : JavaOutput σ) (buf : Bytes) :
    EStateM IoError σ Unit := do
  jvmCall "JNI attach failed: " self.jvm.attachCurrentThread
  let array ← jvmCall "new_byte_array failed: "
    (self.jvm.newByteArray (Int32.ofNat buf.length))
  let signed := buf.map UInt8.toInt8
  let array ← jvmCall "set_byte_array_region failed: "
    (setByteArrayRegion array signed)
  jvmCall "Java output write failed: "
    (self.writeMethod array 0 (Int32.ofNat buf.length))

/-- `JavaOutput::flush`. -/
def JavaOutput.flush (self : JavaOutput σ) : EStateM IoError σ Unit := do
  jvmCall "JNI attach failed: " self.jvm.attachCurrentThread
  jvmCall "Java output flush failed: " self.flushMethod

def JavaOutput.sink (self : JavaOutput σ) : Sink σ where
  writeAll := self.writeAll
  flush := self.flush

/-- What `JavaInput::pread` fails with: one kind of error is its own. -/
inductive JavaReadError where
  | io (error : IoError)
  | invalidData (message : String)
  deriving DecidableEq, Repr

/-- `JavaInput`: the object's `pread(position, buffer, offset, length)`,
which cannot change how long the array is, and the two calls that read
the array. -/
structure JavaInput (σ : Type) where
  jvm : JavaVm σ
  preadMethod : Int64 → (buffer : List Int8) → Int32 → Int32 →
    EStateM String σ { array : List Int8 // array.length = buffer.length }
  getArrayLength : EStateM String σ Unit
  getByteArrayRegion : EStateM String σ Unit

def javaIo {α : Type} (m : EStateM IoError σ α) : EStateM JavaReadError σ α :=
  fun s =>
    match m s with
    | .ok a s => .ok a s
    | .error e s => .error (.io e) s

/-- `copy_java_buffer`, into a buffer of `len` bytes. -/
def copyJavaBuffer (self : JavaInput σ) (buffer : List Int8) (len : Nat) :
    EStateM JavaReadError σ Bytes := do
  javaIo (jvmCall "get_array_length failed: " self.getArrayLength)
  if buffer.length ≠ len then
    throw (.invalidData s!"Java pread returned buffer length {buffer.length} != {len}")
  if 0 < buffer.length then
    javaIo (jvmCall "get_byte_array_region failed: " self.getByteArrayRegion)
  return buffer.map Int8.toUInt8

/-- One range of `JavaInput::pread`. -/
def JavaInput.readRange (self : JavaInput σ) (range : ReadRequest) :
    EStateM JavaReadError σ Bytes := do
  if 2 ^ 63 ≤ range.pos.toNat then
    throw (.io ⟨.invalidInput, "offset overflow"⟩)
  if 2 ^ 31 ≤ range.len then
    throw (.io ⟨.invalidInput, "range too large"⟩)
  let length := Int32.ofNat range.len
  let buffer ← javaIo (jvmCall "new_byte_array failed: "
    (self.jvm.newByteArray length))
  let buffer ← javaIo (jvmCall "Java input pread failed: "
    (self.preadMethod range.pos.toInt64 buffer 0 length))
  copyJavaBuffer self buffer range.len

/-- `JavaInput::pread`. -/
def JavaInput.pread (self : JavaInput σ) (ranges : List ReadRequest) :
    EStateM JavaReadError σ (List Bytes) := do
  javaIo (jvmCall "JNI attach failed: " self.jvm.attachCurrentThread)
  readEach self.readRange ranges

end PaimonFtindex.Model

/-
The C boundary under the Python writer: `add_document_fields` of
src/python/paimon_ftindex/writer.py, and the functions of
src/ffi/src/lib.rs behind it.

A Python string is a list of code points, surrogates included; encoding
it raises on those. What crosses is a pointer to the encoded bytes, which
CPython ends with a NUL, and `CStr` reads up to the first one. The
pointers stay alive during the call, and the arrays hold as many of them
as the length says.

The Rust functions fail with texts; `FfiError` keeps them, apart from
those of the standard library and of the crate's own errors.
-/
import PaimonFtindex.Model.Writer

namespace PaimonFtindex.Model

-- =============================================================== failures

/-- How a native call fails: with a text of its own, with a text of the
standard library behind the name of a string, or with an error of the
crate. -/
inductive FfiError where
  | text (message : String)
  | notUtf8 (name : String)
  | core (error : FtIndexError)
  deriving DecidableEq, Repr

/-- What a call on the Python writer raises; a native failure is a
`RuntimeError` with its text. -/
inductive PyError where
  | runtimeError (message : String)
  | valueError (message : String)
  | unicodeEncodeError
  | native (error : FfiError)
  deriving DecidableEq, Repr

-- ======================================================= Python strings

/-- A Unicode code point, which may be a surrogate. -/
structure CodePoint where
  val : Nat
  valid : val < 0x110000
  deriving DecidableEq, Repr

/-- The character of a code point; surrogates have none. -/
def CodePoint.char? (c : CodePoint) : Option Char :=
  if h : c.val.isValidChar then some (Char.ofNatAux c.val h) else none

/-- `str`. -/
abbrev PyStr := List CodePoint

/-- `s.encode("utf-8")`. -/
def encodeUtf8 : PyStr → Except PyError Bytes
  | [] => return []
  | c :: s =>
      match c.char? with
      | none => throw .unicodeEncodeError
      | some char => do
          let bytes ← encodeUtf8 s
          return String.utf8EncodeChar char ++ bytes

/-- The memory a `c_char_p` made from a `bytes` object points to. -/
def charPointer (bytes : Bytes) : Bytes := bytes ++ [0]

-- ====================================================== the native side

/-- `*const c_char`: null, or the memory it points to. -/
abbrev CharPtr := Option Bytes

/-- `CStr::from_ptr`: the bytes up to the first NUL. -/
def cstrFromPtr (memory : Bytes) : Bytes := memory.takeWhile (· ≠ 0)

def cstrToString (ptr : CharPtr) (name : String) : Except FfiError String :=
  match ptr with
  | none => .error (.text s!"{name} is null")
  | some memory =>
      match String.fromUTF8? ⟨(cstrFromPtr memory).toArray⟩ with
      | some s => .ok s
      | none => .error (.notUtf8 name)

/-- The loop of `fields_from_raw`. -/
def readFields : List (CharPtr × CharPtr) →
    Except FfiError (List (String × String))
  | [] => return []
  | (fieldName, text) :: rest => do
      let fieldName ← cstrToString fieldName "field name"
      let text ← cstrToString text "field text"
      return (fieldName, text) :: (← readFields rest)

def fieldsFromRaw (fieldNames texts : Option (List CharPtr)) (len : Nat) :
    Except FfiError (List (String × String)) :=
  if len = 0 then .error (.text "document fields must not be empty")
  else match fieldNames, texts with
    | none, _ => .error (.text "field_names is null")
    | some _, none => .error (.text "texts is null")
    | some fieldNames, some texts =>
        readFields ((fieldNames.take len).zip (texts.take len))

/-- `paimon_ftindex_writer_add_document_fields` on a live writer. -/
def writerAddDocumentFields (session : IndexSession)
    (answer : Except TantivyError Unit) (rowId : Int64)
    (fieldNames texts : Option (List CharPtr)) (len : Nat) :
    Except FfiError Unit × IndexSession :=
  match fieldsFromRaw fieldNames texts len with
  | .error e => (.error e, session)
  | .ok fields =>
      match session.addDocumentFields answer rowId fields with
      | (.ok (), session) => (.ok (), session)
      | (.error e, session) => (.error (.core e), session)

-- ===================================================== the Python writer

/-- The Python `FullTextIndexWriter`, its native writer live until it is
closed. -/
structure PyWriter where
  closed : Bool
  session : IndexSession

/-- `[str(s).encode("utf-8") for s in strings]`. -/
def encodeAll (strings : List PyStr) : Except PyError (List Bytes) :=
  strings.mapM encodeUtf8

/-- The arrays of pointers for `items`: the names', then the texts'. -/
def encodeItems (items : List (PyStr × PyStr)) :
    Except PyError (List CharPtr × List CharPtr) := do
  let names ← encodeAll (items.map Prod.fst)
  let texts ← encodeAll (items.map Prod.snd)
  return (names.map fun bytes => some (charPointer bytes),
    texts.map fun bytes => some (charPointer bytes))

/-- `FullTextIndexWriter.add_document_fields`; `c_int64` wraps the row
id. -/
def PyWriter.addDocumentFields (self : PyWriter)
    (answer : Except TantivyError Unit) (rowId : Int)
    (items : List (PyStr × PyStr)) : Except PyError Unit × PyWriter :=
  if self.closed then
    (.error (.runtimeError "FullTextIndexWriter is closed"), self)
  else if items.isEmpty then
    (.error (.valueError "document fields must not be empty"), self)
  else match encodeItems items with
    | .error e => (.error e, self)
    | .ok (nameArray, textArray) =>
        match writerAddDocumentFields self.session answer (Int64.ofInt rowId)
            (some nameArray) (some textArray) items.length with
        | (.ok (), session) => (.ok (), { self with session })
        | (.error e, session) =>
            (.error (.native e), { self with session })

end PaimonFtindex.Model

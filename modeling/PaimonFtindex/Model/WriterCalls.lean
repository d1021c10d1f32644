/-
Writing through the bindings: python/paimon_ftindex/writer.py over
ffi/src/lib.rs, and FullTextIndexWriter.java over jni/src/lib.rs, from
the options a writer is opened with to the call that closes it.

A `HashMap` is the list of its entries, one for each key; the order in
which it is walked is its own (`iter`). A live handle is the session in
it; how handles live and die is in Model/Handles.lean.
-/
import PaimonFtindex.Model.Ffi
import PaimonFtindex.Model.SearchCalls

namespace PaimonFtindex.Model

-- ============================================================= the options

/-- `options.insert(key, value)`. -/
def insertOption (options : List OptionEntry) (key value : String) :
    List OptionEntry :=
  (key, value) :: options.filter fun entry => entry.1 ≠ key

/-- An error of the crate as the text of a native failure. -/
def coreError {α : Type} (result : Result α) : Except FfiError α :=
  match result with
  | .ok x => .ok x
  | .error e => .error (.core e)

section
variable [UnicodeCase] (env : CreateEnv)
  (iter : List OptionEntry → List OptionEntry)

/-- The end of `paimon_ftindex_writer_open` and of `create_writer`. -/
def openSessionWith (options : List OptionEntry) :
    Except FfiError IndexSession := do
  let config ← coreError (FullTextIndexConfig.fromOptions (iter options))
  let writer ← coreError (FullTextIndexWriter.new env config)
  return { writer }

end

-- ========================================================= the C boundary

/-- The loop of `options_from_raw`. -/
def readOptions (options : List OptionEntry) :
    List (CharPtr × CharPtr) → Except FfiError (List OptionEntry)
  | [] => return options
  | (key, value) :: rest => do
      let key ← cstrToString key "option key"
      let value ← cstrToString value "option value"
      readOptions (insertOption options key value) rest

def optionsFromRaw (keys values : Option (List CharPtr)) (len : Nat) :
    Except FfiError (List OptionEntry) :=
  if len = 0 then .ok []
  else match keys, values with
    | none, _ => .error (.text "keys is null")
    | some _, none => .error (.text "values is null")
    | some keys, some values =>
        readOptions [] ((keys.take len).zip (values.take len))

/-- `paimon_ftindex_writer_open`. -/
def writerOpen [UnicodeCase] (env : CreateEnv)
    (iter : List OptionEntry → List OptionEntry)
    (keys values : Option (List CharPtr)) (len : Nat) :
    Except FfiError IndexSession := do
  let options ← optionsFromRaw keys values len
  openSessionWith env iter options

/-- `paimon_ftindex_writer_add_document` on a live writer. -/
def writerAddDocument (session : IndexSession)
    (answer : Except TantivyError Unit) (rowId : Int64) (text : CharPtr) :
    Except FfiError Unit × IndexSession :=
  match cstrToString text "text" with
  | .error e => (.error e, session)
  | .ok text =>
      match session.addDocument answer rowId text with
      | (.ok (), session) => (.ok (), session)
      | (.error e, session) => (.error (.core e), session)

/-- `paimon_ftindex_writer_write_index` on a live writer. -/
def writerWriteIndex (session : IndexSession) (env : WriteEnv)
    (output : Output) : Except FfiError Unit × IndexSession × Output :=
  match session.write env output with
  | (.ok (), session, output) => (.ok (), session, output)
  | (.error e, session, output) => (.error (.core e), session, output)

-- ===================================================== the Python writer

/-- `options.items()` as arrays; without options there are no arrays. -/
def optionArrays (options : List (PyStr × PyStr)) :
    Except PyError (Option (List CharPtr) × Option (List CharPtr)) := do
  let (keys, values) ← encodeItems options
  return if options.isEmpty then (none, none) else (some keys, some values)

/-- `FullTextIndexWriter.__init__`. -/
def PyWriter.create [UnicodeCase] (env : CreateEnv)
    (iter : List OptionEntry → List OptionEntry)
    (options : List (PyStr × PyStr)) : Except PyError PyWriter := do
  let (keys, values) ← optionArrays options
  match writerOpen env iter keys values options.length with
  | .ok session => return { closed := false, session }
  | .error e => throw (.native e)

/-- What `add_document` takes as its text: a string, or a dict. -/
inductive PyText where
  | str (s : PyStr)
  | dict (fields : List (PyStr × PyStr))

/-- `FullTextIndexWriter.add_document`. -/
def PyWriter.addDocument (self : PyWriter) (answer : Except TantivyError Unit)
    (rowId : Int) (text : PyText) (column : Option PyStr) :
    Except PyError Unit × PyWriter :=
  if self.closed then
    (.error (.runtimeError "FullTextIndexWriter is closed"), self)
  else match text, column with
    | .dict _, some _ =>
        (.error (.valueError "column must not be set when text is a dict"), self)
    | .dict fields, none => self.addDocumentFields answer rowId fields
    | .str text, some column =>
        self.addDocumentFields answer rowId [(column, text)]
    | .str text, none =>
        match encodeUtf8 text with
        | .error e => (.error e, self)
        | .ok bytes =>
            match writerAddDocument self.session answer (Int64.ofInt rowId)
                (some (charPointer bytes)) with
            | (.ok (), session) => (.ok (), { self with session })
            | (.error e, session) => (.error (.native e), { self with session })

/-- `FullTextIndexWriter.write`. -/
def PyWriter.write (self : PyWriter) (env : WriteEnv) (output : Output) :
    Except PyError Unit × PyWriter × Output :=
  if self.closed then
    (.error (.runtimeError "FullTextIndexWriter is closed"), self, output)
  else match writerWriteIndex self.session env output with
    | (.ok (), session, output) => (.ok (), { self with session }, output)
    | (.error e, session, output) =>
        (.error (.native e), { self with session }, output)

/-- `FullTextIndexWriter.close`. -/
def PyWriter.close (self : PyWriter) : PyWriter := { self with closed := true }

-- =================================================== the JNI boundary

/-- The JVM behind `JNIEnv` where strings are read: what it makes of a
reference to a string, and whether it gives an array's length, an array's
element, itself, and a global reference. -/
structure JniStrings (S : Type) where
  getString : Option S → Except String String
  getArrayLength : Except String Unit
  getObjectArrayElement : Nat → Except String Unit
  getJavaVm : Except String Unit
  newGlobalRef : Except String Unit

section
variable {S : Type} (jni : JniStrings S)

/-- One entry of two arrays of strings. -/
def readPair (i : Nat) (pair : Option S × Option S) :
    Except JavaError (String × String) := do
  jvmError "" (jni.getObjectArrayElement i)
  jvmError "" (jni.getObjectArrayElement i)
  let key ← jvmError "" (jni.getString pair.1)
  let value ← jvmError "" (jni.getString pair.2)
  return (key, value)

/-- The loop of `options_from_arrays`. -/
def readOptionPairs (options : List OptionEntry) (i : Nat) :
    List (Option S × Option S) → Except JavaError (List OptionEntry)
  | [] => return options
  | pair :: pairs => do
      let (key, value) ← readPair jni i pair
      readOptionPairs (insertOption options key value) (i + 1) pairs

/-- `options_from_arrays`. -/
def optionsFromArrays (keys values : List (Option S)) :
    Except JavaError (List OptionEntry) := do
  jvmError "" jni.getArrayLength
  jvmError "" jni.getArrayLength
  if keys.length ≠ values.length then
    throw (.native (.text s!"keys length {keys.length} does not match values length {values.length}"))
  readOptionPairs jni [] 0 (keys.zip values)

/-- The loop of `string_pair_arrays`. -/
def readFieldPairs (i : Nat) :
    List (Option S × Option S) → Except JavaError (List (String × String))
  | [] => return []
  | pair :: pairs => do
      let field ← readPair jni i pair
      return field :: (← readFieldPairs (i + 1) pairs)

/-- `string_pair_arrays`. -/
def stringPairArrays (keys values : List (Option S)) :
    Except JavaError (List (String × String)) := do
  jvmError "" jni.getArrayLength
  jvmError "" jni.getArrayLength
  if keys.length ≠ values.length then
    throw (.native (.text s!"fieldNames length {keys.length} does not match texts length {values.length}"))
  if keys.isEmpty then
    throw (.native (.text "document fields must not be empty"))
  readFieldPairs jni 0 (keys.zip values)

/-- The end of a native call on a writer. -/
def coreStep {α : Type} (step : Result Unit × α) : Except JavaError Unit × α :=
  match step with
  | (.ok (), a) => (.ok (), a)
  | (.error e, a) => (.error (.native (.core e)), a)

/-- `add_document` of jni/src/lib.rs on a live writer. -/
def jniAddDocument (session : IndexSession) (answer : Except TantivyError Unit)
    (rowId : Int64) (text : Option S) :
    Except JavaError Unit × IndexSession :=
  match jvmError "failed to read text: " (jni.getString text) with
  | .error e => (.error e, session)
  | .ok text => coreStep (session.addDocument answer rowId text)

/-- `add_document_fields` of jni/src/lib.rs on a live writer. -/
def jniAddDocumentFields (session : IndexSession)
    (answer : Except TantivyError Unit) (rowId : Int64)
    (fieldNames texts : List (Option S)) :
    Except JavaError Unit × IndexSession :=
  match stringPairArrays jni fieldNames texts with
  | .error e => (.error e, session)
  | .ok fields => coreStep (session.addDocumentFields answer rowId fields)

/-- `write_index` of jni/src/lib.rs on a live writer. -/
def jniWriteIndex (session : IndexSession) (env : WriteEnv) (output : Output) :
    Except JavaError Unit × IndexSession × Output :=
  match jvmError "" jni.getJavaVm, jvmError "" jni.newGlobalRef with
  | .error e, _ => (.error e, session, output)
  | .ok (), .error e => (.error e, session, output)
  | .ok (), .ok () => coreStep (session.write env output)

-- ======================================================= the Java writer

/-- The Java `FullTextIndexWriter`, its native writer live until it is
closed. -/
structure JavaWriter where
  closed : Bool
  session : IndexSession

/-- A `Map<String, String>`, in the order its entries come in. -/
abbrev JavaMap (S : Type) := List (Option S × Option S)

/-- `FullTextIndexWriter.create`. -/
def JavaWriter.create [UnicodeCase] (env : CreateEnv)
    (iter : List OptionEntry → List OptionEntry)
    (options : Option (JavaMap S)) : Except JavaError JavaWriter := do
  let entries := options.getD []
  let options ← optionsFromArrays jni (entries.map Prod.fst)
    (entries.map Prod.snd)
  match openSessionWith env iter options with
  | .ok session => return { closed := false, session }
  | .error e => throw (.native e)

def writerClosed : JavaError := .illegalState "FullTextIndexWriter is closed"

/-- `addDocument(rowId, text)`. -/
def JavaWriter.addDocument (self : JavaWriter)
    (answer : Except TantivyError Unit) (rowId : Int64) (text : Option S) :
    Except JavaError Unit × JavaWriter :=
  if self.closed then (.error writerClosed, self)
  else
    let (result, session) := jniAddDocument jni self.session answer rowId text
    (result, { self with session })

/-- `addDocument(rowId, fields)`. -/
def JavaWriter.addDocumentFields (self : JavaWriter)
    (answer : Except TantivyError Unit) (rowId : Int64)
    (fields : Option (JavaMap S)) : Except JavaError Unit × JavaWriter :=
  match fields with
  | none => (.error (.nullPointer "fields"), self)
  | some fields =>
      if self.closed then (.error writerClosed, self)
      else
        let (result, session) := jniAddDocumentFields jni self.session answer
          rowId (fields.map Prod.fst) (fields.map Prod.snd)
        (result, { self with session })

/-- `writeIndex`; a reference to an output may be null. -/
def JavaWriter.writeIndex (self : JavaWriter) (env : WriteEnv)
    (output : Option Output) :
    Except JavaError Unit × JavaWriter × Option Output :=
  match output with
  | none => (.error (.nullPointer "output"), self, none)
  | some output =>
      if self.closed then (.error writerClosed, self, some output)
      else
        let (result, session, output) := jniWriteIndex jni self.session env output
        (result, { self with session }, some output)

end

/-- `close`. -/
def JavaWriter.close (self : JavaWriter) : JavaWriter :=
  { self with closed := true }

end PaimonFtindex.Model

/-
Searching through the bindings: `search_impl` of ffi/src/lib.rs under
python/paimon_ftindex/reader.py, and `search` of jni/src/lib.rs under
FullTextIndexReader.java.

A pointer to an array is null or the slots from there on, as many as the
caller has. `copy_nonoverlapping` does not ask how many: what it copies
past the last slot is memory of something else, and shows in the model as
a list that has grown.

A live handle is the reader in it; how handles live and die is in
Model/Handles.lean.
-/
import PaimonFtindex.Model.Ffi
import PaimonFtindex.Model.Search

namespace PaimonFtindex.Model

-- ========================================================= the C boundary

/-- `ptr::copy_nonoverlapping(source, target, source.len())`. -/
def copyNonoverlapping {α : Type} (source target : List α) : List α :=
  source ++ target.drop source.length

/-- `SearchRequest`; the memory it points to belongs to the caller. -/
structure SearchRequest where
  query : CharPtr
  limit : UInt64
  roaringFilter : Option Bytes
  rowIds : Option (List Int64)
  scores : Option (List F32)
  capacity : UInt64
  resultLen : Option UInt64

section
variable {P : Type} (crates : SearchCrates P) [F32Display]

/-- What `search_impl` asks the reader: with or without a filter. -/
def searchRequest (reader : FullTextIndexReader) (query : String)
    (limit : UInt64) (roaringFilter : Option Bytes) :
    Result FullTextSearchResult :=
  match roaringFilter with
  | some roaringFilter =>
      reader.searchWithRoaringFilter crates query limit roaringFilter
  | none => reader.search crates query limit

/-- The end of `search_impl`, with the result at hand. -/
def copyResult (request : SearchRequest) (result : FullTextSearchResult) :
    Except FfiError Unit × SearchRequest :=
  let request :=
    { request with resultLen := some (UInt64.ofNat result.rowIds.length) }
  if request.capacity.toNat < result.rowIds.length then
    (.error (.text s!"result capacity {request.capacity} is smaller than result length {result.rowIds.length}"),
      request)
  else if result.rowIds.isEmpty then (.ok (), request)
  else match request.rowIds, request.scores with
    | none, _ => (.error (.text "row_ids is null"), request)
    | some _, none => (.error (.text "scores is null"), request)
    | some rowIds, some scores =>
        (.ok (),
          { request with
            rowIds := some (copyNonoverlapping result.rowIds rowIds)
            scores := some (copyNonoverlapping result.scores scores) })

/-- `search_impl`: how it ends, and the memory of the request then. -/
def searchImpl (reader : FullTextIndexReader) (request : SearchRequest) :
    Except FfiError Unit × SearchRequest :=
  match request.resultLen with
  | none => (.error (.text "result_len is null"), request)
  | some _ =>
      match cstrToString request.query "query" with
      | .error e => (.error e, request)
      | .ok query =>
          match searchRequest crates reader query request.limit
              request.roaringFilter with
          | .error e => (.error (.core e), request)
          | .ok result => copyResult request result

/-- `require_ref`. -/
def requireRef {α : Type} (ptr : Option α) (name : String) :
    Except FfiError α :=
  match ptr with
  | some x => .ok x
  | none => .error (.text s!"{name} is null")

/-- `const_slice`: no bytes asked for are no bytes, whatever the
pointer. -/
def constSlice (ptr : Option Bytes) (len : UInt64) (name : String) :
    Except FfiError Bytes :=
  if len = 0 then .ok []
  else match ptr with
    | none => .error (.text s!"{name} is null")
    | some memory => .ok (memory.take len.toNat)

/-- `paimon_ftindex_reader_search`; the request has no filter. -/
def readerSearch (reader : Option FullTextIndexReader)
    (request : SearchRequest) : Except FfiError Unit × SearchRequest :=
  match requireRef reader "reader" with
  | .error e => (.error e, request)
  | .ok reader => searchImpl crates reader { request with roaringFilter := none }

/-- `paimon_ftindex_reader_search_with_roaring_filter`. -/
def readerSearchWithRoaringFilter (reader : Option FullTextIndexReader)
    (roaringFilter : Option Bytes) (roaringFilterLen : UInt64)
    (request : SearchRequest) : Except FfiError Unit × SearchRequest :=
  match requireRef reader "reader" with
  | .error e => (.error e, request)
  | .ok reader =>
      match constSlice roaringFilter roaringFilterLen "roaring_filter" with
      | .error e => (.error e, request)
      | .ok filter =>
          searchImpl crates reader { request with roaringFilter := some filter }

-- ===================================================== the Python reader

/-- What a search raises, beside what the writer raises. -/
inductive PySearchError where
  | py (error : PyError)
  | overflowError
  | memoryError
  deriving DecidableEq, Repr

/-- `(T * length)()` for a type of `itemSize` bytes: `length` zeros, when
the array has a size and `allocates` grants it. -/
def ctypesArray {α : Type} (allocates : Nat → Bool) (itemSize : Nat) (zero : α)
    (length : Int) : Except PySearchError (List α) :=
  if length < -2 ^ 63 ∨ 2 ^ 63 ≤ length then .error .overflowError
  else if length < 0 then
    .error (.py (.valueError s!"Array length must be >= 0, not {length}"))
  else if 2 ^ 63 ≤ length.toNat * itemSize then .error .overflowError
  else if allocates (length.toNat * itemSize) then
    .ok (List.replicate length.toNat zero)
  else .error .memoryError

/-- The Python `FullTextIndexReader`, its native reader live until it is
closed. -/
structure PyReader where
  closed : Bool
  reader : Option FullTextIndexReader

/-- `query.encode("utf-8")` in an argument list. -/
def encodeQuery (query : PyStr) : Except PySearchError Bytes :=
  match encodeUtf8 query with
  | .ok bytes => .ok bytes
  | .error e => .error (.py e)

/-- `check_status` and the slices behind it. -/
def pyResult : Except FfiError Unit × SearchRequest →
    Except PySearchError (List Int64 × List F32)
  | (.error e, _) => .error (.py (.native e))
  | (.ok (), request) =>
      let size := (request.resultLen.getD 0).toNat
      .ok ((request.rowIds.getD []).take size,
        (request.scores.getD []).take size)

/-- `FullTextIndexReader.search`. -/
def PyReader.search (allocates : Nat → Bool) (self : PyReader) (query : PyStr)
    (limit : Int) (filterBytes : Option Bytes) :
    Except PySearchError (List Int64 × List F32) :=
  if self.closed then
    .error (.py (.runtimeError "FullTextIndexReader is closed"))
  else do
    let rowIds ← ctypesArray allocates 8 (0 : Int64) limit
    let scores ← ctypesArray allocates 4 (⟨0⟩ : F32) limit
    let capacity := UInt64.ofNat limit.toNat
    match filterBytes with
    | none =>
        let query ← encodeQuery query
        pyResult (readerSearch crates self.reader
          { query := some (charPointer query), limit := capacity
            roaringFilter := none, rowIds := some rowIds
            scores := some scores, capacity := capacity, resultLen := some 0 })
    | some filterBytes =>
        let _ ← ctypesArray allocates 1 (0 : UInt8) filterBytes.length
        let query ← encodeQuery query
        pyResult (readerSearchWithRoaringFilter crates self.reader
          (some filterBytes) (UInt64.ofNat filterBytes.length)
          { query := some (charPointer query), limit := capacity
            roaringFilter := none, rowIds := some rowIds
            scores := some scores, capacity := capacity, resultLen := some 0 })

end

-- ======================================================= the Java reader

/-- The JVM behind `JNIEnv`: what it makes of a Java string and of a byte
array, and whether it grants an array of a length, or an object. -/
structure JniEnv (S : Type) where
  getString : S → Except String String
  convertByteArray : Bytes → Except String Bytes
  grantsArray : Int32 → Except String Unit
  newObject : Except String Unit

/-- What a search throws: the checks of the Java method, and a
`RuntimeException` with the text of a native failure. -/
inductive JavaError where
  | nullPointer (name : String)
  | illegalArgument (message : String)
  | illegalState (message : String)
  | jvm (message : String)
  | native (error : FfiError)
  deriving DecidableEq, Repr

/-- A failure of the JVM, behind some words of the source. -/
def jvmError {α : Type} (words : String) (result : Except String α) :
    Except JavaError α :=
  match result with
  | .ok x => .ok x
  | .error e => .error (.jvm (words ++ e))

/-- `validate_search_limit`. -/
def validateSearchLimit (limit : Int32) : Except JavaError UInt64 :=
  if limit ≤ 0 then .error (.native (.text "search limit must be positive"))
  else .ok (UInt64.ofInt limit.toInt)

/-- `new_long_array` and the like: zeros. -/
def newArray {S α : Type} (env : JniEnv S) (zero : α) (len : Int32) :
    Except JavaError (List α) :=
  if len < 0 then .error (.jvm "NegativeArraySizeException")
  else do
    jvmError "" (env.grantsArray len)
    return List.replicate len.toInt.toNat zero

/-- `set_long_array_region` and the like, from the start of the array; the
length of the region is a `jsize`. -/
def setArrayRegion {α : Type} (array values : List α) :
    Except JavaError (List α) :=
  let len := Int32.ofNat values.length
  if len < 0 ∨ array.length < len.toInt.toNat then
    .error (.jvm "ArrayIndexOutOfBoundsException")
  else .ok (values.take len.toInt.toNat ++ array.drop len.toInt.toNat)

/-- A Java array of the values, their number cast to an `i32`. -/
def javaArray {S α : Type} (env : JniEnv S) (zero : α) (values : List α) :
    Except JavaError (List α) := do
  let array ← newArray env zero (Int32.ofNat values.length)
  setArrayRegion array values

section
variable {P : Type} (crates : SearchCrates P) [F32Display] {S : Type}

/-- `read_byte_array`. -/
def readByteArray (env : JniEnv S) (array : Option Bytes) :
    Except JavaError Bytes :=
  match array with
  | none => .error (.native (.text "roaringFilter is null"))
  | some bytes => jvmError "failed to read roaringFilter: "
      (env.convertByteArray bytes)

/-- The end of `search`: the Java object of the result. -/
def javaResult (env : JniEnv S) (result : FullTextSearchResult) :
    Except JavaError FullTextSearchResult := do
  let rowIds ← javaArray env (0 : Int64) result.rowIds
  let scores ← javaArray env (⟨0⟩ : F32) result.scores
  jvmError "" env.newObject
  return { rowIds, scores }

/-- The core's answer, its error as a text. -/
def coreAnswer (result : Result FullTextSearchResult) :
    Except JavaError FullTextSearchResult :=
  match result with
  | .ok result => .ok result
  | .error e => .error (.native (.core e))

/-- `search` of jni/src/lib.rs; the handle is not null here. -/
def jniSearch (env : JniEnv S) (reader : FullTextIndexReader) (query : S)
    (limit : Int32) (roaringFilter : Option (Option Bytes)) :
    Except JavaError FullTextSearchResult := do
  let query ← jvmError "failed to read query: " (env.getString query)
  let limit ← validateSearchLimit limit
  let result ← match roaringFilter with
    | some roaringFilter => do
        let roaringFilter ← readByteArray env roaringFilter
        coreAnswer (reader.searchWithRoaringFilter crates query limit
          roaringFilter)
    | none => coreAnswer (reader.search crates query limit)
  javaResult env result

/-- The Java `FullTextIndexReader`, its native reader live until it is
closed. -/
structure JavaReader where
  reader : Option FullTextIndexReader

/-- `search(query, limit)` and `search(query, limit, roaringFilter)`. -/
def JavaReader.search (env : JniEnv S) (self : JavaReader) (query : Option S)
    (limit : Int32) (roaringFilter : Option (Option Bytes)) :
    Except JavaError FullTextSearchResult :=
  match query with
  | none => .error (.nullPointer "query")
  | some query =>
      if limit ≤ 0 then
        .error (.illegalArgument "search limit must be positive")
      else if roaringFilter = some none then
        .error (.nullPointer "roaringFilter")
      else match self.reader with
        | none => .error (.illegalState "FullTextIndexReader is closed")
        | some reader => jniSearch crates env reader query limit roaringFilter

end

end PaimonFtindex.Model

/-
core/src/archive_directory.rs: the read-only directory over an archive,
its file handles and the block cache they share.

A `read_bytes` call is a program over the cache and the input: it locks
the cache to look a block up, reads, and locks it again to insert, and
other calls run in between. `CacheOp` lists those atomic steps, and the
functions of a handle are programs over them, line by line. What a step
does to the shared cache is `cacheStep`; a `pread` may fail whenever it
likes.

Panics are failures of their own kind, apart from I/O errors. `usize` is
64 bits wide.
-/
import Mathlib.Data.List.AList
import PaimonFtindex.Lib.Interleave
import PaimonFtindex.Model.Storage

namespace PaimonFtindex.Model

open Lib

def readCacheBlockBytes : UInt64 := 64 * 1024

def readCacheMaxBlocks : Nat := 256

-- ============================================================ the metrics

/-- `ReadMetrics`: counters updated by wrapping `fetch_add`s. -/
structure ReadMetrics where
  preadCalls : UInt64 := 0
  preadRanges : UInt64 := 0
  preadBytes : UInt64 := 0
  cacheHits : UInt64 := 0
  cacheMisses : UInt64 := 0
  cacheEvictions : UInt64 := 0
  cachedBlocks : UInt64 := 0
  deriving DecidableEq, Repr

namespace ReadMetrics

/-- `record_pread` of one request. -/
def recordPread (m : ReadMetrics) (len : UInt64) : ReadMetrics :=
  { m with
    preadCalls := m.preadCalls + 1
    preadRanges := m.preadRanges + 1
    preadBytes := m.preadBytes + len }

def recordCacheHit (m : ReadMetrics) : ReadMetrics :=
  { m with cacheHits := m.cacheHits + 1 }

def recordCacheMiss (m : ReadMetrics) : ReadMetrics :=
  { m with cacheMisses := m.cacheMisses + 1 }

def recordCacheInsert (m : ReadMetrics) : ReadMetrics :=
  { m with cachedBlocks := m.cachedBlocks + 1 }

def recordCacheEviction (m : ReadMetrics) : ReadMetrics :=
  { m with
    cacheEvictions := m.cacheEvictions + 1
    cachedBlocks := m.cachedBlocks - 1 }

end ReadMetrics

-- ============================================================== the cache

/-- `ArchiveReadCacheInner`: blocks by their absolute position, and the
positions in insertion order. -/
structure ArchiveReadCacheInner where
  blocks : AList (fun _ : UInt64 => Bytes) := ∅
  order : List UInt64 := []

/-- `ArchiveReadCache` and the metrics it updates. Its mutex is poisoned
once a thread has panicked with the lock held. -/
structure ArchiveReadCache where
  inner : ArchiveReadCacheInner := {}
  metrics : ReadMetrics := {}
  poisoned : Bool := false

def lockPoisoned : IoError := ⟨.other, "archive read cache lock poisoned"⟩

/-- `ArchiveReadCache::get`. -/
def ArchiveReadCache.get (cache : ArchiveReadCache) (pos : UInt64) :
    Except IoError (Option Bytes) × ArchiveReadCache :=
  if cache.poisoned then (.error lockPoisoned, cache)
  else match cache.inner.blocks.lookup pos with
    | some block =>
        (.ok (some block),
          { cache with metrics := cache.metrics.recordCacheHit })
    | none => (.ok none, cache)

/-- The `while` loop of `insert`: evict in insertion order until there
is room. -/
def evict (blocks : AList (fun _ : UInt64 => Bytes)) (metrics : ReadMetrics) :
    List UInt64 → ArchiveReadCacheInner × ReadMetrics
  | [] => ({ blocks, order := [] }, metrics)
  | evicted :: order =>
      if readCacheMaxBlocks ≤ blocks.entries.length then
        evict (blocks.erase evicted) metrics.recordCacheEviction order
      else ({ blocks, order := evicted :: order }, metrics)

/-- `ArchiveReadCache::insert`: a block already there wins. -/
def ArchiveReadCache.insert (cache : ArchiveReadCache) (pos : UInt64)
    (block : Bytes) : Except IoError Bytes × ArchiveReadCache :=
  if cache.poisoned then (.error lockPoisoned, cache)
  else match cache.inner.blocks.lookup pos with
    | some existing => (.ok existing, cache)
    | none =>
        let (inner, metrics) :=
          evict cache.inner.blocks cache.metrics cache.inner.order
        (.ok block,
          { cache with
            inner :=
              { blocks := inner.blocks.insert pos block
                order := inner.order ++ [pos] }
            metrics := metrics.recordCacheInsert })

-- ======================================================= the atomic steps

/-- The atomic steps of a `read_bytes` call. -/
inductive CacheOp where
  | get (pos : UInt64)
  | recordMiss
  | pread (pos : UInt64) (len : UInt64)
  | insert (pos : UInt64) (block : Bytes)

def CacheOp.Res : CacheOp → Type
  | .get _ => Except IoError (Option Bytes)
  | .recordMiss => Unit
  | .pread _ _ => Except IoError Bytes
  | .insert _ _ => Except IoError Bytes

/-- What a step may do, over an input with the bytes `data`: a `pread`
is recorded and then fills its buffer or fails, at will. -/
inductive CacheStep (data : Bytes) :
    ArchiveReadCache → (op : CacheOp) → op.Res → ArchiveReadCache → Prop
  | get (cache : ArchiveReadCache) (pos : UInt64) :
      CacheStep data cache (.get pos) (cache.get pos).1 (cache.get pos).2
  | recordMiss (cache : ArchiveReadCache) :
      CacheStep data cache .recordMiss ()
        { cache with metrics := cache.metrics.recordCacheMiss }
  | pread (cache : ArchiveReadCache) (pos len : UInt64)
      (h : pos.toNat + len.toNat ≤ data.length) :
      CacheStep data cache (.pread pos len)
        (.ok (slice data pos.toNat len.toNat))
        { cache with metrics := cache.metrics.recordPread len }
  | preadError (cache : ArchiveReadCache) (pos len : UInt64)
      (error : IoError) :
      CacheStep data cache (.pread pos len) (.error error)
        { cache with metrics := cache.metrics.recordPread len }
  | insert (cache : ArchiveReadCache) (pos : UInt64) (block : Bytes) :
      CacheStep data cache (.insert pos block) (cache.insert pos block).1
        (cache.insert pos block).2

-- ============================================================ the handles

inductive Panic where
  | arithmeticOverflow
  | capacityOverflow
  | sliceOutOfBounds
  deriving DecidableEq, Repr

/-- How a read fails: with an I/O error or by panicking. -/
inductive ReadFault where
  | io (error : IoError)
  | panic (kind : Panic)
  deriving DecidableEq, Repr

abbrev ReadProg := Prog CacheOp CacheOp.Res ReadFault

/-- `Range<usize>`. -/
structure ByteRange where
  start : UInt64
  stop : UInt64
  deriving DecidableEq, Repr

/-- `Range::len`: zero when the range is reversed. -/
def ByteRange.len (range : ByteRange) : UInt64 :=
  if range.start ≤ range.stop then range.stop - range.start else 0

def ByteRange.isEmpty (range : ByteRange) : Bool :=
  !decide (range.start < range.stop)

/-- `ArchiveFileHandle`, without the shared input and cache. -/
structure ArchiveFileHandle where
  path : String
  start : UInt64
  length : UInt64
  deriving DecidableEq, Repr

/-- `?` on an I/O result. -/
def orIo {α : Type} : Except IoError α → ReadProg α
  | .ok a => .ret a
  | .error error => .fail (.io error)

/-- `self.cache.get(pos)?`. -/
def cacheGet (pos : UInt64) : ReadProg (Option Bytes) :=
  .call (.get pos) orIo

/-- `self.cache.record_miss()`. -/
def cacheRecordMiss : ReadProg Unit :=
  .call .recordMiss fun _ => .ret ()

/-- `self.cache.insert(pos, block)?`. -/
def cacheInsert (pos : UInt64) (block : Bytes) : ReadProg Bytes :=
  .call (.insert pos block) orIo

def orPanic {α : Type} (kind : Panic) : Option α → ReadProg α
  | some a => .ret a
  | none => .fail (.panic kind)

def offsetOverflow : IoError := ⟨.invalidInput, "offset overflow"⟩

/-- `self.start.checked_add(relative)`, or the error of its overflow. -/
def ArchiveFileHandle.position (self : ArchiveFileHandle)
    (relative : UInt64) : ReadProg UInt64 :=
  match checkedAdd self.start relative with
  | some pos => .ret pos
  | none => .fail (.io offsetOverflow)

/-- `vec![0u8; len]`: more than `isize::MAX` bytes panic. Below that the
allocator is assumed to grant the buffer. -/
def zeroed (len : UInt64) : ReadProg Unit :=
  if 2 ^ 63 ≤ len.toNat then .fail (.panic .capacityOverflow) else .ret ()

/-- `read_direct`, on a buffer of `len` bytes. -/
def readDirect (pos len : UInt64) : ReadProg Bytes :=
  .call (.pread pos len) orIo

/-- `OwnedBytes::slice`. -/
def sliceBlock (block : Bytes) (start stop : UInt64) : ReadProg Bytes :=
  if start ≤ stop ∧ stop.toNat ≤ block.length then
    .ret (slice block start.toNat (stop.toNat - start.toNat))
  else .fail (.panic .sliceOutOfBounds)

/-- The miss branch of `read_cached_block`. -/
def loadBlock (build : Build) (pos blockStart blockEnd : UInt64) :
    ReadProg Bytes := do
  cacheRecordMiss
  let blockLen ← orPanic .arithmeticOverflow
    (uncheckedSub build blockEnd blockStart)
  zeroed blockLen
  let block ← readDirect pos blockLen
  cacheInsert pos block

/-- The block of `read_cached_block`: from the cache, or loaded. -/
def fetchBlock (build : Build) (pos blockStart blockEnd : UInt64) :
    ReadProg Bytes := do
  match ← cacheGet pos with
  | some block => return block
  | none => loadBlock build pos blockStart blockEnd

/-- `read_cached_block`. -/
def ArchiveFileHandle.readCachedBlock (build : Build)
    (self : ArchiveFileHandle) (range : ByteRange) :
    ReadProg (Option Bytes) := do
  if readCacheBlockBytes < range.len then
    return none
  else
    let blockStart := range.start / readCacheBlockBytes * readCacheBlockBytes
    let blockLimit ← orPanic .arithmeticOverflow
      (uncheckedAdd build blockStart readCacheBlockBytes)
    let blockEnd := min self.length blockLimit
    if blockEnd < range.stop then
      return none
    else
      let pos ← self.position blockStart
      let block ← fetchBlock build pos blockStart blockEnd
      let start ← orPanic .arithmeticOverflow
        (uncheckedSub build range.start blockStart)
      let stop ← orPanic .arithmeticOverflow
        (uncheckedAdd build start range.len)
      return some (← sliceBlock block start stop)

/-- `read_bytes`. -/
def ArchiveFileHandle.readBytes (build : Build) (self : ArchiveFileHandle)
    (range : ByteRange) : ReadProg Bytes := do
  if range.stop < range.start ∨ self.length < range.stop then
    .fail (.io ⟨.invalidInput, s!"invalid range {range.start}..{range.stop} for archive file '{self.path}' with length {self.length}"⟩)
  else if range.isEmpty then
    return []
  else
    match ← self.readCachedBlock build range with
    | some bytes => return bytes
    | none =>
        let pos ← self.position range.start
        zeroed range.len
        readDirect pos range.len

-- ========================================================== the directory

/-- `ArchivedFile`. -/
structure ArchivedFile where
  start : UInt64
  length : UInt64
  deriving DecidableEq, Repr

/-- The file map of an `ArchiveDirectory`. Paths are keys by their
components. -/
structure ArchiveDirectory where
  files : AList (fun _ : List Component => ArchivedFile) := ∅

/-- The loop of `new_with_metrics`. -/
def mapFiles (bodyStart : UInt64) :
    List ArchiveFileEntry → ArchiveDirectory → Result ArchiveDirectory
  | [], directory => .ok directory
  | file :: files, directory =>
      match checkedAdd bodyStart file.offset with
      | some start =>
          mapFiles bodyStart files
            ⟨directory.files.insert (components file.name) ⟨start, file.length⟩⟩
      | none =>
          .error (.invalidStorage s!"archive file '{file.name}' offset overflow")

/-- `ArchiveDirectory::new_with_metrics`. -/
def ArchiveDirectory.new (bodyStart : UInt64) (files : List ArchiveFileEntry) :
    Result ArchiveDirectory :=
  mapFiles bodyStart files {}

/-- `get_file_handle`; no handle is `FileDoesNotExist`. -/
def ArchiveDirectory.getFileHandle (directory : ArchiveDirectory)
    (path : String) : Option ArchiveFileHandle :=
  (directory.files.lookup (components path)).map fun file =>
    { path, start := file.start, length := file.length }

end PaimonFtindex.Model

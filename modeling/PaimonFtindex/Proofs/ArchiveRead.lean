/-
Reads through the shared block cache are exact, in any interleaving.

The cache is keyed by absolute position alone, so a block must be right
for whichever file asks. `Cached` says what that means: the block at a
position is the input's bytes there, as many as the file the position
lies in would read. There is only one such file, because a cached
position lies strictly inside its file and the files of an accepted
header are disjoint; files of length zero that share a position with
another file have no block at all (`blockOf_unique`).

With that as the shared invariant each atomic step has a contract
(`cacheStep_contract`), each `read_bytes` program is safe on its own
(`safe_readBytes`), and `Lib.Interleave` gives every run.

# The last block of the address space

`block_start + 65536` is an unchecked addition. It overflows for the
last block below 2⁶⁴ only, where a checked build panics and a release
build wraps to zero; the range then ends past the block and the read
goes the direct way, so the wrap is harmless.
-/
import PaimonFtindex.Model.ArchiveDirectory
import PaimonFtindex.Proofs.Envelope

namespace PaimonFtindex.Proofs

open Model Lib

-- ============================================================== the blocks

/-- A handle on a file of the header. -/
def HandleOf (header : IndexHeader) (bodyStart : UInt64)
    (handle : ArchiveFileHandle) : Prop :=
  ∃ file ∈ header.files, checkedAdd bodyStart file.offset = some handle.start
    ∧ handle.length = file.length

/-- A block of a file: its absolute position and its length. The last
block of a file is short. -/
def BlockOf (handle : ArchiveFileHandle) (pos len : Nat) : Prop :=
  ∃ blockStart, 65536 ∣ blockStart ∧ blockStart < handle.length.toNat
    ∧ pos = handle.start.toNat + blockStart
    ∧ len = min handle.length.toNat (blockStart + 65536) - blockStart

section
variable {header : IndexHeader} {bodyStart : UInt64} {data : Bytes}
  {handle handle' : ArchiveFileHandle}

/-- Two files of an accepted header are the same or apart. -/
theorem eq_or_filesApart (hvalid : validateHeader header = .ok ())
    {f g : ArchiveFileEntry} (hf : f ∈ header.files) (hg : g ∈ header.files) :
    f = g ∨ FilesApart f g := by
  have hsymm : Std.Symm FilesApart := ⟨fun _ _ h => h.symm⟩
  by_cases heq : f = g
  · exact Or.inl heq
  · exact Or.inr ((files_apart hvalid).forall hf hg heq)

/-- A position is in a block of one length only, whichever file asks. -/
theorem blockOf_unique (hvalid : validateHeader header = .ok ())
    (h : HandleOf header bodyStart handle)
    (h' : HandleOf header bodyStart handle') {pos len len' : Nat}
    (hblock : BlockOf handle pos len) (hblock' : BlockOf handle' pos len') :
    len = len' := by
  obtain ⟨file, hfile, hstart, hlength⟩ := h
  obtain ⟨file', hfile', hstart', hlength'⟩ := h'
  obtain ⟨blockStart, -, hlt, hpos, rfl⟩ := hblock
  obtain ⟨blockStart', -, hlt', hpos', rfl⟩ := hblock'
  rw [checkedAdd_eq_some] at hstart hstart'
  rcases eq_or_filesApart hvalid hfile hfile' with rfl | hapart
  · have hsame : blockStart = blockStart' := by omega
    rw [hlength, hlength', hsame]
  · unfold FilesApart Apart at hapart
    rw [hlength] at hlt
    rw [hlength'] at hlt'
    dsimp only at hapart
    omega

/-- The block that belongs at a position. -/
def Cached (header : IndexHeader) (bodyStart : UInt64) (data : Bytes)
    (pos : UInt64) (block : Bytes) : Prop :=
  ∃ handle len, HandleOf header bodyStart handle
    ∧ BlockOf handle pos.toNat len ∧ pos.toNat + len ≤ data.length
    ∧ block = slice data pos.toNat len

/-- A cached block read for a file is that file's block. -/
theorem Cached.eq_slice (hvalid : validateHeader header = .ok ())
    {pos : UInt64} {block : Bytes} (h : Cached header bodyStart data pos block)
    (hhandle : HandleOf header bodyStart handle) {len : Nat}
    (hblock : BlockOf handle pos.toNat len) :
    pos.toNat + len ≤ data.length ∧ block = slice data pos.toNat len := by
  obtain ⟨handle', len', hhandle', hblock', hle, rfl⟩ := h
  rw [blockOf_unique hvalid hhandle hhandle' hblock hblock']
  exact ⟨hle, rfl⟩

end

-- =========================================================== the contracts

section
variable (header : IndexHeader) (bodyStart : UInt64) (data : Bytes)

/-- Every block in the cache belongs where it is. -/
def CacheExact (cache : ArchiveReadCache) : Prop :=
  ∀ pos block, cache.inner.blocks.lookup pos = some block →
    Cached header bodyStart data pos block

/-- What a read through `handle` may do: read inside its own file, and
insert blocks that belong. -/
def OpPre (handle : ArchiveFileHandle) : CacheOp → Prop
  | .pread pos len => handle.start.toNat ≤ pos.toNat
      ∧ pos.toNat + len.toNat ≤ handle.start.toNat + handle.length.toNat
  | .insert pos block => Cached header bodyStart data pos block
  | _ => True

/-- What the steps answer. -/
def OpPost : (op : CacheOp) → op.Res → Prop
  | .get pos, r => ∀ block, r = .ok (some block) →
      Cached header bodyStart data pos block
  | .recordMiss, _ => True
  | .pread pos len, r => ∀ buf, r = .ok buf →
      pos.toNat + len.toNat ≤ data.length
        ∧ buf = slice data pos.toNat len.toNat
  | .insert pos _, r => ∀ block, r = .ok block →
      Cached header bodyStart data pos block

variable {header bodyStart data}

/-- Eviction only removes blocks. -/
theorem lookup_of_evict {pos : UInt64} {block : Bytes}
    {blocks : AList (fun _ : UInt64 => Bytes)} {metrics : ReadMetrics}
    {order : List UInt64}
    (h : (evict blocks metrics order).1.blocks.lookup pos = some block) :
    blocks.lookup pos = some block := by
  induction order generalizing blocks metrics with
  | nil => exact h
  | cons evicted order ih =>
      unfold evict at h
      split at h
      · have hrest := ih h
        by_cases heq : pos = evicted
        · rw [heq, AList.lookup_erase] at hrest
          cases hrest
        · rwa [AList.lookup_erase_ne heq] at hrest
      · exact h

theorem cacheExact_insert {cache : ArchiveReadCache} {pos : UInt64}
    {block : Bytes} (h : CacheExact header bodyStart data cache)
    (hblock : Cached header bodyStart data pos block) :
    CacheExact header bodyStart data (cache.insert pos block).2
      ∧ ∀ block', (cache.insert pos block).1 = .ok block' →
        Cached header bodyStart data pos block' := by
  unfold ArchiveReadCache.insert
  split
  · exact ⟨h, fun block' h => by cases h⟩
  · split
    · rename_i existing hexisting
      refine ⟨h, fun block' hret => ?_⟩
      cases hret
      exact h pos _ hexisting
    · constructor
      · intro pos' block' hlookup
        dsimp only at hlookup
        by_cases heq : pos' = pos
        · rw [heq, AList.lookup_insert] at hlookup
          cases hlookup
          rw [heq]
          exact hblock
        · rw [AList.lookup_insert_ne heq] at hlookup
          exact h pos' block' (lookup_of_evict hlookup)
      · intro block' hret
        cases hret
        exact hblock

/-- Every step keeps the cache exact and answers as promised. -/
theorem cacheStep_contract {cache cache' : ArchiveReadCache} {op : CacheOp}
    {r : op.Res} {handle : ArchiveFileHandle}
    (h : CacheExact header bodyStart data cache)
    (hpre : OpPre header bodyStart data handle op)
    (hstep : CacheStep data cache op r cache') :
    CacheExact header bodyStart data cache'
      ∧ OpPost header bodyStart data op r := by
  cases hstep with
  | get pos =>
      unfold ArchiveReadCache.get
      split
      · exact ⟨h, fun block hret => by cases hret⟩
      · split
        · rename_i found hfound
          refine ⟨h, fun block hret => ?_⟩
          cases hret
          exact h pos _ hfound
        · exact ⟨h, fun block hret => by cases hret⟩
  | recordMiss => exact ⟨h, trivial⟩
  | pread pos len hle =>
      refine ⟨h, fun buf hret => ?_⟩
      cases hret
      exact ⟨hle, rfl⟩
  | preadError pos len error => exact ⟨h, fun buf hret => by cases hret⟩
  | insert pos block => exact cacheExact_insert h hpre

-- ============================================================ one program

/-- What a call may end in: the input's bytes, or a failure other than a
slice out of bounds. -/
def Exact (data : Bytes) (handle : ArchiveFileHandle) (range : ByteRange) :
    Except ReadFault Bytes → Prop
  | .ok bytes => range.start ≤ range.stop ∧ range.stop ≤ handle.length
      ∧ bytes = slice data (handle.start.toNat + range.start.toNat)
          (range.stop.toNat - range.start.toNat)
      ∧ bytes.length = range.stop.toNat - range.start.toNat
  | .error fault => fault ≠ .panic .sliceOutOfBounds

/-- A slice of a slice. -/
theorem slice_slice {data : Bytes} {pos len start n : Nat}
    (h : start + n ≤ len) :
    slice (slice data pos len) start n = slice data (pos + start) n := by
  unfold slice
  rw [List.drop_take, List.take_take, List.drop_drop]
  congr 1
  omega

/-- A failure that is no slice out of bounds. -/
def NoSlicePanic {α : Type} (Q : α → Prop) : Except ReadFault α → Prop
  | .ok a => Q a
  | .error fault => fault ≠ .panic .sliceOutOfBounds

variable {handle : ArchiveFileHandle}

theorem safe_orPanic {α : Type} {Q : α → Prop} {r : Option α}
    (h : ∀ a, r = some a → Q a) :
    (orPanic .arithmeticOverflow r).Safe (OpPre header bodyStart data handle)
      (OpPost header bodyStart data) (NoSlicePanic Q) := by
  cases r with
  | none =>
      show ReadFault.panic .arithmeticOverflow ≠ .panic .sliceOutOfBounds
      decide
  | some a => exact h a rfl

theorem safe_orIo {α : Type} {Q : α → Prop} {r : Except IoError α}
    (h : ∀ a, r = .ok a → Q a) :
    (orIo r).Safe (OpPre header bodyStart data handle)
      (OpPost header bodyStart data) (NoSlicePanic Q) := by
  cases r with
  | error e =>
      show ReadFault.io e ≠ .panic .sliceOutOfBounds
      intro h
      cases h
  | ok a => exact h a rfl

theorem safe_zeroed (len : UInt64) :
    (zeroed len).Safe (OpPre header bodyStart data handle)
      (OpPost header bodyStart data) (NoSlicePanic fun _ => True) := by
  unfold zeroed
  split
  · show ReadFault.panic .capacityOverflow ≠ .panic .sliceOutOfBounds
    decide
  · trivial

/-- A position is the sum of the naturals. -/
theorem safe_position (relative : UInt64) :
    (handle.position relative).Safe (OpPre header bodyStart data handle)
      (OpPost header bodyStart data) (NoSlicePanic fun pos =>
        pos.toNat = handle.start.toNat + relative.toNat) := by
  unfold ArchiveFileHandle.position
  split
  · rename_i pos hpos
    exact checkedAdd_eq_some.mp hpos
  · show ReadFault.io offsetOverflow ≠ .panic .sliceOutOfBounds
    intro h
    cases h

/-- A direct read inside the file returns the input's bytes. -/
theorem safe_readDirect {pos len : UInt64}
    (hlo : handle.start.toNat ≤ pos.toNat)
    (hhi : pos.toNat + len.toNat
      ≤ handle.start.toNat + handle.length.toNat) :
    (readDirect pos len).Safe (OpPre header bodyStart data handle)
      (OpPost header bodyStart data) (NoSlicePanic fun buf =>
        pos.toNat + len.toNat ≤ data.length
          ∧ buf = slice data pos.toNat len.toNat) := by
  refine ⟨⟨hlo, hhi⟩, fun r hr => ?_⟩
  exact safe_orIo hr

/-- A slice that fits its block. -/
theorem safe_sliceBlock {block : Bytes} {start stop : UInt64}
    (hle : start.toNat ≤ stop.toNat) (hfit : stop.toNat ≤ block.length) :
    (sliceBlock block start stop).Safe (OpPre header bodyStart data handle)
      (OpPost header bodyStart data) (NoSlicePanic fun bytes =>
        bytes = slice block start.toNat (stop.toNat - start.toNat)) := by
  unfold sliceBlock
  rw [if_pos ⟨UInt64.le_iff_toNat_le.mpr hle, hfit⟩]
  rfl

/-- Loading a block of the file inserts and returns one that belongs. -/
theorem safe_loadBlock {build : Build} {pos blockStart blockEnd : UInt64}
    (hhandle : HandleOf header bodyStart handle)
    (hblock : BlockOf handle pos.toNat (blockEnd.toNat - blockStart.toNat))
    (hpos : pos.toNat = handle.start.toNat + blockStart.toNat)
    (hle : blockStart.toNat ≤ blockEnd.toNat)
    (hend : blockEnd.toNat ≤ handle.length.toNat) :
    (loadBlock build pos blockStart blockEnd).Safe
      (OpPre header bodyStart data handle) (OpPost header bodyStart data)
      (NoSlicePanic (Cached header bodyStart data pos)) := by
  refine ⟨trivial, fun _ _ => ?_⟩
  refine (safe_orPanic (Q := fun len : UInt64 =>
      len.toNat = blockEnd.toNat - blockStart.toNat)
    fun len hlen => uncheckedSub_eq hlen hle).bind (fun _ h => h)
      fun len hlen => ?_
  refine (safe_zeroed len).bind (fun _ h => h) fun _ _ => ?_
  have hlen : len.toNat = blockEnd.toNat - blockStart.toNat := hlen
  refine (safe_readDirect (by omega) (by omega)).bind (fun _ h => h)
    fun block hread => ?_
  obtain ⟨hfit, hslice⟩ := hread
  refine ⟨⟨handle, _, hhandle, hblock, ?_, ?_⟩, fun r hr => safe_orIo hr⟩
  · omega
  · rw [hslice, hlen]

/-- The block comes from the cache or from the input; both belong. -/
theorem safe_fetchBlock {build : Build} {pos blockStart blockEnd : UInt64}
    (hhandle : HandleOf header bodyStart handle)
    (hblock : BlockOf handle pos.toNat (blockEnd.toNat - blockStart.toNat))
    (hpos : pos.toNat = handle.start.toNat + blockStart.toNat)
    (hle : blockStart.toNat ≤ blockEnd.toNat)
    (hend : blockEnd.toNat ≤ handle.length.toNat) :
    (fetchBlock build pos blockStart blockEnd).Safe
      (OpPre header bodyStart data handle) (OpPost header bodyStart data)
      (NoSlicePanic (Cached header bodyStart data pos)) := by
  refine ⟨trivial, fun r hr => ?_⟩
  refine (safe_orIo (Q := fun cached : Option Bytes => ∀ block,
      cached = some block → Cached header bodyStart data pos block)
    fun cached hcached block hsome => hr block (by rw [hcached, hsome])).bind
      (fun _ h => h) fun cached hcached => ?_
  cases cached with
  | some block => exact hcached block rfl
  | none => exact safe_loadBlock hhandle hblock hpos hle hend

theorem blockStart_toNat (start : UInt64) :
    (start / readCacheBlockBytes * readCacheBlockBytes).toNat
      = start.toNat / 65536 * 65536 := by
  have hB : readCacheBlockBytes.toNat = 65536 := rfl
  have := start.toNat_lt
  rw [UInt64.toNat_mul, UInt64.toNat_div, hB]
  omega

theorem range_len_toNat {range : ByteRange}
    (h : range.start.toNat ≤ range.stop.toNat) :
    range.len.toNat = range.stop.toNat - range.start.toNat := by
  unfold ByteRange.len
  rw [if_pos (UInt64.le_iff_toNat_le.mpr h), toNat_sub_of_le h]

/-- The end of a block that the range fits in: the wrapped sum of a
release build is zero, and the range ends after that. -/
theorem blockEnd_toNat {build : Build} {blockStart limit length stop : UInt64}
    (hdvd : 65536 ∣ blockStart.toNat) (hstop : 0 < stop.toNat)
    (hlimit : uncheckedAdd build blockStart readCacheBlockBytes = some limit)
    (hend : ¬ min length limit < stop) :
    (min length limit).toNat
      = min length.toNat (blockStart.toNat + 65536) := by
  have hB : readCacheBlockBytes.toNat = 65536 := rfl
  have hmin : (min length limit).toNat = min length.toNat limit.toNat := by
    rw [UInt64.min_def]
    split
    · rename_i hle
      rw [UInt64.le_iff_toNat_le] at hle
      omega
    · rename_i hle
      rw [UInt64.le_iff_toNat_le] at hle
      omega
  by_cases hfit : blockStart.toNat + readCacheBlockBytes.toNat < 2 ^ 64
  · have hsum := uncheckedAdd_eq hlimit hfit
    rw [hmin, hsum, hB]
  · have hwrap := uncheckedAdd_wraps hlimit (by omega)
    have hword := blockStart.toNat_lt
    rw [UInt64.lt_iff_toNat_lt, hmin] at hend
    omega

/-- The cached path returns the range's bytes or defers. -/
theorem safe_readCachedBlock {build : Build} {range : ByteRange}
    (hvalid : validateHeader header = .ok ())
    (hhandle : HandleOf header bodyStart handle)
    (hlt : range.start.toNat < range.stop.toNat)
    (hstop : range.stop.toNat ≤ handle.length.toNat) :
    (handle.readCachedBlock build range).Safe
      (OpPre header bodyStart data handle) (OpPost header bodyStart data)
      (NoSlicePanic fun r => ∀ bytes, r = some bytes →
        handle.start.toNat + range.stop.toNat ≤ data.length
          ∧ bytes = slice data (handle.start.toNat + range.start.toNat)
            (range.stop.toNat - range.start.toNat)) := by
  have hlen := range_len_toNat (Nat.le_of_lt hlt)
  have hdefer : ∀ bytes : Bytes, none = some bytes →
      handle.start.toNat + range.stop.toNat ≤ data.length
        ∧ bytes = slice data (handle.start.toNat + range.start.toNat)
          (range.stop.toNat - range.start.toNat) := by
    intro bytes h
    cases h
  unfold ArchiveFileHandle.readCachedBlock
  by_cases hlong : readCacheBlockBytes < range.len
  · rw [if_pos hlong]
    exact hdefer
  · rw [if_neg hlong]
    dsimp only
    have hstart := blockStart_toNat range.start
    generalize range.start / readCacheBlockBytes * readCacheBlockBytes
      = blockStart at hstart
    generalize hsum : uncheckedAdd build blockStart readCacheBlockBytes = sum
    refine (safe_orPanic (Q := fun limit => sum = some limit)
      fun limit h => h).bind (fun _ h => h) fun limit hlimit => ?_
    have hlimit : uncheckedAdd build blockStart readCacheBlockBytes
      = some limit := hsum.trans hlimit
    by_cases hend : min handle.length limit < range.stop
    · rw [if_pos hend]
      exact hdefer
    · rw [if_neg hend]
      have hblockEnd := blockEnd_toNat (by omega) (by omega) hlimit hend
      have hcover : range.stop.toNat ≤ (min handle.length limit).toNat := by
        rw [UInt64.lt_iff_toNat_lt] at hend
        omega
      generalize min handle.length limit = blockEnd at hblockEnd hcover
      refine (safe_position blockStart).bind (fun _ h => h) fun pos hpos => ?_
      have hpos : pos.toNat = handle.start.toNat + blockStart.toNat := hpos
      have hblock : BlockOf handle pos.toNat
          (blockEnd.toNat - blockStart.toNat) :=
        ⟨blockStart.toNat, by omega, by omega, hpos, by rw [hblockEnd]⟩
      refine (safe_fetchBlock hhandle hblock hpos (by omega) (by omega)).bind
        (fun _ h => h) fun block hcachedBlock => ?_
      obtain ⟨hfit, hslice⟩ := hcachedBlock.eq_slice hvalid hhandle hblock
      have hblockLen : block.length = blockEnd.toNat - blockStart.toNat := by
        rw [hslice]
        exact slice_length hfit
      refine (safe_orPanic (Q := fun start : UInt64 =>
          start.toNat = range.start.toNat - blockStart.toNat)
        fun start h => uncheckedSub_eq h (by omega)).bind (fun _ h => h)
          fun start hrel => ?_
      have hrel : start.toNat = range.start.toNat - blockStart.toNat := hrel
      refine (safe_orPanic (Q := fun stop : UInt64 =>
          stop.toNat = start.toNat + range.len.toNat)
        fun stop h => uncheckedAdd_eq h (by
          have := handle.length.toNat_lt
          omega)).bind (fun _ h => h) fun stop hrelStop => ?_
      have hrelStop : stop.toNat = start.toNat + range.len.toNat := hrelStop
      refine (safe_sliceBlock (by omega) (by omega)).bind (fun _ h => h)
        fun bytes hbytes => ?_
      have hbytes : bytes = slice block start.toNat
        (stop.toNat - start.toNat) := hbytes
      intro bytes' hsome
      cases hsome
      refine ⟨by omega, ?_⟩
      have hfrom : pos.toNat + start.toNat
          = handle.start.toNat + range.start.toNat := by omega
      have hcount : stop.toNat - start.toNat
          = range.stop.toNat - range.start.toNat := by omega
      rw [hbytes, hslice, slice_slice (by omega), hfrom, hcount]

/-- Every call through a handle of the header is exact. -/
theorem safe_readBytes {build : Build} {range : ByteRange}
    (hvalid : validateHeader header = .ok ())
    (hhandle : HandleOf header bodyStart handle) :
    (handle.readBytes build range).Safe (OpPre header bodyStart data handle)
      (OpPost header bodyStart data) (Exact data handle range) := by
  unfold ArchiveFileHandle.readBytes
  split
  · show ReadFault.io _ ≠ .panic .sliceOutOfBounds
    intro h
    cases h
  · rename_i hrange
    rw [not_or, UInt64.not_lt, UInt64.not_lt] at hrange
    obtain ⟨hle, hstop⟩ := hrange
    have hleNat := UInt64.le_iff_toNat_le.mp hle
    have hstopNat := UInt64.le_iff_toNat_le.mp hstop
    have hexact : ∀ bytes, handle.start.toNat + range.stop.toNat ≤ data.length →
        bytes = slice data (handle.start.toNat + range.start.toNat)
          (range.stop.toNat - range.start.toNat) →
        Exact data handle range (.ok bytes) := by
      intro bytes hfit hbytes
      refine ⟨hle, hstop, hbytes, ?_⟩
      rw [hbytes]
      exact slice_length (by omega)
    by_cases hempty : range.isEmpty = true
    · rw [if_pos hempty]
      have hge : range.stop.toNat ≤ range.start.toNat := by
        unfold ByteRange.isEmpty at hempty
        simpa [UInt64.lt_iff_toNat_lt] using hempty
      refine ⟨hle, hstop, ?_, ?_⟩
      · rw [show range.stop.toNat - range.start.toNat = 0 by omega]
        simp [slice]
      · simp
        omega
    · rw [if_neg hempty]
      have hlt : range.start.toNat < range.stop.toNat := by
        unfold ByteRange.isEmpty at hempty
        simpa [UInt64.lt_iff_toNat_lt] using hempty
      refine (safe_readCachedBlock hvalid hhandle hlt hstopNat).bind
        (fun _ h => h) fun r hr => ?_
      cases r with
      | some bytes =>
          obtain ⟨hfit, hbytes⟩ := hr bytes rfl
          exact hexact bytes hfit hbytes
      | none =>
          have hlen := range_len_toNat hleNat
          refine (safe_position range.start).bind (fun _ h => h)
            fun pos hpos => ?_
          have hpos : pos.toNat = handle.start.toNat + range.start.toNat := hpos
          refine (safe_zeroed range.len).bind (fun _ h => h) fun _ _ => ?_
          refine (safe_readDirect (by omega) (by omega)).mono fun r h => ?_
          cases r with
          | error fault => exact h
          | ok bytes =>
              obtain ⟨hfit, hbytes⟩ := h
              apply hexact bytes (by omega)
              rw [hbytes, hpos, hlen]

end

-- =========================================================== failed reads

def isInsert : CacheOp → Bool
  | .insert .. => true
  | _ => false

/-- The step is a `pread` that failed. -/
def FailedRead : Prog.Performed CacheOp CacheOp.Res → Prop
  | ⟨.pread _ _, r⟩ => ∃ error : IoError, r = .error error
  | _ => False

/-- A call with a failed `pread` inserts nothing, before or after it. -/
def FailureKeepsCache (steps : List (Prog.Performed CacheOp CacheOp.Res)) :
    Prop :=
  (∃ step ∈ steps, FailedRead step) → ∀ step ∈ steps, isInsert step.1 = false

theorem failureKeepsCache_of_noInsert
    {steps : List (Prog.Performed CacheOp CacheOp.Res)}
    (h : ∀ step ∈ steps, isInsert step.1 = false) : FailureKeepsCache steps :=
  fun _ => h

theorem quiet_orPanic {α : Type} (kind : Panic) (r : Option α) :
    (orPanic kind r).Quiet := by
  cases r <;> trivial

theorem quiet_orIo {α : Type} (r : Except IoError α) : (orIo r).Quiet := by
  cases r <;> trivial

theorem quiet_zeroed (len : UInt64) : (zeroed len).Quiet := by
  unfold zeroed
  split <;> trivial

theorem quiet_position (handle : ArchiveFileHandle) (relative : UInt64) :
    (handle.position relative).Quiet := by
  unfold ArchiveFileHandle.position
  split <;> trivial

theorem quiet_sliceBlock (block : Bytes) (start stop : UInt64) :
    (sliceBlock block start stop).Quiet := by
  unfold sliceBlock
  split <;> trivial

/-- The direct path performs one `pread` and nothing else. -/
theorem always_direct (handle : ArchiveFileHandle) (range : ByteRange) :
    (do
      let pos ← handle.position range.start
      zeroed range.len
      readDirect pos range.len : ReadProg Bytes).Always FailureKeepsCache := by
  have hnil : FailureKeepsCache [] := failureKeepsCache_of_noInsert (by simp)
  refine (quiet_position handle range.start).always_bind hnil fun pos => ?_
  refine (quiet_zeroed range.len).always_bind hnil fun _ => ?_
  refine ⟨hnil, fun r => (quiet_orIo r).always ?_⟩
  exact failureKeepsCache_of_noInsert (by simp [isInsert])

/-- Fetching a block: its `pread` comes before its insert, and a failed
one ends the call. -/
theorem always_fetchBlock (build : Build) (pos blockStart blockEnd : UInt64)
    {K : Bytes → ReadProg Bytes} (hK : ∀ block, (K block).Quiet) :
    (fetchBlock build pos blockStart blockEnd >>= K).Always
      FailureKeepsCache := by
  have hnil : FailureKeepsCache [] := failureKeepsCache_of_noInsert (by simp)
  unfold fetchBlock
  rw [Prog.bind_assoc]
  refine ⟨hnil, fun r => ?_⟩
  have hget : FailureKeepsCache [⟨.get pos, r⟩] :=
    failureKeepsCache_of_noInsert (by simp [isInsert])
  refine (quiet_orIo r).always_bind hget fun cached => ?_
  cases cached with
  | some block => exact (hK block).always hget
  | none =>
      unfold loadBlock
      rw [Prog.bind_assoc]
      refine ⟨hget, fun r' => ?_⟩
      have hmiss : FailureKeepsCache [⟨.get pos, r⟩, ⟨.recordMiss, r'⟩] :=
        failureKeepsCache_of_noInsert (by simp [isInsert])
      generalize uncheckedSub build blockEnd blockStart = difference
      show ((orPanic .arithmeticOverflow difference >>= _) >>= K).Always _
      rw [Prog.bind_assoc]
      refine (quiet_orPanic _ difference).always_bind hmiss fun len => ?_
      rw [Prog.bind_assoc]
      refine (quiet_zeroed len).always_bind hmiss fun _ => ?_
      refine ⟨hmiss, fun read => ?_⟩
      have hread : FailureKeepsCache
          [⟨.get pos, r⟩, ⟨.recordMiss, r'⟩, ⟨.pread pos len, read⟩] :=
        failureKeepsCache_of_noInsert (by simp [isInsert])
      cases read with
      | error error => exact hread
      | ok block =>
          refine ⟨hread, fun r'' => ?_⟩
          refine ((quiet_orIo r'').bind hK).always ?_
          intro hfailed
          exfalso
          simp [FailedRead] at hfailed

/-- A failed `pread` is the last step of its call. -/
theorem always_readBytes (build : Build) (handle : ArchiveFileHandle)
    (range : ByteRange) :
    (handle.readBytes build range).Always FailureKeepsCache := by
  have hnil : FailureKeepsCache [] := failureKeepsCache_of_noInsert (by simp)
  unfold ArchiveFileHandle.readBytes
  split
  · exact hnil
  · split
    · exact hnil
    · unfold ArchiveFileHandle.readCachedBlock
      split
      · exact always_direct handle range
      · dsimp only
        generalize range.start / readCacheBlockBytes * readCacheBlockBytes
          = blockStart
        generalize uncheckedAdd build blockStart readCacheBlockBytes = sum
        rw [Prog.bind_assoc]
        refine (quiet_orPanic _ sum).always_bind hnil fun limit => ?_
        split
        · exact always_direct handle range
        · rw [Prog.bind_assoc]
          refine (quiet_position handle _).always_bind hnil fun pos => ?_
          rw [Prog.bind_assoc]
          refine always_fetchBlock build pos blockStart _ fun block => ?_
          generalize uncheckedSub build range.start blockStart = difference
          rw [Prog.bind_assoc]
          refine (quiet_orPanic _ difference).bind fun start => ?_
          generalize uncheckedAdd build start range.len = sum
          rw [Prog.bind_assoc]
          refine (quiet_orPanic _ sum).bind fun stop => ?_
          rw [Prog.bind_assoc]
          exact (quiet_sliceBlock block start stop).bind fun _ => trivial

-- ================================================================= the runs

/-- A `read_bytes` call. -/
structure ReadCall where
  handle : ArchiveFileHandle
  range : ByteRange

/-- Any number of calls about to start, over an empty cache. -/
def readCalls (build : Build) (calls : List ReadCall) :
    Config CacheOp CacheOp.Res ReadFault Bytes ArchiveReadCache where
  shared := {}
  threads := calls.map fun call => call.handle.readBytes build call.range

theorem thread_of_readCalls {build : Build} {calls : List ReadCall} {i : Nat}
    {call : ReadCall} (hcall : calls[i]? = some call) :
    (readCalls build calls).threads[i]?
      = some (call.handle.readBytes build call.range) := by
  unfold readCalls
  rw [List.getElem?_map, hcall]
  rfl

/-- A step that is no insert leaves the blocks and their order alone. -/
theorem inner_of_noInsert {data : Bytes} {cache cache' : ArchiveReadCache}
    {op : CacheOp} {r : op.Res} (hstep : CacheStep data cache op r cache')
    (hop : isInsert op = false) : cache'.inner = cache.inner := by
  cases hstep with
  | get pos =>
      unfold ArchiveReadCache.get
      split
      · rfl
      · split <;> rfl
  | recordMiss => rfl
  | pread pos len hle => rfl
  | preadError pos len error => rfl
  | insert pos block => cases hop

/-- The steps of any calls keep their contract. -/
theorem contract_readCalls (header : IndexHeader) (bodyStart : UInt64)
    (data : Bytes) (calls : List ReadCall) :
    Contract (CacheStep data) (CacheExact header bodyStart data)
      (fun i op => ∃ call, calls[i]? = some call
        ∧ OpPre header bodyStart data call.handle op)
      (OpPost header bodyStart data) := by
  intro cache i op r cache' h hpre hstep
  obtain ⟨call, -, hpre⟩ := hpre
  exact cacheStep_contract h hpre hstep

/-- Calls on handles of an accepted header, all safe to start. -/
theorem allSafe_readCalls {header : IndexHeader} {bodyStart : UInt64}
    {data : Bytes} (hvalid : validateHeader header = .ok ()) (build : Build)
    {calls : List ReadCall}
    (hcalls : ∀ call ∈ calls, HandleOf header bodyStart call.handle) :
    AllSafe (CacheExact header bodyStart data)
      (fun i op => ∃ call, calls[i]? = some call
        ∧ OpPre header bodyStart data call.handle op)
      (OpPost header bodyStart data)
      (fun i r => ∀ call, calls[i]? = some call →
        Exact data call.handle call.range r)
      (readCalls build calls) := by
  constructor
  · intro pos block h
    cases h
  · intro i p hp
    unfold readCalls at hp
    rw [List.getElem?_map, Option.map_eq_some_iff] at hp
    obtain ⟨call, hcall, rfl⟩ := hp
    have hsafe := @safe_readBytes header bodyStart data call.handle build
      call.range hvalid (hcalls call (List.mem_of_getElem? hcall))
    refine (hsafe.mono_pre fun op h => ⟨call, hcall, h⟩).mono ?_
    intro r hr call' hcall'
    rw [hcall] at hcall'
    cases hcall'
    exact hr

/-- Reads through the cache are exact under any history and
interleaving. For handles of a header that was read, over an input that
serves `data` or fails: a call that returned has the input's bytes of
its range; none sliced a block out of bounds; each read only inside its
own file; and the steps of a call with a failed read left the cache as
it was. -/
theorem readBytes_exact_of_run {serde : HeaderJson} {input : SeekRead}
    {header : IndexHeader} {bodyStart : UInt64}
    (hread : readHeader serde input = .ok (header, bodyStart))
    {data : Bytes} {build : Build} {calls : List ReadCall}
    (hcalls : ∀ call ∈ calls, HandleOf header bodyStart call.handle)
    {events : List (Event CacheOp CacheOp.Res ArchiveReadCache)}
    {final : Config CacheOp CacheOp.Res ReadFault Bytes ArchiveReadCache}
    (hrun : Run (CacheStep data) (readCalls build calls) events final)
    {i : Nat} {call : ReadCall} (hcall : calls[i]? = some call) :
    (∀ bytes, final.threads[i]? = some (.ret bytes) →
        call.range.start ≤ call.range.stop
        ∧ call.range.stop ≤ call.handle.length
        ∧ bytes = slice data
            (call.handle.start.toNat + call.range.start.toNat)
            (call.range.stop.toNat - call.range.start.toNat)
        ∧ bytes.length = call.range.stop.toNat - call.range.start.toNat)
      ∧ final.threads[i]? ≠ some (.fail (.panic .sliceOutOfBounds))
      ∧ (∀ e ∈ events, e.thread = i → ∀ pos len, e.op = .pread pos len →
          call.handle.start.toNat ≤ pos.toNat
          ∧ pos.toNat + len.toNat
            ≤ call.handle.start.toNat + call.handle.length.toNat)
      ∧ ((∃ e ∈ events, e.thread = i ∧ FailedRead ⟨e.op, e.res⟩) →
          ∀ e ∈ events, e.thread = i → e.after.inner = e.before.inner) := by
  have hvalid := validateHeader_of_readHeader hread
  obtain ⟨⟨-, hend⟩, hevents⟩ :=
    safe_of_run (contract_readCalls header bodyStart data calls)
      (allSafe_readCalls hvalid build hcalls) hrun
  refine ⟨?_, ?_, ?_, ?_⟩
  · intro bytes hret
    exact hend i _ hret call hcall
  · intro hpanic
    exact hend i _ hpanic call hcall rfl
  · intro e he hi pos len hop
    obtain ⟨⟨call', hcall', hpre⟩, -⟩ := hevents e he
    rw [hi, hcall] at hcall'
    cases hcall'
    rw [hop] at hpre
    exact hpre
  · intro hfailed e he hi
    obtain ⟨e', he', hi', hfailed⟩ := hfailed
    have hown := always_of_run (thread_of_readCalls hcall)
      (always_readBytes build call.handle call.range) hrun
    have hmem : ∀ e ∈ events, e.thread = i →
        ⟨e.op, e.res⟩ ∈ ownEvents i events := by
      intro e he hi
      exact List.mem_map.mpr
        ⟨e, List.mem_filter.mpr ⟨he, by simpa using hi⟩, rfl⟩
    have hnoInsert := hown ⟨_, hmem e' he' hi', hfailed⟩ _ (hmem e he hi)
    exact inner_of_noInsert (effect_of_run hrun e he) hnoInsert

/-- The two middle bytes of `segment.idx`. -/
def segmentRead : ReadCall := ⟨⟨"segment.idx", 545, 4⟩, ⟨1, 3⟩⟩

/-- Its two first bytes, in the same block. -/
def headRead : ReadCall := ⟨⟨"segment.idx", 545, 4⟩, ⟨0, 2⟩⟩

/-- The block of both. -/
theorem step_pread_segment (cache : ArchiveReadCache) :
    CacheStep goldenData cache (.pread 545 4) (.ok [0x63, 0x64, 0x65, 0x66])
      { cache with metrics := cache.metrics.recordPread 4 } := by
  have hslice : slice goldenData 545 4 = [0x63, 0x64, 0x65, 0x66] := by
    decide +kernel
  rw [← hslice]
  exact .pread cache 545 4 (by decide +kernel)

/-- A call alone misses, reads the block, caches it and returns. -/
theorem segmentRead_run : ∃ events final,
    Run (CacheStep goldenData) (readCalls ⟨true⟩ [segmentRead]) events final
      ∧ final.threads[0]? = some (.ret [0x64, 0x65]) := by
  refine exists_run_of_step (step_of_call 0 rfl (.get {} 545)) ?_
  refine exists_run_of_step (step_of_call 0 rfl (.recordMiss _)) ?_
  refine exists_run_of_step (step_of_call 0 rfl (step_pread_segment _)) ?_
  refine exists_run_of_step (step_of_call 0 rfl (.insert _ 545 _)) ?_
  exact ⟨[], _, Run.nil _, rfl⟩

def tornRead : IoError := ⟨.other, "connection reset"⟩

/-- Three calls race on the block: all miss, one read fails, and the other
two are both inserted. -/
theorem race_run : ∃ events final,
    Run (CacheStep goldenData)
        (readCalls ⟨true⟩ [segmentRead, headRead, segmentRead]) events final
      ∧ final.threads[0]? = some (.ret [0x64, 0x65])
      ∧ final.threads[1]? = some (.ret [0x63, 0x64])
      ∧ final.threads[2]? = some (.fail (.io tornRead)) := by
  refine exists_run_of_step (step_of_call 0 rfl (.get {} 545)) ?_
  refine exists_run_of_step (step_of_call 1 rfl (.get _ 545)) ?_
  refine exists_run_of_step (step_of_call 2 rfl (.get _ 545)) ?_
  refine exists_run_of_step (step_of_call 0 rfl (.recordMiss _)) ?_
  refine exists_run_of_step (step_of_call 2 rfl (.recordMiss _)) ?_
  refine exists_run_of_step (step_of_call 1 rfl (.recordMiss _)) ?_
  refine exists_run_of_step (step_of_call 0 rfl (step_pread_segment _)) ?_
  refine exists_run_of_step
    (step_of_call 2 rfl (.preadError _ 545 4 tornRead)) ?_
  refine exists_run_of_step (step_of_call 1 rfl (step_pread_segment _)) ?_
  refine exists_run_of_step (step_of_call 1 rfl (.insert _ 545 _)) ?_
  refine exists_run_of_step (step_of_call 0 rfl (.insert _ 545 _)) ?_
  exact ⟨[], _, Run.nil _, rfl, rfl, rfl⟩

/-- What the two return is what the archive has there. -/
theorem race_exact : ∃ events final,
    Run (CacheStep goldenData)
        (readCalls ⟨true⟩ [segmentRead, headRead, segmentRead]) events final
      ∧ final.threads[0]? = some (.ret [0x64, 0x65])
      ∧ slice goldenData 546 2 = [0x64, 0x65]
      ∧ final.threads[1]? = some (.ret [0x63, 0x64])
      ∧ slice goldenData 545 2 = [0x63, 0x64]
      ∧ final.threads[2]? = some (.fail (.io tornRead)) := by
  obtain ⟨events, final, hrun, hfirst, hsecond, hfailed⟩ := race_run
  have hhandle : HandleOf goldenHeader 543 segmentRead.handle :=
    ⟨⟨"segment.idx", 2, 4⟩, by decide, by decide, rfl⟩
  have hcalls : ∀ call ∈ [segmentRead, headRead, segmentRead],
      HandleOf goldenHeader 543 call.handle := by
    intro call hcall
    simp only [List.mem_cons, List.not_mem_nil, or_false] at hcall
    rcases hcall with rfl | rfl | rfl
    · exact hhandle
    · exact hhandle
    · exact hhandle
  obtain ⟨hone, -⟩ := @readBytes_exact_of_run _ _ _ _ golden_readHeader _ _ _
    hcalls _ _ hrun 0 segmentRead rfl
  obtain ⟨htwo, -⟩ := @readBytes_exact_of_run _ _ _ _ golden_readHeader _ _ _
    hcalls _ _ hrun 1 headRead rfl
  exact ⟨events, final, hrun, hfirst, (hone _ hfirst).2.2.1.symm, hsecond,
    (htwo _ hsecond).2.2.1.symm, hfailed⟩

end PaimonFtindex.Proofs

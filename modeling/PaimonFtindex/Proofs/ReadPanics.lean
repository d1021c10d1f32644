/-
When a file read panics.

Of the unchecked operations on the read path only two can go wrong, and
both before anything is read. The end of the last block below 2⁶⁴ does
not fit a word (`LastBlock`), and a range read past the cache may ask
for a buffer that `vec!` refuses (`BufferTooLong`). An accepted header
admits both, since the length of a file is not compared with anything.
Every other sum and difference is bounded by the range that was checked,
and the slice by the cached block, so `endsWell_iff` is exact.
-/
import PaimonFtindex.Proofs.ArchiveRead
import PaimonFtindex.Proofs.DirectoryMap

namespace PaimonFtindex.Proofs

open Model Lib

-- ================================================================ the words

theorem uncheckedAdd_of_lt {build : Build} {a b : UInt64}
    (h : a.toNat + b.toNat < 2 ^ 64) : uncheckedAdd build a b = some (a + b) :=
  if_pos h

theorem uncheckedSub_of_le {build : Build} {a b : UInt64}
    (h : b.toNat ≤ a.toNat) : uncheckedSub build a b = some (a - b) :=
  if_pos h

/-- The range starts in the block whose end does not fit a word, in a
build that checks. -/
def LastBlock (build : Build) (range : ByteRange) : Prop :=
  build.overflowChecks = true ∧ 2 ^ 64 - 65536 ≤ range.start.toNat
    ∧ range.start < range.stop

/-- The range starts at a position that fits a word and is longer than
`isize::MAX`. -/
def BufferTooLong (handle : ArchiveFileHandle) (range : ByteRange) : Prop :=
  2 ^ 63 ≤ range.stop.toNat - range.start.toNat
    ∧ handle.start.toNat + range.start.toNat < 2 ^ 64

section
variable {build : Build} {handle : ArchiveFileHandle} {range : ByteRange}

/-- A range inside the file passes the first check. -/
theorem not_invalid (hle : range.start ≤ range.stop)
    (hstop : range.stop ≤ handle.length) :
    ¬ (range.stop < range.start ∨ handle.length < range.stop) := by
  rw [not_or, UInt64.not_lt, UInt64.not_lt]
  exact ⟨hle, hstop⟩

theorem isEmpty_of_lt (h : range.start < range.stop) :
    ¬ range.isEmpty = true := by
  unfold ByteRange.isEmpty
  simp [h]

-- ============================================================= the panics

/-- The unchecked sum of the last block panics. -/
theorem readBytes_lastBlock (hstop : range.stop ≤ handle.length)
    (h : LastBlock build range) :
    handle.readBytes build range = .fail (.panic .arithmeticOverflow) := by
  obtain ⟨hbuild, hlast, hlt⟩ := h
  have hltNat := UInt64.lt_iff_toNat_lt.mp hlt
  have hlen := range_len_toNat (Nat.le_of_lt hltNat)
  have hB : readCacheBlockBytes.toNat = 65536 := rfl
  have hword := range.stop.toNat_lt
  have hshort : ¬ readCacheBlockBytes < range.len := by
    rw [UInt64.lt_iff_toNat_lt, hlen]
    omega
  have hoverflow : uncheckedAdd build
      (range.start / readCacheBlockBytes * readCacheBlockBytes)
      readCacheBlockBytes = none := by
    unfold uncheckedAdd
    rw [if_neg, if_pos hbuild]
    rw [blockStart_toNat]
    omega
  unfold ArchiveFileHandle.readBytes
  rw [if_neg (not_invalid (UInt64.le_of_lt hlt) hstop),
    if_neg (isEmpty_of_lt hlt)]
  unfold ArchiveFileHandle.readCachedBlock
  rw [if_neg hshort]
  dsimp only
  rw [hoverflow]
  rfl

/-- So does the buffer that is too long. -/
theorem readBytes_bufferTooLong (hstop : range.stop ≤ handle.length)
    (h : BufferTooLong handle range) :
    handle.readBytes build range = .fail (.panic .capacityOverflow) := by
  obtain ⟨hlong, hposition⟩ := h
  have hlt : range.start < range.stop := by
    rw [UInt64.lt_iff_toNat_lt]
    omega
  have hlen := range_len_toNat (Nat.le_of_lt (UInt64.lt_iff_toNat_lt.mp hlt))
  have hB : readCacheBlockBytes.toNat = 65536 := rfl
  have hcached : readCacheBlockBytes < range.len := by
    rw [UInt64.lt_iff_toNat_lt, hlen]
    omega
  have hpos : handle.position range.start
      = .ret (handle.start + range.start) := by
    unfold ArchiveFileHandle.position checkedAdd
    rw [if_pos hposition]
  have hzeroed : zeroed range.len = .fail (.panic .capacityOverflow) := by
    unfold zeroed
    rw [if_pos]
    rw [hlen]
    exact hlong
  unfold ArchiveFileHandle.readBytes
  rw [if_neg (not_invalid (UInt64.le_of_lt hlt) hstop),
    if_neg (isEmpty_of_lt hlt)]
  unfold ArchiveFileHandle.readCachedBlock
  rw [if_pos hcached, hpos, hzeroed]
  rfl

end

-- ======================================================== nothing else panics

/-- What a call may end in where neither happens: no panic, but for a
slice out of bounds, which is the cache's matter. -/
def OnlySlicePanic {α : Type} (r : Except ReadFault α) : Prop :=
  ∀ kind, r = .error (.panic kind) → kind = .sliceOutOfBounds

/-- Whatever the steps answer, the program has no other panic. -/
def Calm {α : Type} (p : ReadProg α) : Prop :=
  p.Safe (fun _ => True) (fun _ _ => True) OnlySlicePanic

section
variable {α β : Type} {build : Build} {handle : ArchiveFileHandle}

theorem calm_ret (a : α) : Calm (.ret a) := by
  intro kind h
  cases h

theorem calm_io (error : IoError) : Calm (.fail (.io error) : ReadProg α) := by
  intro kind h
  cases h

theorem calm_orIo (r : Except IoError α) : Calm (orIo r) := by
  cases r with
  | error error => exact calm_io error
  | ok a => exact calm_ret a

/-- Calm halves are calm together. -/
theorem Calm.bind {p : ReadProg α} {f : α → ReadProg β} (hp : Calm p)
    (hf : ∀ a, Calm (f a)) : Calm (p >>= f) := by
  apply Prog.Safe.bind hp
  · intro fault h kind hpanic
    apply h
    cases hpanic
    rfl
  · intro a _
    exact hf a

theorem calm_position (relative : UInt64) :
    Calm (handle.position relative) := by
  unfold ArchiveFileHandle.position
  cases checkedAdd handle.start relative with
  | some pos => exact calm_ret pos
  | none => exact calm_io _

theorem calm_zeroed {len : UInt64} (h : len.toNat < 2 ^ 63) :
    Calm (zeroed len) := by
  unfold zeroed
  rw [if_neg (Nat.not_le.mpr h)]
  exact calm_ret ()

theorem calm_readDirect (pos len : UInt64) : Calm (readDirect pos len) :=
  ⟨trivial, fun r _ => calm_orIo r⟩

theorem calm_sliceBlock (block : Bytes) (start stop : UInt64) :
    Calm (sliceBlock block start stop) := by
  unfold sliceBlock
  by_cases hfit : start ≤ stop ∧ stop.toNat ≤ block.length
  · rw [if_pos hfit]
    exact calm_ret _
  · rw [if_neg hfit]
    intro kind h
    cases h
    rfl

/-- A block within one cache block of its start can be loaded. -/
theorem calm_fetchBlock {pos blockStart blockEnd : UInt64}
    (hle : blockStart.toNat ≤ blockEnd.toNat)
    (hshort : blockEnd.toNat ≤ blockStart.toNat + 65536) :
    Calm (fetchBlock build pos blockStart blockEnd) := by
  refine ⟨trivial, fun r _ => ?_⟩
  apply Calm.bind (calm_orIo r)
  intro cached
  cases cached with
  | some block => exact calm_ret block
  | none =>
      refine ⟨trivial, fun _ _ => ?_⟩
      have hlen := toNat_sub_of_le hle
      rw [uncheckedSub_of_le hle]
      show Calm (zeroed (blockEnd - blockStart) >>= fun _ => _)
      apply Calm.bind (calm_zeroed (by omega))
      intro _
      apply Calm.bind (calm_readDirect pos _)
      intro block
      exact ⟨trivial, fun r _ => calm_orIo r⟩

/-- The end of the block panics only in the last one; a release build
goes on with what has wrapped. -/
theorem exists_blockLimit {range : ByteRange} (hlt : range.start < range.stop)
    (hlast : ¬ LastBlock build range) :
    ∃ limit, uncheckedAdd build
      (range.start / readCacheBlockBytes * readCacheBlockBytes)
      readCacheBlockBytes = some limit := by
  have hB : readCacheBlockBytes.toNat = 65536 := rfl
  unfold uncheckedAdd
  by_cases hfits : (range.start / readCacheBlockBytes
      * readCacheBlockBytes).toNat + readCacheBlockBytes.toNat < 2 ^ 64
  · rw [if_pos hfits]
    exact ⟨_, rfl⟩
  · rw [if_neg hfits]
    have hbuild : ¬ build.overflowChecks = true := by
      intro hbuild
      apply hlast
      refine ⟨hbuild, ?_, hlt⟩
      rw [blockStart_toNat] at hfits
      omega
    rw [if_neg hbuild]
    exact ⟨_, rfl⟩

/-- Outside the last block the cached path does not panic. -/
theorem calm_readCachedBlock {range : ByteRange}
    (hlt : range.start < range.stop) (hlast : ¬ LastBlock build range) :
    Calm (handle.readCachedBlock build range) := by
  have hltNat := UInt64.lt_iff_toNat_lt.mp hlt
  have hlen := range_len_toNat (Nat.le_of_lt hltNat)
  have hstart := blockStart_toNat range.start
  obtain ⟨limit, hlimit⟩ := exists_blockLimit hlt hlast
  unfold ArchiveFileHandle.readCachedBlock
  by_cases hlong : readCacheBlockBytes < range.len
  · rw [if_pos hlong]
    exact calm_ret none
  · rw [if_neg hlong]
    dsimp only
    rw [hlimit]
    generalize range.start / readCacheBlockBytes * readCacheBlockBytes
      = blockStart at hstart hlimit
    show Calm (if min handle.length limit < range.stop then _ else _)
    by_cases hend : min handle.length limit < range.stop
    · rw [if_pos hend]
      exact calm_ret none
    · rw [if_neg hend]
      have hblockEnd := blockEnd_toNat (by omega) (by omega) hlimit hend
      rw [UInt64.lt_iff_toNat_lt] at hend
      apply Calm.bind (calm_position blockStart)
      intro pos
      apply Calm.bind (calm_fetchBlock (by omega) (by omega))
      intro block
      have hword := range.stop.toNat_lt
      have hfrom := toNat_sub_of_le
        (show blockStart.toNat ≤ range.start.toNat by omega)
      rw [uncheckedSub_of_le (by omega)]
      show Calm (orPanic .arithmeticOverflow
        (uncheckedAdd build (range.start - blockStart) range.len) >>= fun _ => _)
      rw [uncheckedAdd_of_lt (by omega)]
      apply Calm.bind (calm_sliceBlock block _ _)
      intro bytes
      exact calm_ret _

/-- Outside the two conditions no arithmetic and no buffer panics. -/
theorem calm_readBytes {range : ByteRange} (hlast : ¬ LastBlock build range)
    (hlong : ¬ BufferTooLong handle range) :
    Calm (handle.readBytes build range) := by
  unfold ArchiveFileHandle.readBytes
  by_cases hvalid : range.stop < range.start ∨ handle.length < range.stop
  · rw [if_pos hvalid]
    exact calm_io _
  · rw [if_neg hvalid]
    by_cases hempty : range.isEmpty = true
    · rw [if_pos hempty]
      exact calm_ret []
    · rw [if_neg hempty]
      have hlt : range.start < range.stop := by
        unfold ByteRange.isEmpty at hempty
        simpa using hempty
      have hlen := range_len_toNat
        (Nat.le_of_lt (UInt64.lt_iff_toNat_lt.mp hlt))
      apply Calm.bind (calm_readCachedBlock hlt hlast)
      intro cached
      cases cached with
      | some bytes => exact calm_ret bytes
      | none =>
          show Calm (handle.position range.start >>= fun _ => _)
          unfold ArchiveFileHandle.position
          cases hpos : checkedAdd handle.start range.start with
          | none => exact calm_io _
          | some pos =>
              have hfits := checkedAdd_eq_some.mp hpos
              have hword := pos.toNat_lt
              unfold BufferTooLong at hlong
              show Calm (zeroed range.len >>= fun _ => _)
              apply Calm.bind (calm_zeroed (by omega))
              intro _
              exact calm_readDirect pos _

end

-- ================================================================= the runs

/-- No step waits for another. -/
theorem exists_cacheStep (data : Bytes) (cache : ArchiveReadCache)
    (op : CacheOp) : ∃ r cache', CacheStep data cache op r cache' := by
  cases op with
  | get pos => exact ⟨_, _, .get cache pos⟩
  | recordMiss => exact ⟨_, _, .recordMiss cache⟩
  | pread pos len => exact ⟨_, _, .preadError cache pos len lockPoisoned⟩
  | insert pos block => exact ⟨_, _, .insert cache pos block⟩

/-- Calls through handles that the directory gave out. -/
def CallsOf (directory : ArchiveDirectory) (calls : List ReadCall) : Prop :=
  ∀ call ∈ calls, ∃ path, directory.getFileHandle path = some call.handle

/-- Among any calls and wherever these are, the `i`-th call can be run to
its end, and it fails with an I/O error only. -/
def EndsWell (data : Bytes) (build : Build) (directory : ArchiveDirectory)
    (call : ReadCall) : Prop :=
  ∀ (calls : List ReadCall) (i : Nat), CallsOf directory calls →
    calls[i]? = some call →
    ∀ (events : List (Event CacheOp CacheOp.Res ArchiveReadCache))
      (final : Config CacheOp CacheOp.Res ReadFault Bytes ArchiveReadCache),
      Run (CacheStep data) (readCalls build calls) events final →
      (∃ more done, Run (CacheStep data) final more done
          ∧ ∃ p, done.threads[i]? = some p ∧ p.Ended)
        ∧ ∀ fault, final.threads[i]? = some (.fail fault) →
          ∃ error, fault = .io error

section
variable {header : IndexHeader} {bodyStart : UInt64}
  {directory : ArchiveDirectory} {data : Bytes} {build : Build}
  {calls : List ReadCall} {i : Nat} {call : ReadCall}
  {events : List (Event CacheOp CacheOp.Res ArchiveReadCache)}
  {final : Config CacheOp CacheOp.Res ReadFault Bytes ArchiveReadCache}

/-- Every call can be run to its end. -/
theorem exists_end_of_run (hcall : calls[i]? = some call)
    (hrun : Run (CacheStep data) (readCalls build calls) events final) :
    ∃ more done, Run (CacheStep data) final more done
      ∧ ∃ p, done.threads[i]? = some p ∧ p.Ended := by
  have hlt := (List.getElem?_eq_some_iff.mp
    (@thread_of_readCalls build _ _ _ hcall)).1
  rw [← length_of_run hrun] at hlt
  exact exists_run_to_end (exists_cacheStep data)
    (List.getElem?_eq_getElem hlt)

/-- A calm call fails with an I/O error only. -/
theorem io_of_run (hvalid : validateHeader header = .ok ())
    (hcalls : ∀ call ∈ calls, HandleOf header bodyStart call.handle)
    (hcall : calls[i]? = some call)
    (hcalm : Calm (call.handle.readBytes build call.range))
    (hrun : Run (CacheStep data) (readCalls build calls) events final)
    {fault : ReadFault} (hfail : final.threads[i]? = some (.fail fault)) :
    ∃ error, fault = .io error := by
  have hstart := @allSafe_readCalls header bodyStart data hvalid build calls
    hcalls
  have hboth : AllSafe (CacheExact header bodyStart data)
      (fun i op => ∃ call, calls[i]? = some call
        ∧ OpPre header bodyStart data call.handle op)
      (OpPost header bodyStart data)
      (fun j r => (∀ call, calls[j]? = some call →
          Exact data call.handle call.range r) ∧ (j = i → OnlySlicePanic r))
      (readCalls build calls) := by
    refine ⟨hstart.1, fun j p hp => ?_⟩
    by_cases hj : j = i
    · rw [hj, thread_of_readCalls hcall] at hp
      cases hp
      rw [hj]
      refine ((hstart.2 i _ (thread_of_readCalls hcall)).and hcalm).mono ?_
      intro r hr
      exact ⟨hr.1, fun _ => hr.2⟩
    · refine (hstart.2 j p hp).mono fun r hr => ⟨hr, fun h => ?_⟩
      exact absurd h hj
  obtain ⟨⟨-, hend⟩, -⟩ := safe_of_run
    (contract_readCalls header bodyStart data calls) hboth hrun
  obtain ⟨hexact, hslice⟩ := hend i _ hfail
  have hnoSlice : fault ≠ .panic .sliceOutOfBounds := hexact call hcall
  cases fault with
  | io error => exact ⟨error, rfl⟩
  | panic kind =>
      rw [hslice rfl kind rfl] at hnoSlice
      exact absurd rfl hnoSlice

/-- A call that panics before its first step does so alone. -/
theorem not_endsWell_of_panic {path : String} {handle : ArchiveFileHandle}
    {range : ByteRange} (hhandle : directory.getFileHandle path = some handle)
    {kind : Panic}
    (hpanic : handle.readBytes build range = .fail (.panic kind)) :
    ¬ EndsWell data build directory ⟨handle, range⟩ := by
  intro h
  have hcalls : CallsOf directory [⟨handle, range⟩] := by
    intro call hcall
    rw [List.mem_singleton] at hcall
    rw [hcall]
    exact ⟨path, hhandle⟩
  obtain ⟨-, hio⟩ := h [⟨handle, range⟩] 0 hcalls rfl [] _ (Run.nil _)
  obtain ⟨error, herror⟩ := hio (.panic kind) (by
    rw [← hpanic]
    rfl)
  cases herror

end

/-- A read through a handle of an opened archive ends in bytes or in an
I/O error, whatever else is read and in whatever order, exactly when its
range neither starts in the last block below 2⁶⁴, in a build that checks
overflows, nor asks for more than `isize::MAX` bytes. -/
theorem endsWell_iff {serde : HeaderJson} {input : SeekRead}
    {header : IndexHeader} {bodyStart : UInt64}
    (hread : readHeader serde input = .ok (header, bodyStart))
    {directory : ArchiveDirectory}
    (hnew : ArchiveDirectory.new bodyStart header.files = .ok directory)
    {path : String} {handle : ArchiveFileHandle}
    (hhandle : directory.getFileHandle path = some handle)
    {range : ByteRange} (hstop : range.stop ≤ handle.length) (data : Bytes)
    (build : Build) :
    EndsWell data build directory ⟨handle, range⟩
      ↔ ¬ LastBlock build range ∧ ¬ BufferTooLong handle range := by
  constructor
  · intro h
    constructor
    · intro hlast
      exact not_endsWell_of_panic hhandle (readBytes_lastBlock hstop hlast) h
    · intro hlong
      exact not_endsWell_of_panic hhandle (readBytes_bufferTooLong hstop hlong) h
  · intro h calls i hcalls hcall events final hrun
    refine ⟨exists_end_of_run hcall hrun, fun fault hfail => ?_⟩
    have hhandles : ∀ call ∈ calls, HandleOf header bodyStart call.handle := by
      intro call hmem
      obtain ⟨path, hpath⟩ := hcalls call hmem
      exact exists_file_of_getFileHandle hnew hpath
    exact io_of_run (validateHeader_of_readHeader hread) hhandles hcall
      (calm_readBytes h.1 h.2) hrun hfail

-- ------------------------------------------------ the longest file there is

/-- One file that fills the address space. -/
def hugeHeader : IndexHeader where
  metadata := { tantivyVersion := "0.26.0" }
  files := [⟨"a", 0, 18446744073709551615⟩]

/-- A JSON text of that header. -/
def hugeJson : Bytes :=
  ("\x7b\"metadata\":\x7b\"tantivy_version\":\"0.26.0\"\x7d,"
      ++ "\"files\":[\x7b\"name\":\"a\",\"offset\":0,"
      ++ "\"length\":18446744073709551615\x7d]\x7d").toUTF8.data.toList

/-- serde_json on that text alone. -/
def hugeSerde : HeaderJson where
  toVec _ := .error ⟨"not needed"⟩
  fromSlice json :=
    if json = hugeJson then .ok hugeHeader else .error ⟨"unknown json"⟩

/-- The header, with nothing behind it. -/
def hugeData : Bytes := envelopePrefix hugeJson ++ hugeJson ++ []

theorem huge_validateHeader : validateHeader hugeHeader = .ok () := by
  apply validateHeader_of_sweeps
  · decide +kernel
  · decide +kernel
  · decide
  · decide +kernel
  · decide
  · intro file hfile
    unfold FitsWord
    revert file
    decide
  · exact ⟨by decide, trivial⟩

/-- The header is accepted and its file can be asked for, but the first
2⁶³ bytes of it panic in every build. -/
theorem huge_read_panics :
    ∃ header bodyStart directory handle,
      readHeader hugeSerde (sliceReader hugeData) = .ok (header, bodyStart)
        ∧ ArchiveDirectory.new bodyStart header.files = .ok directory
        ∧ directory.getFileHandle "a" = some handle
        ∧ (9223372036854775808 : UInt64) ≤ handle.length
        ∧ ∀ build, ¬ EndsWell hugeData build directory
            ⟨handle, ⟨0, 9223372036854775808⟩⟩ := by
  have hstart : (121 : UInt64) = 16 + UInt64.ofNat hugeJson.length := by
    decide +kernel
  have hread : readHeader hugeSerde (sliceReader hugeData)
      = .ok (hugeHeader, 121) := by
    rw [hstart]
    exact readHeader_of_prefix (by decide +kernel) (by decide +kernel)
      huge_validateHeader
  refine ⟨hugeHeader, 121, _, ⟨"a", 121, 18446744073709551615⟩, hread, rfl,
    rfl, by decide, ?_⟩
  intro build
  have hpanic := @readBytes_bufferTooLong build
    ⟨"a", 121, 18446744073709551615⟩ ⟨0, 9223372036854775808⟩ (by decide)
    ⟨by decide, by decide⟩
  exact not_endsWell_of_panic
    (show ArchiveDirectory.getFileHandle _ "a" = some _ from rfl) hpanic

/-- The two middle bytes of `segment.idx`. -/
theorem segmentRead_endsWell :
    ∃ directory, ArchiveDirectory.new 543 goldenHeader.files = .ok directory
      ∧ EndsWell goldenData ⟨true⟩ directory segmentRead := by
  refine ⟨_, rfl, ?_⟩
  apply (endsWell_iff golden_readHeader rfl
    (show ArchiveDirectory.getFileHandle _ "segment.idx"
      = some segmentRead.handle from rfl) (by decide) goldenData ⟨true⟩).mpr
  constructor
  · intro h
    exact absurd h.2.1 (by decide)
  · intro h
    exact absurd h.1 (by decide)

end PaimonFtindex.Proofs

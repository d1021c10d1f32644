/-
An archive is a frozen directory, whatever is asked of it and by how
many at once.

`Frozen` is what the component is for: contents by path, and nothing
that changes. `Allows` lists the answers it gives to each call of the
directory trait; a read may also fail, but with no other bytes and not
by slicing out of bounds. `directory_frozen` says that the directory
over a header that was read gives only these answers, in every
interleaving of every calls, over one shared cache.

The input may be cut short anywhere behind what was read of it: the
frozen directory is that of the whole archive, and what a shorter input
still answers is the same.
-/
import PaimonFtindex.Model.Directory
import PaimonFtindex.Proofs.ArchiveRead
import PaimonFtindex.Proofs.DirectoryMap

namespace PaimonFtindex.Proofs

open Model Lib

-- ======================================================== the specification

/-- Contents by path. -/
abbrev Frozen : Type := List Component → Option Bytes

/-- A failed read of a file that is there: an I/O error, or the panic of a
sum or a buffer that overflows. -/
def ReadFailure : DirectoryError → Prop
  | .fileDoesNotExist _ => False
  | .ioError _ _ => True
  | .panic kind => kind ≠ .sliceOutOfBounds

/-- What a frozen directory answers. -/
inductive Frozen.Allows (frozen : Frozen) (metaLock : String) :
    DirectoryCall → Except DirectoryError DirectoryAnswer → Prop
  | found (path : String) :
      Allows frozen metaLock (.fileExists path)
        (.ok (.found (frozen (components path)).isSome))
  | length {path : String} {content : Bytes} {length : UInt64}
      (hcontent : frozen (components path) = some content)
      (hlength : length.toNat = content.length) :
      Allows frozen metaLock (.length path) (.ok (.length length))
  | bytes {path : String} {range : ByteRange} {content : Bytes}
      (hcontent : frozen (components path) = some content)
      (hle : range.start ≤ range.stop)
      (hstop : range.stop.toNat ≤ content.length) :
      Allows frozen metaLock (.readBytes path range)
        (.ok (.bytes (slice content range.start.toNat
          (range.stop.toNat - range.start.toNat))))
  | whole {path : String} {content : Bytes}
      (hcontent : frozen (components path) = some content) :
      Allows frozen metaLock (.atomicRead path) (.ok (.bytes content))
  | readFailed {path : String} {range : ByteRange} {error : DirectoryError}
      (hcontent : (frozen (components path)).isSome)
      (herror : ReadFailure error) :
      Allows frozen metaLock (.readBytes path range) (.error error)
  | wholeFailed {path : String} {error : DirectoryError}
      (hcontent : (frozen (components path)).isSome)
      (herror : ReadFailure error) :
      Allows frozen metaLock (.atomicRead path) (.error error)
  | missing {path : String} {call : DirectoryCall}
      (hcontent : frozen (components path) = none)
      (hcall : call = .length path ∨ (∃ range, call = .readBytes path range)
        ∨ call = .atomicRead path ∨ call = .delete path) :
      Allows frozen metaLock call (.error (.fileDoesNotExist path))
  | deleteRefused {path : String}
      (hcontent : (frozen (components path)).isSome) :
      Allows frozen metaLock (.delete path)
        (.error (.ioError readOnlyError (some path)))
  | openRefused (path : String) :
      Allows frozen metaLock (.openWrite path)
        (.error (.ioError readOnlyError (some path)))
  | writeRefused (path : String) (data : Bytes) :
      Allows frozen metaLock (.atomicWrite path data)
        (.error (.ioError readOnlyError none))
  | synced : Allows frozen metaLock .syncDirectory (.ok .done)
  | locked {filepath : String}
      (hlock : components filepath = components metaLock) :
      Allows frozen metaLock (.acquireLock filepath) (.ok .done)
  | lockRefused {filepath : String}
      (hlock : components filepath ≠ components metaLock) :
      Allows frozen metaLock (.acquireLock filepath)
        (.error (.ioError readOnlyError none))

/-- The frozen directory an archive is as mapped: at each path the bytes of
the file the map has there, of equal paths that of the last entry. -/
def frozenOf (directory : ArchiveDirectory) (archive : Bytes) : Frozen :=
  fun path => (directory.files.lookup path).map fun file =>
    slice archive file.start.toNat file.length.toNat

theorem frozenOf_isSome {directory : ArchiveDirectory} {archive : Bytes}
    {path : List Component} :
    (frozenOf directory archive path).isSome
      = decide (path ∈ directory.files) := by
  unfold frozenOf
  rw [Option.isSome_map, Bool.eq_iff_iff, decide_eq_true_iff,
    AList.lookup_isSome]

/-- A path with a handle has the bytes the handle covers. -/
theorem frozenOf_of_handle {directory : ArchiveDirectory} {archive : Bytes}
    {path : String} {handle : ArchiveFileHandle}
    (h : directory.getFileHandle path = some handle) :
    frozenOf directory archive (components path)
      = some (slice archive handle.start.toNat handle.length.toNat) := by
  unfold ArchiveDirectory.getFileHandle at h
  rw [Option.map_eq_some_iff] at h
  obtain ⟨file, hfile, rfl⟩ := h
  unfold frozenOf
  rw [hfile]
  rfl

theorem frozenOf_of_no_handle {directory : ArchiveDirectory} {archive : Bytes}
    {path : String} (h : directory.getFileHandle path = none) :
    frozenOf directory archive (components path) = none := by
  unfold ArchiveDirectory.getFileHandle at h
  rw [Option.map_eq_none_iff] at h
  unfold frozenOf
  rw [h]
  rfl

-- ================================================================ the reads

section
variable {header : IndexHeader} {bodyStart : UInt64} {archive : Bytes}
  {n : Nat} {directory : ArchiveDirectory} {build : Build}
  {metaLock : String}

/-- The archive goes at least as far as its files. -/
def Complete (header : IndexHeader) (bodyStart : UInt64) (archive : Bytes) :
    Prop :=
  ∀ file ∈ header.files,
    bodyStart.toNat + file.offset.toNat + file.length.toNat ≤ archive.length

/-- A handle of the directory is on a file of the header, and covers as
many bytes of the archive as it says. -/
theorem handle_spec (hnew : ArchiveDirectory.new bodyStart header.files
      = .ok directory) (hcomplete : Complete header bodyStart archive)
    {path : String} {handle : ArchiveFileHandle}
    (h : directory.getFileHandle path = some handle) :
    HandleOf header bodyStart handle
      ∧ (slice archive handle.start.toNat handle.length.toNat).length
        = handle.length.toNat := by
  obtain ⟨file, hfile, hstart, hlength⟩ := exists_file_of_getFileHandle hnew h
  refine ⟨⟨file, hfile, hstart, hlength⟩, slice_length ?_⟩
  rw [checkedAdd_eq_some.mp hstart, hlength]
  exact hcomplete file hfile

/-- A step stays within some file of the header. -/
def StepPre (header : IndexHeader) (bodyStart : UInt64) (data : Bytes)
    (op : CacheOp) : Prop :=
  ∃ handle, HandleOf header bodyStart handle
    ∧ OpPre header bodyStart data handle op

/-- Exact bytes of a handle's range are those of its content. -/
theorem slice_content {handle : ArchiveFileHandle} {range : ByteRange}
    {bytes : Bytes}
    (h : Exact (archive.take n) handle range (.ok bytes)) :
    bytes = slice (slice archive handle.start.toNat handle.length.toNat)
      range.start.toNat (range.stop.toNat - range.start.toNat) := by
  obtain ⟨hle, hstop, hbytes, hlength⟩ := h
  have hle := UInt64.le_iff_toNat_le.mp hle
  have hstop := UInt64.le_iff_toNat_le.mp hstop
  rw [hbytes] at hlength
  rw [hbytes, slice_slice (by omega)]
  exact slice_of_prefix hlength

/-- Reading a file through its handle: its content's bytes, or a
failure. -/
theorem safe_handleRead (hvalid : validateHeader header = .ok ())
    (hnew : ArchiveDirectory.new bodyStart header.files = .ok directory)
    (hcomplete : Complete header bodyStart archive) {path : String}
    {range : ByteRange} {handle : ArchiveFileHandle}
    {Q : Except DirectoryError Bytes → Prop} {filepath : Option String}
    (h : directory.getFileHandle path = some handle)
    (hok : range.start ≤ range.stop → range.stop ≤ handle.length →
      Q (.ok (slice (slice archive handle.start.toNat handle.length.toNat)
        range.start.toNat (range.stop.toNat - range.start.toNat))))
    (herror : ∀ error, ReadFailure error → Q (.error error)) :
    ((handle.readBytes build range).mapError (.ofRead filepath)).Safe
      (StepPre header bodyStart (archive.take n))
      (OpPost header bodyStart (archive.take n)) Q := by
  have hhandle := (handle_spec hnew hcomplete h).1
  have hread := @safe_readBytes header bodyStart (archive.take n) handle build
    range hvalid hhandle
  refine (hread.mono_pre fun op hop => ⟨handle, hhandle, hop⟩).mapError ?_ ?_
  · intro bytes hexact
    rw [slice_content hexact]
    exact hok hexact.1 hexact.2.1
  · intro fault hfault
    apply herror
    cases fault with
    | io error => trivial
    | panic kind =>
        intro hkind
        exact hfault (congrArg ReadFault.panic hkind)

/-- `read_bytes` on a path. -/
theorem safe_directoryReadBytes (hvalid : validateHeader header = .ok ())
    (hnew : ArchiveDirectory.new bodyStart header.files = .ok directory)
    (hcomplete : Complete header bodyStart archive) (path : String)
    (range : ByteRange) :
    (directory.readBytes build path range).Safe
      (StepPre header bodyStart (archive.take n))
      (OpPost header bodyStart (archive.take n))
      fun r => (frozenOf directory archive).Allows metaLock
        (.readBytes path range) (r.map .bytes) := by
  unfold ArchiveDirectory.readBytes ArchiveDirectory.openRead
  cases hhandle : directory.getFileHandle path with
  | none =>
      exact Frozen.Allows.missing (frozenOf_of_no_handle hhandle)
        (.inr (.inl ⟨range, rfl⟩))
  | some handle =>
      have hcontent := @frozenOf_of_handle _ archive _ _ hhandle
      have hlength := (handle_spec hnew hcomplete hhandle).2
      refine safe_handleRead hvalid hnew hcomplete hhandle ?_ ?_
      · intro hle hstop
        refine .bytes hcontent hle ?_
        rw [hlength]
        exact UInt64.le_iff_toNat_le.mp hstop
      · intro error herror
        exact .readFailed (by simp [hcontent]) herror

/-- `atomic_read`. -/
theorem safe_atomicRead (hvalid : validateHeader header = .ok ())
    (hnew : ArchiveDirectory.new bodyStart header.files = .ok directory)
    (hcomplete : Complete header bodyStart archive) (path : String) :
    (directory.atomicRead build path).Safe
      (StepPre header bodyStart (archive.take n))
      (OpPost header bodyStart (archive.take n))
      fun r => (frozenOf directory archive).Allows metaLock
        (.atomicRead path) (r.map .bytes) := by
  unfold ArchiveDirectory.atomicRead ArchiveDirectory.openRead
  cases hhandle : directory.getFileHandle path with
  | none =>
      exact Frozen.Allows.missing (frozenOf_of_no_handle hhandle)
        (.inr (.inr (.inl rfl)))
  | some handle =>
      have hcontent := @frozenOf_of_handle _ archive _ _ hhandle
      have hlength := (handle_spec hnew hcomplete hhandle).2
      refine safe_handleRead hvalid hnew hcomplete hhandle ?_ ?_
      · intro _ _
        have hwhole : slice (slice archive handle.start.toNat
            handle.length.toNat) 0 handle.length.toNat
            = slice archive handle.start.toNat handle.length.toNat :=
          List.take_of_length_le hlength.le
        show Frozen.Allows _ _ _
          (.ok (.bytes (slice _ 0 handle.length.toNat)))
        rw [hwhole]
        exact .whole hcontent
      · intro error herror
        exact .wholeFailed (by simp [hcontent]) herror

/-- Every call stays within the files and ends as the frozen directory
allows. -/
theorem safe_perform (hvalid : validateHeader header = .ok ())
    (hnew : ArchiveDirectory.new bodyStart header.files = .ok directory)
    (hcomplete : Complete header bodyStart archive) (call : DirectoryCall) :
    (directory.perform build metaLock call).Safe
      (StepPre header bodyStart (archive.take n))
      (OpPost header bodyStart (archive.take n))
      ((frozenOf directory archive).Allows metaLock call) := by
  cases call with
  | fileExists path =>
      show Frozen.Allows _ _ _ (.ok (.found (decide _)))
      rw [← @frozenOf_isSome _ archive]
      exact .found path
  | length path =>
      unfold ArchiveDirectory.perform ArchiveDirectory.openRead
      dsimp only
      cases hhandle : directory.getFileHandle path with
      | none =>
          exact Frozen.Allows.missing (frozenOf_of_no_handle hhandle)
            (.inl rfl)
      | some handle =>
          exact Frozen.Allows.length (frozenOf_of_handle hhandle)
            (handle_spec hnew hcomplete hhandle).2.symm
  | readBytes path range =>
      exact (safe_directoryReadBytes hvalid hnew hcomplete path range).map
  | atomicRead path =>
      exact (safe_atomicRead hvalid hnew hcomplete path).map
  | delete path =>
      unfold ArchiveDirectory.perform ArchiveDirectory.delete
      dsimp only
      have hexists := @frozenOf_isSome directory archive (components path)
      by_cases hmem : directory.fileExists path
      · rw [if_pos hmem]
        exact Frozen.Allows.deleteRefused (hexists.trans hmem)
      · rw [if_neg hmem]
        refine Frozen.Allows.missing ?_ (.inr (.inr (.inr rfl)))
        rw [← Option.not_isSome_iff_eq_none, hexists]
        exact hmem
  | openWrite path => exact Frozen.Allows.openRefused path
  | atomicWrite path data => exact Frozen.Allows.writeRefused path data
  | syncDirectory => exact Frozen.Allows.synced
  | acquireLock filepath =>
      unfold ArchiveDirectory.perform ArchiveDirectory.acquireLock
      dsimp only
      by_cases hlock : components filepath = components metaLock
      · rw [if_pos hlock]
        exact Frozen.Allows.locked hlock
      · rw [if_neg hlock]
        exact Frozen.Allows.lockRefused hlock

-- ================================================================= the runs

/-- Any calls about to start, over an empty cache. -/
def directoryCalls (build : Build) (metaLock : String)
    (directory : ArchiveDirectory) (calls : List DirectoryCall) :
    Config CacheOp CacheOp.Res DirectoryError DirectoryAnswer
      ArchiveReadCache where
  shared := {}
  threads := calls.map (directory.perform build metaLock)

theorem contract_directoryCalls (header : IndexHeader) (bodyStart : UInt64)
    (data : Bytes) :
    Contract (CacheStep data) (CacheExact header bodyStart data)
      (fun _ => StepPre header bodyStart data)
      (OpPost header bodyStart data) := by
  intro cache i op r cache' h hpre hstep
  obtain ⟨handle, -, hpre⟩ := hpre
  exact cacheStep_contract h hpre hstep

theorem allSafe_directoryCalls (hvalid : validateHeader header = .ok ())
    (hnew : ArchiveDirectory.new bodyStart header.files = .ok directory)
    (hcomplete : Complete header bodyStart archive)
    (calls : List DirectoryCall) :
    AllSafe (CacheExact header bodyStart (archive.take n))
      (fun _ => StepPre header bodyStart (archive.take n))
      (OpPost header bodyStart (archive.take n))
      (fun i r => ∀ call, calls[i]? = some call →
        (frozenOf directory archive).Allows metaLock call r)
      (directoryCalls build metaLock directory calls) := by
  constructor
  · intro pos block h
    cases h
  · intro i p hp
    unfold directoryCalls at hp
    rw [List.getElem?_map, Option.map_eq_some_iff] at hp
    obtain ⟨call, hcall, rfl⟩ := hp
    refine (safe_perform hvalid hnew hcomplete call).mono fun r hr => ?_
    intro call' hcall'
    rw [hcall] at hcall'
    cases hcall'
    exact hr

/-- Any readings about to start, over an empty cache. -/
def readingsOn {α : Type} (build : Build) (metaLock : String)
    (directory : ArchiveDirectory) (readings : List (IndexReading α)) :
    Config CacheOp CacheOp.Res TantivyError α ArchiveReadCache where
  shared := {}
  threads := readings.map (readThrough build metaLock directory)

/-- A reading stays within the files, and ends as it does over the frozen
directory. -/
theorem safe_readThrough {α : Type} (hvalid : validateHeader header = .ok ())
    (hnew : ArchiveDirectory.new bodyStart header.files = .ok directory)
    (hcomplete : Complete header bodyStart archive) {reading : IndexReading α}
    {Q : Except TantivyError α → Prop}
    (h : reading.Safe (fun _ => True)
      (fun call => (frozenOf directory archive).Allows metaLock call) Q) :
    (readThrough build metaLock directory reading).Safe
      (StepPre header bodyStart (archive.take n))
      (OpPost header bodyStart (archive.take n)) Q :=
  h.carriedBy fun call _ => (safe_perform hvalid hnew hcomplete call).attempt

/-- What a reading ends in over the frozen directory, it ends in over the
archive, whatever else is read from it at the same time. -/
theorem end_of_readings {α : Type} (hvalid : validateHeader header = .ok ())
    (hnew : ArchiveDirectory.new bodyStart header.files = .ok directory)
    (hcomplete : Complete header bodyStart archive)
    {readings : List (IndexReading α)}
    {events : List (Event CacheOp CacheOp.Res ArchiveReadCache)}
    {final : Config CacheOp CacheOp.Res TantivyError α ArchiveReadCache}
    (hrun : Run (CacheStep (archive.take n))
      (readingsOn build metaLock directory readings) events final)
    {i : Nat} {reading : IndexReading α} (hreading : readings[i]? = some reading)
    {Q : Except TantivyError α → Prop}
    (h : reading.Safe (fun _ => True)
      (fun call => (frozenOf directory archive).Allows metaLock call) Q)
    {a : α} (hret : final.threads[i]? = some (.ret a)) : Q (.ok a) := by
  have hsafe : AllSafe (CacheExact header bodyStart (archive.take n))
      (fun _ => StepPre header bodyStart (archive.take n))
      (OpPost header bodyStart (archive.take n))
      (fun j r => j = i → Q r) (readingsOn build metaLock directory readings) := by
    constructor
    · intro pos block h
      cases h
    · intro j p hp
      unfold readingsOn at hp
      rw [List.getElem?_map, Option.map_eq_some_iff] at hp
      obtain ⟨other, hother, rfl⟩ := hp
      by_cases hj : j = i
      · rw [hj, hreading] at hother
        cases hother
        exact (safe_readThrough hvalid hnew hcomplete h).mono fun r hr _ => hr
      · exact (safe_readThrough hvalid hnew hcomplete
          (Prog.safe_trivial other)).mono fun r _ heq => absurd heq hj
  obtain ⟨⟨-, hend⟩, -⟩ := safe_of_run
    (contract_directoryCalls header bodyStart (archive.take n)) hsafe hrun
  exact hend i _ hret rfl

/-- The directory of an archive that was read is frozen: in every
interleaving of any calls on it, over an input that serves the archive
or a prefix of it and may fail at any time, each call that ended has an
answer of the frozen directory, and no step reads outside a file. -/
theorem directory_frozen {serde : HeaderJson} {input : SeekRead}
    (hread : readHeader serde input = .ok (header, bodyStart))
    (hnew : ArchiveDirectory.new bodyStart header.files = .ok directory)
    (hcomplete : Complete header bodyStart archive)
    {calls : List DirectoryCall}
    {events : List (Event CacheOp CacheOp.Res ArchiveReadCache)}
    {final : Config CacheOp CacheOp.Res DirectoryError DirectoryAnswer
      ArchiveReadCache}
    (hrun : Run (CacheStep (archive.take n))
      (directoryCalls build metaLock directory calls) events final)
    {i : Nat} {call : DirectoryCall} (hcall : calls[i]? = some call) :
    (∀ answer, final.threads[i]? = some (.ret answer) →
        (frozenOf directory archive).Allows metaLock call (.ok answer))
      ∧ (∀ error, final.threads[i]? = some (.fail error) →
        (frozenOf directory archive).Allows metaLock call (.error error))
      ∧ ∀ e ∈ events, ∀ pos len, e.op = .pread pos len →
        ∃ handle, HandleOf header bodyStart handle
          ∧ handle.start.toNat ≤ pos.toNat
          ∧ pos.toNat + len.toNat
            ≤ handle.start.toNat + handle.length.toNat := by
  obtain ⟨⟨-, hend⟩, hevents⟩ :=
    safe_of_run (contract_directoryCalls header bodyStart (archive.take n))
      (allSafe_directoryCalls (validateHeader_of_readHeader hread) hnew
        hcomplete calls) hrun
  refine ⟨?_, ?_, ?_⟩
  · intro answer hret
    exact hend i _ hret call hcall
  · intro error hfail
    exact hend i _ hfail call hcall
  · intro e he pos len hop
    obtain ⟨⟨handle, hhandle, hpre⟩, -⟩ := hevents e he
    rw [hop] at hpre
    exact ⟨handle, hhandle, hpre⟩

end

-- ------------------------------------------- the golden archive, frozen

/-- The directory of the golden archive. -/
def goldenDirectory : ArchiveDirectory :=
  ⟨insertAll (goldenHeader.files.map (mappedEntry 543)) ∅⟩

theorem golden_new :
    ArchiveDirectory.new 543 goldenHeader.files = .ok goldenDirectory :=
  mapFiles_eq_ok.mpr ⟨by decide, rfl⟩

theorem golden_complete : Complete goldenHeader 543 goldenData := by
  unfold Complete
  decide +kernel

theorem golden_handle : goldenDirectory.getFileHandle "segment.idx"
    = some ⟨"segment.idx", 545, 4⟩ := by
  decide +kernel

/-- Two bytes of a file, and a refused delete. -/
def goldenCalls : List DirectoryCall :=
  [.readBytes "segment.idx" ⟨1, 3⟩, .delete "segment.idx"]

theorem goldenCalls_run : ∃ events final,
    Run (CacheStep (goldenData.take 549))
        (directoryCalls ⟨true⟩ ".tantivy-meta.lock" goldenDirectory goldenCalls)
        events final
      ∧ final.threads[0]? = some (.ret (.bytes [0x64, 0x65])) := by
  have hread : ∀ cache : ArchiveReadCache,
      CacheStep (goldenData.take 549) cache (.pread 545 4)
        (.ok [0x63, 0x64, 0x65, 0x66])
        { cache with metrics := cache.metrics.recordPread 4 } := by
    intro cache
    have hslice : slice (goldenData.take 549) 545 4
        = [0x63, 0x64, 0x65, 0x66] := by
      decide +kernel
    rw [← hslice]
    exact .pread cache 545 4 (by decide +kernel)
  have hstart : (directoryCalls ⟨true⟩ ".tantivy-meta.lock" goldenDirectory
      goldenCalls).threads[0]?
        = some ((ArchiveFileHandle.readBytes ⟨true⟩ ⟨"segment.idx", 545, 4⟩
            ⟨1, 3⟩).mapError (.ofRead none) >>= fun bytes =>
              .ret (.bytes bytes)) := by
    show some (goldenDirectory.readBytes ⟨true⟩ "segment.idx" ⟨1, 3⟩
      >>= fun bytes => Prog.ret (DirectoryAnswer.bytes bytes)) = _
    unfold ArchiveDirectory.readBytes ArchiveDirectory.openRead
    rw [golden_handle]
    rfl
  refine exists_run_of_step (step_of_call 0 (hstart.trans rfl)
    (.get {} 545)) ?_
  refine exists_run_of_step (step_of_call 0 rfl (.recordMiss _)) ?_
  refine exists_run_of_step (step_of_call 0 rfl (hread _)) ?_
  refine exists_run_of_step (step_of_call 0 rfl (.insert _ 545 _)) ?_
  exact ⟨[], _, Run.nil _, rfl⟩

/-- What that read returned is the file's content there. -/
theorem goldenCalls_frozen : ∃ events final,
    Run (CacheStep (goldenData.take 549))
        (directoryCalls ⟨true⟩ ".tantivy-meta.lock" goldenDirectory goldenCalls)
        events final
      ∧ final.threads[0]? = some (.ret (.bytes [0x64, 0x65]))
      ∧ (frozenOf goldenDirectory goldenData).Allows ".tantivy-meta.lock"
          (.readBytes "segment.idx" ⟨1, 3⟩) (.ok (.bytes [0x64, 0x65])) := by
  obtain ⟨events, final, hrun, hret⟩ := goldenCalls_run
  have h := directory_frozen golden_readHeader golden_new golden_complete hrun
    (show goldenCalls[0]? = some (.readBytes "segment.idx" ⟨1, 3⟩) from rfl)
  exact ⟨events, final, hrun, hret, h.1 _ hret⟩

end PaimonFtindex.Proofs

/-
Reading an archive in batches reads what reading it file by file reads.

A batch holds the files not read yet; `Within` is what the loop keeps of
it: it stays within both limits, a single file of any size apart, and
its byte count is the sum of its lengths. Success does not depend on the
batches at all: the loop succeeds exactly when every file can be read
and `consume` takes them all, in order (`readFiles_of_eq_ok`,
`exists_readFiles`), and so does reading them one at a time.

What is never done, in failing runs as in others, is said of the calls a
run leaves behind: all of them succeeded, or all but the last
(`keeps_readFiles`).
-/
import PaimonFtindex.Model.ArchiveFiles

namespace PaimonFtindex.Proofs

open Model Lib

variable {σ τ : Type} {input : SeekRead} {data : Bytes}

-- =========================================================== the reader

/-- A `pread` of several ranges succeeds exactly when each of them can
be read. -/
def RangeWise (input : SeekRead) : Prop :=
  ∀ ranges, ranges ≠ [] →
    (Succeeds (input.pread ranges)
      ↔ ∀ range ∈ ranges, Succeeds (input.pread [range]))

/-- A slice reader looks at its ranges one by one. -/
theorem sliceReader_rangeWise (data : Bytes) : RangeWise (sliceReader data) := by
  intro ranges _
  show Succeeds (ranges.mapM (SliceReader.readRange data)) ↔ _
  rw [succeeds_mapM]
  apply forall₂_congr
  intro range _
  show _ ↔ Succeeds ([range].mapM (SliceReader.readRange data))
  rw [succeeds_mapM]
  simp

/-- The bytes a request asks for. -/
def requested (data : Bytes) (range : ReadRequest) : Bytes :=
  slice data range.pos.toNat range.len

/-- What a batch of requests reads. -/
theorem pread_eq_ok_iff (himmutable : input.Immutable data)
    (hranges : RangeWise input) {ranges : List ReadRequest} (hne : ranges ≠ [])
    {bufs : List Bytes} :
    input.pread ranges = .ok bufs
      ↔ (∀ range ∈ ranges, Succeeds (input.pread [range]))
        ∧ bufs = ranges.map (requested data) := by
  have hbufs : ∀ bufs', input.pread ranges = .ok bufs' →
      bufs' = ranges.map (requested data) := by
    intro bufs' h
    apply eq_map_of_forall₂
    exact (himmutable ranges bufs' h).imp fun _ _ hbuf => hbuf.2
  constructor
  · intro h
    exact ⟨(hranges ranges hne).mp ⟨bufs, h⟩, hbufs bufs h⟩
  · intro h
    obtain ⟨hreadable, rfl⟩ := h
    obtain ⟨bufs', hbufs'⟩ := (hranges ranges hne).mpr hreadable
    rw [hbufs', hbufs bufs' hbufs']

-- ======================================================= the steps' calls

theorem preadBatch_eq_ok {ranges : List ReadRequest} {bufs : List Bytes}
    {env env' : ReadEnv σ} :
    preadBatch input ranges env = .ok bufs env'
      ↔ input.pread ranges = .ok bufs
        ∧ env' = { env with events := env.events ++ [.pread ranges true] } := by
  unfold preadBatch
  cases input.pread ranges with
  | error e => simp
  | ok bufs' => simp [eq_comm]

theorem callConsume_eq_ok {consume : Consume σ τ} {name : String} {item : τ}
    {env env' : ReadEnv σ} :
    callConsume consume name data env = .ok item env'
      ↔ ∃ closure, consume name data env.closure = .ok item closure
        ∧ env' = ⟨closure, env.events ++ [.consume name data true]⟩ := by
  unfold callConsume
  cases consume name data env.closure with
  | error e closure => simp
  | ok item' closure => simp [eq_comm, and_comm]

/-- `consume` called on one item after the other. -/
def consumeAll (consume : Consume σ τ) (items : List (String × Bytes)) :
    EStateM FtIndexError σ (List τ) :=
  items.mapM fun item => consume item.1 item.2

theorem consumeAll_nil_eq_ok {consume : Consume σ τ} {closure closure' : σ}
    {ts : List τ} :
    consumeAll consume [] closure = .ok ts closure'
      ↔ ts = [] ∧ closure' = closure := by
  unfold consumeAll
  rw [List.mapM_nil]
  constructor
  · intro h
    cases h
    exact ⟨rfl, rfl⟩
  · intro h
    rw [h.1, h.2]
    rfl

theorem consumeAll_cons_eq_ok {consume : Consume σ τ} {name : String}
    {items : List (String × Bytes)} {closure closure' : σ} {ts : List τ} :
    consumeAll consume ((name, data) :: items) closure = .ok ts closure'
      ↔ ∃ t u rest, consume name data closure = .ok t u
        ∧ consumeAll consume items u = .ok rest closure' ∧ ts = t :: rest := by
  unfold consumeAll
  rw [List.mapM_cons]
  simp only [estate_bind_eq_ok]
  constructor
  · intro h
    obtain ⟨t, u, ht, rest, v, hrest, h⟩ := h
    cases h
    exact ⟨t, u, rest, ht, hrest, rfl⟩
  · intro h
    obtain ⟨t, u, rest, ht, hrest, rfl⟩ := h
    exact ⟨t, u, ht, rest, closure', hrest, rfl⟩

/-- Consuming one list behind another. -/
theorem consumeAll_append_eq_ok {consume : Consume σ τ}
    {items items' : List (String × Bytes)} {closure closure' : σ}
    {ts : List τ} :
    consumeAll consume (items ++ items') closure = .ok ts closure'
      ↔ ∃ first u rest, consumeAll consume items closure = .ok first u
        ∧ consumeAll consume items' u = .ok rest closure'
        ∧ ts = first ++ rest := by
  unfold consumeAll
  rw [List.mapM_append]
  simp only [estate_bind_eq_ok]
  constructor
  · intro h
    obtain ⟨first, u, hfirst, rest, v, hrest, h⟩ := h
    cases h
    exact ⟨first, u, rest, hfirst, hrest, rfl⟩
  · intro h
    obtain ⟨first, u, rest, hfirst, hrest, rfl⟩ := h
    exact ⟨first, u, hfirst, rest, closure', hrest, rfl⟩

/-- What `consume` has been called on, in order. -/
def consumed (events : List ReadEvent) : List (String × Bytes) :=
  events.filterMap fun event => match event with
    | .pread _ _ => none
    | .consume name data _ => some (name, data)

/-- The drained files go to `consume` in order. -/
theorem drain_eq_ok {consume : Consume σ τ}
    {files : List (PendingArchiveFile × Bytes)} {output out : List τ}
    {env env' : ReadEnv σ} (h : drain consume files output env = .ok out env') :
    ∃ ts, consumeAll consume (files.map fun file => (file.1.name, file.2))
          env.closure = .ok ts env'.closure
      ∧ out = output ++ ts
      ∧ consumed env'.events = consumed env.events
        ++ files.map fun file => (file.1.name, file.2) := by
  induction files generalizing output env with
  | nil =>
      unfold drain at h
      cases h
      exact ⟨[], rfl, by simp, by simp⟩
  | cons file files ih =>
      obtain ⟨file, data⟩ := file
      unfold drain at h
      rw [estate_bind_eq_ok] at h
      obtain ⟨item, env₁, hitem, h⟩ := h
      obtain ⟨closure, hconsume, rfl⟩ := callConsume_eq_ok.mp hitem
      obtain ⟨ts, hts, hout, hevents⟩ := ih h
      refine ⟨item :: ts, ?_, ?_, ?_⟩
      · exact consumeAll_cons_eq_ok.mpr ⟨item, closure, ts, hconsume, hts, rfl⟩
      · rw [hout, List.append_assoc, List.singleton_append]
      · rw [hevents]
        simp [consumed]

/-- A drain gets through when `consume` takes every file. -/
theorem exists_drain {consume : Consume σ τ}
    {files : List (PendingArchiveFile × Bytes)} {output ts : List τ}
    {env : ReadEnv σ} {closure : σ}
    (h : consumeAll consume (files.map fun file => (file.1.name, file.2))
      env.closure = .ok ts closure) :
    ∃ out env', drain consume files output env = .ok out env' := by
  induction files generalizing output env ts with
  | nil => exact ⟨output, env, rfl⟩
  | cons file files ih =>
      obtain ⟨file, data⟩ := file
      obtain ⟨t, u, rest, ht, hrest, -⟩ := consumeAll_cons_eq_ok.mp h
      obtain ⟨out, env', hdrain⟩ := @ih (output ++ [t]) rest
        ⟨u, env.events ++ [.consume file.name data true]⟩ hrest
      refine ⟨out, env', ?_⟩
      unfold drain
      rw [estate_bind_eq_ok]
      exact ⟨t, _, callConsume_eq_ok.mpr ⟨u, ht, rfl⟩, hdrain⟩

-- ============================================================= one batch

/-- What `consume` gets for a pending file. -/
def pendingItem (data : Bytes) (file : PendingArchiveFile) : String × Bytes :=
  (file.name, requested data file.request)

/-- The buffers of a `pread` go to the files they were asked for. -/
theorem map_zip_requested (pending : List PendingArchiveFile) :
    (pending.zip ((pending.map PendingArchiveFile.request).map
        (requested data))).map (fun file => (file.1.name, file.2))
      = pending.map (pendingItem data) := by
  induction pending with
  | nil => rfl
  | cons file pending ih =>
      rw [List.map_cons, List.map_cons, List.zip_cons_cons, List.map_cons, ih]
      rfl

/-- The pending file can be read alone. -/
def Readable (input : SeekRead) (file : PendingArchiveFile) : Prop :=
  Succeeds (input.pread [file.request])

/-- A run that was handed `items`: it could call `consume` on all of
them, in order, and has done so. -/
structure Delivered (consume : Consume σ τ) (items : List (String × Bytes))
    (output out : List τ) (env env' : ReadEnv σ) : Prop where
  result : ∃ ts, consumeAll consume items env.closure = .ok ts env'.closure
    ∧ out = output ++ ts
  consumed_eq : consumed env'.events = consumed env.events ++ items

theorem Delivered.append {consume : Consume σ τ}
    {items items' : List (String × Bytes)} {output middle out : List τ}
    {env env₁ env' : ReadEnv σ}
    (h : Delivered consume items output middle env env₁)
    (h' : Delivered consume items' middle out env₁ env') :
    Delivered consume (items ++ items') output out env env' := by
  obtain ⟨first, hfirst, hmiddle⟩ := h.result
  obtain ⟨rest, hrest, hout⟩ := h'.result
  constructor
  · refine ⟨first ++ rest, ?_, ?_⟩
    · exact consumeAll_append_eq_ok.mpr ⟨first, _, rest, hfirst, hrest, rfl⟩
    · rw [hout, hmiddle, List.append_assoc]
  · rw [h'.consumed_eq, h.consumed_eq, List.append_assoc]

theorem delivered_nil {consume : Consume σ τ} {output : List τ}
    {env : ReadEnv σ} : Delivered consume [] output output env env := by
  constructor
  · exact ⟨[], rfl, (List.append_nil _).symm⟩
  · exact (List.append_nil _).symm

/-- What `consume` gets for a file of the archive. -/
def fileItem (data : Bytes) (bodyStart : UInt64) (file : ArchiveFileEntry) :
    String × Bytes :=
  (file.name,
    slice data (bodyStart.toNat + file.offset.toNat) file.length.toNat)

/-- The file lies at a position, its buffer can be allocated, and it can
be read alone. -/
def ReadableAt (input : SeekRead) (bodyStart : UInt64)
    (file : ArchiveFileEntry) : Prop :=
  ∃ pos, checkedAdd bodyStart file.offset = some pos
    ∧ file.length.toNat < 2 ^ 63
    ∧ Readable input ⟨file.name, pos, file.length⟩

/-- A file taken down at its position is read as the file it is. -/
theorem pendingItem_eq {bodyStart pos : UInt64} {file : ArchiveFileEntry}
    (hpos : checkedAdd bodyStart file.offset = some pos) :
    pendingItem data ⟨file.name, pos, file.length⟩
      = fileItem data bodyStart file := by
  rw [checkedAdd_eq_some] at hpos
  unfold pendingItem requested fileItem PendingArchiveFile.request
  rw [hpos]

theorem filePosition_eq_ok {bodyStart pos : UInt64} {file : ArchiveFileEntry}
    {env env' : ReadEnv σ} :
    filePosition bodyStart file env = .ok pos env'
      ↔ checkedAdd bodyStart file.offset = some pos ∧ env' = env := by
  unfold filePosition
  cases checkedAdd bodyStart file.offset with
  | none =>
      constructor
      · intro h
        cases h
      · intro h
        cases h.1
  | some pos' =>
      constructor
      · intro h
        cases h
        exact ⟨rfl, rfl⟩
      · intro h
        obtain ⟨hpos, rfl⟩ := h
        cases hpos
        rfl

theorem allocate_eq_ok {length : UInt64} {u : Unit} {env env' : ReadEnv σ} :
    allocate length env = .ok u env'
      ↔ length.toNat < 2 ^ 63 ∧ env' = env := by
  unfold allocate
  by_cases hlong : 2 ^ 63 ≤ length.toNat
  · rw [if_pos hlong]
    constructor
    · intro h
      cases h
    · intro h
      omega
  · rw [if_neg hlong]
    constructor
    · intro h
      cases h
      exact ⟨by omega, rfl⟩
    · intro h
      rw [h.2]
      rfl

section
variable (himmutable : input.Immutable data) (hranges : RangeWise input)
include himmutable hranges

/-- A batch is read when each of its files can be, and is then handed
over. -/
theorem readBatch_of_eq_ok {pending : List PendingArchiveFile}
    (hne : pending ≠ []) {consume : Consume σ τ} {output out : List τ}
    {env env' : ReadEnv σ}
    (h : readArchiveFileBatch input pending consume output env
      = .ok out env') :
    (∀ file ∈ pending, Readable input file)
      ∧ Delivered consume (pending.map (pendingItem data)) output out env
          env' := by
  unfold readArchiveFileBatch at h
  rw [estate_bind_eq_ok] at h
  obtain ⟨bufs, env₁, hcall, hdrain⟩ := h
  obtain ⟨hpread, rfl⟩ := preadBatch_eq_ok.mp hcall
  have hrequests : pending.map PendingArchiveFile.request ≠ [] := by
    simpa using hne
  obtain ⟨hreadable, rfl⟩ :=
    (pread_eq_ok_iff himmutable hranges hrequests).mp hpread
  obtain ⟨ts, hts, hout, hevents⟩ := drain_eq_ok hdrain
  rw [map_zip_requested] at hts hevents
  refine ⟨?_, ⟨ts, hts, hout⟩, ?_⟩
  · intro file hfile
    exact hreadable _ (List.mem_map_of_mem hfile)
  · rw [hevents]
    simp [consumed]

/-- A batch whose files are readable is read, if the consumer takes them. -/
theorem exists_readBatch {pending : List PendingArchiveFile}
    (hne : pending ≠ []) (hreadable : ∀ file ∈ pending, Readable input file)
    {consume : Consume σ τ} {output ts : List τ} {env : ReadEnv σ}
    {closure : σ}
    (h : consumeAll consume (pending.map (pendingItem data)) env.closure
      = .ok ts closure) :
    ∃ out env', readArchiveFileBatch input pending consume output env
      = .ok out env' := by
  have hrequests : pending.map PendingArchiveFile.request ≠ [] := by
    simpa using hne
  have hpread := (pread_eq_ok_iff himmutable hranges hrequests).mpr
    ⟨by simpa [Readable] using hreadable, rfl⟩
  rw [← map_zip_requested] at h
  obtain ⟨out, env', hdrain⟩ := @exists_drain _ _ _ _ output _
    { env with events := env.events ++ [.pread (pending.map
      PendingArchiveFile.request) true] } _ h
  refine ⟨out, env', ?_⟩
  unfold readArchiveFileBatch
  rw [estate_bind_eq_ok]
  exact ⟨_, _, preadBatch_eq_ok.mpr ⟨hpread, rfl⟩, hdrain⟩

-- ============================================================== the loop

/-- In front of a file, the files of the batch are read or stay. -/
theorem flushIfFull_of_eq_ok {consume : Consume σ τ} {length : UInt64}
    {batch batch' : PendingBatch} {output out : List τ} {env env' : ReadEnv σ}
    (h : flushIfFull input consume length batch output env
      = .ok (batch', out) env') :
    ∃ done, batch.pending = done ++ batch'.pending
      ∧ (∀ file ∈ done, Readable input file)
      ∧ Delivered consume (done.map (pendingItem data)) output out env env' := by
  unfold flushIfFull at h
  by_cases hfull : batch.full length = true
  · rw [if_pos hfull, estate_bind_eq_ok] at h
    obtain ⟨out', env₁, hread, h⟩ := h
    cases h
    have hne : batch.pending ≠ [] := by
      intro hnil
      simp [PendingBatch.full, hnil] at hfull
    obtain ⟨hreadable, hdelivered⟩ :=
      readBatch_of_eq_ok himmutable hranges hne hread
    exact ⟨batch.pending, (List.append_nil _).symm, hreadable, hdelivered⟩
  · rw [if_neg hfull] at h
    cases h
    exact ⟨[], rfl, by simp, delivered_nil⟩

/-- A run of the loop that returned has read and handed over the batch
it started with and all the files. -/
theorem readFiles_of_eq_ok {bodyStart : UInt64} {consume : Consume σ τ}
    {files : List ArchiveFileEntry} {batch : PendingBatch}
    {output out : List τ} {env env' : ReadEnv σ}
    (h : readFiles input bodyStart consume files batch output env
      = .ok out env') :
    (∀ file ∈ batch.pending, Readable input file)
      ∧ (∀ file ∈ files, ReadableAt input bodyStart file)
      ∧ Delivered consume (batch.pending.map (pendingItem data)
          ++ files.map (fileItem data bodyStart)) output out env env' := by
  induction files generalizing batch output env with
  | nil =>
      unfold readFiles at h
      rw [List.map_nil, List.append_nil]
      by_cases hnil : batch.pending = []
      · simp only [hnil, List.isEmpty_nil, if_true] at h
        cases h
        rw [hnil]
        exact ⟨by simp, by simp, delivered_nil⟩
      · rw [if_neg (by simpa using hnil)] at h
        obtain ⟨hreadable, hdelivered⟩ :=
          readBatch_of_eq_ok himmutable hranges hnil h
        exact ⟨hreadable, by simp, hdelivered⟩
  | cons file files ih =>
      unfold readFiles at h
      simp only [estate_bind_eq_ok] at h
      obtain ⟨pos, _, hplace, ⟨batch', output'⟩, env₁, hflush, _, _, halloc, h⟩ := h
      obtain ⟨hpos, rfl⟩ := filePosition_eq_ok.mp hplace
      obtain ⟨hlength, rfl⟩ := allocate_eq_ok.mp halloc
      obtain ⟨done, hpending, hdone, hfirst⟩ :=
        flushIfFull_of_eq_ok himmutable hranges hflush
      obtain ⟨hkept, hfiles, hrest⟩ := ih h
      dsimp only [PendingBatch.push] at hkept hrest
      rw [List.forall_mem_append, List.forall_mem_singleton] at hkept
      refine ⟨?_, ?_, ?_⟩
      · rw [hpending, List.forall_mem_append]
        exact ⟨hdone, hkept.1⟩
      · rw [List.forall_mem_cons]
        exact ⟨⟨pos, hpos, hlength, hkept.2⟩, hfiles⟩
      · have hboth := hfirst.append hrest
        rw [List.map_append, List.map_singleton, pendingItem_eq hpos] at hboth
        rw [hpending, List.map_append, List.map_cons]
        simpa using hboth

/-- Conversely, files that can all be read, and that `consume` takes,
are read and handed over. -/
theorem exists_readFiles {bodyStart : UInt64} {consume : Consume σ τ}
    {files : List ArchiveFileEntry} {batch : PendingBatch}
    {output ts : List τ} {env : ReadEnv σ} {closure : σ}
    (hpending : ∀ file ∈ batch.pending, Readable input file)
    (hfiles : ∀ file ∈ files, ReadableAt input bodyStart file)
    (h : consumeAll consume (batch.pending.map (pendingItem data)
      ++ files.map (fileItem data bodyStart)) env.closure = .ok ts closure) :
    ∃ out env', readFiles input bodyStart consume files batch output env
      = .ok out env' := by
  induction files generalizing batch output env ts with
  | nil =>
      unfold readFiles
      by_cases hnil : batch.pending = []
      · rw [if_pos (by simpa using hnil)]
        exact ⟨output, env, rfl⟩
      · rw [if_neg (by simpa using hnil)]
        rw [List.map_nil, List.append_nil] at h
        exact exists_readBatch himmutable hranges hnil hpending h
  | cons file files ih =>
      rw [List.forall_mem_cons] at hfiles
      obtain ⟨⟨pos, hpos, hlength, hreadable⟩, hfiles⟩ := hfiles
      unfold readFiles
      simp only [estate_bind_eq_ok]
      -- the file joins the batch, or a new one behind the batch just read
      by_cases hfull : batch.full file.length = true
      · obtain ⟨first, u, rest, hfirst, hrest, -⟩ :=
          consumeAll_append_eq_ok.mp h
        have hne : batch.pending ≠ [] := by
          intro hnil
          simp [PendingBatch.full, hnil] at hfull
        obtain ⟨output₁, env₁, hread⟩ :=
          @exists_readBatch _ _ _ _ himmutable hranges _ hne hpending _ output
            _ _ _ hfirst
        obtain ⟨-, hdelivered⟩ :=
          readBatch_of_eq_ok himmutable hranges hne hread
        obtain ⟨first', hfirst', -⟩ := hdelivered.result
        rw [hfirst] at hfirst'
        cases hfirst'
        obtain ⟨out, env', htail⟩ := @ih
          (PendingBatch.push {} ⟨file.name, pos, file.length⟩) output₁ rest env₁
          (by simpa [PendingBatch.push] using hreadable) hfiles
          (by simpa [PendingBatch.push, pendingItem_eq hpos] using hrest)
        refine ⟨out, env', pos, env, filePosition_eq_ok.mpr ⟨hpos, rfl⟩,
          ({}, output₁), env₁, ?_, (), env₁,
          allocate_eq_ok.mpr ⟨hlength, rfl⟩, htail⟩
        unfold flushIfFull
        rw [if_pos hfull, estate_bind_eq_ok]
        exact ⟨output₁, env₁, hread, rfl⟩
      · obtain ⟨out, env', htail⟩ := @ih
          (batch.push ⟨file.name, pos, file.length⟩) output ts env
          (by
            intro file' hfile'
            rcases List.mem_append.mp hfile' with hmem | hmem
            · exact hpending file' hmem
            · rw [List.mem_singleton.mp hmem]
              exact hreadable)
          hfiles
          (by simpa [PendingBatch.push, pendingItem_eq hpos] using h)
        refine ⟨out, env', pos, env, filePosition_eq_ok.mpr ⟨hpos, rfl⟩,
          (batch, output), env, ?_, (), env,
          allocate_eq_ok.mpr ⟨hlength, rfl⟩, htail⟩
        unfold flushIfFull
        rw [if_neg hfull]
        rfl

end

-- ====================================================== what is never done

/-- The ranges of one `pread`: some, not too many, and not too long
unless it is a single one. -/
structure WithinLimits (ranges : List ReadRequest) : Prop where
  one_le : 1 ≤ ranges.length
  le_ranges : ranges.length ≤ 64
  le_bytes : 1 < ranges.length →
    (ranges.map ReadRequest.len).sum ≤ 64 * 1024 * 1024

/-- The limits are a matter of `pread`s. -/
def Allowed : ReadEvent → Prop
  | .pread ranges _ => WithinLimits ranges
  | .consume _ _ _ => True

/-- Every call was allowed and succeeded. -/
structure Clean (env : ReadEnv σ) : Prop where
  allowed : ∀ event ∈ env.events, Allowed event
  succeeded : ∀ event ∈ env.events, event.Succeeded

/-- Every call was allowed, and one that failed was the last. -/
structure Stopped (env : ReadEnv σ) : Prop where
  allowed : ∀ event ∈ env.events, Allowed event
  last : ∀ before event behind, env.events = before ++ event :: behind →
    ¬ event.Succeeded → behind = []

theorem Clean.stopped {env : ReadEnv σ} (h : Clean env) : Stopped env := by
  refine ⟨h.allowed, fun before event behind heq hfailed => ?_⟩
  refine absurd (h.succeeded event ?_) hfailed
  rw [heq]
  exact List.mem_append_right _ List.mem_cons_self

section
variable {env : ReadEnv σ} {event : ReadEvent} {closure : σ}

/-- A call that succeeds leaves a clean log clean. -/
theorem Clean.call (h : Clean env) (hallowed : Allowed event)
    (hsucceeded : event.Succeeded) : Clean ⟨closure, env.events ++ [event]⟩ := by
  constructor
  · rw [List.forall_mem_append, List.forall_mem_singleton]
    exact ⟨h.allowed, hallowed⟩
  · rw [List.forall_mem_append, List.forall_mem_singleton]
    exact ⟨h.succeeded, hsucceeded⟩

/-- A call that fails stops a clean log. -/
theorem Clean.fail (h : Clean env) (hallowed : Allowed event) :
    Stopped ⟨closure, env.events ++ [event]⟩ := by
  constructor
  · rw [List.forall_mem_append, List.forall_mem_singleton]
    exact ⟨h.allowed, hallowed⟩
  · intro before failed behind heq hfailed
    dsimp only at heq
    -- a failed call among the clean ones in front of the last is none
    rcases List.eq_nil_or_concat behind with hnil | ⟨behind', last, rfl⟩
    · exact hnil
    · rw [List.concat_eq_append, ← List.cons_append, ← List.append_assoc] at heq
      obtain ⟨hevents, -⟩ := List.append_inj' heq rfl
      refine absurd (h.succeeded failed ?_) hfailed
      rw [hevents]
      exact List.mem_append_right _ List.mem_cons_self

end

theorem keeps_preadBatch {ranges : List ReadRequest}
    (h : WithinLimits ranges) :
    Keeps (@Clean σ) Stopped (fun _ => True) (preadBatch input ranges) := by
  intro env henv
  unfold preadBatch
  cases input.pread ranges with
  | ok bufs => exact ⟨henv.call h rfl, trivial⟩
  | error error => exact henv.fail h

theorem keeps_callConsume {consume : Consume σ τ} {name : String} :
    Keeps Clean Stopped (fun _ => True) (callConsume consume name data) := by
  intro env henv
  unfold callConsume
  cases consume name data env.closure with
  | ok item closure => exact ⟨henv.call trivial rfl, trivial⟩
  | error error closure => exact henv.fail trivial

theorem keeps_drain {consume : Consume σ τ}
    {files : List (PendingArchiveFile × Bytes)} {output : List τ} :
    Keeps Clean Stopped (fun _ => True) (drain consume files output) := by
  induction files generalizing output with
  | nil => exact keeps_pure trivial
  | cons file files ih =>
      unfold drain
      exact keeps_bind keeps_callConsume fun item _ => ih

-- ---- the batch

/-- The bytes of the pending files. -/
def pendingLength (pending : List PendingArchiveFile) : Nat :=
  (pending.map fun file => file.length.toNat).sum

/-- A batch that may be read, and whose byte count is right. -/
structure Within (batch : PendingBatch) : Prop where
  le_ranges : batch.pending.length ≤ 64
  bytes_eq : batch.pendingBytes.toNat = pendingLength batch.pending
  le_bytes : 1 < batch.pending.length →
    pendingLength batch.pending ≤ 64 * 1024 * 1024

theorem within_empty : Within {} := by
  refine ⟨?_, rfl, ?_⟩
  · simp
  · simp

/-- What is within the limits is asked for within them. -/
theorem Within.limits {batch : PendingBatch} (h : Within batch)
    (hne : batch.pending ≠ []) :
    WithinLimits (batch.pending.map PendingArchiveFile.request) := by
  have hsum : ((batch.pending.map PendingArchiveFile.request).map
      ReadRequest.len).sum = pendingLength batch.pending := by
    rw [List.map_map]
    rfl
  constructor
  · rw [List.length_map]
    exact List.length_pos_iff.mpr hne
  · rw [List.length_map]
    exact h.le_ranges
  · rw [List.length_map, hsum]
    exact h.le_bytes

/-- A batch with room takes one more file. -/
theorem Within.push {batch : PendingBatch} (h : Within batch)
    {file : PendingArchiveFile} (hroom : batch.full file.length = false) :
    Within (batch.push file) := by
  have hlength : pendingLength (batch.pending ++ [file])
      = pendingLength batch.pending + file.length.toNat := by
    simp [pendingLength]
  have hfile := file.length.toNat_lt
  unfold PendingBatch.push
  by_cases hnil : batch.pending = []
  · have hbytes := h.bytes_eq
    rw [hnil] at hbytes
    have hzero : batch.pendingBytes.toNat = 0 := hbytes
    refine ⟨by simp [hnil], ?_, by simp [hnil]⟩
    dsimp only
    rw [toNat_saturatingAdd (by omega), hlength, h.bytes_eq]
  · have hroom' : batch.pending.length < 64
        ∧ batch.pendingBytes.toNat + file.length.toNat ≤ 64 * 1024 * 1024 := by
      simp only [PendingBatch.full, Bool.and_eq_false_iff, Bool.not_eq_false',
        List.isEmpty_iff, hnil, false_or, Bool.or_eq_false_iff,
        decide_eq_false_iff_not, UInt64.not_lt, UInt64.le_iff_toNat_le,
        Nat.not_le] at hroom
      exact ⟨hroom.1, (saturatingAdd_le_iff (by omega)).mp hroom.2⟩
    refine ⟨?_, ?_, ?_⟩
    · rw [List.length_append, List.length_singleton]
      omega
    · dsimp only
      rw [toNat_saturatingAdd (by omega), hlength, h.bytes_eq]
    · intro _
      dsimp only
      rw [hlength, ← h.bytes_eq]
      exact hroom'.2

/-- A batch within the limits is one `pread` and then its consumer calls. -/
theorem keeps_readBatch {batch : PendingBatch} (h : Within batch)
    (hne : batch.pending ≠ []) {consume : Consume σ τ} {output : List τ} :
    Keeps Clean Stopped (fun _ => True)
      (readArchiveFileBatch input batch.pending consume output) := by
  unfold readArchiveFileBatch
  exact keeps_bind (keeps_preadBatch (h.limits hne)) fun bufs _ => keeps_drain

/-- In front of a file, the batch has room for it. -/
theorem keeps_flushIfFull {batch : PendingBatch} (h : Within batch)
    {consume : Consume σ τ} {length : UInt64} {output : List τ} :
    Keeps Clean Stopped (fun r => Within r.1 ∧ r.1.full length = false)
      (flushIfFull input consume length batch output) := by
  unfold flushIfFull
  by_cases hfull : batch.full length = true
  · rw [if_pos hfull]
    have hne : batch.pending ≠ [] := by
      intro hnil
      simp [PendingBatch.full, hnil] at hfull
    exact keeps_bind (keeps_readBatch h hne) fun out _ =>
      keeps_pure ⟨within_empty, rfl⟩
  · rw [if_neg hfull]
    exact keeps_pure ⟨h, by simpa using hfull⟩

theorem keeps_filePosition {bodyStart : UInt64} {file : ArchiveFileEntry} :
    Keeps (@Clean σ) Stopped (fun _ => True) (filePosition bodyStart file) := by
  unfold filePosition
  cases checkedAdd bodyStart file.offset with
  | some pos => exact keeps_pure trivial
  | none => exact keeps_throw fun _ => Clean.stopped

theorem keeps_allocate {length : UInt64} :
    Keeps (@Clean σ) Stopped (fun _ => True) (allocate length) := by
  unfold allocate
  by_cases hlong : 2 ^ 63 ≤ length.toNat
  · rw [if_pos hlong]
    intro env henv
    exact henv.stopped
  · rw [if_neg hlong]
    exact keeps_pure trivial

/-- The loop stays within the limits and stops at the first failure. -/
theorem keeps_readFiles {bodyStart : UInt64} {consume : Consume σ τ}
    {files : List ArchiveFileEntry} {batch : PendingBatch} (h : Within batch)
    {output : List τ} :
    Keeps Clean Stopped (fun _ => True)
      (readFiles input bodyStart consume files batch output) := by
  induction files generalizing batch output with
  | nil =>
      unfold readFiles
      by_cases hnil : batch.pending = []
      · rw [if_pos (by simpa using hnil)]
        exact keeps_pure trivial
      · rw [if_neg (by simpa using hnil)]
        exact keeps_readBatch h hnil
  | cons file files ih =>
      unfold readFiles
      refine keeps_bind keeps_filePosition fun pos _ => ?_
      refine keeps_bind (keeps_flushIfFull h) fun r hr => ?_
      refine keeps_bind keeps_allocate fun _ _ => ?_
      have hpush := @Within.push r.1 hr.1 ⟨file.name, pos, file.length⟩ hr.2
      exact ih hpush

-- =========================================================== one at a time

/-- Reading and consuming the files one at a time. -/
def readOneByOne (input : SeekRead) (bodyStart : UInt64)
    (consume : Consume σ τ) : List ArchiveFileEntry → BatchM σ (List τ)
  | [] => return []
  | file :: files => do
      let pos ← filePosition bodyStart file
      allocate file.length
      let bufs ← preadBatch input [⟨pos, file.length.toNat⟩]
      let item ← callConsume consume file.name bufs.flatten
      return item :: (← readOneByOne input bodyStart consume files)

/-- One at a time succeeds when every file can be read and `consume`
takes them all. -/
theorem readOneByOne_eq_ok (himmutable : input.Immutable data)
    (hranges : RangeWise input) {bodyStart : UInt64} {consume : Consume σ τ}
    {files : List ArchiveFileEntry} {out : List τ} {env : ReadEnv σ}
    {closure : σ} :
    (∃ env', readOneByOne input bodyStart consume files env = .ok out env'
        ∧ env'.closure = closure)
      ↔ (∀ file ∈ files, ReadableAt input bodyStart file)
        ∧ consumeAll consume (files.map (fileItem data bodyStart)) env.closure
          = .ok out closure := by
  induction files generalizing out env with
  | nil =>
      unfold readOneByOne
      rw [List.map_nil, consumeAll_nil_eq_ok]
      constructor
      · intro h
        obtain ⟨env', h, rfl⟩ := h
        cases h
        exact ⟨by simp, rfl, rfl⟩
      · intro h
        obtain ⟨-, rfl, rfl⟩ := h
        exact ⟨env, rfl, rfl⟩
  | cons file files ih =>
      have hsingle : ∀ {range : ReadRequest} {bufs : List Bytes},
          input.pread [range] = .ok bufs
            ↔ Succeeds (input.pread [range]) ∧ bufs = [requested data range] := by
        intro range bufs
        rw [pread_eq_ok_iff himmutable hranges (List.cons_ne_nil _ _),
          List.forall_mem_singleton, List.map_singleton]
      unfold readOneByOne
      simp only [estate_bind_eq_ok, filePosition_eq_ok, allocate_eq_ok,
        preadBatch_eq_ok, callConsume_eq_ok, hsingle]
      rw [List.map_cons, List.forall_mem_cons]
      constructor
      · intro h
        obtain ⟨env', ⟨pos, _, ⟨hpos, rfl⟩, _, _, ⟨hlength, rfl⟩, bufs, _,
          ⟨⟨hreadable, rfl⟩, rfl⟩, item, _, ⟨u, hconsume, rfl⟩, rest, env₁,
          hrest, h⟩, rfl⟩ := h
        cases h
        obtain ⟨hfiles, hall⟩ := ih.mp ⟨_, hrest, rfl⟩
        refine ⟨⟨⟨pos, hpos, hlength, hreadable⟩, hfiles⟩, ?_⟩
        rw [List.flatten_singleton] at hconsume
        rw [← pendingItem_eq hpos]
        exact consumeAll_cons_eq_ok.mpr ⟨item, u, rest, hconsume, hall, rfl⟩
      · intro h
        obtain ⟨⟨⟨pos, hpos, hlength, hreadable⟩, hfiles⟩, h⟩ := h
        rw [← pendingItem_eq hpos] at h
        obtain ⟨t, u, rest, ht, hrest, rfl⟩ := consumeAll_cons_eq_ok.mp h
        obtain ⟨env', htail, hclosure⟩ := (@ih rest ⟨u, env.events
          ++ [.pread [⟨pos, file.length.toNat⟩] true]
          ++ [.consume file.name (requested data ⟨pos, file.length.toNat⟩)
            true]⟩).mpr ⟨hfiles, hrest⟩
        refine ⟨env', ⟨pos, env, ⟨hpos, rfl⟩, (), env, ⟨hlength, rfl⟩, _, _,
          ⟨⟨hreadable, rfl⟩, rfl⟩, t, _, ⟨u, ?_, rfl⟩, rest, env', ?_, rfl⟩,
          hclosure⟩
        · rw [List.flatten_singleton]
          exact ht
        · rw [List.flatten_singleton]
          exact htail

-- =========================================================== batch by batch

/-- A file that can be read lies inside the input. -/
theorem ReadableAt.le_length (himmutable : input.Immutable data)
    {bodyStart : UInt64} {file : ArchiveFileEntry}
    (h : ReadableAt input bodyStart file) :
    bodyStart.toNat + file.offset.toNat + file.length.toNat ≤ data.length := by
  obtain ⟨pos, hpos, -, bufs, hbufs⟩ := h
  rw [checkedAdd_eq_some] at hpos
  have hslices := himmutable _ _ hbufs
  obtain ⟨buf, -, hle, -⟩ :=
    exists_mem_of_forall₂ hslices _ List.mem_cons_self
  rw [← hpos]
  exact hle

/-- Batched reading is reading one at a time, within its limits.

Whatever the files, their lengths and the closure: a run that returns
has handed every file and its bytes to `consume` once, in file order,
and returns the results in that order; it returns exactly when reading
the files one at a time does, with the same results and the closure in
the same state. In every run, failing ones included, each `pread` keeps
to the limits, and nothing is called once a batch read or `consume` has
failed. -/
theorem batched_reading_exact (himmutable : input.Immutable data)
    (hranges : RangeWise input) (bodyStart : UInt64)
    (files : List ArchiveFileEntry) (consume : Consume σ τ) (closure : σ) :
    (∀ out env', readArchiveFilesWith input bodyStart files consume ⟨closure, []⟩
          = .ok out env' →
        (∀ file ∈ files, bodyStart.toNat + file.offset.toNat
          + file.length.toNat ≤ data.length)
        ∧ (files.mapM fun file => consume file.name
            (slice data (bodyStart.toNat + file.offset.toNat)
              file.length.toNat)) closure = .ok out env'.closure
        ∧ consumed env'.events = files.map fun file => (file.name,
            slice data (bodyStart.toNat + file.offset.toNat)
              file.length.toNat))
      ∧ (∀ out closure',
        (∃ env', readArchiveFilesWith input bodyStart files consume ⟨closure, []⟩
            = .ok out env' ∧ env'.closure = closure')
          ↔ ∃ env', readOneByOne input bodyStart consume files ⟨closure, []⟩
            = .ok out env' ∧ env'.closure = closure')
      ∧ ∀ events, (endState (readArchiveFilesWith input bodyStart files consume
            ⟨closure, []⟩)).events = events →
        (∀ ranges succeeded, .pread ranges succeeded ∈ events →
          1 ≤ ranges.length ∧ ranges.length ≤ 64
            ∧ (1 < ranges.length →
              (ranges.map ReadRequest.len).sum ≤ 64 * 1024 * 1024))
        ∧ ∀ before event behind, events = before ++ event :: behind →
          ¬ event.Succeeded →
            ∀ name bytes succeeded, .consume name bytes succeeded ∉ behind := by
  have hreads : ∀ {out env'}, readArchiveFilesWith input bodyStart files consume
      ⟨closure, []⟩ = .ok out env' →
      (∀ file ∈ files, ReadableAt input bodyStart file)
        ∧ consumeAll consume (files.map (fileItem data bodyStart)) closure
          = .ok out env'.closure
        ∧ consumed env'.events = files.map (fileItem data bodyStart) := by
    intro out env' h
    obtain ⟨-, hfiles, hdelivered⟩ := readFiles_of_eq_ok himmutable hranges h
    obtain ⟨ts, hts, rfl⟩ := hdelivered.result
    exact ⟨hfiles, hts, hdelivered.consumed_eq⟩
  refine ⟨?_, ?_, ?_⟩
  · intro out env' h
    obtain ⟨hfiles, hall, hevents⟩ := hreads h
    refine ⟨fun file hfile => (hfiles file hfile).le_length himmutable, ?_,
      hevents⟩
    unfold consumeAll at hall
    rw [List.mapM_map] at hall
    exact hall
  · intro out closure'
    rw [readOneByOne_eq_ok himmutable hranges]
    constructor
    · intro h
      obtain ⟨env', h, rfl⟩ := h
      obtain ⟨hfiles, hall, -⟩ := hreads h
      exact ⟨hfiles, hall⟩
    · intro h
      obtain ⟨hfiles, hall⟩ := h
      obtain ⟨out', env', hrun⟩ := @exists_readFiles _ _ _ _ himmutable hranges
        bodyStart consume files {} [] out ⟨closure, []⟩ closure' (by simp)
        hfiles hall
      obtain ⟨-, hall', -⟩ := hreads hrun
      rw [hall] at hall'
      cases hall'
      exact ⟨env', hrun, rfl⟩
  · intro events hevents
    have hstopped : Stopped (endState (readArchiveFilesWith input bodyStart
        files consume ⟨closure, []⟩)) :=
      endState_of_keeps (keeps_readFiles within_empty) (fun _ => Clean.stopped)
        ⟨by simp, by simp⟩
    subst hevents
    refine ⟨?_, ?_⟩
    · intro ranges succeeded hmem
      have hlimits : WithinLimits ranges := hstopped.allowed _ hmem
      exact ⟨hlimits.one_le, hlimits.le_ranges, hlimits.le_bytes⟩
    · intro before event behind heq hfailed name bytes succeeded hmem
      rw [hstopped.last before event behind heq hfailed] at hmem
      cases hmem

/-- `headerabcdef`, an archive of three files behind six bytes. -/
def headerAbcdef : Bytes :=
  [0x68, 0x65, 0x61, 0x64, 0x65, 0x72, 0x61, 0x62, 0x63, 0x64, 0x65, 0x66]

def abcFiles : List ArchiveFileEntry :=
  [⟨"a", 0, 2⟩, ⟨"b", 2, 3⟩, ⟨"c", 5, 1⟩]

/-- The three files, read in one batch. -/
theorem abcFiles_batched :
    ∃ env', readArchiveFiles (sliceReader headerAbcdef) 6 abcFiles ⟨(), []⟩
      = .ok [("a", [0x61, 0x62]), ("b", [0x63, 0x64, 0x65]), ("c", [0x66])]
          env' := by
  obtain ⟨-, hsame, -⟩ := batched_reading_exact
    (sliceReader_immutable headerAbcdef) (sliceReader_rangeWise headerAbcdef)
    6 abcFiles (fun name data => return (name, data)) ()
  obtain ⟨env', hrun, -⟩ := (hsame _ ()).mpr ⟨_, rfl, rfl⟩
  exact ⟨env', hrun⟩

/-- They take one `pread` of three ranges. -/
example : ((endState (readArchiveFiles (sliceReader headerAbcdef) 6 abcFiles
      ⟨(), []⟩)).events.filterMap fun event => match event with
    | .pread ranges _ => some ranges.length
    | .consume _ _ _ => none) = [3] := by decide

end PaimonFtindex.Proofs

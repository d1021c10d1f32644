/-
The v1 envelope: reading undoes writing.

The writing half of this file says, function by function, what a
successful run has appended to its output; whatever the chunking, the
body of the archive is the files' contents one after the other
(`bytes_of_writeEnvelope`). The reading half walks `read_header` over
those bytes. In between sits the layout: entries with running offsets
are in order already, so the checker's sort leaves them alone and its
sweep accepts them, empty files included (`sweeps_archiveEntries`).
-/
import Mathlib.Data.List.Forall2
import PaimonFtindex.Model.Writer
import PaimonFtindex.Proofs.Layout

namespace PaimonFtindex.Proofs

open Model Lib

-- ================================================= what a writer appends

theorem passed_of_ofResult {α : Type} {r : Result α} {a : α}
    {output output' : Output} (h : WriteM.ofResult r output = .ok a output') :
    r = .ok a ∧ output' = output := by
  unfold WriteM.ofResult at h
  split at h <;> cases h
  exact ⟨rfl, rfl⟩

theorem passed_of_io {α : Type} {r : Except IoError α} {a : α}
    {output output' : Output} (h : WriteM.io r output = .ok a output') :
    r = .ok a ∧ output' = output := by
  unfold WriteM.io at h
  split at h <;> cases h
  exact ⟨rfl, rfl⟩

theorem bytes_of_writeAll {buf : Bytes} {output output' : Output}
    (h : writeAll buf output = .ok () output') :
    output'.bytes = output.bytes ++ buf := by
  unfold Output.bytes
  rw [passed_of_writeAll h, List.flatten_append, List.flatten_singleton]

/-- The sixteen bytes in front of a header. -/
def envelopePrefix (json : Bytes) : Bytes :=
  formatMagic ++ toBeBytes formatVersion ++ toBeBytes (UInt32.ofNat json.length)

@[simp] theorem envelopePrefix_length (json : Bytes) :
    (envelopePrefix json).length = 16 := rfl

/-- The four buffers of the prefix and the header. -/
theorem passed_of_writeEnvelopeHeader {serde : HeaderJson}
    {header : IndexHeader} {output output' : Output}
    (h : writeEnvelopeHeader serde header output = .ok () output') :
    ∃ json, serde.toVec header = .ok json ∧ json.length ≤ maxHeaderBytes
      ∧ output'.passed = output.passed ++ [formatMagic,
          toBeBytes formatVersion, toBeBytes (UInt32.ofNat json.length), json] := by
  unfold writeEnvelopeHeader at h
  cases hjson : serde.toVec header with
  | error e =>
      rw [hjson] at h
      cases h
  | ok json =>
      rw [hjson] at h
      by_cases hlong : maxHeaderBytes < json.length
      · simp only [hlong, if_true, pure_bind, estate_bind_eq_ok] at h
        obtain ⟨_, _, hthrow, -⟩ := h
        cases hthrow
      · by_cases hword : 2 ^ 32 ≤ json.length
        · unfold maxHeaderBytes at hlong
          omega
        · simp only [hlong, hword, if_false, pure_bind, estate_bind_eq_ok] at h
          obtain ⟨_, o₁, h₁, _, o₂, h₂, _, o₃, h₃, h₄⟩ := h
          refine ⟨json, rfl, by omega, ?_⟩
          rw [passed_of_writeAll h₄, passed_of_writeAll h₃,
            passed_of_writeAll h₂, passed_of_writeAll h₁]
          simp

/-- The chunked copy appends the first `remaining` bytes of the file. -/
theorem bytes_of_copyChunks {remaining : Nat} {file buffer buffer' : Bytes}
    {output output' : Output}
    (h : copyChunks remaining file buffer output = .ok buffer' output') :
    remaining ≤ file.length
      ∧ output'.bytes = output.bytes ++ file.take remaining := by
  induction remaining using Nat.strongRecOn generalizing file buffer output with
  | ind remaining ih =>
      unfold copyChunks at h
      by_cases hzero : remaining = 0
      · rw [if_pos hzero] at h
        cases h
        simp [hzero]
      · rw [if_neg hzero] at h
        simp only [estate_bind_eq_ok] at h
        obtain ⟨⟨buffer₁, rest⟩, o₁, h₁, _, o₂, h₂, h₃⟩ := h
        obtain ⟨hread, rfl⟩ := passed_of_io h₁
        unfold readExact at hread
        split at hread
        · cases hread
        · rename_i hlen
          cases hread
          have hchunk : min remaining archiveWriteBufferBytes ≤ file.length := by
            omega
          have hpos : 0 < archiveWriteBufferBytes := by decide
          have hlt : remaining - min remaining archiveWriteBufferBytes
              < remaining := by omega
          obtain ⟨hrest, hbytes⟩ := ih _ hlt h₃
          rw [List.length_drop] at hrest
          refine ⟨by omega, ?_⟩
          rw [hbytes, bytes_of_writeAll h₂, List.append_assoc]
          congr 1
          rw [List.take_append_of_le_length (by
            rw [List.length_take]; omega), List.take_take, Nat.min_self]
          calc file.take (min remaining archiveWriteBufferBytes)
                ++ (file.drop (min remaining archiveWriteBufferBytes)).take
                  (remaining - min remaining archiveWriteBufferBytes)
              = file.take (min remaining archiveWriteBufferBytes
                  + (remaining - min remaining archiveWriteBufferBytes)) :=
                List.take_add.symm
            _ = file.take remaining := by congr 1; omega

/-- The body a file contributes: as many of its bytes as its entry says. -/
def Body (fs : FileSystem) (pair : ArchiveFileEntry × OsPath) (body : Bytes) :
    Prop :=
  ∃ data, fs pair.2 = .ok data ∧ pair.1.length.toNat ≤ data.length
    ∧ body = data.take pair.1.length.toNat

/-- The file loop appends one body per file, in order. -/
theorem bytes_of_copyFiles {fs : FileSystem}
    {pairs : List (ArchiveFileEntry × OsPath)} {buffer : Bytes}
    {output output' : Output}
    (h : copyFiles fs pairs buffer output = .ok () output') :
    ∃ bodies, List.Forall₂ (Body fs) pairs bodies
      ∧ output'.bytes = output.bytes ++ bodies.flatten := by
  induction pairs generalizing buffer output with
  | nil =>
      unfold copyFiles at h
      cases h
      exact ⟨[], List.Forall₂.nil, by simp⟩
  | cons pair pairs ih =>
      obtain ⟨entry, path⟩ := pair
      unfold copyFiles at h
      simp only [estate_bind_eq_ok] at h
      obtain ⟨file, o₁, h₁, buffer₁, o₂, h₂, h₃⟩ := h
      obtain ⟨hfile, rfl⟩ := passed_of_io h₁
      obtain ⟨hlen, hbytes⟩ := bytes_of_copyChunks h₂
      obtain ⟨bodies, hbodies, hrest⟩ := ih h₃
      refine ⟨file.take entry.length.toNat :: bodies,
        List.Forall₂.cons ⟨file, hfile, hlen, rfl⟩ hbodies, ?_⟩
      rw [hrest, hbytes, List.flatten_cons, List.append_assoc]

/-- What a successful archive write has put on its output: the prefix,
the header and the bodies. -/
theorem bytes_of_writeEnvelope {serde : HeaderJson} {fs : FileSystem}
    {header : IndexHeader} {paths : List OsPath} {output output' : Output}
    (h : writeEnvelopeFromPaths serde fs header paths output
      = .ok () output') :
    ∃ json bodies, serde.toVec header = .ok json
      ∧ json.length ≤ maxHeaderBytes
      ∧ header.files.length = paths.length
      ∧ List.Forall₂ (Body fs) (header.files.zip paths) bodies
      ∧ output'.bytes = output.bytes
          ++ (envelopePrefix json ++ json ++ bodies.flatten) := by
  unfold writeEnvelopeFromPaths at h
  by_cases hlen : header.files.length = paths.length
  · simp only [hlen, ne_eq, not_true_eq_false, if_false,
      estate_bind_eq_ok] at h
    obtain ⟨_, o₁, h₁, _, o₂, h₂, h₃⟩ := h
    obtain ⟨json, hjson, hle, hpassed⟩ := passed_of_writeEnvelopeHeader h₁
    obtain ⟨bodies, hbodies, hbytes⟩ := bytes_of_copyFiles h₂
    refine ⟨json, bodies, hjson, hle, hlen, hbodies, ?_⟩
    have hflush : output'.bytes = o₂.bytes := by
      unfold Output.bytes
      rw [passed_of_flush h₃]
    rw [hflush, hbytes]
    unfold Output.bytes
    rw [hpassed]
    simp [envelopePrefix]
  · simp only [hlen, ne_eq, not_false_eq_true, if_true] at h
    cases h

-- =========================================================== the layout

/-- A plain file name: one normal path component and nothing else. -/
def PlainName (name : String) : Prop :=
  name ≠ "" ∧ name ≠ "." ∧ name ≠ ".." ∧ '/' ∉ name.toList

instance (name : String) : Decidable (PlainName name) :=
  inferInstanceAs (Decidable (_ ∧ _ ∧ _ ∧ _))

theorem splitChars_of_not_mem {s : String} {c : Char} (h : c ∉ s.toList) :
    splitChars s [c] = [s] := by
  unfold splitChars
  rw [List.splitOnP_eq_singleton (by
    intro d hd
    simp only [List.contains_cons, List.contains_nil, Bool.or_false,
      beq_eq_false_iff_ne]
    rintro rfl
    exact h hd)]
  rw [List.map_singleton, String.ofList_toList]

/-- Plain names pass the reader's check. -/
theorem validateArchiveFileName_of_plain {name : String}
    (h : PlainName name) : validateArchiveFileName name = .ok () := by
  obtain ⟨hempty, hdot, hdots, hslash⟩ := h
  have hhead : name.toList.head? ≠ some '/' := by
    intro hhead
    exact hslash (List.mem_of_head? hhead)
  have hcomponents : components name = [.normal name] := by
    unfold components
    rw [splitChars_of_not_mem hslash]
    simp [hhead, hdot, hempty, hdots, pieceComponent]
  unfold validateArchiveFileName
  rw [hcomponents]
  simp [String.isEmpty_iff, hempty]

/-- One round of the entry loop, inverted. -/
theorem archiveEntries_cons_eq_ok {offset : UInt64} {file : IndexFile}
    {files : List IndexFile} {entries : List ArchiveFileEntry} :
    archiveEntries offset (file :: files) = .ok entries
      ↔ ∃ next rest, next.toNat = offset.toNat + file.length.toNat
          ∧ archiveEntries next files = .ok rest
          ∧ entries = ⟨file.name, offset, file.length⟩ :: rest := by
  rw [archiveEntries]
  cases hnext : checkedAdd offset file.length with
  | none =>
      rw [checkedAdd_eq_none] at hnext
      constructor
      · intro h
        cases h
      · intro h
        obtain ⟨next, _, hsum, -⟩ := h
        have := next.toNat_lt
        omega
  | some next =>
      have hsum := checkedAdd_eq_some.mp hnext
      simp only [pure_bind, except_bind_eq_ok]
      constructor
      · intro h
        obtain ⟨rest, hrest, h⟩ := h
        cases h
        exact ⟨next, rest, hsum, hrest, rfl⟩
      · intro h
        obtain ⟨next', rest, hsum', hrest, rfl⟩ := h
        rw [← hsum, UInt64.toNat_inj] at hsum'
        exact ⟨rest, hsum' ▸ hrest, rfl⟩

/-- The entries `write` computes, read off: names and lengths are the
files', and no end overflows. -/
theorem archiveEntries_ok {offset : UInt64} {files : List IndexFile}
    {entries : List ArchiveFileEntry}
    (h : archiveEntries offset files = .ok entries) :
    entries.map ArchiveFileEntry.name = files.map IndexFile.name
      ∧ entries.map ArchiveFileEntry.length = files.map IndexFile.length
      ∧ (∀ entry ∈ entries, FitsWord entry)
      ∧ Sweeps rangeLo rangeHi offset.toNat (entries.map fileRange) := by
  induction files generalizing offset entries with
  | nil =>
      cases h
      simp [Sweeps]
  | cons file files ih =>
      obtain ⟨next, rest, hnext, hrest, rfl⟩ := archiveEntries_cons_eq_ok.mp h
      obtain ⟨hnames, hlengths, hfits, hsweep⟩ := ih hrest
      have hfit : FitsWord ⟨file.name, offset, file.length⟩ := by
        have := next.toNat_lt
        unfold FitsWord
        dsimp only
        omega
      refine ⟨by simp [hnames], by simp [hlengths], ?_, ?_, ?_⟩
      · simpa [hfit] using hfits
      · exact Nat.le_refl _
      · have hstop := fileRange_stop hfit
        dsimp only at hstop
        rw [← hnext] at hstop
        unfold rangeHi
        rw [hstop]
        exact hsweep

/-- The loop fails only when the total size does not fit. -/
theorem exists_archiveEntries {offset : UInt64} {files : List IndexFile}
    (h : offset.toNat + (files.map fun file => file.length.toNat).sum < 2 ^ 64) :
    ∃ entries, archiveEntries offset files = .ok entries := by
  induction files generalizing offset with
  | nil => exact ⟨[], rfl⟩
  | cons file files ih =>
      rw [List.map_cons, List.sum_cons] at h
      have hlt : offset.toNat + file.length.toNat < 2 ^ 64 := by omega
      have hnext : (offset + file.length).toNat
          = offset.toNat + file.length.toNat := by
        rw [UInt64.toNat_add, Nat.mod_eq_of_lt hlt]
      obtain ⟨rest, hrest⟩ := @ih (offset + file.length) (by omega)
      exact ⟨_, archiveEntries_cons_eq_ok.mpr ⟨_, rest, hnext, hrest, rfl⟩⟩

/-- Running offsets point at the bodies, wherever the bodies start. -/
theorem slices_of_archiveEntries {offset : UInt64} {files : List IndexFile}
    {entries : List ArchiveFileEntry} {bodies : List Bytes}
    (h : archiveEntries offset files = .ok entries)
    (hlen : List.Forall₂ (fun entry body =>
      body.length = entry.length.toNat) entries bodies)
    {pre : Bytes} {start : Nat} (hpre : pre.length = start + offset.toNat) :
    List.Forall₂ (fun entry body =>
      slice (pre ++ bodies.flatten) (start + entry.offset.toNat)
        entry.length.toNat = body) entries bodies := by
  induction files generalizing offset entries bodies pre with
  | nil =>
      cases h
      cases hlen
      exact List.Forall₂.nil
  | cons file files ih =>
      obtain ⟨next, rest, hnext, hrest, rfl⟩ := archiveEntries_cons_eq_ok.mp h
      cases hlen with
      | cons hbody hlen =>
          rename_i body bodies
          dsimp only at hbody
          apply List.Forall₂.cons
          · dsimp only
            unfold slice
            rw [← hpre, List.drop_left, List.flatten_cons,
              ← hbody, List.take_left]
          · have hpre' : (pre ++ body).length = start + next.toNat := by
              rw [List.length_append]
              omega
            have := ih hrest hlen hpre'
            rw [List.append_assoc] at this
            exact this

-- ============================================================== reading

/-- A slice reader answers a request inside its bytes with the slice. -/
theorem readExactAt_sliceReader {data : Bytes} {pos : UInt64} {len : Nat}
    (hle : pos.toNat + len ≤ data.length) (hlt : pos.toNat + len < 2 ^ 64) :
    readExactAt (sliceReader data) pos len
      = .ok (slice data pos.toNat len) := by
  have hread : SliceReader.readRange data ⟨pos, len⟩
      = .ok (slice data pos.toNat len) := by
    unfold SliceReader.readRange
    dsimp only
    rw [if_neg (by omega), if_neg (by omega)]
  unfold readExactAt sliceReader
  dsimp only
  rw [List.mapM_cons, hread]
  simp [bind, Except.bind, pure, Except.pure]

/-- A slice that starts where a prefix ends. -/
theorem slice_append_mid (pre mid rest : Bytes) :
    slice (pre ++ mid ++ rest) pre.length mid.length = mid := by
  unfold slice
  rw [List.append_assoc, List.drop_left, List.take_left]

/-- Reading a prefix, a header and whatever follows: the header, if it
decodes and its layout is accepted. -/
theorem readHeader_of_prefix {serde : HeaderJson} {header : IndexHeader}
    {json rest : Bytes} (hjson : serde.fromSlice json = .ok header)
    (hlen : json.length ≤ maxHeaderBytes)
    (hvalid : validateHeader header = .ok ()) :
    readHeader serde (sliceReader (envelopePrefix json ++ json ++ rest))
      = .ok (header, 16 + UInt64.ofNat json.length) := by
  have hmax : maxHeaderBytes = 16777216 := rfl
  have hword : UInt64.toNat 16 = 16 := rfl
  have hsize : (envelopePrefix json ++ json ++ rest).length
      = 16 + json.length + rest.length := by
    rw [List.length_append, List.length_append, envelopePrefix_length]
  have hfixed : readExactAt (sliceReader (envelopePrefix json ++ json ++ rest))
      0 16 = .ok (envelopePrefix json) := by
    have hzero : UInt64.toNat 0 = 0 := rfl
    rw [readExactAt_sliceReader (by rw [hsize, hzero]; omega) (by decide)]
    have hslice := slice_append_mid [] (envelopePrefix json) (json ++ rest)
    rw [List.nil_append, ← List.append_assoc] at hslice
    exact congrArg Except.ok hslice
  have hbody : readExactAt (sliceReader (envelopePrefix json ++ json ++ rest))
      16 json.length = .ok json := by
    rw [readExactAt_sliceReader (by rw [hsize, hword]; omega)
      (by rw [hword]; omega)]
    exact congrArg Except.ok (slice_append_mid (envelopePrefix json) json rest)
  have hmagic : (envelopePrefix json).take 8 = formatMagic := rfl
  have hversion : slice (envelopePrefix json) 8 4
      = toBeBytes formatVersion := rfl
  have hlength : slice (envelopePrefix json) 12 4
      = toBeBytes (UInt32.ofNat json.length) := rfl
  have hnat : (UInt32.ofNat json.length).toNat = json.length := by
    rw [UInt32.toNat_ofNat']
    omega
  unfold readHeader
  rw [hfixed]
  simp only [bind, Except.bind, pure, Except.pure]
  rw [hmagic, hversion, hlength, fromBeBytes_toBeBytes, fromBeBytes_toBeBytes,
    hnat]
  simp only [ne_eq, not_true_eq_false, if_false, Nat.not_lt.mpr hlen]
  rw [hbody]
  simp only [hjson, hvalid]

-- ========================================================== the round trip

/-- The layout `write` computes passes the reader's checks. -/
theorem validateHeader_of_archiveEntries {config : FullTextIndexConfig}
    {documentCount : UInt64} {version : String} {files : List IndexFile}
    {entries : List ArchiveFileEntry}
    (hconfig : config.validate = .ok ()) (hversion : isBlank version = false)
    (hne : files ≠ []) (hnodup : (files.map IndexFile.name).Nodup)
    (hplain : ∀ file ∈ files, validateArchiveFileName file.name = .ok ())
    (hentries : archiveEntries 0 files = .ok entries) :
    validateHeader ⟨⟨config, documentCount, version⟩, entries⟩ = .ok () := by
  obtain ⟨hnames, -, hfits, hsweep⟩ := archiveEntries_ok hentries
  refine validateHeader_of_sweeps hconfig hversion ?_ ?_ ?_ hfits hsweep
  · intro hnil
    have hlen := congrArg List.length hnames
    dsimp only at hnil
    rw [hnil, List.length_map, List.length_map] at hlen
    exact hne (List.eq_nil_of_length_eq_zero hlen.symm)
  · intro entry hentry
    have hmem : entry.name ∈ files.map IndexFile.name := by
      rw [← hnames]
      exact List.mem_map_of_mem hentry
    obtain ⟨file, hfile, hname⟩ := List.mem_map.mp hmem
    rw [← hname]
    exact hplain file hfile
  · dsimp only
    rw [hnames]
    exact hnodup

/-- The bodies copied for entries of the files' own lengths are the
files' contents. -/
theorem bodies_eq_contents {fs : FileSystem} {offset : UInt64}
    {files : List IndexFile} {entries : List ArchiveFileEntry}
    {contents bodies : List Bytes}
    (hentries : archiveEntries offset files = .ok entries)
    (hcontents : List.Forall₂ (fun file content => fs file.path = .ok content
      ∧ content.length = file.length.toNat) files contents)
    (hbodies : List.Forall₂ (Body fs)
      (entries.zip (files.map IndexFile.path)) bodies) :
    bodies = contents ∧ List.Forall₂ (fun entry body =>
      body.length = entry.length.toNat) entries contents := by
  induction hcontents generalizing offset entries bodies with
  | nil =>
      cases hentries
      cases hbodies
      exact ⟨rfl, List.Forall₂.nil⟩
  | cons hfile _ ih =>
      rename_i file content files contents
      obtain ⟨next, rest, -, hrest, rfl⟩ := archiveEntries_cons_eq_ok.mp hentries
      rw [List.map_cons, List.zip_cons_cons] at hbodies
      cases hbodies with
      | cons hbody hbodies =>
          obtain ⟨data, hdata, -, hbody⟩ := hbody
          dsimp only at hdata hbody
          rw [hfile.1] at hdata
          cases hdata
          obtain ⟨hrestEq, hlengths⟩ := ih hrest hbodies
          refine ⟨?_, List.Forall₂.cons hfile.2 hlengths⟩
          rw [hbody, hrestEq, ← hfile.2, List.take_length]

/-- Reading undoes writing: an archive written from the files of an
index, with the offsets the index writer computes, is accepted by the
reader with the header it was written with, and every entry's slice is
its file's content. -/
theorem readHeader_writeEnvelope {serde : HeaderJson}
    (hserde : serde.RoundTrips) {fs : FileSystem}
    {config : FullTextIndexConfig} (hconfig : config.validate = .ok ())
    (documentCount : UInt64) {version : String}
    (hversion : isBlank version = false) {files : List IndexFile}
    {contents : List Bytes} (hne : files ≠ [])
    (hnodup : (files.map IndexFile.name).Nodup)
    (hplain : ∀ file ∈ files, validateArchiveFileName file.name = .ok ())
    (hcontents : List.Forall₂ (fun file content => fs file.path = .ok content
      ∧ content.length = file.length.toNat) files contents)
    (htotal : (contents.map List.length).sum < 2 ^ 64) :
    ∃ entries, archiveEntries 0 files = .ok entries
      ∧ ∀ fault output',
        writeEnvelopeFromPaths serde fs
            ⟨⟨config, documentCount, version⟩, entries⟩
            (files.map IndexFile.path) { fault := fault } = .ok () output' →
        ∃ json, serde.toVec ⟨⟨config, documentCount, version⟩, entries⟩ = .ok json
          ∧ readHeader serde (sliceReader output'.bytes)
              = .ok (⟨⟨config, documentCount, version⟩, entries⟩,
                  16 + UInt64.ofNat json.length)
          ∧ (16 + UInt64.ofNat json.length).toNat = 16 + json.length
          ∧ List.Forall₂ (fun entry content =>
              slice output'.bytes (16 + json.length + entry.offset.toNat)
                entry.length.toNat = content) entries contents := by
  have hlengths : contents.map List.length
      = files.map fun file => file.length.toNat := by
    clear htotal hne hnodup hplain
    induction hcontents with
    | nil => rfl
    | cons hfile _ ih => rw [List.map_cons, List.map_cons, hfile.2, ih]
  obtain ⟨entries, hentries⟩ := @exists_archiveEntries 0 files (by
      rw [← hlengths]
      have : UInt64.toNat 0 = 0 := rfl
      omega)
  refine ⟨entries, hentries, fun fault output' hwrite => ?_⟩
  obtain ⟨json, bodies, hjson, hle, -, hbodies, hbytes⟩ :=
    bytes_of_writeEnvelope hwrite
  obtain ⟨rfl, hbodyLen⟩ := bodies_eq_contents hentries hcontents hbodies
  have hempty : ({ fault := fault } : Output).bytes = [] := rfl
  rw [hempty, List.nil_append] at hbytes
  have hvalid : validateHeader ⟨⟨config, documentCount, version⟩, entries⟩
      = .ok () :=
    validateHeader_of_archiveEntries hconfig hversion hne hnodup hplain hentries
  refine ⟨json, hjson, ?_, ?_, ?_⟩
  · rw [hbytes]
    exact readHeader_of_prefix (hserde _ _ hjson) hle hvalid
  · have hmax : maxHeaderBytes = 16777216 := rfl
    rw [UInt64.toNat_add, UInt64.toNat_ofNat']
    show (16 + json.length % 2 ^ 64) % 2 ^ 64 = _
    omega
  · rw [hbytes]
    apply slices_of_archiveEntries hentries hbodyLen
    rw [List.length_append, envelopePrefix_length]
    rfl

/-- The files of the repository's golden archive. -/
def goldenFiles : List IndexFile :=
  [⟨"meta.json", [1], 2⟩, ⟨"segment.idx", [2], 4⟩]

def goldenHeader : IndexHeader where
  metadata := { config := {}, documentCount := 2, tantivyVersion := "0.26.0" }
  files := [⟨"meta.json", 0, 2⟩, ⟨"segment.idx", 2, 4⟩]

/-- The header as serde_json writes it there. -/
def goldenJson : Bytes :=
  ("\x7b\"metadata\":\x7b\"config\":\x7b\"row_id_field\":\"row_id\","
      ++ "\"text_fields\":[\"text\"],"
      ++ "\"tokenizer\":\x7b\"tokenizer\":\"default\","
      ++ "\"ngram_min_gram\":3,\"ngram_max_gram\":3,"
      ++ "\"ngram_prefix_only\":false,\"jieba_search_mode\":true,"
      ++ "\"jieba_ordinal_position\":true,\"lower_case\":true,"
      ++ "\"max_token_length\":40,\"ascii_folding\":true,"
      ++ "\"stem\":true,\"language\":\"english\","
      ++ "\"remove_stop_words\":true,\"stop_words\":[],"
      ++ "\"with_position\":true\x7d\x7d,\"document_count\":2,"
      ++ "\"tantivy_version\":\"0.26.0\"\x7d,"
      ++ "\"files\":[\x7b\"name\":\"meta.json\",\"offset\":0,\"length\":2\x7d,"
      ++ "\x7b\"name\":\"segment.idx\",\"offset\":2,\"length\":4\x7d]\x7d"
    ).toUTF8.data.toList

/-- serde_json on the golden header alone. -/
def goldenSerde : HeaderJson where
  toVec header :=
    if header = goldenHeader then .ok goldenJson else .error ⟨"unknown header"⟩
  fromSlice json :=
    if json = goldenJson then .ok goldenHeader else .error ⟨"unknown json"⟩

theorem goldenSerde_roundTrips : goldenSerde.RoundTrips := by
  intro header json h
  unfold goldenSerde at h ⊢
  dsimp only at h ⊢
  split at h
  · rename_i heq
    cases h
    rw [if_pos rfl, heq]
  · cases h

/-- The golden files: `ab` and `cdef`. -/
def goldenFs : FileSystem := fun path =>
  if path = [1] then .ok [0x61, 0x62] else .ok [0x63, 0x64, 0x65, 0x66]

/-- The golden archive. -/
def goldenData : Bytes :=
  envelopePrefix goldenJson ++ goldenJson
    ++ [0x61, 0x62, 0x63, 0x64, 0x65, 0x66]

/-- A write returned and has put exactly these bytes on its output. -/
def wroteBytes (bytes : Bytes) :
    EStateM.Result FtIndexError Output Unit → Bool
  | .ok _ output => output.bytes == bytes
  | .error _ _ => false

theorem exists_of_wroteBytes {bytes : Bytes}
    {r : EStateM.Result FtIndexError Output Unit}
    (h : wroteBytes bytes r = true) :
    ∃ output, r = .ok () output ∧ output.bytes = bytes := by
  cases r with
  | ok _ output => exact ⟨output, rfl, eq_of_beq h⟩
  | error e output => cases h

/-- The golden archive, 549 bytes, written and read back. -/
theorem golden_roundTrip : ∃ output,
    archiveEntries 0 goldenFiles = .ok goldenHeader.files
      ∧ writeEnvelopeFromPaths goldenSerde goldenFs goldenHeader
          (goldenFiles.map IndexFile.path) {} = .ok () output
      ∧ output.bytes = goldenData ∧ goldenData.length = 549
      ∧ readHeader goldenSerde (sliceReader output.bytes)
        = .ok (goldenHeader, 543)
      ∧ List.Forall₂ (fun entry content =>
          slice output.bytes (543 + entry.offset.toNat) entry.length.toNat
            = content)
          goldenHeader.files [[0x61, 0x62], [0x63, 0x64, 0x65, 0x66]] := by
  obtain ⟨entries, hentries, hwritten⟩ :=
    @readHeader_writeEnvelope goldenSerde goldenSerde_roundTrips goldenFs {}
      (by decide +kernel) 2 "0.26.0" (by decide +kernel) goldenFiles
      [[0x61, 0x62], [0x63, 0x64, 0x65, 0x66]] (by decide) (by decide)
      (by decide +kernel)
      (List.Forall₂.cons ⟨rfl, rfl⟩ (List.Forall₂.cons ⟨rfl, rfl⟩ .nil))
      (by decide)
  have hgolden : archiveEntries 0 goldenFiles = .ok goldenHeader.files := by
    decide +kernel
  cases hentries.symm.trans hgolden
  have hwrote : wroteBytes goldenData
      (writeEnvelopeFromPaths goldenSerde goldenFs goldenHeader
        (goldenFiles.map IndexFile.path) {}) = true := by
    decide +kernel
  obtain ⟨output, hwrite, hbytes⟩ := exists_of_wroteBytes hwrote
  obtain ⟨json, hjson, hread, -, hslices⟩ := hwritten _ output hwrite
  cases hjson
  have hlength : goldenJson.length = 527 := by decide +kernel
  rw [hlength] at hread hslices
  exact ⟨output, hgolden, hwrite, hbytes, by decide +kernel, hread, hslices⟩

theorem golden_readHeader :
    readHeader goldenSerde (sliceReader goldenData)
      = .ok (goldenHeader, 543) := by
  have hvalid : validateHeader goldenHeader = .ok () :=
    @validateHeader_of_archiveEntries {} 2 "0.26.0" goldenFiles _
      (by decide +kernel) (by decide +kernel) (by decide) (by decide)
      (by decide +kernel) rfl
  have hstart : (543 : UInt64) = 16 + UInt64.ofNat goldenJson.length := by
    decide +kernel
  rw [hstart]
  exact readHeader_of_prefix (by decide +kernel) (by decide +kernel) hvalid

/-- Its two files lie apart. -/
theorem golden_disjoint :
    (goldenHeader.files[0].offset.toNat + goldenHeader.files[0].length.toNat
        ≤ goldenHeader.files[1].offset.toNat)
      ∨ goldenHeader.files[1].offset.toNat + goldenHeader.files[1].length.toNat
        ≤ goldenHeader.files[0].offset.toNat :=
  (readHeader_disjoint golden_readHeader).2 0 1 (by decide) (by decide)
    (by decide)

end PaimonFtindex.Proofs

/-
The streaming writer against the in-memory one.

`write_envelope_from_paths` copies files through one buffer, chunk by
chunk; `write_envelope` hands whole contents to the output. What a
successful run of the first has appended is known from the envelope
(`bytes_of_writeEnvelope`); here the same is said of the second, and
that neither fails on an output that accepts every call, unless both do
before the first byte. A file that is too short fails the copy wherever
it stands, whatever the output answers.
-/
import PaimonFtindex.Proofs.Envelope

namespace PaimonFtindex.Proofs

open Model Lib

-- ================================================ the in-memory writer

theorem bytes_of_writeFiles {files : List (String × Bytes)}
    {output output' : Output} (h : writeFiles files output = .ok () output') :
    output'.bytes = output.bytes ++ (files.map Prod.snd).flatten := by
  induction files generalizing output with
  | nil =>
      cases h
      simp
  | cons file files ih =>
      obtain ⟨name, data⟩ := file
      unfold writeFiles at h
      rw [estate_bind_eq_ok] at h
      obtain ⟨_, o₁, h₁, h₂⟩ := h
      rw [ih h₂, bytes_of_writeAll h₁, List.map_cons, List.flatten_cons,
        List.append_assoc]

theorem bytes_of_writeEnvelopeHeader {serde : HeaderJson}
    {header : IndexHeader} {output output' : Output}
    (h : writeEnvelopeHeader serde header output = .ok () output') :
    ∃ json, serde.toVec header = .ok json
      ∧ output'.bytes = output.bytes ++ (envelopePrefix json ++ json) := by
  obtain ⟨json, hjson, -, hpassed⟩ := passed_of_writeEnvelopeHeader h
  refine ⟨json, hjson, ?_⟩
  unfold Output.bytes
  rw [hpassed]
  simp [envelopePrefix]

/-- What a successful in-memory write has put on its output. -/
theorem bytes_of_inMemory {serde : HeaderJson} {header : IndexHeader}
    {files : List (String × Bytes)} {output output' : Output}
    (h : writeEnvelope serde header files output = .ok () output') :
    ∃ json, serde.toVec header = .ok json
      ∧ output'.bytes = output.bytes
        ++ (envelopePrefix json ++ json ++ (files.map Prod.snd).flatten) := by
  unfold writeEnvelope at h
  simp only [estate_bind_eq_ok] at h
  obtain ⟨_, o₁, h₁, _, o₂, h₂, h₃⟩ := h
  obtain ⟨json, hjson, hheader⟩ := bytes_of_writeEnvelopeHeader h₁
  have hflush : output'.bytes = o₂.bytes := by
    unfold Output.bytes
    rw [passed_of_flush h₃]
  refine ⟨json, hjson, ?_⟩
  rw [hflush, bytes_of_writeFiles h₂, hheader, List.append_assoc]

-- ============================================= an output that accepts all

/-- Every call on the output succeeds. -/
def TakesAll (output : Output) : Prop := ∀ n, output.fault n = none

/-- From an accepting output, the writer cannot fail. -/
abbrev NeverFails {α : Type} (Q : α → Prop) (write : WriteM α) : Prop :=
  Keeps TakesAll (fun _ => False) Q write

theorem neverFails_writeAll {buf : Bytes} :
    NeverFails (fun _ => True) (writeAll buf) := by
  intro output htakes
  unfold writeAll
  rw [htakes]
  exact ⟨htakes, trivial⟩

theorem neverFails_flush : NeverFails (fun _ => True) flush := by
  intro output htakes
  unfold flush
  rw [htakes]
  exact ⟨htakes, trivial⟩

theorem neverFails_io {α : Type} {r : Except IoError α} {a : α}
    (h : r = .ok a) : NeverFails (· = a) (WriteM.io r) := by
  intro output htakes
  unfold WriteM.io
  rw [h]
  exact ⟨htakes, rfl⟩

theorem neverFails_copyChunks {remaining : Nat} {file buffer : Bytes}
    (h : remaining ≤ file.length) :
    NeverFails (fun _ => True) (copyChunks remaining file buffer) := by
  induction remaining using Nat.strongRecOn generalizing file buffer with
  | ind remaining ih =>
      unfold copyChunks
      by_cases hzero : remaining = 0
      · rw [if_pos hzero]
        exact keeps_pure trivial
      · rw [if_neg hzero]
        have hpos : 0 < archiveWriteBufferBytes := by decide
        have hchunk : min remaining archiveWriteBufferBytes ≤ file.length := by
          omega
        have hread : readExact buffer (min remaining archiveWriteBufferBytes)
            file = .ok (file.take (min remaining archiveWriteBufferBytes)
              ++ buffer.drop (min remaining archiveWriteBufferBytes),
              file.drop (min remaining archiveWriteBufferBytes)) := by
          unfold readExact
          rw [if_neg (by omega)]
        refine keeps_bind (neverFails_io hread) fun r hr => ?_
        subst hr
        refine keeps_bind neverFails_writeAll fun _ _ => ?_
        apply ih
        · omega
        · rw [List.length_drop]
          omega

/-- The file behind a path is there, and at least as long as its entry
says. -/
def LongEnough (fs : FileSystem) (pair : ArchiveFileEntry × OsPath) : Prop :=
  ∃ data, fs pair.2 = .ok data ∧ pair.1.length.toNat ≤ data.length

theorem neverFails_copyFiles {fs : FileSystem}
    {pairs : List (ArchiveFileEntry × OsPath)} {buffer : Bytes}
    (h : ∀ pair ∈ pairs, LongEnough fs pair) :
    NeverFails (fun _ => True) (copyFiles fs pairs buffer) := by
  induction pairs generalizing buffer with
  | nil => exact keeps_pure trivial
  | cons pair pairs ih =>
      obtain ⟨entry, path⟩ := pair
      rw [List.forall_mem_cons] at h
      obtain ⟨⟨data, hdata, hlong⟩, hrest⟩ := h
      unfold copyFiles
      refine keeps_bind (neverFails_io hdata) fun file hfile => ?_
      subst hfile
      exact keeps_bind (neverFails_copyChunks hlong) fun _ _ => ih hrest

theorem neverFails_writeFiles {files : List (String × Bytes)} :
    NeverFails (fun _ => True) (writeFiles files) := by
  induction files with
  | nil => exact keeps_pure trivial
  | cons file files ih =>
      unfold writeFiles
      exact keeps_bind neverFails_writeAll fun _ _ => ih

/-- A header that is too large fails before the first byte. -/
theorem writeEnvelopeHeader_of_tooLarge {serde : HeaderJson}
    {header : IndexHeader} {json : Bytes} (hjson : serde.toVec header = .ok json)
    (hlarge : maxHeaderBytes < json.length) :
    ∃ e, ∀ output, writeEnvelopeHeader serde header output
      = .error e output := by
  refine ⟨.invalidStorage s!"header too large: {json.length} bytes exceeds {maxHeaderBytes} bytes", fun output => ?_⟩
  unfold writeEnvelopeHeader
  rw [hjson]
  simp only [hlarge, if_true, pure_bind]
  exact estate_bind_of_error rfl

/-- The header either goes out, or fails before the first byte. -/
theorem writeEnvelopeHeader_cases (serde : HeaderJson) (header : IndexHeader) :
    NeverFails (fun _ => True) (writeEnvelopeHeader serde header)
      ∨ ∃ e, ∀ output, writeEnvelopeHeader serde header output
        = .error e output := by
  cases hjson : serde.toVec header with
  | error e =>
      refine Or.inr ⟨.json e, fun output => ?_⟩
      unfold writeEnvelopeHeader
      rw [hjson]
      rfl
  | ok json =>
      by_cases hlarge : maxHeaderBytes < json.length
      · exact Or.inr (writeEnvelopeHeader_of_tooLarge hjson hlarge)
      · have hword : ¬ 2 ^ 32 ≤ json.length := by
          unfold maxHeaderBytes at hlarge
          omega
        left
        unfold writeEnvelopeHeader
        rw [hjson]
        simp only [hlarge, hword, if_false, pure_bind]
        refine keeps_bind neverFails_writeAll fun _ _ => ?_
        refine keeps_bind neverFails_writeAll fun _ _ => ?_
        refine keeps_bind neverFails_writeAll fun _ _ => ?_
        exact neverFails_writeAll

-- ======================================================== the two writers

/-- Both runs returned, or both failed, and they passed on the same
bytes. -/
structure SameWrite (r r' : EStateM.Result FtIndexError Output Unit) : Prop where
  outcome : (∃ output, r = .ok () output) ↔ ∃ output, r' = .ok () output
  bytes : (endState r).bytes = (endState r').bytes

/-- The files as their entries declare them: name, and the declared
number of bytes. -/
def declaredFiles (entries : List ArchiveFileEntry)
    (files : List (String × Bytes)) : List (String × Bytes) :=
  entries.zipWith (fun entry file =>
    (file.1, file.2.take entry.length.toNat)) files

/-- The file behind the path is this one. -/
def Opens (fs : FileSystem) (path : OsPath) (file : String × Bytes) : Prop :=
  fs path = .ok file.2

/-- The content is as long as its entry declares, at least. -/
def Covers (entry : ArchiveFileEntry) (file : String × Bytes) : Prop :=
  entry.length.toNat ≤ file.2.length

section
variable {serde : HeaderJson} {fs : FileSystem} {header : IndexHeader}
  {paths : List OsPath} {files : List (String × Bytes)}

/-- Paths that open to covering files give the declared bodies. -/
theorem bodies_eq {entries : List ArchiveFileEntry} {bodies : List Bytes}
    (hopen : List.Forall₂ (Opens fs) paths files)
    (hcover : List.Forall₂ Covers entries files)
    (hbodies : List.Forall₂ (Body fs) (entries.zip paths) bodies) :
    bodies = (declaredFiles entries files).map Prod.snd := by
  induction hopen generalizing entries bodies with
  | nil =>
      cases hcover
      cases hbodies
      rfl
  | @cons path file paths files hpath _ ih =>
      cases hcover with
      | cons _ hcover =>
          cases hbodies with
          | cons hbody hbodies =>
              obtain ⟨data, hdata, -, rfl⟩ := hbody
              have hsame : file.2 = data :=
                Except.ok.inj (hpath.symm.trans hdata)
              rw [← hsame, ih hcover hbodies]
              rfl

theorem longEnough_of_covers {entries : List ArchiveFileEntry}
    (hopen : List.Forall₂ (Opens fs) paths files)
    (hcover : List.Forall₂ Covers entries files) :
    ∀ pair ∈ entries.zip paths, LongEnough fs pair := by
  induction hopen generalizing entries with
  | nil =>
      cases hcover
      simp
  | cons hpath _ ih =>
      cases hcover with
      | cons hlong hcover =>
          rw [List.zip_cons_cons, List.forall_mem_cons]
          exact ⟨⟨_, hpath, hlong⟩, ih hcover⟩

/-- Both writers returned: they passed on the same bytes. -/
theorem bytes_eq_of_both {output₁ output₂ output₁' output₂' : Output}
    (hopen : List.Forall₂ (Opens fs) paths files)
    (hcover : List.Forall₂ Covers header.files files)
    (hstart : output₁.bytes = output₂.bytes)
    (h₁ : writeEnvelopeFromPaths serde fs header paths output₁
      = .ok () output₁')
    (h₂ : writeEnvelope serde header (declaredFiles header.files files) output₂
      = .ok () output₂') :
    output₁'.bytes = output₂'.bytes := by
  obtain ⟨json, bodies, hjson, -, -, hbodies, hbytes₁⟩ :=
    bytes_of_writeEnvelope h₁
  obtain ⟨json', hjson', hbytes₂⟩ := bytes_of_inMemory h₂
  rw [hjson] at hjson'
  cases hjson'
  rw [hbytes₁, hbytes₂, hstart, bodies_eq hopen hcover hbodies]

/-- On an accepting output the writers do the same. -/
theorem sameWrite_of_takesAll {output : Output} (htakes : TakesAll output)
    (hopen : List.Forall₂ (Opens fs) paths files)
    (hcover : List.Forall₂ Covers header.files files) :
    SameWrite (writeEnvelopeFromPaths serde fs header paths output)
      (writeEnvelope serde header (declaredFiles header.files files) output) := by
  have hcount : header.files.length = paths.length :=
    hcover.length_eq.trans hopen.length_eq.symm
  rcases writeEnvelopeHeader_cases serde header with hheader | ⟨e, hheader⟩
  · have hstream : NeverFails (fun _ => True)
        (writeEnvelopeFromPaths serde fs header paths) := by
      unfold writeEnvelopeFromPaths
      simp only [hcount, ne_eq, not_true_eq_false, if_false]
      refine keeps_bind hheader fun _ _ => ?_
      refine keeps_bind (neverFails_copyFiles
        (longEnough_of_covers hopen hcover)) fun _ _ => ?_
      exact neverFails_flush
    have hmemory : NeverFails (fun _ => True)
        (writeEnvelope serde header (declaredFiles header.files files)) := by
      unfold writeEnvelope
      refine keeps_bind hheader fun _ _ => ?_
      exact keeps_bind neverFails_writeFiles fun _ _ => neverFails_flush
    obtain ⟨_, output₁, h₁⟩ := exists_ok_of_keeps hstream htakes
    obtain ⟨_, output₂, h₂⟩ := exists_ok_of_keeps hmemory htakes
    rw [h₁, h₂]
    exact ⟨⟨fun _ => ⟨_, rfl⟩, fun _ => ⟨_, rfl⟩⟩,
      bytes_eq_of_both hopen hcover rfl h₁ h₂⟩
  · have hstream : writeEnvelopeFromPaths serde fs header paths output
        = .error e output := by
      unfold writeEnvelopeFromPaths
      simp only [hcount, ne_eq, not_true_eq_false, if_false]
      exact estate_bind_of_error (hheader output)
    have hmemory : writeEnvelope serde header
        (declaredFiles header.files files) output = .error e output :=
      estate_bind_of_error (hheader output)
    rw [hstream, hmemory]
    refine ⟨⟨?_, ?_⟩, rfl⟩
    · rintro ⟨_, h⟩
      cases h
    · rintro ⟨_, h⟩
      cases h

/-- Contents as long as declared are the declared files. -/
theorem declaredFiles_eq {entries : List ArchiveFileEntry}
    (h : List.Forall₂ (fun entry file =>
      file.2.length = entry.length.toNat) entries files) :
    declaredFiles entries files = files := by
  induction h with
  | nil => rfl
  | cons hlength _ ih =>
      unfold declaredFiles at ih ⊢
      rw [List.zipWith_cons_cons, ih, ← hlength, List.take_length]

end

/-- The streaming writer refines the in-memory writer.

For files that the paths open to, as long as their entries declare: on
an output that accepts every call both writers return or both fail, and
pass on the same bytes; on any two outputs, if both return, they have
appended the same. Longer files are cut to what is declared. A file
shorter than its entry never lets the streaming writer return, and it
fails with nothing passed on when the counts differ or the header is too
large. -/
theorem streaming_refines_inMemory (serde : HeaderJson) (fs : FileSystem)
    (header : IndexHeader) (paths : List OsPath) :
    (∀ files : List (String × Bytes),
      List.Forall₂ (fun path file => fs path = .ok file.2) paths files →
      List.Forall₂ (fun entry file => file.2.length = entry.length.toNat)
        header.files files →
      (∀ output, TakesAll output →
        SameWrite (writeEnvelopeFromPaths serde fs header paths output)
          (writeEnvelope serde header files output))
      ∧ ∀ output₁ output₁' output₂ output₂', output₁.bytes = output₂.bytes →
          writeEnvelopeFromPaths serde fs header paths output₁
            = .ok () output₁' →
          writeEnvelope serde header files output₂ = .ok () output₂' →
          output₁'.bytes = output₂'.bytes)
    ∧ (∀ files : List (String × Bytes),
      List.Forall₂ (fun path file => fs path = .ok file.2) paths files →
      List.Forall₂ (fun entry file => entry.length.toNat ≤ file.2.length)
        header.files files →
      ∀ output, TakesAll output →
        SameWrite (writeEnvelopeFromPaths serde fs header paths output)
          (writeEnvelope serde header (header.files.zipWith (fun entry file =>
            (file.1, file.2.take entry.length.toNat)) files) output))
    ∧ (∀ (i : Nat) entry path data, header.files[i]? = some entry →
      paths[i]? = some path → fs path = .ok data →
      data.length < entry.length.toNat →
      ∀ output output', writeEnvelopeFromPaths serde fs header paths output
        ≠ .ok () output')
    ∧ (header.files.length ≠ paths.length →
      ∃ e, ∀ output, writeEnvelopeFromPaths serde fs header paths output
        = .error e output)
    ∧ ∀ json, serde.toVec header = .ok json → 16 * 1024 * 1024 < json.length →
      ∃ e, ∀ output, writeEnvelopeFromPaths serde fs header paths output
        = .error e output := by
  have hcounts : header.files.length ≠ paths.length →
      ∃ e, ∀ output, writeEnvelopeFromPaths serde fs header paths output
        = .error e output := by
    intro hcount
    refine ⟨.invalidStorage s!"archive header contains {header.files.length} files but {paths.length} paths were provided", fun output => ?_⟩
    unfold writeEnvelopeFromPaths
    simp only [hcount, ne_eq, not_false_eq_true, if_true]
    exact estate_bind_of_error rfl
  refine ⟨?_, ?_, ?_, hcounts, ?_⟩
  · intro files hopen hlength
    have hcover : List.Forall₂ Covers header.files files :=
      hlength.imp fun _ _ h => h.ge
    have hdeclared := declaredFiles_eq hlength
    constructor
    · intro output htakes
      rw [← hdeclared]
      exact sameWrite_of_takesAll htakes hopen hcover
    · intro output₁ output₁' output₂ output₂' hstart h₁ h₂
      rw [← hdeclared] at h₂
      exact bytes_eq_of_both hopen hcover hstart h₁ h₂
  · intro files hopen hcover output htakes
    exact sameWrite_of_takesAll htakes hopen hcover
  · intro i entry path data hentry hpath hdata hshort output output' h
    obtain ⟨json, bodies, -, -, -, hbodies, -⟩ := bytes_of_writeEnvelope h
    have hmem : (entry, path) ∈ header.files.zip paths :=
      List.mem_of_getElem? (List.getElem?_zip_eq_some.mpr ⟨hentry, hpath⟩)
    obtain ⟨body, -, data', hdata', hlong, -⟩ :=
      exists_mem_of_forall₂ hbodies _ hmem
    rw [hdata] at hdata'
    cases hdata'
    dsimp only at hlong
    omega
  · intro json hjson hlarge
    by_cases hcount : header.files.length = paths.length
    · obtain ⟨e, he⟩ := writeEnvelopeHeader_of_tooLarge hjson hlarge
      refine ⟨e, fun output => ?_⟩
      unfold writeEnvelopeFromPaths
      simp only [hcount, ne_eq, not_true_eq_false, if_false]
      exact estate_bind_of_error (he output)
    · exact hcounts hcount

/-- The golden archive, streamed and written from memory. -/
theorem golden_sameWrite :
    SameWrite
      (writeEnvelopeFromPaths goldenSerde goldenFs goldenHeader
        (goldenFiles.map IndexFile.path) {})
      (writeEnvelope goldenSerde goldenHeader
        [("meta.json", [0x61, 0x62]),
          ("segment.idx", [0x63, 0x64, 0x65, 0x66])] {}) := by
  obtain ⟨hexact, -⟩ := streaming_refines_inMemory goldenSerde goldenFs
    goldenHeader (goldenFiles.map IndexFile.path)
  obtain ⟨htakes, -⟩ := hexact
    [("meta.json", [0x61, 0x62]), ("segment.idx", [0x63, 0x64, 0x65, 0x66])]
    (List.Forall₂.cons rfl (List.Forall₂.cons rfl .nil))
    (List.Forall₂.cons rfl (List.Forall₂.cons rfl .nil))
  exact htakes {} fun _ => rfl

end PaimonFtindex.Proofs

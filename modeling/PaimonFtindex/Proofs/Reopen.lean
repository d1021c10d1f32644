/-
What the writer left is what the reader sees.

The writer packs the directory Tantivy leaves into one archive; the
reader unpacks nothing, it serves the archive as a directory again. So
the two ends are related by one equation: the frozen directory of the
archive is the directory that was left (`frozen_eq_left`), under the
configuration and with the number of documents of the writer's session,
and read with the analyzer it was written with (`open_written`).

An archive that was cut short opens as the whole one or not at all:
what is still there of a file is the file's (`truncated_never_wrong`).
-/
import PaimonFtindex.Model.Reader
import PaimonFtindex.Proofs.CollectFiles
import PaimonFtindex.Proofs.FrozenDirectory
import PaimonFtindex.Proofs.HeaderRead
import PaimonFtindex.Proofs.StreamingWriter
import PaimonFtindex.Proofs.WriterLifeCycle

namespace PaimonFtindex.Proofs

open Model Lib

-- ========================================================= what was left

/-- The directory Tantivy left, by path: its regular files, except for
locks. -/
def leftBy (disk : Disk) (dir : OsPath) : Frozen
  | [.normal name] =>
      if leaves disk dir name then
        (disk.file (joinPath dir (utf8 name))).toOption
      else none
  | _ => none

/-- A writer's session in the directory `dir`, and an archive it wrote.
The conditions on the outside are that the file system tells the truth,
that serde_json reads what it writes, that Tantivy has a version and
left a file, and that the archive fits an address space. -/
structure Wrote [UnicodeCase] (createEnv : CreateEnv)
    (config : FullTextIndexConfig) (dir : OsPath)
    (writer : FullTextIndexWriter) (calls : List Call) (env : WriteEnv)
    (archive : Bytes) : Prop where
  created : FullTextIndexWriter.new createEnv config = .ok writer
  tempDir : createEnv.tempDir = .ok dir
  wrote : ∃ fault session output,
    (runCalls ⟨writer, []⟩ calls).write env { fault := fault }
        = (.ok (), session, output)
      ∧ output.bytes = archive
  faithful : Faithful env.disk dir
  roundTrips : env.serde.RoundTrips
  version : isBlank env.tantivyVersion = false
  left : ∃ name, leaves env.disk dir name = true
  size : archive.length < 2 ^ 64

/-- A file of the archive: its content lies behind the header, where the
entry says. -/
structure StoredAt (fs : FileSystem) (archive : Bytes) (start : Nat)
    (entry : ArchiveFileEntry) (file : IndexFile) : Prop where
  name : entry.name = file.name
  content : fs file.path
    = .ok (slice archive (start + entry.offset.toNat) entry.length.toNat)
  fits : start + entry.offset.toNat + entry.length.toNat ≤ archive.length

/-- Running offsets point at the files' contents. -/
theorem storedAt_of_archiveEntries {fs : FileSystem} {offset : UInt64}
    {files : List IndexFile} {entries : List ArchiveFileEntry}
    {bodies : List Bytes} (h : archiveEntries offset files = .ok entries)
    (hbodies : List.Forall₂ (Body fs)
      (entries.zip (files.map IndexFile.path)) bodies)
    (hlength : ∀ file ∈ files, ∀ content, fs file.path = .ok content →
      content.length = file.length.toNat)
    {pre : Bytes} {start : Nat} (hpre : pre.length = start + offset.toNat) :
    List.Forall₂ (StoredAt fs (pre ++ bodies.flatten) start) entries files := by
  induction files generalizing offset entries bodies pre with
  | nil =>
      cases h
      exact List.Forall₂.nil
  | cons file files ih =>
      obtain ⟨next, rest, hnext, hrest, rfl⟩ := archiveEntries_cons_eq_ok.mp h
      rw [List.map_cons, List.zip_cons_cons] at hbodies
      cases hbodies with
      | cons hbody hbodies =>
          rename_i body bodies
          obtain ⟨content, hcontent, -, hbody⟩ := hbody
          dsimp only at hcontent hbody
          have hcontentLength := hlength file List.mem_cons_self content hcontent
          rw [← hcontentLength, List.take_length] at hbody
          subst hbody
          have hpre' : (pre ++ body).length = start + next.toNat := by
            rw [List.length_append]
            omega
          have hstored := ih hrest hbodies
            (fun file hfile => hlength file (List.mem_cons_of_mem _ hfile)) hpre'
          rw [List.append_assoc] at hstored
          refine .cons ⟨rfl, ?_, ?_⟩ hstored
          · dsimp only
            unfold slice
            rw [← hpre, List.drop_left, List.flatten_cons, ← hcontentLength,
              List.take_left, hcontent]
          · dsimp only
            rw [← hpre, List.flatten_cons, List.length_append,
              List.length_append, hcontentLength]
            omega

/-- The layout of an archive a writer wrote. -/
structure LaidOut (config : FullTextIndexConfig) (documentCount : UInt64)
    (dir : OsPath) (env : WriteEnv) (archive : Bytes) (header : IndexHeader)
    (json : Bytes) (files : List IndexFile) : Prop where
  metadata : header.metadata = ⟨config, documentCount, env.tantivyVersion⟩
  encoded : env.serde.fromSlice json = .ok header
  small : json.length ≤ maxHeaderBytes
  valid : validateHeader header = .ok ()
  collected : Collected env.disk dir files
  prefixed : ∃ body, archive = envelopePrefix json ++ json ++ body
  stored : List.Forall₂
    (StoredAt env.disk.file archive (16 + json.length)) header.files files

/-- A writer's directory stays the one it was created in. -/
theorem state_runCalls (session : IndexSession) (calls : List Call) :
    (runCalls session calls).writer.state = session.writer.state
      ∨ (runCalls session calls).writer.state = none := by
  induction calls generalizing session with
  | nil => exact .inl rfl
  | cons call calls ih =>
      have hstep : (call.exec session).2.writer.state = session.writer.state
          ∨ (call.exec session).2.writer.state = none := by
        have hfields : ∀ answer rowId fields,
            (session.addDocumentFields answer rowId fields).2.writer.state
              = session.writer.state := by
          intro answer rowId fields
          rcases addDocumentFields_cases session answer rowId fields with
            ⟨e, heq⟩ | ⟨next, doc, -, heq⟩
          · rw [heq]
          · rw [heq]
        cases call with
        | addDocument answer rowId text => exact .inl (hfields answer rowId _)
        | addDocumentFields answer rowId fields =>
            exact .inl (hfields answer rowId fields)
        | write env output =>
            exact .inr (exec_write_finalizes session env output)
      rcases ih (call.exec session).2 with h | h
      · rcases hstep with hstep | hstep
        · exact .inl (h.trans hstep)
        · exact .inr (h.trans hstep)
      · exact .inr h

/-- What `new` takes from its environment. -/
theorem new_spec [UnicodeCase] {createEnv : CreateEnv}
    {config : FullTextIndexConfig} {writer : FullTextIndexWriter}
    (h : FullTextIndexWriter.new createEnv config = .ok writer) {dir : OsPath}
    (hdir : createEnv.tempDir = .ok dir) :
    config.validate = .ok () ∧ writer.state = some ⟨dir⟩
      ∧ ∃ analyzer,
          buildTextAnalyzer createEnv.library config.tokenizer = .ok analyzer := by
  unfold FullTextIndexWriter.new at h
  split at h
  · cases h
  · rename_i hvalid
    refine ⟨hvalid, ?_⟩
    cases hrow : (buildSchema config (nodup_of_validate hvalid)).getField
        config.rowIdField with
    | none =>
        simp only [hrow, except_bind_eq_ok] at h
        obtain ⟨_, -, _, -, _, -, _, hthrow, -⟩ := h
        cases hthrow
    | some rowIdField =>
        simp only [hrow, hdir, pure_bind, except_bind_eq_ok, liftError_eq_ok]
          at h
        obtain ⟨_, htempDir, _, -, analyzer, hanalyzer, _, -, _, -, h⟩ := h
        cases htempDir
        cases h
        exact ⟨rfl, analyzer, hanalyzer⟩

section
variable [UnicodeCase] {createEnv : CreateEnv} {config : FullTextIndexConfig}
  {dir : OsPath} {writer : FullTextIndexWriter} {calls : List Call}
  {env : WriteEnv} {archive : Bytes}

/-- A successful write lays the archive out. -/
theorem Wrote.laidOut
    (h : Wrote createEnv config dir writer calls env archive) :
    ∃ documentCount header json files,
      documentCount.toNat = (okAdds ⟨writer, []⟩ calls).length
        ∧ LaidOut config documentCount dir env archive header json files := by
  obtain ⟨hvalid, hstate, -⟩ := new_spec h.created h.tempDir
  obtain ⟨hnames, hstart⟩ := inStep_new h.created
  have hin := inStep_runCalls hstart calls
  rw [List.nil_append] at hin
  obtain ⟨fault, session, output, hwrite, rfl⟩ := h.wrote
  rcases write_cases (runCalls ⟨writer, []⟩ calls) env { fault := fault } with
    ⟨-, e, heq⟩ | ⟨state, hsome, -, hfinish⟩
  · rw [heq] at hwrite
    cases hwrite
  have hdir : state = ⟨dir⟩ := by
    rcases state_runCalls ⟨writer, []⟩ calls with hkept | hnone
    · rw [hsome] at hkept
      exact Option.some.inj (hkept.trans hstate)
    · rw [hsome] at hnone
      cases hnone
  have hrun := hfinish output (by rw [hwrite]) (by rw [hwrite])
  unfold FullTextIndexWriter.finish at hrun
  simp only [estate_bind_eq_ok] at hrun
  obtain ⟨_, o₁, h₁, _, o₂, h₂, files, o₃, h₃, entries, o₄, h₄, h₅⟩ := hrun
  obtain ⟨-, rfl⟩ := passed_of_ofResult h₁
  obtain ⟨-, rfl⟩ := passed_of_ofResult h₂
  obtain ⟨hfiles, rfl⟩ := passed_of_ofResult h₃
  obtain ⟨hentries, rfl⟩ := passed_of_ofResult h₄
  obtain ⟨json, bodies, hjson, hle, -, hbodies, hbytes⟩ :=
    bytes_of_writeEnvelope h₅
  rw [hdir] at hfiles
  have hcollected := collected_of_collectIndexFiles h.faithful hfiles
  have hempty : ({ fault := fault } : Output).bytes = [] := rfl
  rw [hempty, List.nil_append] at hbytes
  let taken : FullTextIndexWriter :=
    { (runCalls ⟨writer, []⟩ calls).writer with state := none }
  refine ⟨_, taken.header env entries, json, files, hin.count_eq, ?_⟩
  refine ⟨?_, h.roundTrips _ _ hjson, hle, ?_, hcollected,
    ⟨bodies.flatten, hbytes⟩, ?_⟩
  · show FullTextIndexMetadata.mk taken.config _ _ = _
    rw [hin.config_eq]
  · show validateHeader ⟨⟨taken.config, _, _⟩, entries⟩ = .ok ()
    rw [hin.config_eq]
    refine validateHeader_of_archiveEntries hvalid h.version ?_
      hcollected.nodup (fun file hfile =>
        validateArchiveFileName_of_plain (hcollected.plain file hfile)) hentries
    rintro rfl
    obtain ⟨name, hname⟩ := h.left
    obtain ⟨file, hmem, -⟩ := hcollected.complete name hname
    cases hmem
  · rw [hbytes]
    refine storedAt_of_archiveEntries hentries hbodies ?_ ?_
    · intro file hfile content hcontent
      exact h.faithful.length _ _ _ (hcollected.length file hfile) hcontent
    · rw [List.length_append, envelopePrefix_length]
      rfl

end

-- ========================================================== what is served

/-- A plain name is one component, itself. -/
theorem components_of_plainName {name : String} (h : PlainName name) :
    components name = [.normal name] := by
  have hpart : plainPart name = name := by
    unfold plainPart
    rw [List.takeWhile_eq_self_iff.mpr, String.ofList_toList]
    intro c hc
    rw [decide_eq_true_iff]
    rintro rfl
    exact h.2.2.2 hc
  rw [components_of_plain (validateArchiveFileName_of_plain h), hpart]

section
variable {config : FullTextIndexConfig} {dir : OsPath} {env : WriteEnv}
  {archive : Bytes} {documentCount : UInt64} {header : IndexHeader}
  {json : Bytes} {files : List IndexFile} {directory : ArchiveDirectory}

/-- Where the bodies start, as a number. -/
theorem bodyStart_toNat
    (h : LaidOut config documentCount dir env archive header json files) :
    (16 + UInt64.ofNat json.length : UInt64).toNat = 16 + json.length := by
  have hsmall := h.small
  have hmax : maxHeaderBytes = 16777216 := rfl
  rw [UInt64.toNat_add, UInt64.toNat_ofNat']
  show (16 + json.length % 2 ^ 64) % 2 ^ 64 = _
  omega

/-- Each entry of the header is a file that was left. -/
theorem exists_file_of_entry
    (h : LaidOut config documentCount dir env archive header json files)
    {entry : ArchiveFileEntry} (hentry : entry ∈ header.files) :
    leaves env.disk dir entry.name = true ∧ PlainName entry.name
      ∧ env.disk.file (joinPath dir (utf8 entry.name))
        = .ok (slice archive (16 + json.length + entry.offset.toNat)
            entry.length.toNat)
      ∧ 16 + json.length + entry.offset.toNat + entry.length.toNat
        ≤ archive.length := by
  obtain ⟨file, hfile, hstored⟩ := exists_mem_of_forall₂ h.stored entry hentry
  rw [hstored.name, ← h.collected.path file hfile]
  exact ⟨h.collected.left file hfile, h.collected.plain file hfile,
    hstored.content, hstored.fits⟩

/-- And each file that was left has an entry. -/
theorem exists_entry_of_leaves
    (h : LaidOut config documentCount dir env archive header json files)
    {name : String} (hname : leaves env.disk dir name = true) :
    ∃ entry ∈ header.files, entry.name = name := by
  obtain ⟨file, hfile, rfl⟩ := h.collected.complete name hname
  obtain ⟨entry, hentry, hstored⟩ :=
    exists_mem_of_forall₂ h.stored.flip file hfile
  exact ⟨entry, hentry, hstored.name⟩

theorem complete_of_laidOut
    (h : LaidOut config documentCount dir env archive header json files) :
    Complete header (16 + UInt64.ofNat json.length) archive := by
  intro entry hentry
  rw [bodyStart_toNat h]
  exact (exists_file_of_entry h hentry).2.2.2

/-- The names differ as the paths of the file map. -/
theorem nodup_keys_of_laidOut
    (h : LaidOut config documentCount dir env archive header json files)
    (bodyStart : UInt64) :
    ((header.files.map (mappedEntry bodyStart)).map Prod.fst).Nodup := by
  have hplain : ∀ entry ∈ header.files, PlainName entry.name :=
    fun entry hentry => (exists_file_of_entry h hentry).2.1
  have hkeys : (header.files.map (mappedEntry bodyStart)).map Prod.fst
      = (header.files.map ArchiveFileEntry.name).map
          fun name => [Component.normal name] := by
    rw [List.map_map, List.map_map]
    apply List.map_congr_left
    intro entry hentry
    exact components_of_plainName (hplain entry hentry)
  have hnames : header.files.map ArchiveFileEntry.name
      = files.map IndexFile.name := by
    have hstored := h.stored
    clear h hplain hkeys
    generalize header.files = entries at hstored ⊢
    induction hstored with
    | nil => rfl
    | cons hfile _ ih => rw [List.map_cons, List.map_cons, hfile.name, ih]
  rw [hkeys, hnames]
  refine h.collected.nodup.map ?_
  intro name name' heq
  injection heq with heq
  injection heq

/-- The archive, served as a directory, is the directory that was
left. -/
theorem frozen_eq_left
    (h : LaidOut config documentCount dir env archive header json files)
    (hnew : ArchiveDirectory.new (16 + UInt64.ofNat json.length) header.files
      = .ok directory) :
    frozenOf directory archive = leftBy env.disk dir := by
  obtain ⟨hfits, hfiles⟩ := mapFiles_eq_ok.mp hnew
  funext path
  by_cases hpath : ∃ entry ∈ header.files, path = [.normal entry.name]
  · obtain ⟨entry, hentry, rfl⟩ := hpath
    obtain ⟨hleft, hplain, hcontent, -⟩ := exists_file_of_entry h hentry
    have hlookup : directory.files.lookup
        (mappedEntry (16 + UInt64.ofNat json.length) entry).1
          = some (mappedEntry (16 + UInt64.ofNat json.length) entry).2 := by
      rw [hfiles]
      exact lookup_insertAll (nodup_keys_of_laidOut h _)
        (List.mem_map_of_mem hentry)
    have hkey : (mappedEntry (16 + UInt64.ofNat json.length) entry).1
        = [.normal entry.name] := components_of_plainName hplain
    rw [hkey] at hlookup
    have hstart : (16 + UInt64.ofNat json.length + entry.offset).toNat
        = 16 + json.length + entry.offset.toNat := by
      rw [UInt64.toNat_add, Nat.mod_eq_of_lt (hfits entry hentry),
        bodyStart_toNat h]
    have hleftBy : leftBy env.disk dir [.normal entry.name]
        = if leaves env.disk dir entry.name then
            (env.disk.file (joinPath dir (utf8 entry.name))).toOption
          else none := rfl
    rw [hleftBy, if_pos hleft, hcontent]
    unfold frozenOf
    rw [hlookup]
    show some (slice archive (16 + UInt64.ofNat json.length
      + entry.offset).toNat entry.length.toNat) = some _
    rw [hstart]
  · have hnone : frozenOf directory archive path = none := by
      unfold frozenOf
      cases hlookup : directory.files.lookup path with
      | none => rfl
      | some archived =>
          rw [hfiles] at hlookup
          rcases mem_or_of_lookup_insertAll hlookup with hmem | hempty
          · obtain ⟨entry, hentry, heq⟩ := List.mem_map.mp hmem
            have hkey : components entry.name = path := congrArg Prod.fst heq
            rw [components_of_plainName (exists_file_of_entry h hentry).2.1]
              at hkey
            exact absurd ⟨entry, hentry, hkey.symm⟩ hpath
          · cases hempty
    rw [hnone]
    unfold leftBy
    split
    · rename_i name
      by_cases hleft : leaves env.disk dir name = true
      · obtain ⟨entry, hentry, rfl⟩ := exists_entry_of_leaves h hleft
        exact absurd ⟨entry, hentry, rfl⟩ hpath
      · rw [if_neg hleft]
    · rfl

end

-- ============================================================ the reader

section
variable [UnicodeCase] {createEnv : CreateEnv} {config : FullTextIndexConfig}
  {dir : OsPath} {writer : FullTextIndexWriter} {calls : List Call}
  {env : WriteEnv} {archive : Bytes}

/-- The reader's environment is the writer's: the same crates. -/
structure SameCrates (createEnv : CreateEnv) (env : WriteEnv)
    (openEnv : OpenEnv) : Prop where
  serde : openEnv.serde = env.serde
  tantivyVersion : openEnv.tantivyVersion = env.tantivyVersion
  library : openEnv.library = createEnv.library

/-- What `open` has done when it returns. -/
theorem openIndex_eq_ok {openEnv : OpenEnv} {input : SeekRead}
    {reader : OpenIndex} :
    openIndex openEnv input = .ok reader
      ↔ ∃ header bodyStart directory index analyzer,
        readHeader openEnv.serde input = .ok (header, bodyStart)
          ∧ header.metadata.tantivyVersion = openEnv.tantivyVersion
          ∧ ArchiveDirectory.new bodyStart header.files = .ok directory
          ∧ openEnv.indexOpen input directory = .ok index
          ∧ buildTextAnalyzer openEnv.library header.metadata.config.tokenizer
            = .ok analyzer
          ∧ reader = ⟨directory,
              { index with
                tokenizers := fun name =>
                  if name = tokenizerName header.metadata.config.tokenizer then
                    some analyzer
                  else index.tokenizers name },
              header.metadata⟩ := by
  unfold openIndex registerTokenizer validateTantivyVersion
  simp only [except_bind_eq_ok, liftError_eq_ok]
  constructor
  · rintro ⟨⟨header, bodyStart⟩, hread, _, hversion, directory, hnew, index,
      hindex, _, ⟨analyzer, hanalyzer, hregistered⟩, hreader⟩
    cases hregistered
    cases hreader
    split at hversion
    · cases hversion
    · rename_i hsame
      exact ⟨header, bodyStart, directory, index, analyzer, hread,
        not_not.mp hsame, hnew, hindex, hanalyzer, rfl⟩
  · rintro ⟨header, bodyStart, directory, index, analyzer, hread, hversion,
      hnew, hindex, hanalyzer, rfl⟩
    refine ⟨(header, bodyStart), hread, (), ?_, directory, hnew, index, hindex,
      _, ⟨analyzer, hanalyzer, rfl⟩, rfl⟩
    rw [if_neg (not_not.mpr hversion)]

/-- An archive a writer wrote opens, under the writer's configuration,
with the number of documents it accepted and the analyzer it indexed
with; and the directory Tantivy is given is the one it left. -/
theorem open_written
    (h : Wrote createEnv config dir writer calls env archive)
    {openEnv : OpenEnv} (hsame : SameCrates createEnv env openEnv) :
    ∃ directory analyzer,
      frozenOf directory archive = leftBy env.disk dir
        ∧ buildTextAnalyzer createEnv.library config.tokenizer = .ok analyzer
        ∧ ∀ index,
          openEnv.indexOpen (sliceReader archive) directory = .ok index →
          ∃ reader, openIndex openEnv (sliceReader archive) = .ok reader
            ∧ reader.directory = directory
            ∧ reader.metadata.config = config
            ∧ reader.metadata.documentCount.toNat
              = (okAdds ⟨writer, []⟩ calls).length
            ∧ reader.index.tokenizers (tokenizerName config.tokenizer)
              = some analyzer := by
  obtain ⟨documentCount, header, json, files, hcount, hlaid⟩ := h.laidOut
  obtain ⟨-, -, analyzer, hanalyzer⟩ := new_spec h.created h.tempDir
  obtain ⟨body, hbytes⟩ := hlaid.prefixed
  have hread : readHeader env.serde (sliceReader archive)
      = .ok (header, 16 + UInt64.ofNat json.length) := by
    rw [hbytes]
    exact readHeader_of_prefix hlaid.encoded hlaid.small hlaid.valid
  have hfits : ∀ file ∈ header.files,
      (16 + UInt64.ofNat json.length : UInt64).toNat + file.offset.toNat
        < 2 ^ 64 := by
    intro file hfile
    have := complete_of_laidOut hlaid file hfile
    have := h.size
    omega
  have hnew : ArchiveDirectory.new (16 + UInt64.ofNat json.length)
      header.files = .ok ⟨insertAll (header.files.map
        (mappedEntry (16 + UInt64.ofNat json.length))) ∅⟩ :=
    mapFiles_eq_ok.mpr ⟨hfits, rfl⟩
  refine ⟨_, analyzer, frozen_eq_left hlaid hnew, hanalyzer, ?_⟩
  intro index hindex
  refine ⟨_, openIndex_eq_ok.mpr ⟨header, _, _, index, analyzer, ?_, ?_, hnew,
    hindex, ?_, rfl⟩, rfl, ?_, ?_, ?_⟩
  · rw [hsame.serde]
    exact hread
  · rw [hlaid.metadata, hsame.tantivyVersion]
  · rw [hsame.library, hlaid.metadata]
    exact hanalyzer
  · rw [hlaid.metadata]
  · rw [hlaid.metadata]
    exact hcount
  · rw [hlaid.metadata]
    exact if_pos rfl

/-- What an open of a prefix of a written archive has found when it
returns. -/
theorem opened_of_wrote
    (h : Wrote createEnv config dir writer calls env archive)
    {openEnv : OpenEnv} (hsame : SameCrates createEnv env openEnv) {n : Nat}
    {input : SeekRead} (himmutable : input.Immutable (archive.take n))
    {reader : OpenIndex} (hopen : openIndex openEnv input = .ok reader) :
    ∃ documentCount header json files directory index analyzer,
      documentCount.toNat = (okAdds ⟨writer, []⟩ calls).length
        ∧ LaidOut config documentCount dir env archive header json files
        ∧ ArchiveDirectory.new (16 + UInt64.ofNat json.length) header.files
          = .ok directory
        ∧ openEnv.indexOpen input directory = .ok index
        ∧ buildTextAnalyzer createEnv.library config.tokenizer = .ok analyzer
        ∧ reader = ⟨directory,
            { index with
              tokenizers := fun name =>
                if name = tokenizerName config.tokenizer then some analyzer
                else index.tokenizers name },
            header.metadata⟩ := by
  obtain ⟨documentCount, header, json, files, hcount, hlaid⟩ := h.laidOut
  obtain ⟨header', bodyStart, directory, index, analyzer, hread, -, hnew,
    hindex, hanalyzer, rfl⟩ := openIndex_eq_ok.mp hopen
  obtain ⟨body, hbytes⟩ := hlaid.prefixed
  rw [hbytes] at himmutable
  obtain ⟨hdecode, rfl⟩ := readHeader_of_prefixed hlaid.small himmutable hread
  rw [hsame.serde, hlaid.encoded] at hdecode
  cases hdecode
  rw [hlaid.metadata, hsame.library] at hanalyzer
  refine ⟨documentCount, header, json, files, directory, index, analyzer, hcount,
    hlaid, hnew, hindex, hanalyzer, ?_⟩
  rw [hlaid.metadata]

/-- An archive that was cut short never reads wrong. Over an input that
serves a prefix of an archive a writer wrote and may fail at any time,
`open` fails or finds the writer's configuration and count, and every
call on its directory, in any interleaving, is answered from the
directory that was left. -/
theorem truncated_never_wrong
    (h : Wrote createEnv config dir writer calls env archive)
    {openEnv : OpenEnv} (hsame : SameCrates createEnv env openEnv) {n : Nat}
    {input : SeekRead} (himmutable : input.Immutable (archive.take n))
    {reader : OpenIndex} (hopen : openIndex openEnv input = .ok reader) :
    reader.metadata.config = config
      ∧ reader.metadata.documentCount.toNat
        = (okAdds ⟨writer, []⟩ calls).length
      ∧ ∀ build metaLock (directoryCall : List DirectoryCall) events final,
        Run (CacheStep (archive.take n))
          (directoryCalls build metaLock reader.directory directoryCall)
          events final →
        ∀ (i : Nat) call, directoryCall[i]? = some call →
          (∀ answer, final.threads[i]? = some (.ret answer) →
            (leftBy env.disk dir).Allows metaLock call (.ok answer))
          ∧ ∀ error, final.threads[i]? = some (.fail error) →
            (leftBy env.disk dir).Allows metaLock call (.error error) := by
  obtain ⟨documentCount, header, json, files, directory, index, analyzer, hcount,
    hlaid, hnew, -, -, rfl⟩ := opened_of_wrote h hsame himmutable hopen
  dsimp only
  rw [hlaid.metadata]
  refine ⟨rfl, hcount, ?_⟩
  intro build metaLock directoryCall events final hrun i call hcall
  obtain ⟨⟨-, hend⟩, -⟩ := safe_of_run
    (contract_directoryCalls header _ (archive.take n))
    (allSafe_directoryCalls hlaid.valid hnew (complete_of_laidOut hlaid)
      directoryCall) hrun
  rw [frozen_eq_left hlaid hnew] at hend
  exact ⟨fun answer hret => hend i _ hret call hcall,
    fun error hfail => hend i _ hfail call hcall⟩

end

-- ------------------------------------------ the golden archive, written

/-- Two documents. -/
def goldenAdds : List Call :=
  [.addDocument (.ok ()) 7 "lake", .addDocument (.ok ()) 9 "paimon"]

theorem goldenDisk_faithful : Faithful goldenDisk [0x74] := by
  refine ⟨?_, ?_, ?_⟩
  · intro entries h
    cases h
    decide +kernel
  · intro entries h
    cases h
    decide +kernel
  · intro path length content hmetadata hcontent
    unfold goldenDisk at hmetadata hcontent
    dsimp only at hmetadata hcontent
    by_cases hpath : path = joinPath [0x74] (utf8 "meta.json")
    · rw [if_pos hpath] at hmetadata hcontent
      cases hmetadata
      cases hcontent
      rfl
    · rw [if_neg hpath] at hmetadata hcontent
      cases hmetadata
      cases hcontent
      rfl

/-- The write behind them puts the golden archive on an output that never
fails. -/
theorem golden_write : ∃ session' output,
    (runCalls ⟨defaultWriter, []⟩ goldenAdds).write goldenEnv {}
        = (.ok (), session', output)
      ∧ output.bytes = goldenData :=
  goldenWriter_write (runCalls ⟨defaultWriter, []⟩ goldenAdds).documents

theorem golden_wrote :
    @Wrote asciiCase quietCreate {} [0x74] defaultWriter goldenAdds goldenEnv
      goldenData := by
  obtain ⟨session', output, hwrite, hbytes⟩ := golden_write
  exact @Wrote.mk asciiCase _ _ _ _ _ _ _ (by decide +kernel) rfl
    ⟨fun _ => none, session', output, hwrite, hbytes⟩ goldenDisk_faithful
    goldenSerde_roundTrips (by decide +kernel)
    ⟨"meta.json", by decide +kernel⟩ (by decide +kernel)

def goldenOpen : OpenEnv where
  serde := goldenSerde
  tantivyVersion := "0.26.0"
  indexOpen _ _ := .ok ⟨buildSchema {} default_distinctNames, fun _ => none⟩
  library := quietCreate.library

theorem golden_sameCrates : SameCrates quietCreate goldenEnv goldenOpen :=
  ⟨rfl, rfl, rfl⟩

/-- Read again, the golden archive has its two documents and its file. -/
theorem golden_reopened : ∃ reader,
    @openIndex asciiCase goldenOpen (sliceReader goldenData) = .ok reader
      ∧ reader.metadata.documentCount.toNat = 2
      ∧ frozenOf reader.directory goldenData [.normal "meta.json"]
        = some [0x61, 0x62] := by
  obtain ⟨directory, analyzer, hleft, -, hopen⟩ :=
    @open_written asciiCase _ _ _ _ _ _ _ golden_wrote _ golden_sameCrates
  obtain ⟨reader, hreader, hdirectory, -, hcount, -⟩ := hopen _ rfl
  refine ⟨reader, hreader, hcount.trans (by decide +kernel), ?_⟩
  rw [hdirectory, hleft]
  decide +kernel

/-- It opens as far as its header is there. -/
theorem golden_opens {n : Nat} {body : Bytes}
    (hbytes : goldenData.take n
      = envelopePrefix goldenJson ++ goldenJson ++ body) :
    ∃ index, @openIndex asciiCase goldenOpen (sliceReader (goldenData.take n))
      = .ok ⟨goldenDirectory, index, goldenHeader.metadata⟩ := by
  have hread : readHeader goldenSerde (sliceReader (goldenData.take n))
      = .ok (goldenHeader, 543) := by
    have hstart : (543 : UInt64) = 16 + UInt64.ofNat goldenJson.length := by
      decide +kernel
    rw [hbytes, hstart]
    exact readHeader_of_prefix (by decide +kernel) (by decide +kernel)
      (validateHeader_of_readHeader golden_readHeader)
  have hwrote := golden_wrote
  obtain ⟨-, -, analyzer, hanalyzer⟩ := @new_spec asciiCase _ _ _
    (@Wrote.created asciiCase _ _ _ _ _ _ _ hwrote) _
    (@Wrote.tempDir asciiCase _ _ _ _ _ _ _ hwrote)
  exact ⟨_, (@openIndex_eq_ok asciiCase _ _ _).mpr ⟨goldenHeader, 543,
    goldenDirectory, _, analyzer, hread, rfl, golden_new, rfl, hanalyzer, rfl⟩⟩

/-- Cut short in its second file, it still opens. -/
theorem golden_truncated : ∃ index,
    @openIndex asciiCase goldenOpen (sliceReader (goldenData.take 547))
      = .ok ⟨goldenDirectory, index, goldenHeader.metadata⟩ :=
  @golden_opens 547 [0x61, 0x62, 0x63, 0x64] (by decide +kernel)

/-- The file in front of the cut reads as it was written. -/
theorem golden_truncated_reads : ∃ events final,
    Run (CacheStep (goldenData.take 547))
        (directoryCalls ⟨true⟩ ".tantivy-meta.lock" goldenDirectory
          [.readBytes "meta.json" ⟨0, 2⟩]) events final
      ∧ (leftBy goldenDisk [0x74]).Allows ".tantivy-meta.lock"
          (.readBytes "meta.json" ⟨0, 2⟩) (.ok (.bytes [0x61, 0x62])) := by
  have hhandle : goldenDirectory.getFileHandle "meta.json"
      = some ⟨"meta.json", 543, 2⟩ := by
    decide +kernel
  have hread : ∀ cache : ArchiveReadCache,
      CacheStep (goldenData.take 547) cache (.pread 543 2) (.ok [0x61, 0x62])
        { cache with metrics := cache.metrics.recordPread 2 } := by
    intro cache
    have hslice : slice (goldenData.take 547) 543 2 = [0x61, 0x62] := by
      decide +kernel
    rw [← hslice]
    exact .pread cache 543 2 (by decide +kernel)
  have hstart : (directoryCalls ⟨true⟩ ".tantivy-meta.lock" goldenDirectory
      [.readBytes "meta.json" ⟨0, 2⟩]).threads[0]?
        = some ((ArchiveFileHandle.readBytes ⟨true⟩ ⟨"meta.json", 543, 2⟩
            ⟨0, 2⟩).mapError (.ofRead none) >>= fun bytes =>
              .ret (.bytes bytes)) := by
    show some (goldenDirectory.readBytes ⟨true⟩ "meta.json" ⟨0, 2⟩
      >>= fun bytes => Prog.ret (DirectoryAnswer.bytes bytes)) = _
    unfold ArchiveDirectory.readBytes ArchiveDirectory.openRead
    rw [hhandle]
    rfl
  have hrun : ∃ events final,
      Run (CacheStep (goldenData.take 547))
          (directoryCalls ⟨true⟩ ".tantivy-meta.lock" goldenDirectory
            [.readBytes "meta.json" ⟨0, 2⟩]) events final
        ∧ final.threads[0]? = some (.ret (.bytes [0x61, 0x62])) := by
    refine exists_run_of_step (step_of_call 0 (hstart.trans rfl)
      (.get {} 543)) ?_
    refine exists_run_of_step (step_of_call 0 rfl (.recordMiss _)) ?_
    refine exists_run_of_step (step_of_call 0 rfl (hread _)) ?_
    refine exists_run_of_step (step_of_call 0 rfl (.insert _ 543 _)) ?_
    exact ⟨[], _, Run.nil _, rfl⟩
  obtain ⟨events, final, hrun, hret⟩ := hrun
  obtain ⟨index, hopen⟩ := golden_truncated
  obtain ⟨-, -, hanswers⟩ := @truncated_never_wrong asciiCase _ _ _ _ _ _ _
    golden_wrote _ golden_sameCrates 547 _ (sliceReader_immutable _) _ hopen
  exact ⟨events, final, hrun, (hanswers _ _ _ _ _ hrun 0 _ rfl).1 _ hret⟩

end PaimonFtindex.Proofs

/-
The file map of an archive directory, for every header that was read.

A name is judged three times, each time as something else: uniqueness
compares strings, plainness looks at the first two path components, and
the map is keyed by all of them. A plain name may carry separators and
`.`s behind its one component, and these the map does not see
(`components_of_plain`). So `a` and `a/` are two files of a header and
one entry of its directory (`trailing_separator_collides`), and the map
is right exactly for the headers whose names differ before the first
separator (`new_maps_each_file_iff`).
-/
import PaimonFtindex.Lib.InsertAll
import PaimonFtindex.Model.ArchiveDirectory
import PaimonFtindex.Proofs.Envelope

namespace PaimonFtindex.Proofs

open Model Lib

-- ======================================================= the plain names

/-- A name up to its first separator. -/
def plainPart (name : String) : String :=
  String.ofList (name.toList.takeWhile (· ≠ '/'))

/-- Splitting starts with what stands before the first separator. -/
theorem splitChars_eq_cons (name : String) :
    ∃ pieces, splitChars name ['/'] = plainPart name :: pieces := by
  have hbefore : ∀ c ∈ name.toList.takeWhile (· ≠ '/'),
      ['/'].contains c = false := by
    intro c hc
    have := List.mem_takeWhile_imp hc
    simpa using this
  have hsplit := @List.takeWhile_append_dropWhile _ (· ≠ '/') name.toList
  unfold splitChars plainPart
  cases hafter : name.toList.dropWhile (· ≠ '/') with
  | nil =>
      rw [hafter, List.append_nil] at hsplit
      rw [hsplit] at hbefore ⊢
      rw [List.splitOnP_eq_singleton hbefore]
      exact ⟨[], rfl⟩
  | cons sep rest =>
      have hsep : sep = '/' := by
        have hnot := List.head?_dropWhile_not (· ≠ '/') name.toList
        rw [hafter] at hnot
        simpa using hnot
      rw [hafter] at hsplit
      have hfirst := List.splitOnP_append_cons_of_forall_mem hbefore sep
        (by simp [hsep]) rest
      rw [hsplit] at hfirst
      rw [hfirst]
      exact ⟨_, rfl⟩

/-- A plain name does not start with a separator. -/
theorem plainPart_ne_empty {name : String}
    (h : validateArchiveFileName name = .ok ())
    (hroot : name.toList.head? ≠ some '/') : plainPart name ≠ "" := by
  intro hempty
  unfold plainPart at hempty
  rw [String.ofList_eq_empty_iff] at hempty
  cases hchars : name.toList with
  | nil =>
      rw [String.toList_eq_nil_iff] at hchars
      rw [hchars] at h
      cases h
  | cons c cs =>
      rw [hchars] at hempty hroot
      by_cases hc : c = '/'
      · exact hroot (congrArg some hc)
      · simp [hc] at hempty

/-- A plain name has a single component, a name. -/
theorem component_of_plain {name : String}
    (h : validateArchiveFileName name = .ok ()) :
    ∃ part, components name = [.normal part] := by
  unfold validateArchiveFileName at h
  split at h
  · cases h
  · split at h
    · exact ⟨_, by assumption⟩
    · cases h

/-- A component that is a name is the piece itself. -/
theorem eq_of_pieceComponent {piece name : String}
    (h : pieceComponent piece = some (.normal name)) : piece = name := by
  unfold pieceComponent at h
  split at h
  · cases h
  · split at h
    · cases h
    · split at h
      · cases h
      · cases h
        rfl

/-- A plain file name has one component: what stands before its first
separator. -/
theorem components_of_plain {name : String}
    (h : validateArchiveFileName name = .ok ()) :
    components name = [.normal (plainPart name)] := by
  obtain ⟨pieces, hpieces⟩ := splitChars_eq_cons name
  obtain ⟨part, hpart⟩ := component_of_plain h
  have hcomponents : components name =
      (if name.toList.head? = some '/' then [Component.rootDir]
        else if plainPart name = "." then [Component.curDir] else [])
        ++ (plainPart name :: pieces).filterMap pieceComponent := by
    unfold components
    dsimp only
    rw [hpieces]
    simp only [List.head?_cons, Option.some.injEq]
  by_cases hroot : name.toList.head? = some '/'
  · rw [if_pos hroot, hpart] at hcomponents
    cases hcomponents
  · rw [if_neg hroot] at hcomponents
    by_cases hcur : plainPart name = "."
    · rw [if_pos hcur, hpart] at hcomponents
      cases hcomponents
    · rw [if_neg hcur, List.nil_append] at hcomponents
      have hfirst : ∃ c, pieceComponent (plainPart name) = some c := by
        unfold pieceComponent
        rw [if_neg (plainPart_ne_empty h hroot), if_neg hcur]
        by_cases hparent : plainPart name = ".."
        · exact ⟨_, if_pos hparent⟩
        · exact ⟨_, if_neg hparent⟩
      obtain ⟨c, hc⟩ := hfirst
      rw [List.filterMap_cons_some hc, hpart] at hcomponents
      injection hcomponents with hname
      subst hname
      rw [hpart, eq_of_pieceComponent hc]

-- ============================================================ the map

/-- The entry `new_with_metrics` makes of a file. -/
def mappedEntry (bodyStart : UInt64) (file : ArchiveFileEntry) :
    List Component × ArchivedFile :=
  (components file.name, ⟨bodyStart + file.offset, file.length⟩)

/-- The loop of `new_with_metrics`: every start fits, and the entries are
inserted one after another. -/
theorem mapFiles_eq_ok {bodyStart : UInt64} {files : List ArchiveFileEntry}
    {directory mapped : ArchiveDirectory} :
    mapFiles bodyStart files directory = .ok mapped
      ↔ (∀ file ∈ files, bodyStart.toNat + file.offset.toNat < 2 ^ 64)
        ∧ mapped.files
            = insertAll (files.map (mappedEntry bodyStart)) directory.files := by
  induction files generalizing directory with
  | nil =>
      unfold mapFiles
      constructor
      · intro h
        cases h
        exact ⟨by simp, rfl⟩
      · intro h
        obtain ⟨-, h⟩ := h
        cases mapped
        cases h
        rfl
  | cons file files ih =>
      unfold mapFiles
      rw [List.forall_mem_cons, List.map_cons, insertAll_cons]
      cases hsum : checkedAdd bodyStart file.offset with
      | none =>
          rw [checkedAdd_eq_none] at hsum
          constructor
          · intro h
            cases h
          · intro h
            obtain ⟨⟨hfits, -⟩, -⟩ := h
            exact absurd hfits (Nat.not_lt.mpr hsum)
      | some start =>
          rw [checkedAdd_eq_some] at hsum
          have hfits : bodyStart.toNat + file.offset.toNat < 2 ^ 64 :=
            hsum ▸ start.toNat_lt
          have hstart : start = bodyStart + file.offset := by
            rw [← UInt64.toNat_inj, hsum, UInt64.toNat_add,
              Nat.mod_eq_of_lt hfits]
          dsimp only
          rw [ih, hstart]
          exact ⟨fun h => ⟨⟨hfits, h.1⟩, h.2⟩, fun h => ⟨h.1.2, h.2⟩⟩

/-- A handle is for one of the files the directory was made of. -/
theorem exists_file_of_getFileHandle {bodyStart : UInt64}
    {files : List ArchiveFileEntry} {directory : ArchiveDirectory}
    (hnew : ArchiveDirectory.new bodyStart files = .ok directory)
    {path : String} {handle : ArchiveFileHandle}
    (h : directory.getFileHandle path = some handle) :
    ∃ file ∈ files, checkedAdd bodyStart file.offset = some handle.start
      ∧ handle.length = file.length := by
  obtain ⟨hfits, hfiles⟩ := mapFiles_eq_ok.mp hnew
  unfold ArchiveDirectory.getFileHandle at h
  rw [hfiles, Option.map_eq_some_iff] at h
  obtain ⟨archived, hlookup, rfl⟩ := h
  rcases mem_or_of_lookup_insertAll hlookup with hmem | hempty
  · obtain ⟨file, hfile, heq⟩ := List.mem_map.mp hmem
    have harchived : ⟨bodyStart + file.offset, file.length⟩ = archived :=
      congrArg Prod.snd heq
    rw [← harchived]
    refine ⟨file, hfile, ?_, rfl⟩
    exact if_pos (hfits file hfile)
  · cases hempty

/-- The directory has one entry for each file, and each file is found
under its name, where it lies in the archive. -/
def MapsEachFile (bodyStart : UInt64) (files : List ArchiveFileEntry)
    (directory : ArchiveDirectory) : Prop :=
  directory.files.entries.length = files.length
    ∧ ∀ file ∈ files, ∃ handle,
        directory.getFileHandle file.name = some handle
          ∧ handle.start.toNat = bodyStart.toNat + file.offset.toNat
          ∧ handle.length = file.length

/-- Over files with plain names, the keys are distinct when the names
differ before their first separator. -/
theorem nodup_keys_iff {bodyStart : UInt64} {files : List ArchiveFileEntry}
    (hplain : ∀ file ∈ files, validateArchiveFileName file.name = .ok ()) :
    ((files.map (mappedEntry bodyStart)).map Prod.fst).Nodup
      ↔ (files.map fun file => plainPart file.name).Nodup := by
  have hkeys : (files.map (mappedEntry bodyStart)).map Prod.fst
      = (files.map fun file => plainPart file.name).map
          fun part => [Component.normal part] := by
    rw [List.map_map, List.map_map]
    apply List.map_congr_left
    intro file hfile
    exact components_of_plain (hplain file hfile)
  rw [hkeys]
  apply List.nodup_map_iff
  intro part part' h
  injection h with h
  injection h

/-- The directory of a header that was read maps each of its files, no
file lost and none swapped, exactly when no two names agree before their
first separator. -/
theorem new_maps_each_file_iff {serde : HeaderJson} {input : SeekRead}
    {header : IndexHeader} {bodyStart : UInt64} {directory : ArchiveDirectory}
    (hread : readHeader serde input = .ok (header, bodyStart))
    (hnew : ArchiveDirectory.new bodyStart header.files = .ok directory) :
    MapsEachFile bodyStart header.files directory
      ↔ (header.files.map fun file => plainPart file.name).Nodup := by
  obtain ⟨-, -, -, hplain, -⟩ :=
    validateHeader_eq_ok.mp (validateHeader_of_readHeader hread)
  obtain ⟨hfits, hfiles⟩ := mapFiles_eq_ok.mp hnew
  have hcount := @length_insertAll _ _ _
    (header.files.map (mappedEntry bodyStart))
  rw [List.length_map, nodup_keys_iff hplain] at hcount
  unfold MapsEachFile
  rw [hfiles, hcount]
  constructor
  · intro h
    exact h.1
  · intro hparts
    refine ⟨hparts, fun file hfile => ?_⟩
    have hlookup := lookup_insertAll ((nodup_keys_iff hplain).mpr hparts)
      (List.mem_map_of_mem (f := mappedEntry bodyStart) hfile) (m := ∅)
    refine ⟨⟨file.name, bodyStart + file.offset, file.length⟩, ?_, ?_, rfl⟩
    · unfold ArchiveDirectory.getFileHandle
      rw [hfiles]
      show Option.map _ ((insertAll _ _).lookup (mappedEntry bodyStart file).1)
        = _
      rw [hlookup]
      rfl
    · show (bodyStart + file.offset).toNat = _
      rw [UInt64.toNat_add, Nat.mod_eq_of_lt (hfits file hfile)]

-- --------------------------------------- one name, twice, and one entry

/-- Two files of one byte each, `a` and `a/`. -/
def twinHeader : IndexHeader where
  metadata := { tantivyVersion := "0.26.0" }
  files := [⟨"a", 0, 1⟩, ⟨"a/", 1, 1⟩]

/-- A JSON text of that header; what it leaves out has a default. -/
def twinJson : Bytes :=
  ("\x7b\"metadata\":\x7b\"tantivy_version\":\"0.26.0\"\x7d,"
      ++ "\"files\":[\x7b\"name\":\"a\",\"offset\":0,\"length\":1\x7d,"
      ++ "\x7b\"name\":\"a/\",\"offset\":1,\"length\":1\x7d]\x7d"
    ).toUTF8.data.toList

/-- serde_json on that text alone. -/
def twinSerde : HeaderJson where
  toVec _ := .error ⟨"not needed"⟩
  fromSlice json :=
    if json = twinJson then .ok twinHeader else .error ⟨"unknown json"⟩

/-- The archive: the header, then the bytes `x` and `y`. -/
def twinData : Bytes := envelopePrefix twinJson ++ twinJson ++ [0x78, 0x79]

theorem twin_validateHeader : validateHeader twinHeader = .ok () := by
  apply validateHeader_of_sweeps
  · decide +kernel
  · decide +kernel
  · decide
  · decide +kernel
  · decide
  · intro file hfile
    unfold FitsWord
    revert file
    decide
  · exact ⟨by decide, by decide, trivial⟩

/-- The files `a` and `a/` of an accepted header share one entry of its
directory. -/
theorem trailing_separator_collides :
    ∃ header bodyStart directory,
      readHeader twinSerde (sliceReader twinData) = .ok (header, bodyStart)
        ∧ ArchiveDirectory.new bodyStart header.files = .ok directory
        ∧ ¬ MapsEachFile bodyStart header.files directory := by
  have hstart : (138 : UInt64) = 16 + UInt64.ofNat twinJson.length := by
    decide +kernel
  have hread : readHeader twinSerde (sliceReader twinData)
      = .ok (twinHeader, 138) := by
    rw [hstart]
    exact readHeader_of_prefix (by decide +kernel) (by decide +kernel)
      twin_validateHeader
  refine ⟨twinHeader, 138, _, hread, rfl, ?_⟩
  intro h
  have hcount := h.1
  revert hcount
  decide +kernel

/-- The golden archive maps both its files. -/
theorem golden_maps_each_file :
    ∃ directory,
      ArchiveDirectory.new 543 goldenHeader.files = .ok directory
        ∧ MapsEachFile 543 goldenHeader.files directory :=
  ⟨_, rfl, (new_maps_each_file_iff golden_readHeader rfl).mpr
    (by decide +kernel)⟩

end PaimonFtindex.Proofs

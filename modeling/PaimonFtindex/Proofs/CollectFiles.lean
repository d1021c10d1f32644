/-
The files of an archive: which ones `collect_index_files` takes from the
directory Tantivy leaves, and in what order.

Tantivy leaves its files beside its locks (`leaves`); `Collected` says
how the collected files relate to what it left. Since the names are
sorted, the order in which the file system lists them is not seen behind
the sort, nor in the archive (`write_of_relisted`): two runs over the
same files write the same bytes.
-/
import Mathlib.Data.List.Perm.Basic
import Mathlib.Data.List.ReduceOption
import PaimonFtindex.Model.Weight
import PaimonFtindex.Model.Writer
import PaimonFtindex.Proofs.CStrings
import PaimonFtindex.Proofs.Envelope

namespace PaimonFtindex.Proofs

open Model Lib

-- ====================================================== the regular files

/-- What an entry adds to the names: its own, if it is a regular file. -/
def RegularName (entry : Except IoError DirEntry) (name : Option Bytes) :
    Prop :=
  ∃ dirEntry isFile, entry = .ok dirEntry ∧ dirEntry.isFile = .ok isFile
    ∧ name = if isFile then some dirEntry.fileName else none

/-- The first loop succeeds when every entry can be looked at. -/
theorem regularFiles_eq_ok {entries : List (Except IoError DirEntry)}
    {names : List Bytes} :
    regularFiles entries = .ok names
      ↔ ∃ found, List.Forall₂ RegularName entries found
        ∧ names = found.reduceOption := by
  induction entries generalizing names with
  | nil =>
      unfold regularFiles
      constructor
      · intro h
        cases h
        exact ⟨[], .nil, rfl⟩
      · rintro ⟨found, hfound, rfl⟩
        cases hfound
        rfl
  | cons entry entries ih =>
      unfold regularFiles
      simp only [except_bind_eq_ok, liftError_eq_ok]
      constructor
      · rintro ⟨dirEntry, hentry, isFile, hisFile, rest, hrest, h⟩
        cases h
        obtain ⟨found, hfound, rfl⟩ := ih.mp hrest
        refine ⟨_ :: found, .cons ⟨dirEntry, isFile, hentry, hisFile, rfl⟩
          hfound, ?_⟩
        cases isFile <;> rfl
      · rintro ⟨found, hfound, rfl⟩
        cases hfound with
        | cons hname hfound =>
            obtain ⟨dirEntry, isFile, hentry, hisFile, rfl⟩ := hname
            refine ⟨dirEntry, hentry, isFile, hisFile, _,
              ih.mpr ⟨_, hfound, rfl⟩, ?_⟩
            cases isFile <;> rfl

/-- Listed in another order, the names are the same. -/
theorem regularFiles_perm {entries entries' : List (Except IoError DirEntry)}
    (hperm : entries'.Perm entries) {names : List Bytes}
    (h : regularFiles entries = .ok names) :
    ∃ names', regularFiles entries' = .ok names' ∧ names'.Perm names := by
  obtain ⟨found, hfound, rfl⟩ := regularFiles_eq_ok.mp h
  obtain ⟨found', hfound', hperm'⟩ := List.perm_comp_forall₂ hperm hfound
  exact ⟨_, regularFiles_eq_ok.mpr ⟨found', hfound', rfl⟩,
    hperm'.filterMap id⟩

/-- Sorted, the names do not depend on their order. -/
theorem sortNames_eq {names names' : List Bytes} (h : names'.Perm names) :
    (names'.mergeSort fun a b => decide (a ≤ b))
      = names.mergeSort fun a b => decide (a ≤ b) := by
  have hsorted : ∀ l : List Bytes,
      (l.mergeSort fun a b => decide (a ≤ b)).Pairwise (· ≤ ·) := by
    intro l
    have := @List.pairwise_mergeSort _ (fun a b : Bytes => decide (a ≤ b))
      (by
        intro a b c hab hbc
        rw [decide_eq_true_iff] at hab hbc ⊢
        exact List.le_trans hab hbc)
      (by
        intro a b
        rw [Bool.or_eq_true, decide_eq_true_iff, decide_eq_true_iff]
        exact List.le_total a b) l
    simpa only [decide_eq_true_iff] using this
  exact List.Perm.eq_of_pairwise (fun _ _ _ _ => List.le_antisymm)
    (hsorted names') (hsorted names)
    ((List.mergeSort_perm names' _).trans
      (h.trans (List.mergeSort_perm names _).symm))

-- ===================================================== the collected files

/-- What a name contributes: a file, or nothing for a lock. -/
def Stat (disk : Disk) (dir : OsPath) (fileName : Bytes)
    (file : Option IndexFile) : Prop :=
  ∃ name, String.fromUTF8? ⟨fileName.toArray⟩ = some name
    ∧ if name.endsWith ".lock" then file = none
      else ∃ length, disk.metadata (joinPath dir fileName) = .ok length
        ∧ file = some ⟨name, joinPath dir fileName, length⟩

theorem statFiles_eq_ok {disk : Disk} {dir : OsPath} {names : List Bytes}
    {files : List IndexFile} (h : statFiles disk dir names = .ok files) :
    ∃ found, List.Forall₂ (Stat disk dir) names found
      ∧ files = found.reduceOption := by
  induction names generalizing files with
  | nil =>
      cases h
      exact ⟨[], .nil, rfl⟩
  | cons fileName names ih =>
      unfold statFiles at h
      cases hname : String.fromUTF8? ⟨fileName.toArray⟩ with
      | none =>
          rw [hname, except_bind_eq_ok] at h
          obtain ⟨_, hthrow, -⟩ := h
          cases hthrow
      | some name =>
          rw [hname] at h
          simp only [pure_bind] at h
          by_cases hlock : name.endsWith ".lock"
          · rw [if_pos hlock] at h
            obtain ⟨found, hfound, rfl⟩ := ih h
            refine ⟨none :: found, .cons ⟨name, hname, ?_⟩ hfound, rfl⟩
            rw [if_pos hlock]
          · rw [if_neg hlock] at h
            simp only [except_bind_eq_ok, liftError_eq_ok] at h
            obtain ⟨length, hlength, rest, hrest, h⟩ := h
            cases h
            obtain ⟨found, hfound, rfl⟩ := ih hrest
            refine ⟨some _ :: found, .cons ⟨name, hname, ?_⟩ hfound, rfl⟩
            rw [if_neg hlock]
            exact ⟨length, hlength, rfl⟩

/-- A decoded name encodes to what it was decoded from. -/
theorem utf8_of_fromUTF8? {bytes : Bytes} {s : String}
    (h : String.fromUTF8? ⟨bytes.toArray⟩ = some s) : utf8 s = bytes := by
  unfold String.fromUTF8? at h
  split at h
  · cases h
    rfl
  · cases h

theorem utf8_inj {s t : String} (h : utf8 s = utf8 t) : s = t := by
  unfold utf8 at h
  rw [Array.toList_inj] at h
  exact String.toByteArray_inj.mp (ByteArray.ext h)

/-- A regular file of that name. -/
def listsFile (fileName : Bytes) : Except IoError DirEntry → Bool
  | .ok entry => entry.fileName == fileName && entry.isFile.toOption == some true
  | .error _ => false

/-- The names the entries list, of files or not. -/
def listedNames (entries : List (Except IoError DirEntry)) : List Bytes :=
  entries.filterMap fun entry => entry.toOption.map DirEntry.fileName

theorem listsFile_ok {fileName : Bytes} {entry : DirEntry} {isFile : Bool}
    (h : entry.isFile = .ok isFile) :
    listsFile fileName (.ok entry) = true
      ↔ isFile = true ∧ fileName = entry.fileName := by
  unfold listsFile
  dsimp only
  rw [h, Bool.and_eq_true, beq_iff_eq, eq_comm, and_comm]
  simp [Except.toOption]

theorem mem_regularFiles {entries : List (Except IoError DirEntry)}
    {names : List Bytes} (h : regularFiles entries = .ok names)
    (fileName : Bytes) :
    fileName ∈ names ↔ entries.any (listsFile fileName) = true := by
  obtain ⟨found, hfound, rfl⟩ := regularFiles_eq_ok.mp h
  clear h
  induction hfound with
  | nil => simp
  | cons hname hfound ih =>
      obtain ⟨entry, isFile, rfl, hisFile, rfl⟩ := hname
      rw [List.any_cons, Bool.or_eq_true, ← ih, listsFile_ok hisFile]
      cases isFile with
      | true =>
          rw [if_pos rfl, List.reduceOption_cons_of_some, List.mem_cons]
          simp
      | false =>
          rw [if_neg Bool.false_ne_true, List.reduceOption_cons_of_none]
          simp

theorem regularFiles_sublist {entries : List (Except IoError DirEntry)}
    {names : List Bytes} (h : regularFiles entries = .ok names) :
    names.Sublist (listedNames entries) := by
  obtain ⟨found, hfound, rfl⟩ := regularFiles_eq_ok.mp h
  clear h
  unfold listedNames
  induction hfound with
  | nil => exact List.Sublist.slnil
  | cons hname hfound ih =>
      obtain ⟨entry, isFile, rfl, hisFile, rfl⟩ := hname
      show List.Sublist _ (entry.fileName :: List.filterMap _ _)
      cases isFile with
      | true =>
          rw [if_pos rfl, List.reduceOption_cons_of_some]
          exact ih.cons_cons _
      | false =>
          rw [if_neg Bool.false_ne_true, List.reduceOption_cons_of_none]
          exact ih.cons _

/-- A file system as programs know it: a directory lists each name once,
names have no separator in them, and files are as long as they say. -/
structure Faithful (disk : Disk) (dir : OsPath) : Prop where
  nodup : ∀ entries, disk.readDir dir = .ok entries →
    (listedNames entries).Nodup
  plain : ∀ entries, disk.readDir dir = .ok entries →
    ∀ fileName ∈ listedNames entries, fileName ≠ [] ∧ fileName ≠ [0x2e]
      ∧ fileName ≠ [0x2e, 0x2e] ∧ 0x2f ∉ fileName
  length : ∀ path length content, disk.metadata path = .ok length →
    disk.file path = .ok content → content.length = length.toNat

/-- Tantivy leaves a file of that name: a regular one, and no lock. -/
def leaves (disk : Disk) (dir : OsPath) (name : String) : Bool :=
  (disk.readDir dir).toOption.any (List.any · (listsFile (utf8 name)))
    && !name.endsWith ".lock"

/-- A name is plain when its bytes are those of a listed one. -/
theorem plainName_of_bytes {name : String} (hempty : utf8 name ≠ [])
    (hdot : utf8 name ≠ [0x2e]) (hdots : utf8 name ≠ [0x2e, 0x2e])
    (hslash : 0x2f ∉ utf8 name) : PlainName name := by
  refine ⟨?_, ?_, ?_, ?_⟩
  · rintro rfl
    exact hempty rfl
  · rintro rfl
    exact hdot rfl
  · rintro rfl
    exact hdots rfl
  · intro hmem
    apply hslash
    have hutf8 : utf8 name = name.toList.flatMap String.utf8EncodeChar := by
      unfold utf8
      rw [String.toUTF8_eq_toByteArray, ← String.utf8Encode_toList]
      exact congrArg Array.toList List.data_toByteArray
    rw [hutf8, List.mem_flatMap]
    exact ⟨'/', hmem, by decide⟩

/-- How the collected files relate to the directory. -/
structure Collected (disk : Disk) (dir : OsPath) (files : List IndexFile) :
    Prop where
  left : ∀ file ∈ files, leaves disk dir file.name = true
  path : ∀ file ∈ files, file.path = joinPath dir (utf8 file.name)
  length : ∀ file ∈ files, disk.metadata file.path = .ok file.length
  complete : ∀ name, leaves disk dir name = true →
    ∃ file ∈ files, file.name = name
  nodup : (files.map IndexFile.name).Nodup
  plain : ∀ file ∈ files, PlainName file.name

theorem stat_sublist {disk : Disk} {dir : OsPath} {names : List Bytes}
    {found : List (Option IndexFile)}
    (h : List.Forall₂ (Stat disk dir) names found) :
    ((found.reduceOption).map fun file => utf8 file.name).Sublist names := by
  induction h with
  | nil => exact List.Sublist.slnil
  | cons hstat h ih =>
      obtain ⟨name, hname, hstat⟩ := hstat
      by_cases hlock : name.endsWith ".lock"
      · rw [if_pos hlock] at hstat
        rw [hstat, List.reduceOption_cons_of_none]
        exact ih.cons _
      · rw [if_neg hlock] at hstat
        obtain ⟨length, -, rfl⟩ := hstat
        rw [List.reduceOption_cons_of_some, List.map_cons,
          utf8_of_fromUTF8? hname]
        exact ih.cons_cons _

theorem collected_of_collectIndexFiles {disk : Disk} {dir : OsPath}
    (hfaithful : Faithful disk dir) {files : List IndexFile}
    (h : collectIndexFiles disk dir = .ok files) :
    Collected disk dir files := by
  unfold collectIndexFiles at h
  simp only [except_bind_eq_ok, liftError_eq_ok] at h
  obtain ⟨entries, hentries, names, hnames, hstat⟩ := h
  obtain ⟨found, hfound, rfl⟩ := statFiles_eq_ok hstat
  have hmem : ∀ fileName, fileName ∈ names.mergeSort (fun a b => decide (a ≤ b))
      ↔ entries.any (listsFile fileName) = true := fun fileName =>
    List.mem_mergeSort.trans (mem_regularFiles hnames fileName)
  have hleaves : ∀ name, leaves disk dir name = true
      ↔ utf8 name ∈ names.mergeSort (fun a b => decide (a ≤ b))
        ∧ ¬ name.endsWith ".lock" := by
    intro name
    unfold leaves
    rw [hentries, hmem]
    simp [Except.toOption]
  have hfile : ∀ file ∈ found.reduceOption, ∃ fileName ∈
      names.mergeSort (fun a b => decide (a ≤ b)), Stat disk dir fileName
        (some file) := by
    intro file hfile
    exact exists_mem_of_forall₂ hfound.flip _ (List.reduceOption_mem_iff.mp hfile)
  have hspec : ∀ file ∈ found.reduceOption,
      utf8 file.name ∈ names.mergeSort (fun a b => decide (a ≤ b))
        ∧ ¬ file.name.endsWith ".lock"
        ∧ file.path = joinPath dir (utf8 file.name)
        ∧ disk.metadata file.path = .ok file.length := by
    intro file hmem
    obtain ⟨fileName, hlisted, name, hname, hstat⟩ := hfile file hmem
    by_cases hlock : name.endsWith ".lock"
    · rw [if_pos hlock] at hstat
      cases hstat
    · rw [if_neg hlock] at hstat
      obtain ⟨length, hlength, hsome⟩ := hstat
      cases hsome
      have hbytes := utf8_of_fromUTF8? hname
      dsimp only
      rw [hbytes]
      exact ⟨hlisted, hlock, rfl, hlength⟩
  refine ⟨?_, ?_, ?_, ?_, ?_, ?_⟩
  · intro file hmem
    exact (hleaves _).mpr ⟨(hspec file hmem).1, (hspec file hmem).2.1⟩
  · intro file hmem
    exact (hspec file hmem).2.2.1
  · intro file hmem
    exact (hspec file hmem).2.2.2
  · intro name hname
    obtain ⟨hlisted, hlock⟩ := (hleaves name).mp hname
    obtain ⟨file, hmem, decoded, hdecoded, hstat⟩ :=
      exists_mem_of_forall₂ hfound _ hlisted
    have heq : decoded = name := utf8_inj (utf8_of_fromUTF8? hdecoded)
    rw [heq, if_neg hlock] at hstat
    obtain ⟨length, -, rfl⟩ := hstat
    exact ⟨_, List.reduceOption_mem_iff.mpr hmem, rfl⟩
  · have hnodup : (names.mergeSort fun a b => decide (a ≤ b)).Nodup :=
      (List.mergeSort_perm names _).nodup_iff.mpr
        ((hfaithful.nodup entries hentries).sublist (regularFiles_sublist hnames))
    have hbytes : ((found.reduceOption.map IndexFile.name).map utf8).Nodup := by
      rw [List.map_map]
      exact hnodup.sublist (stat_sublist hfound)
    exact hbytes.of_map _
  · intro file hmem
    have hlisted := (regularFiles_sublist hnames).subset
      (List.mem_mergeSort.mp (hspec file hmem).1)
    obtain ⟨hempty, hdot, hdots, hslash⟩ :=
      hfaithful.plain entries hentries _ hlisted
    exact plainName_of_bytes hempty hdot hdots hslash

-- ==================================================== listed another way

/-- Two listings of a directory: the same entries, in any order. -/
inductive Relisted : Except IoError (List (Except IoError DirEntry)) →
    Except IoError (List (Except IoError DirEntry)) → Prop
  | error (e : IoError) : Relisted (.error e) (.error e)
  | ok {entries entries' : List (Except IoError DirEntry)}
      (h : entries.Perm entries') : Relisted (.ok entries) (.ok entries')

/-- The same file system, but for the order in which it lists. -/
structure SameFiles (disk disk' : Disk) : Prop where
  readDir : ∀ dir, Relisted (disk.readDir dir) (disk'.readDir dir)
  metadata : disk'.metadata = disk.metadata
  file : disk'.file = disk.file

theorem Relisted.symm {r r' : Except IoError (List (Except IoError DirEntry))}
    (h : Relisted r r') : Relisted r' r := by
  cases h with
  | error e => exact .error e
  | ok hperm => exact .ok hperm.symm

theorem Relisted.exists_ok
    {r r' : Except IoError (List (Except IoError DirEntry))}
    (h : Relisted r r') {entries : List (Except IoError DirEntry)}
    (hr : r = .ok entries) :
    ∃ entries', r' = .ok entries' ∧ entries'.Perm entries := by
  cases h with
  | error e => cases hr
  | ok hperm =>
      cases hr
      exact ⟨_, rfl, hperm.symm⟩

theorem SameFiles.symm {disk disk' : Disk} (h : SameFiles disk disk') :
    SameFiles disk' disk :=
  ⟨fun dir => (h.readDir dir).symm, h.metadata.symm, h.file.symm⟩

theorem statFiles_congr {disk disk' : Disk}
    (h : disk'.metadata = disk.metadata) (dir : OsPath) (names : List Bytes) :
    statFiles disk' dir names = statFiles disk dir names := by
  induction names with
  | nil => rfl
  | cons name names ih =>
      unfold statFiles
      simp only [h, ih]

/-- What is collected is collected from any listing. -/
theorem collectIndexFiles_of_sameFiles {disk disk' : Disk}
    (h : SameFiles disk disk') {dir : OsPath} {files : List IndexFile}
    (hfiles : collectIndexFiles disk dir = .ok files) :
    collectIndexFiles disk' dir = .ok files := by
  unfold collectIndexFiles at hfiles ⊢
  simp only [except_bind_eq_ok, liftError_eq_ok] at hfiles ⊢
  obtain ⟨entries, hentries, names, hnames, hstat⟩ := hfiles
  obtain ⟨entries', hentries', hperm⟩ := (h.readDir dir).exists_ok hentries
  obtain ⟨names', hnames', hperm'⟩ := regularFiles_perm hperm hnames
  refine ⟨entries', hentries', names', hnames', ?_⟩
  rw [statFiles_congr h.metadata, sortNames_eq hperm']
  exact hstat

/-- The same answers, but for the order of the listings. -/
structure SameAnswers (env env' : WriteEnv) : Prop where
  commit : env'.commit = env.commit
  waitMergingThreads : env'.waitMergingThreads = env.waitMergingThreads
  disk : SameFiles env.disk env'.disk
  tantivyVersion : env'.tantivyVersion = env.tantivyVersion
  serde : env'.serde = env.serde

/-- A write that has collected its files goes on the same way; one that
fails there or earlier has not touched its output. -/
theorem finish_of_sameAnswers {env env' : WriteEnv} (h : SameAnswers env env')
    (writer : FullTextIndexWriter) (state : FullTextIndexWriterState)
    (output : Output) :
    writer.finish env' state output = writer.finish env state output
      ∨ ∃ e e', writer.finish env state output = .error e output
        ∧ writer.finish env' state output = .error e' output := by
  unfold FullTextIndexWriter.finish
  rw [h.commit, h.waitMergingThreads]
  cases env.commit with
  | error e => exact .inl rfl
  | ok _ =>
      cases env.waitMergingThreads with
      | error e => exact .inl rfl
      | ok _ =>
          cases hfiles : collectIndexFiles env.disk state.tempDir with
          | ok files =>
              left
              rw [collectIndexFiles_of_sameFiles h.disk hfiles, h.serde,
                h.disk.file]
              unfold FullTextIndexWriter.header
              rw [h.tantivyVersion]
          | error e =>
              cases hfiles' : collectIndexFiles env'.disk state.tempDir with
              | error e' => exact .inr ⟨e, e', rfl, rfl⟩
              | ok files =>
                  rw [collectIndexFiles_of_sameFiles h.disk.symm hfiles']
                    at hfiles
                  cases hfiles

/-- The order in which the file system lists a directory is not seen in
the archive: over the same files, two writes both succeed or both fail,
and leave the same writer and the same bytes either way. -/
theorem write_of_relisted {env env' : WriteEnv} (h : SameAnswers env env')
    (session : IndexSession) (output : Output) :
    SameOutcome (session.write env output).1 (session.write env' output).1
      ∧ (session.write env output).2 = (session.write env' output).2 := by
  unfold IndexSession.write
  cases session.writer.state with
  | none => exact ⟨fun _ => Iff.rfl, rfl⟩
  | some state =>
      dsimp only
      rcases finish_of_sameAnswers h { session.writer with state := none }
        state output with heq | ⟨e, e', hfinish, hfinish'⟩
      · rw [heq]
        exact ⟨fun _ => Iff.rfl, rfl⟩
      · rw [hfinish, hfinish']
        refine ⟨fun a => ?_, rfl⟩
        constructor <;>
        · intro hok
          cases hok

/-- The same files, the other way round. -/
def relistedEnv : WriteEnv :=
  { goldenEnv with disk := { goldenDisk with
      readDir := fun _ => .ok [.ok ⟨utf8 "segment.idx", .ok true⟩,
        .ok ⟨utf8 "meta.json", .ok true⟩,
        .ok ⟨utf8 ".tantivy-writer.lock", .ok true⟩] } }

/-- Listed one way or the other, the files make the golden archive. -/
theorem write_of_relisted_two : ∃ session output,
    IndexSession.write ⟨goldenWriter, []⟩ goldenEnv {}
        = (.ok (), session, output)
      ∧ IndexSession.write ⟨goldenWriter, []⟩ relistedEnv {}
        = (.ok (), session, output)
      ∧ output.bytes = goldenData := by
  have hsame : SameAnswers goldenEnv relistedEnv :=
    ⟨rfl, rfl, ⟨fun _ => .ok (List.reverse_perm _).symm, rfl, rfl⟩, rfl, rfl⟩
  obtain ⟨session, output, hwrite, hbytes⟩ := goldenWriter_write []
  obtain ⟨hresult, hleft⟩ := write_of_relisted hsame ⟨goldenWriter, []⟩ {}
  rw [hwrite] at hresult hleft
  refine ⟨session, output, hwrite, ?_, hbytes⟩
  exact Prod.ext ((hresult ()).mp rfl) hleft.symm

end PaimonFtindex.Proofs

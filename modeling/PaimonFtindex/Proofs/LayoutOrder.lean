/-
When the order of the file list decides whether a header is accepted.

`validate_header` sorts the ranges by their start and lets the sort
leave ties in list order. Read off pair by pair, that asks two things of
a list (`validateHeader_eq_ok_iff`): the files are apart, which is a
matter of the files alone, and of two files with one start the one
listed first is empty. The second fails in some order exactly when an
empty file starts where a file that is not empty does
(`accepts_every_order_iff`).
-/
import PaimonFtindex.Proofs.Layout

namespace PaimonFtindex.Proofs

open Model Lib

/-- All that the checks ask of a header besides the order of its files. -/
structure SoundLayout (metadata : FullTextIndexMetadata)
    (files : List ArchiveFileEntry) : Prop where
  config : metadata.config.validate = .ok ()
  version : isBlank metadata.tantivyVersion = false
  nonempty : files ≠ []
  plain : ∀ file ∈ files, validateArchiveFileName file.name = .ok ()
  nodup : (files.map ArchiveFileEntry.name).Nodup
  fits : ∀ file ∈ files, FitsWord file
  apart : files.Pairwise FilesApart

theorem SoundLayout.perm {metadata : FullTextIndexMetadata}
    {files files' : List ArchiveFileEntry} (h : SoundLayout metadata files)
    (hperm : files.Perm files') : SoundLayout metadata files' where
  config := h.config
  version := h.version
  nonempty := fun hnil => h.nonempty (List.perm_nil.mp (hnil ▸ hperm))
  plain := fun file hfile => h.plain file (hperm.mem_iff.mpr hfile)
  nodup := (hperm.map _).nodup_iff.mp h.nodup
  fits := fun file hfile => h.fits file (hperm.mem_iff.mpr hfile)
  apart := (hperm.pairwise_iff Apart.symm).mp h.apart

/-- Of two files with one start, the one listed first is empty. -/
def EmptyFirst (f g : ArchiveFileEntry) : Prop :=
  f.offset = g.offset → f.length = 0

/-- What the sort and the sweep ask of two files, the first one listed
first. -/
theorem ordered_iff {f g : ArchiveFileEntry} (hf : FitsWord f)
    (hg : FitsWord g) :
    (if decide ((fileRange f).start ≤ (fileRange g).start) = true
        then rangeHi (fileRange f) ≤ rangeLo (fileRange g)
        else rangeHi (fileRange g) ≤ rangeLo (fileRange f))
      ↔ FilesApart f g ∧ EmptyFirst f g := by
  have hfhi : rangeHi (fileRange f) = f.offset.toNat + f.length.toNat :=
    fileRange_stop hf
  have hghi : rangeHi (fileRange g) = g.offset.toNat + g.length.toNat :=
    fileRange_stop hg
  have hflo : rangeLo (fileRange f) = f.offset.toNat := rfl
  have hglo : rangeLo (fileRange g) = g.offset.toNat := rfl
  rw [hfhi, hghi, hflo, hglo]
  unfold FilesApart Apart EmptyFirst
  rw [← UInt64.toNat_inj, ← UInt64.toNat_inj]
  show _ ↔ _ ∧ (_ → f.length.toNat = 0)
  by_cases hle : (fileRange f).start ≤ (fileRange g).start
  · rw [if_pos (decide_eq_true hle)]
    have hle : f.offset.toNat ≤ g.offset.toNat := UInt64.le_iff_toNat_le.mp hle
    dsimp only
    omega
  · rw [if_neg (by simpa using hle)]
    have hlt : ¬ f.offset.toNat ≤ g.offset.toNat := fun h =>
      hle (UInt64.le_iff_toNat_le.mpr h)
    dsimp only
    omega

/-- What `validate_header` accepts, in terms of the files alone. -/
theorem validateHeader_eq_ok_iff {metadata : FullTextIndexMetadata}
    {files : List ArchiveFileEntry} :
    validateHeader ⟨metadata, files⟩ = .ok ()
      ↔ SoundLayout metadata files ∧ files.Pairwise EmptyFirst := by
  have hsweep : (∀ file ∈ files, FitsWord file) →
      (Sweeps rangeLo rangeHi 0 (sortByStart (files.map fileRange))
        ↔ files.Pairwise FilesApart ∧ files.Pairwise EmptyFirst) := by
    intro hfits
    have hle : ∀ r ∈ sortByStart (files.map fileRange),
        rangeLo r ≤ rangeHi r := by
      intro r hr
      obtain ⟨file, hfile, rfl⟩ :=
        List.mem_map.mp ((List.mergeSort_perm _ _).mem_iff.mp hr)
      show file.offset.toNat ≤ (fileRange file).stop.toNat
      rw [fileRange_stop (hfits file hfile)]
      exact Nat.le_add_right _ _
    rw [sweeps_iff_pairwise hle, and_iff_right fun r _ => Nat.zero_le _]
    unfold sortByStart
    rw [pairwise_mergeSort_iff (by simp; exact fun _ _ _ => UInt64.le_trans)
      (by simp; exact fun a b => UInt64.le_total _ _), List.pairwise_map,
      ← List.pairwise_and_iff]
    constructor
    · intro h
      exact h.imp_of_mem fun hf hg hfg =>
        (ordered_iff (hfits _ hf) (hfits _ hg)).mp hfg
    · intro h
      exact h.imp_of_mem fun hf hg hfg =>
        (ordered_iff (hfits _ hf) (hfits _ hg)).mpr hfg
  rw [validateHeader_eq_ok]
  constructor
  · intro h
    obtain ⟨hconfig, hversion, hne, hplain, hnodup, hfits, h⟩ := h
    obtain ⟨hapart, hfirst⟩ := (hsweep hfits).mp h
    exact ⟨⟨hconfig, hversion, hne, hplain, hnodup, hfits, hapart⟩, hfirst⟩
  · intro h
    obtain ⟨⟨hconfig, hversion, hne, hplain, hnodup, hfits, hapart⟩, hfirst⟩ := h
    exact ⟨hconfig, hversion, hne, hplain, hnodup, hfits,
      (hsweep hfits).mpr ⟨hapart, hfirst⟩⟩

-- ============================================================ the orders

/-- An empty file starts where a file that is not empty does. -/
def SharesStart (files : List ArchiveFileEntry) : Prop :=
  ∃ e ∈ files, ∃ f ∈ files, e.length = 0 ∧ f.length ≠ 0 ∧ e.offset = f.offset

/-- Two files that are apart and start together are not both non-empty. -/
theorem FilesApart.length_eq_zero {f g : ArchiveFileEntry}
    (h : FilesApart f g) (hstart : f.offset = g.offset) :
    f.length = 0 ∨ g.length = 0 := by
  unfold FilesApart Apart at h
  dsimp only at h
  rw [hstart] at h
  rw [← UInt64.toNat_inj, ← UInt64.toNat_inj]
  show f.length.toNat = 0 ∨ g.length.toNat = 0
  omega

/-- Where no empty file shares its start with a file that is not, ties
are between empty files, and any order will do. -/
theorem pairwise_emptyFirst {files : List ArchiveFileEntry}
    (hapart : files.Pairwise FilesApart) (hshares : ¬ SharesStart files) :
    files.Pairwise EmptyFirst := by
  refine hapart.imp_of_mem ?_
  intro f g hf hg hfg hstart
  rcases hfg.length_eq_zero hstart with hzero | hzero
  · exact hzero
  · by_contra hne
    exact hshares ⟨g, hg, f, hf, hzero, hne, hstart.symm⟩

/-- With the empty files in front, every sound layout is accepted. -/
theorem accepts_emptyFirst {metadata : FullTextIndexMetadata}
    {files : List ArchiveFileEntry} (h : SoundLayout metadata files) :
    ∃ files', files.Perm files'
      ∧ validateHeader ⟨metadata, files'⟩ = .ok () := by
  have hperm : (files.filter (fun file => file.length = 0)
      ++ files.filter fun file => !decide (file.length = 0)).Perm files :=
    List.filter_append_perm _ files
  refine ⟨_, hperm.symm, ?_⟩
  rw [validateHeader_eq_ok_iff]
  refine ⟨h.perm hperm.symm, ?_⟩
  rw [List.pairwise_append]
  refine ⟨?_, ?_, ?_⟩
  · refine List.pairwise_of_forall_mem_list ?_
    intro f hf g _ _
    simpa using (List.mem_filter.mp hf).2
  · apply pairwise_emptyFirst (h.apart.sublist List.filter_sublist)
    rintro ⟨e, he, -, -, hzero, -⟩
    simp [hzero] at he
  · intro f hf g _ _
    simpa using (List.mem_filter.mp hf).2

/-- With a file in front of an empty one at the same start, none is. -/
theorem rejects_of_sharesStart {metadata : FullTextIndexMetadata}
    {files : List ArchiveFileEntry} (h : SharesStart files) :
    ∃ files', files.Perm files'
      ∧ validateHeader ⟨metadata, files'⟩ ≠ .ok () := by
  obtain ⟨e, he, f, hf, hzero, hne, hstart⟩ := h
  have hef : e ∈ files.erase f := by
    apply (List.mem_erase_of_ne ?_).mpr he
    rintro rfl
    exact hne hzero
  refine ⟨f :: files.erase f, List.perm_cons_erase hf, ?_⟩
  rw [ne_eq, validateHeader_eq_ok_iff, List.pairwise_cons]
  rintro ⟨-, hfirst, -⟩
  exact hne (hfirst e hef hstart.symm)

/-- Acceptance does not depend on the order of the files exactly where
no order is accepted, some check having failed that the order has no
part in, or no empty file shares its start with a file that is not
empty. -/
theorem accepts_every_order_iff (header : IndexHeader) :
    (∀ files', header.files.Perm files' →
        (validateHeader header = .ok ()
          ↔ validateHeader ⟨header.metadata, files'⟩ = .ok ()))
      ↔ ¬ SoundLayout header.metadata header.files
        ∨ ¬ SharesStart header.files := by
  obtain ⟨metadata, files⟩ := header
  dsimp only
  constructor
  · intro h
    rw [← not_and_or]
    rintro ⟨hsound, hshares⟩
    obtain ⟨good, hgood, haccept⟩ := accepts_emptyFirst hsound
    obtain ⟨bad, hbad, hreject⟩ := @rejects_of_sharesStart metadata _ hshares
    exact hreject ((h bad hbad).mp ((h good hgood).mpr haccept))
  · intro h files' hperm
    rw [validateHeader_eq_ok_iff, validateHeader_eq_ok_iff]
    rcases h with hunsound | hshares
    · constructor
      · intro haccept
        exact absurd haccept.1 hunsound
      · intro haccept
        exact absurd (haccept.1.perm hperm.symm) hunsound
    · have hshares' : ¬ SharesStart files' := by
        rintro ⟨e, he, f, hf, hrest⟩
        exact hshares ⟨e, hperm.mem_iff.mpr he, f, hperm.mem_iff.mpr hf, hrest⟩
      constructor
      · intro haccept
        have hsound := haccept.1.perm hperm
        exact ⟨hsound, pairwise_emptyFirst hsound.apart hshares'⟩
      · intro haccept
        have hsound := haccept.1.perm hperm.symm
        exact ⟨hsound, pairwise_emptyFirst hsound.apart hshares⟩

/-- Five bytes, and an empty file in front of them, listed behind. -/
def emptyBehind : List ArchiveFileEntry := [⟨"a", 0, 5⟩, ⟨"b", 0, 0⟩]

theorem soundLayout_emptyBehind :
    SoundLayout ⟨{}, 0, "0.26.0"⟩ emptyBehind where
  config := by decide +kernel
  version := by decide +kernel
  nonempty := List.cons_ne_nil _ _
  plain := by decide +kernel
  nodup := by decide
  fits := by
    intro file hfile
    unfold FitsWord
    revert file
    decide
  apart := by
    refine List.Pairwise.cons ?_ (List.pairwise_singleton _ _)
    intro g hg
    rw [List.mem_singleton.mp hg]
    exact Or.inr (Nat.le_refl 0)

/-- The two orders of the two files are not accepted alike. -/
theorem emptyBehind_order_matters :
    ¬ ∀ (header : IndexHeader) (files' : List ArchiveFileEntry),
      header.files.Perm files' →
        (validateHeader header = .ok ()
          ↔ validateHeader ⟨header.metadata, files'⟩ = .ok ()) := by
  intro h
  have hswap := h ⟨⟨{}, 0, "0.26.0"⟩, emptyBehind⟩ [⟨"b", 0, 0⟩, ⟨"a", 0, 5⟩]
    (List.Perm.swap _ _ _)
  rw [validateHeader_eq_ok_iff, validateHeader_eq_ok_iff] at hswap
  have haccept := hswap.mpr
    ⟨soundLayout_emptyBehind.perm (List.Perm.swap _ _ _), by
      refine List.Pairwise.cons ?_ (List.pairwise_singleton _ _)
      intro g _ _
      rfl⟩
  have hfirst := (List.pairwise_cons.mp haccept.2).1 ⟨"b", 0, 0⟩
    List.mem_cons_self rfl
  exact absurd hfirst (by decide)

end PaimonFtindex.Proofs

/-
What `validate_header` accepts.

The checker collects one range per file, sorts the ranges by their start
and sweeps over neighbours. `validateHeader_eq_ok` reads its answer off
check by check, and `Lib.Sweep` turns the sweep into the statement that
matters to a reader of the archive: the files lie in pairwise disjoint
ranges, in whatever order the header lists them (`files_apart`).
-/
import PaimonFtindex.Lib.Outcome
import PaimonFtindex.Lib.Sweep
import PaimonFtindex.Model.Storage

namespace PaimonFtindex.Proofs

open Model Lib

/-- The range of an archive file, as the checker collects it. -/
def fileRange (file : ArchiveFileEntry) : FileRange :=
  ⟨file.offset, file.offset + file.length, file.name⟩

/-- The end of a file does not overflow. -/
def FitsWord (file : ArchiveFileEntry) : Prop :=
  file.offset.toNat + file.length.toNat < 2 ^ 64

theorem fileRange_stop {file : ArchiveFileEntry} (h : FitsWord file) :
    (fileRange file).stop.toNat = file.offset.toNat + file.length.toNat := by
  show (file.offset + file.length).toNat = _
  rw [UInt64.toNat_add, Nat.mod_eq_of_lt h]

/-- The collecting loop, read off: names are valid and distinct, ends fit
and the ranges are the files'. -/
theorem collectRanges_eq_ok {names : List String}
    {files : List ArchiveFileEntry} {ranges : List FileRange} :
    collectRanges names files = .ok ranges
      ↔ (∀ file ∈ files, validateArchiveFileName file.name = .ok ())
        ∧ (∀ file ∈ files, file.name ∉ names)
        ∧ (files.map ArchiveFileEntry.name).Nodup
        ∧ (∀ file ∈ files, FitsWord file)
        ∧ ranges = files.map fileRange := by
  induction files generalizing names ranges with
  | nil =>
      simp [collectRanges, pure, Except.pure, eq_comm]
  | cons file files ih =>
      unfold collectRanges
      rw [except_bind_eq_ok]
      by_cases hname : validateArchiveFileName file.name = .ok ()
      · by_cases hseen : file.name ∈ names
        · simp [hname, hseen, bind, Except.bind, throw, throwThe,
            MonadExceptOf.throw]
        · cases hsum : checkedAdd file.offset file.length with
          | none =>
              rw [checkedAdd_eq_none] at hsum
              simp [hname, hseen, FitsWord, bind, Except.bind, throw, throwThe,
                MonadExceptOf.throw]
              omega
          | some stop =>
              have hfits : FitsWord file := by
                have := stop.toNat_lt
                rw [checkedAdd_eq_some] at hsum
                unfold FitsWord
                omega
              have hstop : stop = file.offset + file.length := by
                rw [checkedAdd_eq_some, ← fileRange_stop hfits,
                  UInt64.toNat_inj] at hsum
                exact hsum
              simp only [hname, hseen, List.contains_iff_mem, if_false,
                pure_bind, except_bind_eq_ok, ih]
              constructor
              · intro h
                obtain ⟨u, -, rs, ⟨hv, hn, hd, hf, hrs⟩, h⟩ := h
                cases h
                simp only [List.mem_cons, not_or] at hn
                refine ⟨?_, ?_, ?_, ?_, ?_⟩
                · simpa [hname] using hv
                · simpa [hseen] using fun f hf => (hn f hf).2
                · refine List.nodup_cons.mpr ⟨?_, hd⟩
                  intro hmem
                  obtain ⟨f, hf, heq⟩ := List.mem_map.mp hmem
                  exact (hn f hf).1 heq
                · simpa [hfits] using hf
                · rw [hrs, hstop]
                  rfl
              · intro h
                obtain ⟨hv, hn, hd, hf, hrs⟩ := h
                rw [List.map_cons, List.nodup_cons] at hd
                refine ⟨(), trivial, files.map fileRange, ⟨?_, ?_, hd.2, ?_, rfl⟩, ?_⟩
                · exact fun f hf => hv f (List.mem_cons_of_mem _ hf)
                · intro f hf hmem
                  rcases List.mem_cons.mp hmem with heq | hmem
                  · exact hd.1 (heq ▸ List.mem_map_of_mem hf)
                  · exact hn f (List.mem_cons_of_mem _ hf) hmem
                · exact fun g hg => hf g (List.mem_cons_of_mem _ hg)
                · rw [hrs, hstop]
                  rfl
      · constructor
        · intro h
          obtain ⟨u, hu, -⟩ := h
          exact absurd hu hname
        · intro h
          exact absurd (h.1 file List.mem_cons_self) hname

/-- The start and the end of a collected range. -/
def rangeLo (range : FileRange) : Nat := range.start.toNat

def rangeHi (range : FileRange) : Nat := range.stop.toNat

theorem sweepRanges_eq_ok {previousEnd : UInt64} {ranges : List FileRange} :
    sweepRanges previousEnd ranges = .ok ()
      ↔ Sweeps rangeLo rangeHi previousEnd.toNat ranges := by
  induction ranges generalizing previousEnd with
  | nil => simp [sweepRanges, Sweeps]
  | cons range ranges ih =>
      unfold sweepRanges Sweeps
      rw [show rangeLo range = range.start.toNat from rfl]
      by_cases h : range.start < previousEnd
      · have hlt := UInt64.lt_iff_toNat_lt.mp h
        simp [h]
        omega
      · have hle : previousEnd.toNat ≤ range.start.toNat := by
          rw [UInt64.lt_iff_toNat_lt] at h
          omega
        simp only [h, hle, if_false, true_and]
        exact ih

/-- What `validate_header` accepts, check by check. -/
theorem validateHeader_eq_ok {header : IndexHeader} :
    validateHeader header = .ok ()
      ↔ header.metadata.config.validate = .ok ()
        ∧ isBlank header.metadata.tantivyVersion = false
        ∧ header.files ≠ []
        ∧ (∀ file ∈ header.files, validateArchiveFileName file.name = .ok ())
        ∧ (header.files.map ArchiveFileEntry.name).Nodup
        ∧ (∀ file ∈ header.files, FitsWord file)
        ∧ Sweeps rangeLo rangeHi 0
            (sortByStart (header.files.map fileRange)) := by
  unfold validateHeader
  rw [except_bind_eq_ok]
  by_cases hblank : isBlank header.metadata.tantivyVersion = true
  · simp [hblank, bind, Except.bind, throw, throwThe, MonadExceptOf.throw]
  · by_cases hnil : header.files = []
    · simp [hblank, hnil, bind, Except.bind, throw, throwThe,
        MonadExceptOf.throw]
    · have hne : header.files.isEmpty = false := by
        simpa using hnil
      have hlayout : ((do
            let ranges ← collectRanges [] header.files
            sweepRanges 0 (sortByStart ranges)) : Result Unit) = .ok ()
          ↔ (∀ file ∈ header.files,
              validateArchiveFileName file.name = .ok ())
            ∧ (header.files.map ArchiveFileEntry.name).Nodup
            ∧ (∀ file ∈ header.files, FitsWord file)
            ∧ Sweeps rangeLo rangeHi 0
                (sortByStart (header.files.map fileRange)) := by
        rw [except_bind_eq_ok]
        constructor
        · intro h
          obtain ⟨ranges, hranges, hsweep⟩ := h
          obtain ⟨hv, -, hd, hf, rfl⟩ := collectRanges_eq_ok.mp hranges
          exact ⟨hv, hd, hf, sweepRanges_eq_ok.mp hsweep⟩
        · intro h
          obtain ⟨hv, hd, hf, hsweep⟩ := h
          refine ⟨header.files.map fileRange, ?_,
            sweepRanges_eq_ok.mpr hsweep⟩
          exact collectRanges_eq_ok.mpr
            ⟨hv, fun _ _ => List.not_mem_nil, hd, hf, rfl⟩
      rw [← hlayout]
      simp [hblank, hne, hnil]
      exact fun _ => ⟨fun ⟨_, h⟩ => h, fun h => ⟨(), h⟩⟩

/-- Files listed one after another need no sorting: a header is accepted
when they already pass the sweep. -/
theorem validateHeader_of_sweeps {header : IndexHeader}
    (hconfig : header.metadata.config.validate = .ok ())
    (hversion : isBlank header.metadata.tantivyVersion = false)
    (hne : header.files ≠ [])
    (hplain : ∀ file ∈ header.files,
      validateArchiveFileName file.name = .ok ())
    (hnodup : (header.files.map ArchiveFileEntry.name).Nodup)
    (hfits : ∀ file ∈ header.files, FitsWord file)
    (hsweep : Sweeps rangeLo rangeHi 0 (header.files.map fileRange)) :
    validateHeader header = .ok () := by
  have hle : ∀ r ∈ header.files.map fileRange, rangeLo r ≤ rangeHi r := by
    intro r hr
    obtain ⟨file, hfile, rfl⟩ := List.mem_map.mp hr
    show file.offset.toNat ≤ (fileRange file).stop.toNat
    rw [fileRange_stop (hfits file hfile)]
    exact Nat.le_add_right _ _
  have hsorted : sortByStart (header.files.map fileRange)
      = header.files.map fileRange := by
    -- a swept list is in order, and sorting keeps it
    apply List.mergeSort_of_pairwise
    refine (pairwise_of_sweeps hle hsweep).imp_of_mem ?_
    intro r t hr _ hrt
    rw [decide_eq_true_iff, UInt64.le_iff_toNat_le]
    exact Nat.le_trans (hle r hr) hrt
  refine validateHeader_eq_ok.mpr
    ⟨hconfig, hversion, hne, hplain, hnodup, hfits, ?_⟩
  rw [hsorted]
  exact hsweep

/-- The byte ranges of two files do not meet. -/
def FilesApart (f g : ArchiveFileEntry) : Prop :=
  Apart (fun file : ArchiveFileEntry => file.offset.toNat)
    (fun file => file.offset.toNat + file.length.toNat) f g

/-- Files of an accepted header are pairwise disjoint. -/
theorem files_apart {header : IndexHeader}
    (h : validateHeader header = .ok ()) :
    header.files.Pairwise FilesApart := by
  obtain ⟨-, -, -, -, -, hfits, hsweep⟩ := validateHeader_eq_ok.mp h
  have hperm : (sortByStart (header.files.map fileRange)).Perm
      (header.files.map fileRange) := List.mergeSort_perm _ _
  have hle : ∀ r ∈ sortByStart (header.files.map fileRange),
      rangeLo r ≤ rangeHi r := by
    intro r hr
    obtain ⟨file, hfile, rfl⟩ := List.mem_map.mp (hperm.mem_iff.mp hr)
    show file.offset.toNat ≤ (fileRange file).stop.toNat
    rw [fileRange_stop (hfits file hfile)]
    exact Nat.le_add_right _ _
  have hapart := pairwise_apart_of_sweeps_perm hperm hle hsweep
  rw [List.pairwise_map] at hapart
  apply hapart.imp_of_mem
  intro f g hf hg hfg
  unfold Apart rangeHi at hfg
  rw [fileRange_stop (hfits f hf), fileRange_stop (hfits g hg)] at hfg
  exact hfg

/-- A header that was read has been validated. -/
theorem validateHeader_of_readHeader {serde : HeaderJson} {input : SeekRead}
    {header : IndexHeader} {bodyStart : UInt64}
    (h : readHeader serde input = .ok (header, bodyStart)) :
    validateHeader header = .ok () := by
  unfold readHeader at h
  rw [except_bind_eq_ok] at h
  obtain ⟨fixed, -, h⟩ := h
  by_cases hmagic : fixed.take 8 = formatMagic
  · by_cases hversion : fromBeBytes (slice fixed 8 4) = formatVersion
    · by_cases hlong : maxHeaderBytes < (fromBeBytes (slice fixed 12 4)).toNat
      · simp only [hmagic, hversion, hlong, ne_eq, not_true_eq_false, if_false,
          if_true, except_bind_eq_ok] at h
        obtain ⟨_, hthrow, -⟩ := h
        cases hthrow
      · simp only [hmagic, hversion, hlong, ne_eq, not_true_eq_false, if_false,
          except_bind_eq_ok] at h
        obtain ⟨json, -, h⟩ := h
        cases hjson : serde.fromSlice json with
        | error e =>
            rw [hjson] at h
            cases h
        | ok decoded =>
            simp only [hjson, pure_bind, except_bind_eq_ok] at h
            obtain ⟨_, hvalid, h⟩ := h
            cases h
            exact hvalid
    · simp only [hmagic, hversion, ne_eq, not_true_eq_false, not_false_eq_true,
        if_false, if_true, except_bind_eq_ok] at h
      obtain ⟨_, hthrow, -⟩ := h
      cases hthrow
  · simp only [hmagic, ne_eq, not_false_eq_true, if_true,
      except_bind_eq_ok] at h
    obtain ⟨_, hthrow, -⟩ := h
    cases hthrow

/-- A header that `read_header` returns has a disjoint layout: no end
overflows, and of any two entries one ends before the other starts. -/
theorem readHeader_disjoint {serde : HeaderJson} {input : SeekRead}
    {header : IndexHeader} {bodyStart : UInt64}
    (h : readHeader serde input = .ok (header, bodyStart)) :
    (∀ file ∈ header.files,
        file.offset.toNat + file.length.toNat < 2 ^ 64)
      ∧ ∀ (i j : Nat) (hi : i < header.files.length)
          (hj : j < header.files.length), i ≠ j →
        header.files[i].offset.toNat + header.files[i].length.toNat
            ≤ header.files[j].offset.toNat
          ∨ header.files[j].offset.toNat + header.files[j].length.toNat
            ≤ header.files[i].offset.toNat := by
  have hvalid := validateHeader_of_readHeader h
  obtain ⟨-, -, -, -, -, hfits, -⟩ := validateHeader_eq_ok.mp hvalid
  refine ⟨hfits, fun i j hi hj hne => ?_⟩
  have hapart := List.pairwise_iff_getElem.mp (files_apart hvalid)
  rcases Nat.lt_or_gt_of_ne hne with hlt | hlt
  · exact hapart i j hi hj hlt
  · exact (hapart j i hj hi hlt).symm

end PaimonFtindex.Proofs

/-
Asking for fewer hits.

Every search cuts twice, the hits of each segment and then what is left
of all of them, and both cuts depend on the limit. A longer answer is
still an extension of a shorter one (`search_take`): no two hits have one
address, so cutting twice is cutting the sorted hits of all segments
once, and those do not depend on the limit.
-/
import PaimonFtindex.Proofs.FilteredSearch

namespace PaimonFtindex.Proofs

open Model Lib

section
variable {P : Type} {library : SearchLibrary P} {query : TantivyQuery P}

/-- The hits of a query in some segments, whatever those hold. -/
def hitsIn (library : SearchLibrary P) (query : TantivyQuery P)
    (readers : List SegmentReader) : List (List Hit) :=
  readers.zipIdx.map fun (reader, ord) => segmentHits library query reader ord

theorem hitsIn_pairwise (readers : List SegmentReader) :
    (hitsIn library query readers).flatten.Pairwise fun a b => a.2 ≠ b.2 := by
  unfold hitsIn
  rw [List.pairwise_flatten]
  constructor
  · intro hits hhits
    obtain ⟨⟨reader, ord⟩, -, rfl⟩ := List.mem_map.mp hhits
    unfold segmentHits
    rw [List.pairwise_map]
    refine (List.nodup_range.filter _).imp ?_
    intro a b hne heq
    exact hne (congrArg DocAddress.docId heq)
  · rw [List.pairwise_map]
    have hord : readers.zipIdx.Pairwise fun a b => a.2 < b.2 := by
      have hrange := @List.pairwise_lt_range' 0 readers.length 1
      rw [← List.zipIdx_map_snd 0 readers, List.pairwise_map] at hrange
      exact hrange (by omega)
    apply hord.imp
    intro a b hlt x hx y hy heq
    have hx' := (mem_segmentHits hx).1
    have hy' := (mem_segmentHits hy).1
    rw [heq, hy'] at hx'
    omega

/-- Hits at different addresses do not tie. -/
theorem noTies_of_pairwise {hits : List Hit}
    (h : hits.Pairwise fun a b => a.2 ≠ b.2) : NoTies rankLe hits := by
  refine h.imp fun {a b} hne htie => hne ?_
  obtain ⟨_, ⟨ao, ad⟩⟩ := a
  obtain ⟨_, ⟨bo, bd⟩⟩ := b
  unfold rankLe at htie
  rw [DocAddress.mk.injEq]
  grind

/-- Lists of sublists make a sublist. -/
theorem flatten_sublist {α : Type} {xs ys : List (List α)}
    (h : List.Forall₂ List.Sublist xs ys) : xs.flatten.Sublist ys.flatten := by
  induction h with
  | nil => exact List.Sublist.slnil
  | cons hx _ ih => exact hx.append ih

variable (crates : SearchCrates P) (self : FullTextIndexReader)
  (readers : List SegmentReader) (query : TantivyQuery P)

/-- The hits that pass the filter, segment by segment. -/
def keptHits (filter : Option RoaringTreemap) : Result (List (List Hit)) :=
  match filter with
  | none => .ok (hitsIn crates.tantivy query readers)
  | some filter =>
      readers.zipIdx.mapM fun entry =>
        filterCollector self.metadata.config.rowIdField filter.contains entry.1
          (segmentHits crates.tantivy query entry.1 entry.2)

/-- Collecting is keeping and then cutting. -/
theorem collect_eq (limit : UInt64) (filter : Option RoaringTreemap) :
    self.collect crates readers query limit filter
      = keptHits crates self readers query filter >>= fun kept =>
          .ok (searchTopDocs limit kept) := by
  cases filter with
  | none =>
      unfold FullTextIndexReader.collect
      dsimp only
      rw [List.map_map]
      rfl
  | some filter =>
      unfold FullTextIndexReader.collect keptHits
      dsimp only
      rw [List.mapM_map]
      rfl

theorem keptHits_noTies {filter : Option RoaringTreemap}
    {kept : List (List Hit)}
    (h : keptHits crates self readers query filter = .ok kept) :
    NoTies rankLe kept.flatten := by
  cases filter with
  | none =>
      cases h
      exact noTies_of_pairwise (hitsIn_pairwise readers)
  | some filter =>
      have hparts : List.Forall₂ List.Sublist kept
          (hitsIn crates.tantivy query readers) := by
        unfold hitsIn
        rw [List.forall₂_map_right_iff]
        refine (mapM_eq_ok.mp h).flip.imp fun part entry h => ?_
        obtain ⟨_, -, h⟩ := except_bind_eq_ok.mp h
        cases h
        exact List.filter_sublist
      exact noTies_of_pairwise
        ((hitsIn_pairwise readers).sublist (flatten_sublist hparts))

/-- The hits that are kept do not depend on the limit, and a search takes
the first of them. -/
theorem collect_take (filter : Option RoaringTreemap) {limit limit' : UInt64}
    (hle : limit ≤ limit') {hits : List Hit}
    (h : self.collect crates readers query limit' filter = .ok hits) :
    self.collect crates readers query limit filter
      = .ok (hits.take limit.toNat) := by
  rw [collect_eq] at h
  obtain ⟨kept, hkept, h⟩ := except_bind_eq_ok.mp h
  have hties := keptHits_noTies crates self readers query hkept
  have hhits : hits = searchTopDocs limit' kept := by
    cases h
    rfl
  rw [collect_eq, hkept, hhits, searchTopDocs_eq hties, List.take_take]
  show Except.ok (searchTopDocs limit kept) = _
  rw [searchTopDocs_eq hties, Nat.min_eq_left (UInt64.le_iff_toNat_le.mp hle)]

/-- A search for fewer hits returns the first of those a search for more
returns, in the same order and with the same scores, filtered or not. -/
theorem search_take [F32Display] {crates : SearchCrates P}
    {self : FullTextIndexReader} {text : String} {limit limit' : UInt64}
    (hpos : limit ≠ 0) (hle : limit ≤ limit') {filter : Option RoaringTreemap}
    {result : FullTextSearchResult}
    (h : self.searchWithFilter crates text limit' filter = .ok result) :
    self.searchWithFilter crates text limit filter
      = .ok { rowIds := result.rowIds.take limit.toNat
              scores := result.scores.take limit.toNat } := by
  have hpos' : limit' ≠ 0 := by
    rintro rfl
    exact hpos (UInt64.le_zero_iff.mp hle)
  unfold FullTextIndexReader.searchWithFilter at h ⊢
  rw [if_neg hpos'] at h
  rw [if_neg hpos]
  obtain ⟨searcher, hsearcher, h⟩ := except_bind_eq_ok.mp h
  obtain ⟨spec, hspec, h⟩ := except_bind_eq_ok.mp h
  obtain ⟨query, hquery, h⟩ := except_bind_eq_ok.mp h
  obtain ⟨hits, hhits, h⟩ := except_bind_eq_ok.mp h
  obtain ⟨rowIds, hrowIds, h⟩ := except_bind_eq_ok.mp h
  cases h
  have hfirst : (hits.take limit.toNat).mapM (self.hitRowId searcher)
      = .ok (rowIds.take limit.toNat) :=
    mapM_eq_ok.mpr (List.forall₂_take limit.toNat (mapM_eq_ok.mp hrowIds))
  rw [hsearcher, hspec]
  simp only [bind, Except.bind]
  rw [hquery]
  dsimp only
  rw [collect_take crates self searcher query filter hle hhits]
  dsimp only
  rw [hfirst]
  dsimp only
  rw [List.map_take]
  rfl

end

/-- The two lakes, and the first of them. -/
theorem search_take_lake :
    ∃ result, @FullTextIndexReader.searchWithFilter _ lakeCrates
        ⟨fun _ => ""⟩ lakeReader lakeText 2 none = .ok result
      ∧ @FullTextIndexReader.searchWithFilter _ lakeCrates
          ⟨fun _ => ""⟩ lakeReader lakeText 1 none
        = .ok { rowIds := result.rowIds.take 1
                scores := result.scores.take 1 } := by
  have h := @searchWithFilter_eq _ _ _ _ lakeCrates lakeReader
    (.term ⟨1, "lake"⟩ .withFreqs) lakeSegments ⟨fun _ => ""⟩ rfl rfl lakeText
    (.match none "lake" .or F32.one (some 0) 50 0) rfl rfl 2 (by decide) none _
    (collect_none 2) (fun hit hhit => List.mem_of_mem_take hhit)
  exact ⟨_, h, @search_take _ ⟨fun _ => ""⟩ lakeCrates lakeReader lakeText 1 2
    (by decide) (by decide) none _ h⟩

end PaimonFtindex.Proofs

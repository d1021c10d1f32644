/-
A search gives the same through the bindings as in Rust.

The caller's buffers are as long as it says, so what `search_impl` copies
must not be longer. The core never returns more hits than the limit nor
more scores than row ids (`searchRequest_lengths`), and the check against
the capacity covers both copies (`searchImpl_within`). Python gives the
limit as the capacity, so nothing of a result is lost on the way; in Java
the limit is an `int`, so that the casts of the lengths are exact.
-/
import PaimonFtindex.Model.SearchCalls
import PaimonFtindex.Proofs.CStrings
import PaimonFtindex.Proofs.FilteredSearch

namespace PaimonFtindex.Proofs

open Model Lib

-- ==================================================== the core's results

theorem topDocs_length (limit : UInt64) (hits : List Hit) :
    (topDocs limit hits).length ≤ limit.toNat := by
  unfold topDocs topK
  rw [List.length_take]
  exact Nat.min_le_left _ _

section
variable {P : Type} {crates : SearchCrates P} [F32Display]

omit [F32Display] in
theorem collect_length {self : FullTextIndexReader}
    {readers : List SegmentReader} {query : TantivyQuery P} {limit : UInt64}
    {filter : Option RoaringTreemap} {hits : List Hit}
    (h : self.collect crates readers query limit filter = .ok hits) :
    hits.length ≤ limit.toNat := by
  unfold FullTextIndexReader.collect at h
  cases filter with
  | none =>
      cases h
      exact topDocs_length _ _
  | some filter =>
      obtain ⟨kept, -, h⟩ := except_bind_eq_ok.mp h
      cases h
      exact topDocs_length _ _

theorem searchWithFilter_lengths {self : FullTextIndexReader} {text : String}
    {limit : UInt64} {filter : Option RoaringTreemap}
    {result : FullTextSearchResult}
    (h : self.searchWithFilter crates text limit filter = .ok result) :
    result.scores.length = result.rowIds.length
      ∧ result.rowIds.length ≤ limit.toNat := by
  unfold FullTextIndexReader.searchWithFilter at h
  by_cases hlimit : limit = 0
  · rw [if_pos hlimit] at h
    cases h
  · rw [if_neg hlimit] at h
    obtain ⟨searcher, -, h⟩ := except_bind_eq_ok.mp h
    obtain ⟨spec, -, h⟩ := except_bind_eq_ok.mp h
    obtain ⟨query, -, h⟩ := except_bind_eq_ok.mp h
    obtain ⟨hits, hcollect, h⟩ := except_bind_eq_ok.mp h
    obtain ⟨rowIds, hrowIds, h⟩ := except_bind_eq_ok.mp h
    cases h
    have hlength := (mapM_eq_ok.mp hrowIds).length_eq
    have hle := collect_length hcollect
    dsimp only
    rw [List.length_map]
    omega

/-- One score for every row id, and no more than the limit. -/
theorem searchRequest_lengths {reader : FullTextIndexReader} {text : String}
    {limit : UInt64} {filter : Option Bytes} {result : FullTextSearchResult}
    (h : searchRequest crates reader text limit filter = .ok result) :
    result.scores.length = result.rowIds.length
      ∧ result.rowIds.length ≤ limit.toNat := by
  cases filter with
  | none => exact searchWithFilter_lengths h
  | some bytes =>
      obtain ⟨_, -, h⟩ := except_bind_eq_ok.mp h
      exact searchWithFilter_lengths h

-- ======================================================== the caller's memory

/-- The buffers of a request hold as many slots as it says, or are
null. -/
structure Spacious (request : SearchRequest) : Prop where
  rowIds : ∀ slots, request.rowIds = some slots →
    request.capacity.toNat ≤ slots.length
  scores : ∀ slots, request.scores = some slots →
    request.capacity.toNat ≤ slots.length

/-- What a call may leave in a buffer: the values of a result in its
first slots, and everything behind them as it was. -/
def Receives {α : Type} (values : List α) (before after : Option (List α)) :
    Prop :=
  ∀ slots, before = some slots →
    after = some (values ++ slots.drop values.length)
      ∧ (values ++ slots.drop values.length).length = slots.length

/-- The memory of a request that was answered. -/
structure Answered (request : SearchRequest) (result : FullTextSearchResult)
    (after : SearchRequest) : Prop where
  fits : result.rowIds.length ≤ request.capacity.toNat
  resultLen : after.resultLen = some (UInt64.ofNat result.rowIds.length)
  rowIds : Receives result.rowIds request.rowIds after.rowIds
  scores : Receives result.scores request.scores after.scores

/-- A failed call may have set the result length, and nothing else. -/
def Untouched (request after : SearchRequest) : Prop :=
  ∃ len, after = { request with resultLen := len }

omit [F32Display] in
theorem copyResult_cases {request : SearchRequest}
    (hspacious : Spacious request) {result : FullTextSearchResult}
    (hscores : result.scores.length = result.rowIds.length) :
    (∃ e, (copyResult request result).1 = .error e
        ∧ Untouched request (copyResult request result).2)
      ∨ (copyResult request result).1 = .ok ()
        ∧ Answered request result (copyResult request result).2 := by
  obtain ⟨query, limit, filter, rowIds, scores, capacity, len⟩ := request
  unfold copyResult
  dsimp only
  by_cases hfit : capacity.toNat < result.rowIds.length
  · rw [if_pos hfit]
    exact Or.inl ⟨_, rfl, _, rfl⟩
  · rw [if_neg hfit]
    cases hempty : result.rowIds with
    | nil =>
        rw [hempty] at hscores
        have hnil := List.eq_nil_of_length_eq_zero hscores
        rw [hnil]
        exact Or.inr ⟨rfl, by simp [hempty], by simp [hempty],
          fun slots h => ⟨by simpa [hempty] using h, by simp [hempty]⟩,
          fun slots h => ⟨by simpa [hnil] using h, by simp [hnil]⟩⟩
    | cons rowId rest =>
        rw [← hempty, if_neg (by simp [hempty])]
        cases rowIds with
        | none => exact Or.inl ⟨_, rfl, _, rfl⟩
        | some rows =>
            cases scores with
            | none => exact Or.inl ⟨_, rfl, _, rfl⟩
            | some slots =>
                have hrows := hspacious.rowIds rows rfl
                have hslots := hspacious.scores slots rfl
                dsimp only at hrows hslots
                refine Or.inr ⟨rfl, Nat.not_lt.mp hfit, rfl, ?_, ?_⟩
                · rintro _ ⟨⟩
                  refine ⟨rfl, ?_⟩
                  rw [List.length_append, List.length_drop]
                  omega
                · rintro _ ⟨⟩
                  refine ⟨rfl, ?_⟩
                  rw [List.length_append, List.length_drop]
                  omega

/-- Behind its checks `search_impl` copies what was found. -/
theorem searchImpl_of_found {reader : FullTextIndexReader}
    {request : SearchRequest} {len : UInt64} {query : String}
    {result : FullTextSearchResult} (hlen : request.resultLen = some len)
    (hquery : cstrToString request.query "query" = .ok query)
    (hresult : searchRequest crates reader query request.limit
      request.roaringFilter = .ok result) :
    searchImpl crates reader request = copyResult request result := by
  unfold searchImpl
  rw [hlen]
  dsimp only
  rw [hquery]
  dsimp only
  rw [hresult]

/-- With room for as many hits as asked for, a call does what the reader
does with the text up to its first NUL. -/
theorem searchImpl_roomy {reader : FullTextIndexReader} {request : SearchRequest}
    (hspacious : Spacious request) {text : String}
    (hquery : request.query = some (charPointer (textBytes text)))
    (hlimit : request.limit.toNat ≤ request.capacity.toNat)
    (hlen : request.resultLen ≠ none) (hrowIds : request.rowIds ≠ none)
    (hscores : request.scores ≠ none) :
    (∃ e, searchRequest crates reader (cutText text) request.limit
          request.roaringFilter = .error e
        ∧ (searchImpl crates reader request).1 = .error (.core e))
      ∨ ∃ result, searchRequest crates reader (cutText text) request.limit
          request.roaringFilter = .ok result
        ∧ (searchImpl crates reader request).1 = .ok ()
        ∧ Answered request result (searchImpl crates reader request).2 := by
  obtain ⟨query, limit, filter, rowIds, scores, capacity, len⟩ := request
  dsimp only at hquery hlimit hlen hrowIds hscores
  obtain ⟨len, rfl⟩ := Option.ne_none_iff_exists'.mp hlen
  obtain ⟨rows, rfl⟩ := Option.ne_none_iff_exists'.mp hrowIds
  obtain ⟨slots, rfl⟩ := Option.ne_none_iff_exists'.mp hscores
  subst hquery
  unfold searchImpl
  dsimp only
  rw [cstrToString_textBytes]
  dsimp only
  cases hresult : searchRequest crates reader (cutText text) limit filter with
  | error e => exact Or.inl ⟨e, rfl, rfl⟩
  | ok result =>
      dsimp only
      obtain ⟨hsame, hle⟩ := searchRequest_lengths hresult
      rcases copyResult_cases hspacious hsame with ⟨e, herror, -⟩ | ⟨hok, h⟩
      · -- no check of the copying fails
        unfold copyResult at herror
        dsimp only at herror
        rw [if_neg (by omega)] at herror
        split at herror <;> cases herror
      · exact Or.inr ⟨result, rfl, hok, h⟩

/-- `search_impl` stays inside the caller's buffers: a failed call writes
neither, a call that went well has put the core's result in the first
slots and its length in its place, and left the other slots alone. -/
theorem searchImpl_within {reader : FullTextIndexReader}
    {request : SearchRequest} (hspacious : Spacious request) :
    (∃ e, (searchImpl crates reader request).1 = .error e
        ∧ Untouched request (searchImpl crates reader request).2)
      ∨ ∃ query result, cstrToString request.query "query" = .ok query
        ∧ searchRequest crates reader query request.limit request.roaringFilter
          = .ok result
        ∧ (searchImpl crates reader request).1 = .ok ()
        ∧ Answered request result (searchImpl crates reader request).2 := by
  unfold searchImpl
  cases hlen : request.resultLen with
  | none => exact Or.inl ⟨_, rfl, request.resultLen, rfl⟩
  | some len =>
      dsimp only
      cases hquery : cstrToString request.query "query" with
      | error e => exact Or.inl ⟨_, rfl, request.resultLen, rfl⟩
      | ok query =>
          dsimp only
          cases hresult : searchRequest crates reader query request.limit
              request.roaringFilter with
          | error e => exact Or.inl ⟨_, rfl, request.resultLen, rfl⟩
          | ok result =>
              dsimp only
              rcases copyResult_cases hspacious
                (searchRequest_lengths hresult).1 with h | ⟨hok, h⟩
              · exact Or.inl h
              · exact Or.inr ⟨query, result, rfl, hresult, hok, h⟩

end

/-- Two slots for the rows and two for the scores, none of them zero. -/
def twoSlots : SearchRequest where
  query := some (charPointer (textBytes lakeText))
  limit := 2
  roaringFilter := some lakeFilterBytes
  rowIds := some [8, 9]
  scores := some [⟨8⟩, ⟨9⟩]
  capacity := 2
  resultLen := some 0

/-- Row 3 is found, its score is one. -/
theorem searchRequest_lake :
    @searchRequest _ lakeCrates ⟨fun _ => ""⟩ lakeReader lakeText 2
      (some lakeFilterBytes) = .ok ⟨[3], [F32.one]⟩ := by
  have hsearch := @searchWithFilter_eq _ _ _ _ lakeCrates lakeReader
    (.term ⟨1, "lake"⟩ .withFreqs) lakeSegments ⟨fun _ => ""⟩ rfl rfl lakeText
    (.match none "lake" .or F32.one (some 0) 50 0) rfl rfl 2 (by decide)
    (some ⟨fun rowId => rowId == 3⟩) _ (collect_some rfl 2 _)
    (fun hit hhit => (List.mem_filter.mp (List.mem_of_mem_take hhit)).1)
  exact hsearch.trans (by decide +kernel)

/-- The first slots hold the row and its score, the others what they held. -/
theorem searchImpl_within_twoSlots : ∃ after,
    @searchImpl _ lakeCrates ⟨fun _ => ""⟩ lakeReader twoSlots = (.ok (), after)
      ∧ after.resultLen = some 1 ∧ after.rowIds = some [3, 9]
      ∧ after.scores = some [F32.one, ⟨9⟩] := by
  have hspacious : Spacious twoSlots :=
    ⟨by rintro _ ⟨⟩; decide, by rintro _ ⟨⟩; decide⟩
  have hquery : cstrToString twoSlots.query "query" = .ok lakeText := by
    refine (cstrToString_textBytes lakeText "query").trans ?_
    decide +kernel
  rcases @searchImpl_within _ lakeCrates ⟨fun _ => ""⟩ lakeReader twoSlots
    hspacious with ⟨e, herror, -⟩ | ⟨text, result, htext, hresult, hok, hafter⟩
  · -- the query is found, and there is room
    have hok : (@searchImpl _ lakeCrates ⟨fun _ => ""⟩ lakeReader twoSlots).1
        = .ok () := by
      rw [@searchImpl_of_found _ lakeCrates ⟨fun _ => ""⟩ lakeReader twoSlots 0
        lakeText _ rfl hquery searchRequest_lake]
      rfl
    rw [hok] at herror
    cases herror
  · cases htext.symm.trans hquery
    cases hresult.symm.trans searchRequest_lake
    exact ⟨_, Prod.ext hok rfl, hafter.resultLen, (hafter.rowIds _ rfl).1,
      (hafter.scores _ rfl).1⟩

section
variable {P : Type} {crates : SearchCrates P} [F32Display]

-- ================================================================= Python

/-- An array of so many items can be made. -/
def GrantsItems (allocates : Nat → Bool) (itemSize : Nat) (length : Int) :
    Prop :=
  0 ≤ length ∧ length.toNat * itemSize < 2 ^ 63
    ∧ allocates (length.toNat * itemSize) = true

/-- What Python raises before native code is called. -/
def RaisedByPython : PySearchError → Prop
  | .py (.native _) => False
  | _ => True

omit [F32Display] in
theorem ctypesArray_cases {α : Type} {allocates : Nat → Bool} {itemSize : Nat}
    (hsize : 0 < itemSize) (zero : α) (length : Int) :
    GrantsItems allocates itemSize length
        ∧ ctypesArray allocates itemSize zero length
          = .ok (List.replicate length.toNat zero)
      ∨ ¬ GrantsItems allocates itemSize length
        ∧ ∃ e, ctypesArray allocates itemSize zero length = .error e
          ∧ RaisedByPython e := by
  unfold GrantsItems ctypesArray
  by_cases hword : length < -2 ^ 63 ∨ 2 ^ 63 ≤ length
  · rw [if_pos hword]
    refine Or.inr ⟨?_, _, rfl, trivial⟩
    rintro ⟨hnonneg, hlt, -⟩
    have := Nat.le_mul_of_pos_right length.toNat hsize
    omega
  · rw [if_neg hword]
    by_cases hneg : length < 0
    · rw [if_pos hneg]
      exact Or.inr ⟨fun h => absurd h.1 (by omega), _, rfl, trivial⟩
    · rw [if_neg hneg]
      by_cases hlarge : 2 ^ 63 ≤ length.toNat * itemSize
      · rw [if_pos hlarge]
        exact Or.inr ⟨fun h => absurd h.2.1 (by omega), _, rfl, trivial⟩
      · rw [if_neg hlarge]
        cases hgrant : allocates (length.toNat * itemSize) with
        | false =>
            exact Or.inr ⟨fun h => absurd h.2.2 (by simp), _, rfl, trivial⟩
        | true => exact Or.inl ⟨⟨by omega, by omega, rfl⟩, rfl⟩

/-- What comes back through `check_status`. -/
def pyAnswer (result : Result FullTextSearchResult) :
    Except PySearchError (List Int64 × List F32) :=
  match result with
  | .ok result => .ok (result.rowIds, result.scores)
  | .error e => .error (.py (.native (.core e)))

omit [F32Display] in
theorem not_isSurrogate_pyStr (s : String) : ¬ ∃ c ∈ pyStr s, IsSurrogate c := by
  rintro ⟨c, hc, hsurrogate⟩
  obtain ⟨char, -, rfl⟩ := List.mem_map.mp hc
  rw [← char?_eq_none_iff, char?_codePoint] at hsurrogate
  cases hsurrogate

/-- Python refuses a search: it cannot make the buffers, encode the query
or copy the filter. -/
def PyRefuses (allocates : Nat → Bool) (self : PyReader) (query : PyStr)
    (limit : Int) (filterBytes : Option Bytes) : Prop :=
  self.closed = true ∨ ¬ GrantsItems allocates 8 limit
    ∨ ¬ GrantsItems allocates 4 limit
    ∨ (∃ bytes, filterBytes = some bytes
      ∧ ¬ GrantsItems allocates 1 bytes.length)
    ∨ ∃ c ∈ query, IsSurrogate c

/-- The call with the buffers at hand. -/
theorem pyResult_searchImpl (reader : FullTextIndexReader) (text : String)
    {limit : Int} (hgrant : limit.toNat < 2 ^ 63) (filter : Option Bytes) :
    pyResult (searchImpl crates reader
        { query := some (charPointer (textBytes text))
          limit := UInt64.ofNat limit.toNat, roaringFilter := filter
          rowIds := some (List.replicate limit.toNat 0)
          scores := some (List.replicate limit.toNat ⟨0⟩)
          capacity := UInt64.ofNat limit.toNat, resultLen := some 0 })
      = pyAnswer (searchRequest crates reader (cutText text)
          (UInt64.ofNat limit.toNat) filter) := by
  have hcapacity : (UInt64.ofNat limit.toNat).toNat = limit.toNat := by
    rw [UInt64.toNat_ofNat']
    omega
  have hspacious : Spacious
      { query := some (charPointer (textBytes text))
        limit := UInt64.ofNat limit.toNat, roaringFilter := filter
        rowIds := some (List.replicate limit.toNat 0)
        scores := some (List.replicate limit.toNat ⟨0⟩)
        capacity := UInt64.ofNat limit.toNat, resultLen := some 0 } := by
    constructor <;>
    · rintro _ ⟨⟩
      rw [List.length_replicate]
      exact hcapacity.le
  rcases @searchImpl_roomy _ crates _ reader _ hspacious text rfl (Nat.le_refl _)
    (by simp) (by simp) (by simp) with ⟨e, hcore, herror⟩ | ⟨result, hcore, hok, h⟩
  · dsimp only at hcore
    unfold pyResult
    rw [hcore]
    split
    · rename_i heq
      rw [heq] at herror
      cases herror
      rfl
    · rename_i heq
      rw [heq] at herror
      cases herror
  · dsimp only at hcore
    obtain ⟨hsame, -⟩ := searchRequest_lengths hcore
    have hfits := h.fits
    dsimp only at hfits
    have hlen : (UInt64.ofNat result.rowIds.length).toNat
        = result.rowIds.length := by
      rw [UInt64.toNat_ofNat']
      omega
    unfold pyResult
    rw [hcore]
    split
    · rename_i heq
      rw [heq] at hok
      cases hok
    · rename_i request heq
      rw [heq] at h
      obtain ⟨hrowIds, -⟩ := h.rowIds _ rfl
      obtain ⟨hscores, -⟩ := h.scores _ rfl
      dsimp only
      rw [h.resultLen, hrowIds, hscores, Option.getD_some, Option.getD_some,
        Option.getD_some, hlen, List.take_left, ← hsame, List.take_left]
      rfl

omit [F32Display] in
theorem constSlice_some {bytes : Bytes} (h : bytes.length < 2 ^ 64)
    (name : String) :
    constSlice (some bytes) (UInt64.ofNat bytes.length) name = .ok bytes := by
  have hlen : (UInt64.ofNat bytes.length).toNat = bytes.length := by
    rw [UInt64.toNat_ofNat']
    omega
  unfold constSlice
  by_cases hzero : UInt64.ofNat bytes.length = 0
  · rw [if_pos hzero]
    have hnil : bytes.length = 0 := by
      rw [← hlen, hzero]
      rfl
    rw [List.eq_nil_of_length_eq_zero hnil]
  · rw [if_neg hzero]
    dsimp only
    rw [hlen, List.take_length]

/-- A Python search on an open reader: refused by Python, or the core's
answer to the query up to its first NUL, hits and scores unchanged. -/
theorem pySearch_exact (allocates : Nat → Bool) (self : PyReader)
    {reader : FullTextIndexReader} (hreader : self.reader = some reader)
    (query : PyStr) (limit : Int) (filterBytes : Option Bytes) :
    (PyRefuses allocates self query limit filterBytes
        ∧ ∃ e, self.search crates allocates query limit filterBytes = .error e
          ∧ RaisedByPython e)
      ∨ (¬ PyRefuses allocates self query limit filterBytes
        ∧ ∃ text, query = pyStr text
          ∧ self.search crates allocates query limit filterBytes
            = pyAnswer (searchRequest crates reader (cutText text)
              (UInt64.ofNat limit.toNat) filterBytes)) := by
  unfold PyRefuses PyReader.search
  by_cases hclosed : self.closed = true
  · rw [if_pos hclosed]
    exact Or.inl ⟨Or.inl hclosed, _, rfl, trivial⟩
  rw [if_neg hclosed]
  rcases @ctypesArray_cases _ allocates 8 (by decide) (0 : Int64) limit with
    ⟨hrows, hrowArray⟩ | ⟨hrows, e, he, hraised⟩
  swap
  · rw [he]
    exact Or.inl ⟨Or.inr (Or.inl hrows), e, rfl, hraised⟩
  rcases @ctypesArray_cases _ allocates 4 (by decide) (⟨0⟩ : F32) limit with
    ⟨hscores, hscoreArray⟩ | ⟨hscores, e, he, hraised⟩
  swap
  · rw [hrowArray, he]
    exact Or.inl ⟨Or.inr (Or.inr (Or.inl hscores)), e, rfl, hraised⟩
  have hlimit : limit.toNat < 2 ^ 63 := by
    have := hrows.2.1
    omega
  rw [hrowArray, hscoreArray, hreader]
  simp only [bind, Except.bind]
  have hencode : (∃ text, query = pyStr text
        ∧ encodeQuery query = .ok (textBytes text))
      ∨ (∃ c ∈ query, IsSurrogate c)
        ∧ encodeQuery query = .error (.py .unicodeEncodeError) := by
    unfold encodeQuery
    rcases encodeUtf8_cases query with ⟨cs, hcs⟩ | ⟨hsurrogate, herror⟩
    · refine Or.inl ⟨String.ofList cs, ?_, ?_⟩
      · unfold pyStr
        rw [hcs, String.toList_ofList]
      · rw [hcs, encodeUtf8_pyStr]
        unfold textBytes
        rw [String.toList_ofList]
    · refine Or.inr ⟨hsurrogate, ?_⟩
      rw [herror]
  cases filterBytes with
  | none =>
      dsimp only
      rcases hencode with ⟨text, htext, hbytes⟩ | ⟨hsurrogate, herror⟩
      · rw [hbytes]
        refine Or.inr ⟨?_, text, htext, ?_⟩
        · rintro (h | h | h | ⟨_, h, -⟩ | ⟨c, hc, hsurrogate⟩)
          · exact hclosed h
          · exact h hrows
          · exact h hscores
          · cases h
          · rw [htext] at hc
            exact not_isSurrogate_pyStr text ⟨c, hc, hsurrogate⟩
        · exact pyResult_searchImpl reader text hlimit none
      · rw [herror]
        exact Or.inl ⟨Or.inr (Or.inr (Or.inr (Or.inr hsurrogate))), _, rfl,
          trivial⟩
  | some bytes =>
      dsimp only
      rcases @ctypesArray_cases _ allocates 1 (by decide) (0 : UInt8)
        bytes.length with ⟨hfilter, hfilterArray⟩ | ⟨hfilter, e, he, hraised⟩
      swap
      · rw [he]
        exact Or.inl ⟨Or.inr (Or.inr (Or.inr (Or.inl ⟨bytes, rfl, hfilter⟩))),
          e, rfl, hraised⟩
      rw [hfilterArray]
      dsimp only
      rcases hencode with ⟨text, htext, hbytes⟩ | ⟨hsurrogate, herror⟩
      · rw [hbytes]
        refine Or.inr ⟨?_, text, htext, ?_⟩
        · rintro (h | h | h | ⟨_, h, hnot⟩ | ⟨c, hc, hsurrogate⟩)
          · exact hclosed h
          · exact h hrows
          · exact h hscores
          · cases h
            exact hnot hfilter
          · rw [htext] at hc
            exact not_isSurrogate_pyStr text ⟨c, hc, hsurrogate⟩
        · have hsmall : bytes.length < 2 ^ 64 := by
            have := hfilter.2.1
            omega
          unfold readerSearchWithRoaringFilter requireRef
          dsimp only
          rw [constSlice_some hsmall]
          exact pyResult_searchImpl reader text hlimit (some bytes)
      · rw [herror]
        exact Or.inl ⟨Or.inr (Or.inr (Or.inr (Or.inr hsurrogate))), _, rfl,
          trivial⟩

end

/-- A search of the two segments from Python: nothing refuses it. -/
theorem pySearch_exact_lake :
    ∃ text, pyStr lakeText = pyStr text
      ∧ @PyReader.search _ lakeCrates ⟨fun _ => ""⟩ (fun _ => true)
          ⟨false, some lakeReader⟩ (pyStr lakeText) 1 (some lakeFilterBytes)
        = pyAnswer (@searchRequest _ lakeCrates ⟨fun _ => ""⟩ lakeReader
            (cutText text) 1 (some lakeFilterBytes)) := by
  rcases @pySearch_exact _ lakeCrates ⟨fun _ => ""⟩ (fun _ => true)
    ⟨false, some lakeReader⟩ lakeReader rfl (pyStr lakeText) 1
    (some lakeFilterBytes) with ⟨hrefused, -⟩ | ⟨-, h⟩
  · rcases hrefused with h | h | h | ⟨_, h, hnot⟩ | h
    · cases h
    · exact absurd ⟨by decide, by decide, rfl⟩ h
    · exact absurd ⟨by decide, by decide, rfl⟩ h
    · cases h
      exact absurd ⟨by decide, by decide, rfl⟩ hnot
    · exact absurd h (not_isSurrogate_pyStr lakeText)
  · exact h

section
variable {P : Type} {crates : SearchCrates P} [F32Display]

-- =================================================================== Java

variable {S : Type}

/-- The JVM copies byte arrays as they are. -/
def Copies (env : JniEnv S) : Prop :=
  ∀ bytes copy, env.convertByteArray bytes = .ok copy → copy = bytes

/-- The JVM never runs out of anything. -/
structure Grants (env : JniEnv S) : Prop where
  getString : ∀ s, ∃ text, env.getString s = .ok text
  convertByteArray : ∀ bytes, ∃ copy, env.convertByteArray bytes = .ok copy
  grantsArray : ∀ len, 0 ≤ len → env.grantsArray len = .ok ()
  newObject : env.newObject = .ok ()

/-- What Java throws without a word of native code. -/
def RaisedByJava : JavaError → Prop
  | .native _ => False
  | _ => True

omit [F32Display] in
theorem jvmError_cases {α : Type} (words : String) (result : Except String α) :
    (∃ x, result = .ok x ∧ jvmError words result = .ok x)
      ∨ (∃ e, result = .error e)
        ∧ ∃ e, jvmError words result = .error e ∧ RaisedByJava e := by
  cases result with
  | ok x => exact Or.inl ⟨x, rfl, rfl⟩
  | error e => exact Or.inr ⟨⟨e, rfl⟩, _, rfl, trivial⟩

omit [F32Display] in
/-- Few enough values make the array they are. -/
theorem javaArray_cases {α : Type} (env : JniEnv S) (zero : α) {values : List α}
    (hlen : values.length < 2 ^ 31) :
    javaArray env zero values = .ok values
      ∨ (¬ Grants env ∧ ∃ e, javaArray env zero values = .error e
        ∧ RaisedByJava e) := by
  have hint : (Int32.ofNat values.length).toInt = values.length := by
    rw [Int32.toInt_ofNat_of_lt hlen]
  have hnonneg : ¬ Int32.ofNat values.length < 0 := by
    rw [Int32.lt_iff_toInt_lt, hint]
    simp
  unfold javaArray newArray setArrayRegion
  rw [if_neg hnonneg]
  rcases jvmError_cases "" (env.grantsArray (Int32.ofNat values.length)) with
    ⟨_, -, hgrant⟩ | ⟨⟨e, hdenied⟩, e', herror, hraised⟩
  · rw [hgrant]
    left
    simp only [bind, Except.bind, pure, Except.pure, hint, Int.toNat_natCast]
    rw [if_neg (by simp [hnonneg]), List.take_length, List.drop_eq_nil_of_le
      (by simp), List.append_nil]
  · rw [herror]
    refine Or.inr ⟨fun hgrants => ?_, e', rfl, hraised⟩
    rw [hgrants.grantsArray _ (Int32.not_lt.mp hnonneg)] at hdenied
    cases hdenied

omit [F32Display] in
theorem javaResult_cases (env : JniEnv S) {result : FullTextSearchResult}
    (hsame : result.scores.length = result.rowIds.length)
    (hlen : result.rowIds.length < 2 ^ 31) :
    javaResult env result = .ok result
      ∨ (¬ Grants env ∧ ∃ e, javaResult env result = .error e
        ∧ RaisedByJava e) := by
  unfold javaResult
  rcases javaArray_cases env (0 : Int64) hlen with hrows
    | ⟨hdenied, e, herror, hraised⟩
  swap
  · rw [herror]
    exact Or.inr ⟨hdenied, e, rfl, hraised⟩
  rcases javaArray_cases env (⟨0⟩ : F32) (hsame ▸ hlen) with hscores
    | ⟨hdenied, e, herror, hraised⟩
  swap
  · rw [hrows, herror]
    exact Or.inr ⟨hdenied, e, rfl, hraised⟩
  rw [hrows, hscores]
  rcases jvmError_cases "" env.newObject with ⟨_, -, hobject⟩
    | ⟨⟨e, he⟩, e', herror, hraised⟩
  · rw [hobject]
    exact Or.inl rfl
  · rw [herror]
    refine Or.inr ⟨fun hgrants => ?_, e', rfl, hraised⟩
    rw [hgrants.newObject] at he
    cases he

/-- The core's answer on its way to Java. -/
theorem javaResult_searchRequest (env : JniEnv S)
    {reader : FullTextIndexReader} {text : String} {limit : Int32}
    (hlimit : ¬ limit ≤ 0) (filter : Option Bytes) :
    (coreAnswer (searchRequest crates reader text (UInt64.ofInt limit.toInt)
          filter) >>= javaResult env)
        = coreAnswer (searchRequest crates reader text
          (UInt64.ofInt limit.toInt) filter)
      ∨ (¬ Grants env ∧ ∃ e, (coreAnswer (searchRequest crates reader text
            (UInt64.ofInt limit.toInt) filter) >>= javaResult env) = .error e
        ∧ RaisedByJava e) := by
  cases hresult : searchRequest crates reader text (UInt64.ofInt limit.toInt)
      filter with
  | error e => exact Or.inl rfl
  | ok result =>
      obtain ⟨hsame, hle⟩ := searchRequest_lengths hresult
      have hbound : (UInt64.ofInt limit.toInt).toNat < 2 ^ 31 := by
        have hpos : 0 < limit.toInt := by
          rw [Int32.not_le, Int32.lt_iff_toInt_lt] at hlimit
          exact hlimit
        have hlt := limit.toInt_lt
        have hword : (UInt64.ofInt limit.toInt).toNat
            = (limit.toInt % 2 ^ 64).toNat := by
          show (UInt64.ofNat (limit.toInt % 2 ^ 64).toNat).toNat = _
          rw [UInt64.toNat_ofNat']
          omega
        omega
      exact javaResult_cases env hsame (by omega)

/-- A Java search: refused by Java or by the JVM, or the core's answer to
the query as the JVM reads it. -/
theorem javaSearch_exact {env : JniEnv S} (hcopies : Copies env)
    (self : JavaReader) (query : Option S) (limit : Int32)
    (roaringFilter : Option (Option Bytes)) :
    ((query = none ∨ limit ≤ 0 ∨ roaringFilter = some none
          ∨ self.reader = none ∨ ¬ Grants env)
        ∧ ∃ e, self.search crates env query limit roaringFilter = .error e
          ∧ RaisedByJava e)
      ∨ ∃ reader s text, self.reader = some reader ∧ query = some s
        ∧ 0 < limit ∧ roaringFilter ≠ some none
        ∧ env.getString s = .ok text
        ∧ self.search crates env query limit roaringFilter
          = coreAnswer (searchRequest crates reader text
            (UInt64.ofInt limit.toInt) roaringFilter.join) := by
  unfold JavaReader.search
  cases query with
  | none => exact Or.inl ⟨Or.inl rfl, _, rfl, trivial⟩
  | some s =>
  dsimp only
  by_cases hlimit : limit ≤ 0
  · rw [if_pos hlimit]
    exact Or.inl ⟨Or.inr (Or.inl hlimit), _, rfl, trivial⟩
  rw [if_neg hlimit]
  by_cases hfilter : roaringFilter = some none
  · rw [if_pos hfilter]
    exact Or.inl ⟨Or.inr (Or.inr (Or.inl hfilter)), _, rfl, trivial⟩
  rw [if_neg hfilter]
  cases hreader : self.reader with
  | none => exact Or.inl ⟨Or.inr (Or.inr (Or.inr (Or.inl rfl))), _, rfl, trivial⟩
  | some reader =>
  dsimp only
  have hdenied : ¬ Grants env → (some s = none ∨ limit ≤ 0
      ∨ roaringFilter = some none ∨ some reader = none ∨ ¬ Grants env) :=
    fun h => Or.inr (Or.inr (Or.inr (Or.inr h)))
  unfold jniSearch
  rcases jvmError_cases "failed to read query: " (env.getString s) with
    ⟨text, htext, hquery⟩ | ⟨⟨e, he⟩, e', herror, hraised⟩
  swap
  · rw [herror]
    refine Or.inl ⟨hdenied fun hgrants => ?_, e', rfl, hraised⟩
    obtain ⟨text, htext⟩ := hgrants.getString s
    rw [he] at htext
    cases htext
  have hvalid : validateSearchLimit limit = .ok (UInt64.ofInt limit.toInt) := by
    unfold validateSearchLimit
    rw [if_neg hlimit]
  rw [hquery, hvalid]
  cases roaringFilter with
  | none =>
      rcases @javaResult_searchRequest _ crates _ _ env reader text limit hlimit none
        with hanswer
        | ⟨hdeny, e, herror, hraised⟩
      · exact Or.inr ⟨reader, s, text, rfl, rfl, Int32.not_le.mp hlimit, hfilter,
          htext, hanswer⟩
      · exact Or.inl ⟨hdenied hdeny, e, herror, hraised⟩
  | some array =>
      cases array with
      | none => exact absurd rfl hfilter
      | some bytes =>
          rcases jvmError_cases "failed to read roaringFilter: "
            (env.convertByteArray bytes) with
            ⟨copy, hcopy, hbytes⟩ | ⟨⟨e, he⟩, e', herror, hraised⟩
          · rw [hcopies bytes copy hcopy] at hbytes
            rcases @javaResult_searchRequest _ crates _ _ env reader text limit
              hlimit (some bytes) with hanswer
              | ⟨hdeny, e, herror, hraised⟩
            · refine Or.inr ⟨reader, s, text, rfl, rfl, Int32.not_le.mp hlimit,
                hfilter, htext, Eq.trans ?_ hanswer⟩
              unfold readByteArray
              simp only [hbytes]
              rfl
            · refine Or.inl ⟨hdenied hdeny, e, ?_, hraised⟩
              rw [← herror]
              unfold readByteArray
              simp only [hbytes]
              rfl
          · refine Or.inl ⟨hdenied fun hgrants => ?_, e', ?_, hraised⟩
            · obtain ⟨copy, hcopy⟩ := hgrants.convertByteArray bytes
              rw [he] at hcopy
              cases hcopy
            · unfold readByteArray
              simp only [herror]
              rfl

end

/-- A JVM that grants everything, its strings those of Rust. -/
def grantingEnv : JniEnv String where
  getString := .ok
  convertByteArray := .ok
  grantsArray _ := .ok ()
  newObject := .ok ()

/-- The same search from Java. -/
theorem javaSearch_exact_lake :
    @JavaReader.search _ lakeCrates ⟨fun _ => ""⟩ _ grantingEnv
        ⟨some lakeReader⟩ (some lakeText) 1 (some (some lakeFilterBytes))
      = coreAnswer (@searchRequest _ lakeCrates ⟨fun _ => ""⟩ lakeReader
          lakeText 1 (some lakeFilterBytes)) := by
  have hgrants : Grants grantingEnv :=
    ⟨fun s => ⟨s, rfl⟩, fun bytes => ⟨bytes, rfl⟩, fun _ _ => rfl, rfl⟩
  rcases @javaSearch_exact _ lakeCrates ⟨fun _ => ""⟩ _ grantingEnv
    (fun _ _ h => by cases h; rfl) ⟨some lakeReader⟩ (some lakeText) 1
    (some (some lakeFilterBytes)) with ⟨hrefused, -⟩ | ⟨_, _, _, hreader, hs, -,
      -, htext, h⟩
  · rcases hrefused with h | h | h | h | h
    · cases h
    · exact absurd h (by decide)
    · cases h
    · cases h
    · exact absurd hgrants h
  · cases hreader
    cases hs
    cases htext
    exact h

end PaimonFtindex.Proofs

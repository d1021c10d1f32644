/-
Which queries are accepted.

`Valid` says it node by node, over the values themselves: boosts as
numbers, columns as names. `build_query` checks the same things in many
places, some once for each field or token and some twice, and stops at
the first that fails; `buildQuery_ok_iff` says that together the checks
are exactly `Valid`, at every depth.
-/
import PaimonFtindex.Proofs.FieldResolution
import PaimonFtindex.Proofs.PhraseText
import PaimonFtindex.Proofs.QueryMeaning

namespace PaimonFtindex.Proofs

open Model Lib

-- ============================================================ the reference

/-- A finite boost above zero. -/
def PositiveBoost (boost : F32) : Prop :=
  boost.isFinite = true ∧ 0 < boost.scaled

instance (boost : F32) : Decidable (PositiveBoost boost) :=
  inferInstanceAs (Decidable (_ ∧ _))

/-- Fuzziness is automatic or at most two, and there are expansions. -/
def ValidExpansion (fuzziness : Option UInt8) (maxExpansions : UInt64) : Prop :=
  (∀ distance, fuzziness = some distance → distance ≤ 2) ∧ 1 ≤ maxExpansions

/-- The column names an indexed field, or there is only one. -/
def NamesField (config : FullTextIndexConfig) : Option String → Prop
  | some column =>
      if isBlank column then config.indexedTextFields.length = 1
      else trim column ∈ config.indexedTextFields
  | none => config.indexedTextFields.length = 1

instance (config : FullTextIndexConfig) :
    (column : Option String) → Decidable (NamesField config column)
  | some column =>
      inferInstanceAs (Decidable (if isBlank column then _ else _))
  | none => inferInstanceAs (Decidable (_ = 1))

/-- What a query has to be, at every node. -/
def Valid (config : FullTextIndexConfig) : QuerySpec → Prop
  | .match column _ _ boost fuzziness maxExpansions _ =>
      ValidExpansion fuzziness maxExpansions ∧ PositiveBoost boost
        ∧ ∀ name, column = some name →
            isBlank name = true ∨ trim name ∈ config.indexedTextFields
  | .multiMatch _ columns boosts _ fuzziness maxExpansions _ =>
      columns ≠ []
        ∧ (boosts = [] ∨ boosts.length = columns.length
            ∧ ∀ boost ∈ boosts, PositiveBoost boost)
        ∧ ValidExpansion fuzziness maxExpansions
        ∧ ∀ column ∈ columns, NamesField config (some column)
  | .matchPhrase column _ _ =>
      config.tokenizer.withPosition = true ∧ NamesField config column
  | .boolean should must mustNot queries =>
      (∃ clause ∈ clausesOf should must mustNot queries,
          clause.1 = .should ∨ clause.1 = .must)
        ∧ ∀ clause, (_ : clause ∈ clausesOf should must mustNot queries) →
            Valid config clause.2
  | .boost positive negative negativeBoost =>
      negativeBoost.isFinite = true ∧ 0 ≤ negativeBoost.scaled
        ∧ negativeBoost.scaled ≤ F32.one.scaled
        ∧ Valid config positive ∧ Valid config negative
termination_by query => sizeOf query
decreasing_by
  · exact sizeOf_clause_lt ‹_›
  · rw [QuerySpec.boost.sizeOf_spec]
    omega
  · rw [QuerySpec.boost.sizeOf_spec]
    omega

-- ============================================================== the checks

theorem validateMatchOptions_ok_iff {fuzziness : Option UInt8}
    {maxExpansions : UInt64} {prefixLength : UInt32} :
    Succeeds (validateMatchOptions fuzziness maxExpansions prefixLength)
      ↔ ValidExpansion fuzziness maxExpansions := by
  unfold validateMatchOptions ValidExpansion invalidQuery
  have hpositive : 1 ≤ maxExpansions ↔ maxExpansions ≠ 0 := by
    rw [UInt64.le_iff_toNat_le, ne_eq, ← UInt64.toNat_inj]
    show 1 ≤ _ ↔ ¬ _ = 0
    omega
  have hdistance : (∀ distance, fuzziness = some distance → distance ≤ 2)
      ↔ ¬ 2 < fuzziness.getD 0 := by
    cases fuzziness with
    | none => simp
    | some distance => simp
  rw [hpositive, hdistance]
  by_cases hfuzzy : 2 < fuzziness.getD 0
  · simp [hfuzzy]
  · by_cases hzero : maxExpansions = 0
    · simp [hfuzzy, hzero]
    · simp [hfuzzy, hzero]

section
variable [F32Display]

theorem validateBoost_ok_iff {boost : F32} :
    Succeeds (validateBoost boost) ↔ PositiveBoost boost := by
  unfold validateBoost PositiveBoost invalidQuery
  by_cases hfinite : boost.isFinite = true
  · have hle := F32.le_iff_scaled hfinite F32.isFinite_zero
    rw [F32.scaled_zero] at hle
    by_cases hzero : boost.le F32.zero = true
    · have := hle.mp hzero
      simp [hfinite, hzero]
      omega
    · have : ¬ boost.scaled ≤ 0 := fun h => hzero (hle.mpr h)
      simp [hfinite, hzero]
      omega
  · simp [hfinite]

/-- The boosts pass when each of them does. -/
theorem validateBoosts_ok_iff {boosts : List F32} :
    Succeeds (validateBoosts boosts) ↔ ∀ boost ∈ boosts, PositiveBoost boost := by
  induction boosts with
  | nil => simp [validateBoosts]
  | cons boost boosts ih =>
      rw [validateBoosts, List.forall_mem_cons, ← ih,
        ← @validateBoost_ok_iff _ boost]
      exact succeeds_bind_of_iff fun _ _ => Iff.rfl

theorem validateNegativeBoost_ok_iff {negativeBoost : F32} :
    Succeeds (validateNegativeBoost negativeBoost)
      ↔ negativeBoost.isFinite = true ∧ 0 ≤ negativeBoost.scaled
        ∧ negativeBoost.scaled ≤ F32.one.scaled := by
  unfold validateNegativeBoost invalidQuery
  by_cases hfinite : negativeBoost.isFinite = true
  · have hlo := F32.le_iff_scaled F32.isFinite_zero hfinite
    have hhi := F32.le_iff_scaled hfinite F32.isFinite_one
    rw [F32.scaled_zero] at hlo
    rw [← hlo, ← hhi]
    by_cases hzero : F32.zero.le negativeBoost = true
    · by_cases hone : negativeBoost.le F32.one = true
      · simp [hfinite, hzero, hone]
      · simp [hfinite, hzero, hone]
    · simp [hfinite, hzero]
  · simp [hfinite]

/-- Boosts are given for all columns or for none. -/
theorem validateMultiMatchOptions_ok_iff {columns : List String}
    {boosts : List F32} {fuzziness : Option UInt8} {maxExpansions : UInt64}
    {prefixLength : UInt32} :
    Succeeds (validateMultiMatchOptions columns boosts fuzziness maxExpansions
        prefixLength)
      ↔ columns ≠ []
        ∧ (boosts = [] ∨ boosts.length = columns.length
            ∧ ∀ boost ∈ boosts, PositiveBoost boost)
        ∧ ValidExpansion fuzziness maxExpansions := by
  have hchecks : Succeeds (do
        validateBoosts boosts
        validateMatchOptions fuzziness maxExpansions prefixLength)
      ↔ (∀ boost ∈ boosts, PositiveBoost boost)
        ∧ ValidExpansion fuzziness maxExpansions := by
    rw [← validateBoosts_ok_iff, ← @validateMatchOptions_ok_iff _ _ prefixLength]
    exact succeeds_bind_of_iff fun _ _ => Iff.rfl
  unfold validateMultiMatchOptions invalidQuery
  by_cases hcolumns : columns = []
  · simp [hcolumns]
  · by_cases hboosts : boosts = []
    · rw [hboosts] at hchecks ⊢
      simpa [hcolumns] using hchecks
    · by_cases hlength : boosts.length = columns.length
      · simpa [hcolumns, hboosts, hlength] using hchecks
      · simp [hcolumns, hboosts, hlength]

end

-- ============================================================== the columns

section
variable {index : Index} {config : FullTextIndexConfig}

/-- A column that names a field designates it. -/
theorem namesField_iff {column : Option String} :
    NamesField config column
      ↔ ∃ name ∈ config.indexedTextFields, Designates config column name := by
  have honly : config.indexedTextFields.length = 1
      ↔ ∃ name ∈ config.indexedTextFields,
        config.indexedTextFields = [name] := by
    rw [List.length_eq_one_iff]
    constructor
    · intro h
      obtain ⟨name, hname⟩ := h
      exact ⟨name, by simp [hname], hname⟩
    · intro h
      obtain ⟨name, -, hname⟩ := h
      exact ⟨name, hname⟩
  unfold NamesField Designates
  cases column with
  | none => exact honly
  | some column =>
      by_cases hblank : isBlank column = true
      · simp only [hblank, if_true]
        exact honly
      · simp [hblank]

/-- A column resolves to a field when it names one. -/
theorem resolveTextField_ok_iff (hvalid : config.validate = .ok ())
    (hschema : SchemaOf config index) {column : Option String} :
    Succeeds (resolveTextField index config column)
      ↔ NamesField config column := by
  rw [namesField_iff]
  constructor
  · intro h
    obtain ⟨field, hfield⟩ := h
    obtain ⟨name, hname, hmem, -⟩ := resolveTextField_eq_ok.mp hfield
    exact ⟨name, hmem, hname⟩
  · intro h
    obtain ⟨name, hmem, hname⟩ := h
    obtain ⟨field, hfield⟩ := exists_getField_of_schemaOf hvalid hschema hmem
    exact ⟨field, resolveTextField_eq_ok.mpr ⟨name, hname, hmem, hfield⟩⟩

/-- The fields of a match resolve unless its column names none. -/
theorem resolveMatchFields_ok_iff (hvalid : config.validate = .ok ())
    (htrim : TrimmedFields config) (hschema : SchemaOf config index)
    {column : Option String} :
    Succeeds (resolveMatchFields index config column)
      ↔ ∀ name, column = some name →
          isBlank name = true ∨ trim name ∈ config.indexedTextFields := by
  -- an indexed name is one of its own
  have hall : Succeeds (config.indexedTextFields.mapM fun field =>
      resolveTextField index config (some field)) := by
    rw [succeeds_mapM]
    intro name hname
    rw [resolveTextField_ok_iff hvalid hschema]
    obtain ⟨htrimmed, hblank⟩ := htrim name hname
    simpa [NamesField, hblank, htrimmed] using hname
  unfold resolveMatchFields
  cases column with
  | none => simpa [givenColumn] using hall
  | some column =>
      by_cases hblank : isBlank column = true
      · rw [givenColumn_blank hblank]
        simpa [hblank] using hall
      · rw [Bool.not_eq_true] at hblank
        rw [givenColumn_some hblank]
        simp only [Option.isSome_some, if_true]
        rw [succeeds_bind_pure, resolveTextField_ok_iff hvalid hschema]
        simp [NamesField, hblank]

/-- There is a field to match in. -/
theorem ne_nil_of_resolveMatchFields (hvalid : config.validate = .ok ())
    {column : Option String} {fields : List Field}
    (h : resolveMatchFields index config column = .ok fields) :
    fields ≠ [] := by
  unfold resolveMatchFields at h
  by_cases hgiven : (givenColumn column).isSome = true
  · rw [if_pos hgiven] at h
    obtain ⟨field, -, hret⟩ := except_bind_eq_ok.mp h
    cases hret
    exact List.cons_ne_nil _ _
  · rw [if_neg hgiven] at h
    have hlength := (mapM_eq_ok.mp h).length_eq
    intro hnil
    rw [hnil, List.length_nil, List.length_eq_zero_iff] at hlength
    obtain ⟨name, hname⟩ := List.exists_mem_of_ne_nil _
      (validate_eq_ok.mp hvalid).2.1
    rw [← mem_indexedTextFields, hlength] at hname
    cases hname

end

-- =============================================================== the leaves

section
variable {P : Type} {index : Index} {config : FullTextIndexConfig}
  {library : QueryLibrary P}

/-- A token of any length has a query, within the bounds on fuzziness. -/
theorem buildTokenQuery_succeeds {field : Field} {token : String}
    {fuzziness : Option UInt8} {maxExpansions : UInt64} {prefixLength : UInt32}
    (h : ValidExpansion fuzziness maxExpansions) :
    Succeeds (@buildTokenQuery P field token fuzziness maxExpansions
      prefixLength) := by
  have hdistance : ¬ 2 < fuzziness.getD (autoFuzziness token) := by
    cases fuzziness with
    | some distance =>
        have := h.1 distance rfl
        rw [UInt8.le_iff_toNat_le] at this
        rw [Option.getD_some, UInt8.lt_iff_toNat_lt]
        omega
    | none =>
        rw [Option.getD_none]
        unfold autoFuzziness
        by_cases hshort : token.length ≤ 2
        · rw [if_pos hshort]
          decide
        · by_cases hmiddle : token.length ≤ 5
          · rw [if_neg hshort, if_pos hmiddle]
            decide
          · rw [if_neg hshort, if_neg hmiddle]
            decide
  unfold buildTokenQuery
  dsimp only
  by_cases hzero : fuzziness.getD (autoFuzziness token) = 0
  · rw [if_pos hzero]
    exact succeeds_ok _
  · rw [if_neg hzero, if_neg hdistance]
    exact succeeds_ok _

theorem buildTokensQuery_succeeds {field : Field} {options : FieldMatchOptions}
    (h : ValidExpansion options.fuzziness options.maxExpansions)
    (tokens : List String) :
    Succeeds (@buildTokensQuery P field options tokens) := by
  match tokens with
  | [] => exact succeeds_ok _
  | [token] => exact buildTokenQuery_succeeds h
  | first :: second :: tokens =>
      unfold buildTokensQuery
      rw [succeeds_bind_pure, succeeds_mapM]
      intro token _
      rw [succeeds_bind_pure]
      exact buildTokenQuery_succeeds h

/-- Only the boost of a field's match is left to check. -/
theorem buildFieldMatchQuery_ok_iff [F32Display] {field : Field}
    {terms : String} {options : FieldMatchOptions}
    (hregistered :
      (index.tokenizers (tokenizerName config.tokenizer)).isSome = true)
    (h : ValidExpansion options.fuzziness options.maxExpansions) :
    Succeeds (buildFieldMatchQuery index config library field terms options)
      ↔ PositiveBoost options.boost := by
  obtain ⟨analyzer, hanalyzer⟩ := Option.isSome_iff_exists.mp hregistered
  have hrest : Succeeds (do
      let tokens ← analyzeTerms index config library terms
      let query ← buildTokensQuery field options tokens
      if options.boost.farFromOne then
        return .boost query options.boost
      else return query : Result (TantivyQuery P)) := by
    unfold analyzeTerms
    rw [hanalyzer]
    obtain ⟨query, hquery⟩ := @buildTokensQuery_succeeds P field options h
      (library.tokenTexts analyzer terms)
    apply succeeds_bind.mpr
    refine ⟨_, rfl, succeeds_bind.mpr ⟨query, hquery, ?_⟩⟩
    by_cases hfar : options.boost.farFromOne = true
    · rw [if_pos hfar]
      exact succeeds_pure _
    · rw [if_neg hfar]
      exact succeeds_pure _
  unfold buildFieldMatchQuery
  rw [succeeds_bind_of_succeeds fun _ _ => hrest, validateBoost_ok_iff]

end

-- ============================================================= the clauses

/-- A clause counts unless it is a `must_not`, in whichever list. -/
theorem exists_positive_iff {should must mustNot : List QuerySpec}
    {queries : List (BooleanOccur × QuerySpec)} :
    (∃ clause ∈ clausesOf should must mustNot queries,
        clause.1 = .should ∨ clause.1 = .must)
      ↔ (!should.isEmpty || !must.isEmpty
        || queries.any fun clause => clause.1 != .mustNot) = true := by
  have hpositive : ∀ occur : BooleanOccur,
      (occur = .should ∨ occur = .must) ↔ ¬ occur = .mustNot := by
    intro occur
    cases occur <;> simp
  simp only [hpositive]
  rw [← not_iff_not]
  have hall := @forall_clausesOf should must mustNot queries
    fun clause => clause.1 = .mustNot
  have hnone : (¬ ∃ clause ∈ clausesOf should must mustNot queries,
        ¬ clause.1 = .mustNot)
      ↔ ∀ clause ∈ clausesOf should must mustNot queries,
        clause.1 = .mustNot := by
    simp
  rw [hnone, hall]
  simp [List.eq_nil_iff_forall_not_mem, and_assoc]

-- =============================================================== the nodes

/-- The parser takes every quoted literal over a field of an index with
positions. -/
def AcceptsPhrases {P : Type} (library : QueryLibrary P) (index : Index)
    (config : FullTextIndexConfig) : Prop :=
  config.tokenizer.withPosition = true →
    ∀ name ∈ config.indexedTextFields, ∀ field,
      index.schema.getField name = some field →
      ∀ text terms slop, readPhrase text = some (terms, slop) → slop < 2 ^ 32 →
        ∃ query, library.parseQuery [field] text = .ok query

section
variable [F32Display] {P : Type} {index : Index} {config : FullTextIndexConfig}
  {library : QueryLibrary P}

/-- The index a query is built for: opened, with the fields of its
configuration and the tokenizer registered. -/
structure Opened (config : FullTextIndexConfig) (index : Index) : Prop where
  valid : config.validate = .ok ()
  trimmed : TrimmedFields config
  schema : SchemaOf config index
  registered :
    (index.tokenizers (tokenizerName config.tokenizer)).isSome = true

/-- `build_query` accepts exactly the valid queries. -/
def Exactly (library : QueryLibrary P) (index : Index)
    (config : FullTextIndexConfig) (q : QuerySpec) : Prop :=
  Succeeds (buildQuery index config library q) ↔ Valid config q

/-- A match compiles exactly when it is valid. -/
theorem match_ok_iff (hopen : Opened config index) (column : Option String)
    (terms : String) (operator : MatchOperator) (boost : F32)
    (fuzziness : Option UInt8) (maxExpansions : UInt64)
    (prefixLength : UInt32) :
    Exactly library index config
      (.match column terms operator boost fuzziness maxExpansions
        prefixLength) := by
  unfold Exactly
  rw [buildQuery, Valid, ← @validateMatchOptions_ok_iff _ _ prefixLength]
  apply succeeds_bind_of_iff
  intro _ hoptions
  have hexpansion := validateMatchOptions_ok_iff.mp ⟨_, hoptions⟩
  rw [← resolveMatchFields_ok_iff hopen.valid hopen.trimmed hopen.schema,
    and_comm]
  apply succeeds_bind_of_iff
  intro fields hfields
  -- the last step only decides whether to wrap the children
  rw [succeeds_bind_of_succeeds fun children _ => by
    rcases children with _ | ⟨first, _ | ⟨second, children⟩⟩ <;>
      exact succeeds_pure _]
  rw [succeeds_mapM]
  have hfield : ∀ field, Succeeds (do
        let query ← buildFieldMatchQuery index config library field terms
          { operator, boost, fuzziness, maxExpansions, prefixLength }
        return (Occur.should, query)) ↔ PositiveBoost boost := by
    intro field
    rw [succeeds_bind_pure]
    exact buildFieldMatchQuery_ok_iff hopen.registered hexpansion
  constructor
  · intro h
    obtain ⟨field, hmem⟩ := List.exists_mem_of_ne_nil _
      (ne_nil_of_resolveMatchFields hopen.valid hfields)
    exact (hfield field).mp (h field hmem)
  · intro h field _
    exact (hfield field).mpr h

/-- So does a match of several columns. -/
theorem multiMatch_ok_iff (hopen : Opened config index) (terms : String)
    (columns : List String) (boosts : List F32) (operator : MatchOperator)
    (fuzziness : Option UInt8) (maxExpansions : UInt64)
    (prefixLength : UInt32) :
    Exactly library index config
      (.multiMatch terms columns boosts operator fuzziness maxExpansions
        prefixLength) := by
  unfold Exactly
  rw [buildQuery, Valid]
  have hchecks := @validateMultiMatchOptions_ok_iff _ columns boosts fuzziness
    maxExpansions prefixLength
  rw [← and_assoc, ← and_assoc, and_assoc (a := columns ≠ []), ← hchecks]
  apply succeeds_bind_of_iff
  intro _ hoptions
  obtain ⟨-, hboosts, hexpansion⟩ := hchecks.mp ⟨_, hoptions⟩
  have hboost : ∀ idx : Nat, PositiveBoost (boosts[idx]?.getD F32.one) := by
    intro idx
    cases hget : boosts[idx]? with
    | none =>
        rw [Option.getD_none]
        exact ⟨F32.isFinite_one, by decide⟩
    | some boost =>
        have hmem := List.mem_of_getElem? hget
        rw [Option.getD_some]
        rcases hboosts with hnil | ⟨-, hpositive⟩
        · rw [hnil] at hmem
          cases hmem
        · exact hpositive boost hmem
  rw [succeeds_bind_pure, succeeds_mapM]
  have hcolumn : ∀ entry : String × Nat, Succeeds (do
        let field ← resolveTextField index config (some entry.1)
        let query ← buildFieldMatchQuery index config library field terms
          { operator, boost := boosts[entry.2]?.getD F32.one, fuzziness,
            maxExpansions, prefixLength }
        return (Occur.should, query)) ↔ NamesField config (some entry.1) := by
    intro entry
    rw [succeeds_bind_of_succeeds,
      resolveTextField_ok_iff hopen.valid hopen.schema]
    intro field _
    rw [succeeds_bind_pure,
      buildFieldMatchQuery_ok_iff hopen.registered hexpansion]
    exact hboost entry.2
  have hlist : (∀ entry ∈ columns.zipIdx, NamesField config (some entry.1))
      ↔ ∀ column ∈ columns, NamesField config (some column) := by
    conv_rhs => rw [← List.zipIdx_map_fst 0 columns]
    simp only [List.forall_mem_map]
  rw [← hlist]
  exact forall₂_congr fun entry _ => hcolumn entry

theorem matchPhrase_ok_iff (hopen : Opened config index)
    (hparser : AcceptsPhrases library index config) (column : Option String)
    (terms : String) (slop : UInt32) :
    Exactly library index config (.matchPhrase column terms slop) := by
  unfold Exactly Succeeds
  simp only [buildQuery_matchPhrase_eq_ok]
  rw [Valid, namesField_iff]
  constructor
  · intro h
    obtain ⟨query, hposition, field, parsed, hfield, -⟩ := h
    obtain ⟨name, hname, hmem, -⟩ := resolveTextField_eq_ok.mp hfield
    exact ⟨hposition, name, hmem, hname⟩
  · intro h
    obtain ⟨hposition, name, hmem, hname⟩ := h
    obtain ⟨field, hget⟩ :=
      exists_getField_of_schemaOf hopen.valid hopen.schema hmem
    obtain ⟨parsed, hparsed⟩ := hparser hposition name hmem field hget _ _ _
      (readPhrase_phraseText terms slop) slop.toNat_lt
    exact ⟨.parsed parsed, hposition, field, parsed,
      resolveTextField_eq_ok.mpr ⟨name, hname, hmem, hget⟩, hparsed, rfl⟩

theorem buildQueries_ok_iff {occur : Occur} {queries : List QuerySpec} :
    Succeeds (buildQueries index config library occur queries)
      ↔ ∀ q ∈ queries, Succeeds (buildQuery index config library q) := by
  induction queries with
  | nil => simp [buildQueries]
  | cons query queries ih =>
      rw [buildQueries, List.forall_mem_cons, ← ih]
      apply succeeds_bind_of_iff
      intro _ _
      exact succeeds_bind_pure

theorem buildClauses_ok_iff {clauses : List (BooleanOccur × QuerySpec)} :
    Succeeds (buildClauses index config library clauses)
      ↔ ∀ clause ∈ clauses,
        Succeeds (buildQuery index config library clause.2) := by
  induction clauses with
  | nil => simp [buildClauses]
  | cons clause clauses ih =>
      obtain ⟨occur, query⟩ := clause
      rw [buildClauses, List.forall_mem_cons, ← ih]
      apply succeeds_bind_of_iff
      intro _ _
      exact succeeds_bind_pure

/-- A boolean query compiles when its clauses do and there is one that is
not negative. -/
theorem boolean_ok_iff {should must mustNot : List QuerySpec}
    {queries : List (BooleanOccur × QuerySpec)}
    (hclauses : ∀ clause ∈ clausesOf should must mustNot queries,
      Exactly library index config clause.2) :
    Exactly library index config (.boolean should must mustNot queries) := by
  unfold Exactly
  rw [buildQuery, Valid, exists_positive_iff]
  have hvalid : (∀ clause, clause ∈ clausesOf should must mustNot queries →
        Valid config clause.2)
      ↔ ∀ clause ∈ clausesOf should must mustNot queries,
        Succeeds (buildQuery index config library clause.2) :=
    forall₂_congr fun clause hmem => (hclauses clause hmem).symm
  rw [hvalid, forall_clausesOf]
  by_cases hpositive : (!should.isEmpty || !must.isEmpty
      || queries.any fun clause => clause.1 != .mustNot) = true
  · have hsome : ¬ (should.isEmpty && must.isEmpty && mustNot.isEmpty
        && queries.isEmpty) = true := by
      intro hnone
      simp at hnone
      obtain ⟨⟨⟨hs, hm⟩, -⟩, hq⟩ := hnone
      rw [hs, hm, hq] at hpositive
      cases hpositive
    rw [if_neg hsome, hpositive]
    simp only [Bool.not_true, Bool.false_eq_true, if_false, true_and]
    rw [← buildClauses_ok_iff]
    simp only [← @buildQueries_ok_iff _ _ _ _ _ Occur.should should,
      ← @buildQueries_ok_iff _ _ _ _ _ Occur.must must,
      ← @buildQueries_ok_iff _ _ _ _ _ Occur.mustNot mustNot]
    apply succeeds_bind_of_iff
    intro _ _
    apply succeeds_bind_of_iff
    intro _ _
    apply succeeds_bind_of_iff
    intro _ _
    exact succeeds_bind_pure
  · rw [Bool.not_eq_true] at hpositive
    rw [hpositive]
    simp only [Bool.not_false, if_true, Bool.false_eq_true, false_and, iff_false]
    by_cases hnone : (should.isEmpty && must.isEmpty && mustNot.isEmpty
        && queries.isEmpty) = true
    · rw [if_pos hnone]
      exact not_succeeds_error _
    · rw [if_neg hnone]
      exact not_succeeds_error _

/-- A demotion compiles when both its queries do. -/
theorem boost_ok_iff {positive negative : QuerySpec} {negativeBoost : F32}
    (hpositive : Exactly library index config positive)
    (hnegative : Exactly library index config negative) :
    Exactly library index config (.boost positive negative negativeBoost) := by
  unfold Exactly at hpositive hnegative ⊢
  rw [buildQuery, Valid, ← hpositive, ← hnegative]
  have hcheck := @validateNegativeBoost_ok_iff _ negativeBoost
  rw [← and_assoc, ← and_assoc, and_assoc (a := negativeBoost.isFinite = true),
    ← hcheck]
  apply succeeds_bind_of_iff
  intro _ _
  apply succeeds_bind_of_iff
  intro _ _
  exact succeeds_bind_pure

theorem exactly_of_opened (hopen : Opened config index)
    (hparser : AcceptsPhrases library index config) (q : QuerySpec) :
    Exactly library index config q := by
  induction q using QuerySpec.induction with
  | hmatch => apply match_ok_iff hopen
  | hmulti => apply multiMatch_ok_iff hopen
  | hphrase => apply matchPhrase_ok_iff hopen hparser
  | hboolean should must mustNot queries ihs ihm ihn ihq =>
      apply boolean_ok_iff
      rw [forall_clausesOf]
      exact ⟨ihs, ihm, ihn, ihq⟩
  | hboost positive negative negativeBoost ihp ihn =>
      exact boost_ok_iff ihp ihn

end

/-- Opening registers the tokenizer under the name the queries ask for. -/
theorem opened_of_registerTokenizer [UnicodeCase] {analyzers : AnalyzerLibrary}
    {config : FullTextIndexConfig} {read index : Index}
    (hvalid : config.validate = .ok ()) (htrim : TrimmedFields config)
    (hschema : SchemaOf config read)
    (h : registerTokenizer analyzers read config.tokenizer = .ok index) :
    Opened config index := by
  unfold registerTokenizer at h
  obtain ⟨analyzer, -, hret⟩ := except_bind_eq_ok.mp h
  cases hret
  refine ⟨hvalid, htrim, hschema, ?_⟩
  dsimp only
  rw [if_pos rfl]
  rfl

/-- A query is accepted over an opened index, with a configuration read
from options, exactly when every node of it is valid. -/
theorem buildQuery_ok_iff [UnicodeCase] [F32Display] {P : Type}
    (library : QueryLibrary P) (analyzers : AnalyzerLibrary)
    {options : List OptionEntry} {config : FullTextIndexConfig}
    (hconfig : FullTextIndexConfig.fromOptions options = .ok config)
    {read index : Index} (hschema : SchemaOf config read)
    (hopen : registerTokenizer analyzers read config.tokenizer = .ok index)
    (hparser : AcceptsPhrases library index config) (q : QuerySpec) :
    (∃ query, buildQuery index config library q = .ok query)
      ↔ Valid config q := by
  have hopened := opened_of_registerTokenizer (validate_of_fromOptions hconfig)
    (trimmedFields_of_fromOptions hconfig) hschema hopen
  exact exactly_of_opened hopened hparser q

-- ------------------------------------------------------ a query of each kind

/-- Tokens are the words between blanks; the parser takes quoted literals
and nothing else. -/
def quoteLibrary : QueryLibrary String where
  tokenTexts := wordLibrary.tokenTexts
  parseQuery _ text :=
    if (readPhrase text).isSome then .ok text else .error "Syntax Error"

/-- Tantivy takes every gram size and has one stop word. -/
def anyAnalyzers : AnalyzerLibrary where
  ngramNew _ _ _ := .ok ()
  stopWordFilterNew _ := some ["the"]

def nestedQuery : QuerySpec :=
  .boost
    (.boolean [] [.matchPhrase (some " text ") "a \"b\"" 1]
      [.match none "c" .or F32.one none 50 0] [])
    (.multiMatch "d" ["", "text"] [F32.half, F32.one] .and (some 2) 1 0)
    F32.half

theorem valid_nestedQuery : Valid {} nestedQuery := by
  unfold nestedQuery
  rw [Valid, Valid, Valid, forall_clausesOf]
  refine ⟨by decide, by decide, by decide, ⟨?_, by simp, ?_, ?_, by simp⟩,
    by decide, .inr ⟨rfl, ?_⟩, ?_, ?_⟩
  · exact ⟨_, List.mem_cons_self, .inr rfl⟩
  · intro q hq
    rw [List.mem_singleton] at hq
    rw [hq, Valid]
    exact ⟨rfl, by decide⟩
  · intro q hq
    rw [List.mem_singleton] at hq
    rw [hq, Valid]
    exact ⟨⟨by simp, by decide⟩, by decide, by simp⟩
  · decide
  · exact ⟨by simp, by decide⟩
  · decide

/-- Every kind of query, each at a valid node of one tree. -/
theorem nestedQuery_accepted :
    ∃ index,
      @registerTokenizer asciiCase anyAnalyzers wordIndex {} = .ok index
        ∧ ∃ query, @buildQuery index {} String quoteLibrary ⟨fun _ => ""⟩
          nestedQuery = .ok query := by
  refine ⟨_, rfl, ?_⟩
  refine (@buildQuery_ok_iff asciiCase ⟨fun _ => ""⟩ String quoteLibrary
    anyAnalyzers [] {} rfl wordIndex _ ?_ rfl ?_ nestedQuery).mpr
    valid_nestedQuery
  · intro hnames name hname
    rfl
  · intro _ name _ field _ text terms slop hread _
    refine ⟨text, if_pos ?_⟩
    rw [hread]
    rfl

end PaimonFtindex.Proofs

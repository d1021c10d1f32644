/-
From the rows that were added to the rows that are found.

Between an add and a search lie the writer, the archive, the directory
read out of it, Tantivy's segments, the query compiler and the collector.
`search_rows` puts them together and mentions none of them in what it
says: the row ids of a result are those of the adds that returned `Ok`
and whose texts the query means. `RowMeaning` is that meaning, read off
the fields as a caller passed them.

Two assumptions are about Tantivy (`HoldsDocuments`): its segments hold the
documents it took, each once, however it cut them, and a phrase is looked
for in the document's own texts. Fuzzy terms are left out, since how far
they expand depends on the other documents of the segment.
-/
import PaimonFtindex.Proofs.Expansion
import PaimonFtindex.Proofs.FilteredSearch
import PaimonFtindex.Proofs.QueryMeaning
import PaimonFtindex.Proofs.Reopen

namespace PaimonFtindex.Proofs

open Model Lib

-- ======================================================= the meaning of rows

/-- The field texts of a row. -/
abbrev RowFields := List (String × String)

section
variable {P : Type} (library : QueryLibrary P) (schema : Schema)
  (config : FullTextIndexConfig) (tokenTexts : String → List String)
  (phraseIn : P → RowFields → Bool) (fields : RowFields)

/-- The token is in a text of the named field. -/
def HasToken (name token : String) : Prop :=
  ∃ text, (name, text) ∈ fields ∧ token ∈ tokenTexts text

/-- There are tokens, and some or every one of them is in the field. -/
def FieldHas (name terms : String) (operator : MatchOperator) : Prop :=
  tokenTexts terms ≠ []
    ∧ match operator with
      | .or => ∃ token ∈ tokenTexts terms, HasToken tokenTexts fields name token
      | .and => ∀ token ∈ tokenTexts terms,
          HasToken tokenTexts fields name token

/-- The phrase is in the named field. -/
def PhraseIn (name terms : String) (slop : UInt32) : Prop :=
  ∃ field query, schema.getField name = some field
    ∧ library.parseQuery [field] (phraseText terms slop) = .ok query
    ∧ phraseIn query fields = true

/-- What a query without fuzzy terms says about the fields of a row. -/
def RowMeaning : QuerySpec → Prop
  | .match column terms operator _ _ _ _ =>
      ∃ name, InMatchFields config column name
        ∧ FieldHas tokenTexts fields name terms operator
  | .multiMatch terms columns _ operator _ _ _ =>
      ∃ column ∈ columns, ∃ name, Designates config (some column) name
        ∧ FieldHas tokenTexts fields name terms operator
  | .matchPhrase column terms slop =>
      ∃ name, Designates config column name
        ∧ PhraseIn library schema phraseIn fields name terms slop
  | .boolean should must mustNot queries =>
      (∀ clause, (_ : clause ∈ clausesOf should must mustNot queries) →
        clause.1 = .must → RowMeaning clause.2)
      ∧ (∀ clause, (_ : clause ∈ clausesOf should must mustNot queries) →
        clause.1 = .mustNot → ¬ RowMeaning clause.2)
      ∧ ((∀ clause ∈ clausesOf should must mustNot queries,
          clause.1 ≠ .must) →
        ∃ clause, ∃ _ : clause ∈ clausesOf should must mustNot queries,
          clause.1 = .should ∧ RowMeaning clause.2)
  | .boost positive _ _ => RowMeaning positive
termination_by query => sizeOf query
decreasing_by
  · exact sizeOf_clause_lt ‹_›
  · exact sizeOf_clause_lt ‹_›
  · exact sizeOf_clause_lt ‹_›
  · rw [QuerySpec.boost.sizeOf_spec]
    omega

end

/-- Every match in the query asks for its terms as they are, which is the
default. The negative part of a demotion does not find rows. -/
inductive ExactTerms : QuerySpec → Prop where
  | match column terms operator boost maxExpansions prefixLength :
      ExactTerms (.match column terms operator boost (some 0) maxExpansions
        prefixLength)
  | multiMatch terms columns boosts operator maxExpansions prefixLength :
      ExactTerms (.multiMatch terms columns boosts operator (some 0) maxExpansions
        prefixLength)
  | matchPhrase column terms slop :
      ExactTerms (.matchPhrase column terms slop)
  | boolean {should must mustNot queries} :
      (∀ clause ∈ clausesOf should must mustNot queries,
        ExactTerms clause.2) →
      ExactTerms (.boolean should must mustNot queries)
  | boost {positive} (negative negativeBoost) : ExactTerms positive →
      ExactTerms (.boost positive negative negativeBoost)

/-- No column of the query names the row id field. -/
inductive SparesRowId (config : FullTextIndexConfig) : QuerySpec → Prop where
  | match {column terms operator boost fuzziness maxExpansions prefixLength}
      (hnames : ∀ name, InMatchFields config column name →
        name ≠ config.rowIdField) :
      SparesRowId config (.match column terms operator boost fuzziness
        maxExpansions prefixLength)
  | multiMatch {terms columns boosts operator fuzziness maxExpansions
      prefixLength}
      (hnames : ∀ column ∈ columns, ∀ name,
        Designates config (some column) name → name ≠ config.rowIdField) :
      SparesRowId config (.multiMatch terms columns boosts operator fuzziness
        maxExpansions prefixLength)
  | matchPhrase column terms slop :
      SparesRowId config (.matchPhrase column terms slop)
  | boolean {should must mustNot queries}
      (hclauses : ∀ clause ∈ clausesOf should must mustNot queries,
        SparesRowId config clause.2) :
      SparesRowId config (.boolean should must mustNot queries)
  | boost {positive} (negative negativeBoost)
      (hpositive : SparesRowId config positive) :
      SparesRowId config (.boost positive negative negativeBoost)

section
variable {P : Type} {library : SearchLibrary P} {index : Index}
  {config : FullTextIndexConfig}

theorem ne_rowIdField_of_mem (hnames : config.DistinctNames) {name : String}
    (h : name ∈ config.indexedTextFields) : name ≠ config.rowIdField := by
  intro heq
  rw [heq] at h
  exact (List.nodup_cons.mp hnames).1 h

/-- The fields of a match are text fields. -/
theorem mem_of_resolveMatchFields {column : Option String}
    {fields : List Field}
    (h : resolveMatchFields index config column = .ok fields) {name : String}
    (hname : InMatchFields config column name) :
    name ∈ config.indexedTextFields := by
  cases column with
  | none => exact hname
  | some column =>
      by_cases hblank : isBlank column = true
      · unfold InMatchFields at hname
        dsimp only at hname
        rw [if_pos hblank] at hname
        exact hname
      · unfold InMatchFields at hname
        dsimp only at hname
        rw [if_neg hblank] at hname
        unfold resolveMatchFields at h
        rw [givenColumn_some (eq_false_of_ne_true hblank)] at h
        obtain ⟨field, hfield, -⟩ := except_bind_eq_ok.mp h
        obtain ⟨name', hname', hmem, -⟩ := resolveTextField_eq_ok.mp hfield
        unfold Designates at hname'
        dsimp only at hname'
        rw [if_neg hblank] at hname'
        rw [hname, ← hname']
        exact hmem

variable [F32Display]

/-- A query that compiles searches text fields only. -/
theorem sparesRowId_of_build (hnames : config.DistinctNames)
    (spec : QuerySpec) {query : TantivyQuery P}
    (h : buildQuery index config library.toQueryLibrary spec = .ok query) :
    SparesRowId config spec := by
  induction spec using QuerySpec.induction generalizing query with
  | hmatch =>
      rw [buildQuery] at h
      obtain ⟨_, -, h⟩ := except_bind_eq_ok.mp h
      obtain ⟨fields, hfields, -⟩ := except_bind_eq_ok.mp h
      exact .match fun name hname => ne_rowIdField_of_mem hnames
        (mem_of_resolveMatchFields hfields hname)
  | hmulti =>
      rw [buildQuery] at h
      obtain ⟨_, -, h⟩ := except_bind_eq_ok.mp h
      obtain ⟨children, hchildren, -⟩ := except_bind_eq_ok.mp h
      refine .multiMatch fun column hcolumn name hname => ?_
      obtain ⟨i, hentry⟩ := List.mem_iff_getElem?.mp hcolumn
      obtain ⟨child, -, hchild⟩ := exists_mem_of_forall₂ (mapM_eq_ok.mp hchildren)
        (column, i) (List.mk_mem_zipIdx_iff_getElem?.mpr hentry)
      obtain ⟨field, hfield, -⟩ := except_bind_eq_ok.mp hchild
      obtain ⟨name', hname', hmem, -⟩ := resolveTextField_eq_ok.mp hfield
      rw [designates_unique hname hname']
      exact ne_rowIdField_of_mem hnames hmem
  | hphrase => exact .matchPhrase ..
  | hboolean should must mustNot queries ihs ihm ihn ihq =>
      obtain ⟨children, -, hchildren⟩ := buildQuery_boolean_eq_ok h
      refine .boolean fun clause hclause => ?_
      obtain ⟨child, -, hchild⟩ := exists_mem_of_forall₂ hchildren clause hclause
      have ih : ∀ clause ∈ clausesOf should must mustNot queries,
          ∀ {query : TantivyQuery P},
            buildQuery index config library.toQueryLibrary clause.2
              = .ok query → SparesRowId config clause.2 := by
        rw [forall_clausesOf]
        exact ⟨ihs, ihm, ihn, ihq⟩
      exact ih clause hclause hchild.2
  | hboost positive negative negativeBoost ihp _ =>
      rw [buildQuery] at h
      obtain ⟨_, -, h⟩ := except_bind_eq_ok.mp h
      obtain ⟨p, hp, -⟩ := except_bind_eq_ok.mp h
      exact .boost _ _ (ihp hp)

end

-- ========================================================= rows and documents

section
variable {schema : Schema} {config : FullTextIndexConfig}
  {tokenTexts : String → List String}

theorem mem_documentKeys_values {field : Field} {name token : String}
    (hfield : schema.getField name = some field) {fields : RowFields}
    {values : TantivyDocument}
    (h : List.Forall₂ (fun field value =>
      schema.getField field.1 = some value.1 ∧ value.2 = .text field.2)
      fields values) :
    utf8 token ∈ documentKeys tokenTexts field values
      ↔ HasToken tokenTexts fields name token := by
  unfold HasToken
  induction h with
  | nil => simp [documentKeys]
  | @cons entry value fields values hentry _ ih =>
      obtain ⟨name', text⟩ := entry
      obtain ⟨field', value⟩ := value
      obtain ⟨hget, rfl⟩ := hentry
      have hkeys : documentKeys tokenTexts field
          ((field', .text text) :: values)
        = (if field' = field then (tokenTexts text).map utf8 else [])
          ++ documentKeys tokenTexts field values := rfl
      rw [hkeys, List.mem_append, ih]
      by_cases heq : field' = field
      · have hname : name' = name := by
          rw [heq] at hget
          exact Schema.getField_inj hget hfield
        rw [if_pos heq, hname]
        have htoken : utf8 token ∈ (tokenTexts text).map utf8
            ↔ token ∈ tokenTexts text :=
          List.mem_map_of_injective fun _ _ => utf8_inj
        rw [htoken]
        simp [or_and_right, exists_or]
      · have hname : name ≠ name' := by
          rintro rfl
          rw [hfield] at hget
          cases hget
          exact heq rfl
        simp [heq, hname]

/-- The dictionary keys of a document are the tokens of its row, in any
field but the row id's. -/
theorem mem_documentKeys {row : Row} {document : TantivyDocument}
    (h : Carries schema config row document) {field : Field}
    {name token : String} (hfield : schema.getField name = some field)
    (hname : name ≠ config.rowIdField) :
    utf8 token ∈ documentKeys tokenTexts field document
      ↔ HasToken tokenTexts row.2 name token := by
  obtain ⟨rowIdField, rowId, values, rfl, hrow, -, hvalues⟩ := h
  have hne : rowIdField ≠ field := by
    rintro rfl
    exact hname (Schema.getField_inj hfield hrow)
  have hkeys : documentKeys tokenTexts field
      ((rowIdField, .u64 rowId) :: values)
    = (if rowIdField = field then [u64Key rowId] else [])
      ++ documentKeys tokenTexts field values := rfl
  rw [hkeys, if_neg hne, List.nil_append]
  exact mem_documentKeys_values hfield hvalues

/-- A field of the row is a field of the schema. -/
theorem getField_of_mem {row : Row} {document : TantivyDocument}
    (h : Carries schema config row document) {name text : String}
    (hmem : (name, text) ∈ row.2) :
    ∃ field, schema.getField name = some field := by
  obtain ⟨_, _, values, -, -, -, hvalues⟩ := h
  exact forall_of_forall₂ hvalues.flip
    (fun value field h => show ∃ f, schema.getField field.1 = some f from
      ⟨value.1, h.1⟩) _ hmem
end

-- ===================================================== one document of a segment

section
variable {P : Type} {tokenTexts : String → List String} {rowIdName : String}
  {rowIdField : Field}

/-- A row stands in a segment: its document is there, its texts are cut as
those of a query are, and phrases are looked for in them. -/
structure StandsIn (library : SearchLibrary P) (index : Index)
    (config : FullTextIndexConfig) (phraseIn : P → RowFields → Bool)
    (segment : IndexedSegment tokenTexts rowIdName rowIdField) (doc : DocId)
    (added : AddedDocument rowIdField) (row : Row) : Prop where
  there : segment.documents[doc]? = some added
  carries : Carries index.schema config row added.document
  analyzed : ∀ terms, analyzeTerms index config library.toQueryLibrary terms
    = .ok (tokenTexts terms)
  phrases : ∀ query, library.parsedMatches query segment.reader doc
    = phraseIn query row.2

variable {library : SearchLibrary P} {index : Index}
  {config : FullTextIndexConfig} {phraseIn : P → RowFields → Bool}
  {segment : IndexedSegment tokenTexts rowIdName rowIdField} {doc : DocId}
  {added : AddedDocument rowIdField} {row : Row}

/-- A term is found where the text has the token. -/
theorem tokenMatches_iff
    (h : StandsIn library index config phraseIn segment doc added row)
    {name token : String} (hname : name ≠ config.rowIdField)
    {maxExpansions : UInt64} {prefixLength : UInt32} :
    TokenMatches library index segment.reader doc name token (some 0)
        maxExpansions prefixLength
      ↔ HasToken tokenTexts row.2 name token := by
  have hterm : ∀ field, (TantivyQuery.term ⟨field, token⟩ .withFreqs :
        TantivyQuery P).matches library segment.reader doc true = true
      ↔ utf8 token ∈ documentKeys tokenTexts field added.document := by
    intro field
    rw [matches_term_iff, segment.mem_postings]
    simp [h.there]
  unfold TokenMatches
  constructor
  · intro hmatch
    obtain ⟨field, query, hfield, hquery, hmatch⟩ := hmatch
    cases hquery
    exact (mem_documentKeys h.carries hfield hname).mp
      ((hterm field).mp hmatch)
  · intro hhas
    obtain ⟨text, hmem, htoken⟩ := hhas
    obtain ⟨field, hfield⟩ := getField_of_mem h.carries hmem
    refine ⟨field, _, hfield, rfl, (hterm field).mpr ?_⟩
    exact (mem_documentKeys h.carries hfield hname).mpr ⟨text, hmem, htoken⟩

theorem fieldMatches_iff
    (h : StandsIn library index config phraseIn segment doc added row)
    {name terms : String} (hname : name ≠ config.rowIdField)
    {operator : MatchOperator} {maxExpansions : UInt64}
    {prefixLength : UInt32} :
    FieldMatches library index config segment.reader doc name terms operator
        (some 0) maxExpansions prefixLength
      ↔ FieldHas tokenTexts row.2 name terms operator := by
  unfold FieldMatches FieldHas
  cases operator <;>
    simp only [h.analyzed, Except.ok.injEq, exists_eq_left',
      tokenMatches_iff h hname]

theorem phraseMatches_iff
    (h : StandsIn library index config phraseIn segment doc added row)
    {name terms : String} {slop : UInt32} :
    PhraseMatches library index segment.reader doc name terms slop
      ↔ PhraseIn library.toQueryLibrary index.schema phraseIn row.2 name terms
          slop := by
  unfold PhraseMatches PhraseIn
  simp only [h.phrases]

/-- The query means the document exactly when it means the row. -/
theorem meaning_iff
    (h : StandsIn library index config phraseIn segment doc added row)
    {spec : QuerySpec} (hexact : ExactTerms spec)
    (hspares : SparesRowId config spec) :
    Meaning library index config segment.reader doc spec
      ↔ RowMeaning library.toQueryLibrary index.schema config tokenTexts
          phraseIn row.2 spec := by
  induction hexact with
  | «match» =>
      cases hspares with
      | «match» hnames =>
          rw [Meaning, RowMeaning]
          exact exists_congr fun name => and_congr_right fun hname =>
            fieldMatches_iff h (hnames name hname)
  | multiMatch =>
      cases hspares with
      | multiMatch hnames =>
          rw [Meaning, RowMeaning]
          exact exists_congr fun column => and_congr_right fun hcolumn =>
            exists_congr fun name => and_congr_right fun hname =>
              fieldMatches_iff h (hnames column hcolumn name hname)
  | matchPhrase =>
      rw [Meaning, RowMeaning]
      simp only [phraseMatches_iff h]
  | boolean _ ih =>
      cases hspares with
      | boolean hclauses =>
          have hclause : ∀ clause ∈ clausesOf _ _ _ _,
              (Meaning library index config segment.reader doc clause.2 ↔ _) :=
            fun clause hmem => ih clause hmem (hclauses clause hmem)
          rw [Meaning, RowMeaning]
          refine and_congr ?_ (and_congr ?_ (imp_congr Iff.rfl ?_))
          · exact forall₂_congr fun clause hmem =>
              imp_congr Iff.rfl (hclause clause hmem)
          · exact forall₂_congr fun clause hmem =>
              imp_congr Iff.rfl (not_congr (hclause clause hmem))
          · exact exists₂_congr fun clause hmem =>
              and_congr Iff.rfl (hclause clause hmem)
  | boost _ _ _ ih =>
      cases hspares with
      | boost _ _ hpositive =>
          rw [Meaning, RowMeaning]
          exact ih hpositive

end

-- ============================================================ all the documents

/-- What is kept of related lists, and what is read off it, is the same. -/
theorem filter_map_of_forall₂ {α β γ : Type} {p : α → Bool} {q : β → Bool}
    {f : α → γ} {g : β → γ} {xs : List α} {ys : List β}
    (h : List.Forall₂ (fun x y => p x = q y ∧ f x = g y) xs ys) :
    (xs.filter p).map f = (ys.filter q).map g := by
  induction h with
  | nil => rfl
  | @cons x y xs ys hxy _ ih =>
      rw [List.filter_cons, List.filter_cons, hxy.1]
      by_cases hq : q y = true
      · rw [if_pos hq, if_pos hq, List.map_cons, List.map_cons, hxy.2, ih]
      · rw [if_neg hq, if_neg hq, ih]

/-- The row id of a document is that of its row. -/
theorem rowId_of_carries {schema : Schema} {config : FullTextIndexConfig}
    {rowIdField : Field} {added : AddedDocument rowIdField} {row : Row}
    (h : Carries schema config row added.document) : added.rowId = row.1 := by
  obtain ⟨hneg, hvalue⟩ := added.rowId_spec
  obtain ⟨field, rowId, values, hdoc, -, hrow, hvalues⟩ := h
  have htexts : ∀ value ∈ values, ∃ text, value.2 = .text text :=
    forall_of_forall₂ hvalues fun field value h => ⟨field.2, h.2⟩
  have hnone : u64Value rowIdField values = none := by
    unfold u64Value
    rw [List.findSome?_eq_none_iff]
    intro value hmem
    obtain ⟨text, htext⟩ := htexts value hmem
    obtain ⟨f, v⟩ := value
    cases htext
    rfl
  have hfirst : u64Value rowIdField ((field, .u64 rowId) :: values)
      = if field = rowIdField then some rowId else none := by
    by_cases hfield : field = rowIdField
    · rw [if_pos hfield]
      unfold u64Value
      rw [List.findSome?_cons]
      simp [hfield]
    · rw [if_neg hfield, ← hnone]
      unfold u64Value
      rw [List.findSome?_cons]
      simp [hfield]
  rw [hdoc, hfirst] at hvalue
  split at hvalue
  · cases hvalue
    rw [toUInt64_toNat_of_not_neg (Int64.not_lt.mpr hneg)] at hrow
    exact Int64.toInt_inj.mp hrow
  · cases hvalue

/-- A document is the document of one row. -/
theorem carries_unique {schema : Schema} {config : FullTextIndexConfig}
    {row row' : Row} {document : TantivyDocument}
    (h : Carries schema config row document)
    (h' : Carries schema config row' document) : row.2 = row'.2 := by
  obtain ⟨_, _, values, rfl, -, -, hvalues⟩ := h
  obtain ⟨_, _, values', heq, -, -, hvalues'⟩ := h'
  cases heq
  refine List.left_unique_forall₂' ?_ hvalues hvalues'
  intro field field' value h h'
  obtain ⟨name, text⟩ := field
  obtain ⟨name', text'⟩ := field'
  obtain rfl : name = name' := Schema.getField_inj h.1 h'.1
  rw [h.2] at h'
  cases h'.2
  rfl

section
variable {P : Type} {tokenTexts : String → List String} {rowIdName : String}
  {rowIdField : Field}

/-- The segments hold the documents, each once, and look for phrases in
the fields of their rows. -/
structure HoldsDocuments (library : SearchLibrary P) (schema : Schema)
    (config : FullTextIndexConfig) (phraseIn : P → RowFields → Bool)
    (segments : List (IndexedSegment tokenTexts rowIdName rowIdField))
    (documents : List TantivyDocument) : Prop where
  documents_perm : ((segments.flatMap IndexedSegment.documents).map
    AddedDocument.document).Perm documents
  phrases : ∀ segment ∈ segments, ∀ doc added row,
    segment.documents[doc]? = some added →
    Carries schema config row added.document →
    ∀ query, library.parsedMatches query segment.reader doc
      = phraseIn query row.2

variable (library : SearchLibrary P) (index : Index)
  (config : FullTextIndexConfig) (tokenTexts : String → List String)
  (phraseIn : P → RowFields → Bool) (spec : QuerySpec)

open Classical in
/-- Whether the query means the row. -/
noncomputable def meansRow (row : Row) : Bool :=
  decide (RowMeaning library.toQueryLibrary index.schema config tokenTexts
    phraseIn row.2 spec)

open Classical in
/-- Whether it means the row that a document was made of. -/
noncomputable def meansDocument {rowIdField : Field}
    (added : AddedDocument rowIdField) : Bool :=
  decide (∃ row, Carries index.schema config row added.document
    ∧ RowMeaning library.toQueryLibrary index.schema config tokenTexts phraseIn
      row.2 spec)

variable {library index config tokenTexts phraseIn spec} in
theorem meansRow_iff {row : Row} :
    meansRow library index config tokenTexts phraseIn spec row = true
      ↔ RowMeaning library.toQueryLibrary index.schema config tokenTexts
          phraseIn row.2 spec := by
  simp [meansRow]

theorem meansDocument_eq {rowIdField : Field}
    {added : AddedDocument rowIdField} {row : Row}
    (h : Carries index.schema config row added.document) :
    meansDocument library index config tokenTexts phraseIn spec added
      = meansRow library index config tokenTexts phraseIn spec row := by
  unfold meansDocument meansRow
  refine decide_eq_decide.mpr ⟨?_, fun hmeans => ⟨row, h, hmeans⟩⟩
  intro hmeans
  obtain ⟨row', hrow', hmeans⟩ := hmeans
  rw [carries_unique h hrow']
  exact hmeans

end

section
variable {P : Type} {library : SearchLibrary P} {index : Index}
  {config : FullTextIndexConfig} {tokenTexts : String → List String}
  {phraseIn : P → RowFields → Bool} {spec : QuerySpec}
  {rowIdName : String} {rowIdField : Field}
  {segments : List (IndexedSegment tokenTexts rowIdName rowIdField)}
  {query : TantivyQuery P} [F32Display]

/-- Every document of the segments stands there for some row. -/
def AllStand (library : SearchLibrary P) (index : Index)
    (config : FullTextIndexConfig) (phraseIn : P → RowFields → Bool)
    (segments : List (IndexedSegment tokenTexts rowIdName rowIdField)) : Prop :=
  ∀ segment ∈ segments, ∀ doc added, segment.documents[doc]? = some added →
    ∃ row, StandsIn library index config phraseIn segment doc added row

/-- The hits of a segment are the documents of it that the query means. -/
theorem rowIds_segmentHits (htrim : TrimmedFields config)
    (hexact : ExactTerms spec) (hspares : SparesRowId config spec)
    (hbuild : buildQuery index config library.toQueryLibrary spec = .ok query)
    (hstand : AllStand library index config phraseIn segments)
    {segment : IndexedSegment tokenTexts rowIdName rowIdField} {ord : Nat}
    (h : segments[ord]? = some segment) :
    (segmentHits library query segment.reader ord).map (rowIdAt segments)
      = (segment.documents.filter
          (meansDocument library index config tokenTexts phraseIn spec)).map
          AddedDocument.rowId := by
  unfold segmentHits
  rw [List.map_map]
  refine filter_map_of_forall₂ (List.forall₂_iff_get.mpr ⟨?_, ?_⟩)
  · rw [List.length_range, segment.maxDoc_eq]
  · intro doc hrange hdoc
    rw [List.get_eq_getElem, List.getElem_range]
    have hadded := List.getElem?_eq_getElem hdoc
    obtain ⟨row, hrow⟩ := hstand segment (List.mem_of_getElem? h) doc _ hadded
    constructor
    · rw [List.get_eq_getElem, meansDocument_eq _ _ _ _ _ _ hrow.carries]
      rw [Bool.eq_iff_iff, meansRow_iff, ← meaning_iff hrow hexact hspares]
      exact preserved_of_trimmed htrim spec true query hbuild
    · show (addedRowId segments (_, ⟨ord, doc⟩)).getD 0 = _
      unfold addedRowId
      dsimp only
      rw [h, Option.bind_some, hadded]
      rfl

/-- The hits of all segments are the documents that the query means. -/
theorem rowIds_allHits (htrim : TrimmedFields config)
    (hexact : ExactTerms spec) (hspares : SparesRowId config spec)
    (hbuild : buildQuery index config library.toQueryLibrary spec = .ok query)
    (hstand : AllStand library index config phraseIn segments) :
    (allHits library query segments).map (rowIdAt segments)
      = ((segments.flatMap IndexedSegment.documents).filter
          (meansDocument library index config tokenTexts phraseIn spec)).map
          AddedDocument.rowId := by
  have hparts : segments.zipIdx.map (fun entry =>
        (segmentHits library query entry.1.reader entry.2).map
          (rowIdAt segments))
      = segments.map fun segment => (segment.documents.filter
          (meansDocument library index config tokenTexts phraseIn spec)).map
          AddedDocument.rowId := by
    conv_rhs => rw [← List.zipIdx_map_fst 0 segments, List.map_map]
    exact List.map_congr_left fun entry hentry =>
      rowIds_segmentHits htrim hexact hspares hbuild hstand
        (List.mem_zipIdx_iff_getElem?.mp hentry)
  unfold allHits
  rw [List.map_flatten, List.map_map, List.filter_flatMap, List.map_flatMap]
  exact congrArg List.flatten hparts

omit [F32Display] in
/-- And those are the rows that it means. -/
theorem rowIds_perm {documents : List TantivyDocument}
    (hholds : HoldsDocuments library index.schema config phraseIn segments
      documents)
    {rows : List Row}
    (hrows : List.Forall₂ (Carries index.schema config) rows documents) :
    (((segments.flatMap IndexedSegment.documents).filter
        (meansDocument library index config tokenTexts phraseIn spec)).map
        AddedDocument.rowId).Perm
      ((rows.filter
        (meansRow library index config tokenTexts phraseIn spec)).map
        Prod.fst) := by
  obtain ⟨rows', hrows', hperm⟩ :=
    List.perm_comp_forall₂ hholds.documents_perm hrows.flip
  rw [List.forall₂_map_left_iff] at hrows'
  rw [filter_map_of_forall₂ (hrows'.imp fun added row h =>
    ⟨meansDocument_eq library index config tokenTexts phraseIn spec h,
      rowId_of_carries h⟩)]
  exact (hperm.filter _).map _

end

-- ================================================================ the search

section
variable {P : Type} {crates : SearchCrates P} {tokenTexts : String → List String}
  {rowIdField : Field}

/-- Documents that Tantivy took stand for the rows they were made of. -/
theorem allStand_of_holds {index : Index} {config : FullTextIndexConfig}
    {rowIdName : String} {phraseIn : P → RowFields → Bool}
    {segments : List (IndexedSegment tokenTexts rowIdName rowIdField)}
    {documents : List TantivyDocument}
    (hholds : HoldsDocuments crates.tantivy index.schema config phraseIn segments
      documents)
    (hanalyzed : ∀ terms, analyzeTerms index config
      crates.tantivy.toQueryLibrary terms = .ok (tokenTexts terms))
    {rows : List Row}
    (hrows : List.Forall₂ (Carries index.schema config) rows documents) :
    AllStand crates.tantivy index config phraseIn segments := by
  intro segment hsegment doc added hadded
  have hmem : added.document ∈ documents := by
    rw [← hholds.documents_perm.mem_iff]
    exact List.mem_map_of_mem (List.mem_flatMap.mpr
      ⟨segment, hsegment, List.mem_of_getElem? hadded⟩)
  obtain ⟨row, hrow⟩ := forall_of_forall₂ hrows
    (fun row document h => show ∃ row, Carries _ config row document from
      ⟨row, h⟩) _ hmem
  exact ⟨row, hadded, hrow, hanalyzed,
    hholds.phrases segment hsegment doc added row hadded hrow⟩

/-- A search that returned has compiled its query and returned the
beginning of the ranking. -/
theorem search_eq_ok [F32Display] {self : FullTextIndexReader}
    {segments : List (IndexedSegment tokenTexts self.metadata.config.rowIdField
      rowIdField)}
    (hsearcher : self.searcher = .ok (segments.map IndexedSegment.reader))
    {text : String} {spec : QuerySpec}
    (hparse : QuerySpec.fromJson crates.serde text = .ok spec) {limit : UInt64}
    {result : FullTextSearchResult}
    (h : self.search crates text limit = .ok result) :
    ∃ query, buildQuery self.index self.metadata.config
        crates.tantivy.toQueryLibrary spec = .ok query
      ∧ result.rowIds = ((ranking crates.tantivy query segments).take
          limit.toNat).map (rowIdAt segments) := by
  have hfound := h
  unfold FullTextIndexReader.search FullTextIndexReader.searchWithFilter at h
  by_cases hlimit : limit = 0
  · rw [if_pos hlimit] at h
    cases h
  · rw [if_neg hlimit] at h
    obtain ⟨_, -, h⟩ := except_bind_eq_ok.mp h
    obtain ⟨spec', hspec', h⟩ := except_bind_eq_ok.mp h
    obtain ⟨query, hbuild, -⟩ := except_bind_eq_ok.mp h
    rw [hparse] at hspec'
    cases hspec'
    unfold FullTextIndexReader.search at hfound
    rw [searchWithFilter_eq rfl hsearcher hparse hbuild hlimit
      (collect_none limit) fun hit hhit => List.mem_of_mem_take hhit] at hfound
    cases hfound
    exact ⟨query, hbuild, rfl⟩

end

-- =============================================================== Tantivy

/-- What is relied on of Tantivy. Over a directory that gives the answers
of the one it left, failed reads among them, what it manages to open has
the schema of the index it wrote, and what it manages to load are segments
that hold the documents it took. -/
structure ReadsAgain {P : Type} (library : SearchLibrary P)
    (tokenTexts : String → List String) (rowIdField : Field)
    (config : FullTextIndexConfig) (hnames : config.DistinctNames)
    (phraseIn : P → RowFields → Bool) (frozen : Frozen) (metaLock : String)
    (documents : List TantivyDocument) (opening : IndexReading Index)
    (loading : IndexReading (List SegmentReader)) : Prop where
  opened : opening.Safe (fun _ => True)
    (fun call => frozen.Allows metaLock call)
    fun r => ∀ index, r = .ok index → index.schema = buildSchema config hnames
  loaded : loading.Safe (fun _ => True)
    (fun call => frozen.Allows metaLock call)
    fun r => ∀ readers, r = .ok readers →
      ∃ segments : List (IndexedSegment tokenTexts config.rowIdField rowIdField),
        readers = segments.map IndexedSegment.reader
          ∧ HoldsDocuments library (buildSchema config hnames) config phraseIn
            segments documents

/-- The rows a search finds are those that were added and that the query
means. Documents went to a writer in any calls, `write` put an archive on
its output, a reader opened what is left of that archive over an input
that may fail, its segments were loaded through the archive's directory,
among other readings of it, and a search returned: then its row ids are
those of the adds that returned `Ok` and whose fields the query means, as
many of them as the limit admits, and no row more often than it was added.
Nothing depends on how Tantivy cut the documents into segments. -/
theorem search_rows [UnicodeCase] [F32Display] {createEnv : CreateEnv}
    {config : FullTextIndexConfig} {dir : OsPath} {writer : FullTextIndexWriter}
    {calls : List Call} {env : WriteEnv} {archive : Bytes} {P : Type}
    {crates : SearchCrates P}
    (h : Wrote createEnv config dir writer calls env archive)
    {options : List OptionEntry}
    (hconfig : FullTextIndexConfig.fromOptions options = .ok config)
    {analyzer : TextAnalyzer}
    (hanalyzer : buildTextAnalyzer createEnv.library config.tokenizer
      = .ok analyzer)
    {opening : IndexReading Index} {loading : IndexReading (List SegmentReader)}
    {rowIdField : Field} {phraseIn : P → RowFields → Bool} {metaLock : String}
    (htantivy : ReadsAgain crates.tantivy (crates.tantivy.tokenTexts analyzer)
      rowIdField config
      (nodup_of_validate (validate_of_fromOptions hconfig)) phraseIn
      (leftBy env.disk dir) metaLock (runCalls ⟨writer, []⟩ calls).documents
      opening loading)
    {openEnv : OpenEnv} (hsame : SameCrates createEnv env openEnv) {n : Nat}
    {input : SeekRead} (himmutable : input.Immutable (archive.take n))
    {opened : OpenIndex} (hopen : openIndex openEnv input = .ok opened)
    {build : Build}
    (hopening : ∀ index, openEnv.indexOpen input opened.directory = .ok index →
      ∃ events final, Run (CacheStep (archive.take n))
          (readingsOn build metaLock opened.directory [opening]) events final
        ∧ final.threads[0]? = some (.ret index))
    {readings : List (IndexReading (List SegmentReader))}
    {events : List (Event CacheOp CacheOp.Res ArchiveReadCache)}
    {final : Config CacheOp CacheOp.Res TantivyError (List SegmentReader)
      ArchiveReadCache}
    (hrun : Run (CacheStep (archive.take n))
      (readingsOn build metaLock opened.directory readings) events final)
    {i : Nat} (hloading : readings[i]? = some loading)
    {readers : List SegmentReader}
    (hloaded : final.threads[i]? = some (.ret readers))
    {text : String} {spec : QuerySpec}
    (hparse : QuerySpec.fromJson crates.serde text = .ok spec)
    (hexact : ExactTerms spec) {limit : UInt64} {result : FullTextSearchResult}
    (hsearch : FullTextIndexReader.search crates
      ⟨opened.index, opened.metadata, .ok readers⟩ text limit = .ok result) :
    result.rowIds.Subperm
        (((okAdds ⟨writer, []⟩ calls).filter
          (meansRow crates.tantivy opened.index config
            (crates.tantivy.tokenTexts analyzer) phraseIn spec)).map Prod.fst)
      ∧ result.rowIds.length
        = min limit.toNat
          ((okAdds ⟨writer, []⟩ calls).filter
            (meansRow crates.tantivy opened.index config
              (crates.tantivy.tokenTexts analyzer) phraseIn spec)).length := by
  obtain ⟨documentCount, header, json, files, directory, index, analyzer', -,
    hlaid, hnew, hindex, hanalyzer', rfl⟩ := opened_of_wrote h hsame himmutable
      hopen
  rw [hanalyzer] at hanalyzer'
  cases hanalyzer'
  -- the directory answers as the one that was left
  have hcomplete := complete_of_laidOut hlaid
  have hleft := frozen_eq_left hlaid hnew
  obtain ⟨_, _, hopenRun, hopenRet⟩ := hopening index hindex
  have hopens := htantivy.opened
  have hloads := htantivy.loaded
  rw [← hleft] at hopens hloads
  have hschema := end_of_readings hlaid.valid hnew hcomplete hopenRun rfl hopens
    hopenRet index rfl
  obtain ⟨segments, rfl, hholds⟩ := end_of_readings hlaid.valid hnew hcomplete
    hrun hloading hloads hloaded readers rfl
  -- the rows are in step with the documents Tantivy took
  obtain ⟨hnames, hstart⟩ := inStep_new h.created
  have hrows := (inStep_runCalls hstart calls).documents_eq
  rw [List.nil_append, ← hschema] at hrows
  rw [← hschema] at hholds
  rw [hlaid.metadata] at hsearch
  let reader : Index :=
    { index with
      tokenizers := fun name =>
        if name = tokenizerName config.tokenizer then some analyzer
        else index.tokenizers name }
  have hanalyzed : ∀ terms, analyzeTerms reader config
      crates.tantivy.toQueryLibrary terms
        = .ok (crates.tantivy.tokenTexts analyzer terms) := by
    intro terms
    unfold analyzeTerms
    rw [show reader.tokenizers (tokenizerName config.tokenizer) = some analyzer
      from if_pos rfl]
  have hstand := @allStand_of_holds _ _ _ _ reader _ _ _ _ _ hholds hanalyzed
    _ hrows
  obtain ⟨query, hbuild, hfound⟩ := search_eq_ok rfl hparse hsearch
  have hspares := sparesRowId_of_build hnames spec hbuild
  have hperm : ((ranking crates.tantivy query segments).map
      (rowIdAt segments)).Perm (((okAdds ⟨writer, []⟩ calls).filter
        (meansRow crates.tantivy reader config
          (crates.tantivy.tokenTexts analyzer) phraseIn spec)).map Prod.fst) := by
    refine ((List.perm_insertionSort rankLe _).map _).trans ?_
    rw [rowIds_allHits (trimmedFields_of_fromOptions hconfig) hexact hspares
      hbuild hstand]
    exact @rowIds_perm _ _ reader _ _ _ _ _ _ _ _ hholds _ hrows
  rw [hfound, List.map_take]
  constructor
  · exact (List.take_sublist _ _).subperm.trans hperm.subperm
  · rw [List.length_take, hperm.length_eq, List.length_map]

-- ---------------------------------------------- the golden rows, found again

theorem golden_rowIds : 0 ≤ (7 : Int64) ∧ 0 ≤ (9 : Int64) := by decide

/-- The two golden documents in one segment. -/
def goldenSegments : List (IndexedSegment (fun text => [text]) "row_id" 0) :=
  [twoWords 7 9 "lake" "paimon" golden_rowIds]

theorem golden_holds :
    HoldsDocuments textLibrary (buildSchema {} default_distinctNames)
      {} (fun _ _ => false) goldenSegments
      (runCalls ⟨defaultWriter, []⟩ goldenAdds).documents := by
  constructor
  · exact List.Perm.of_eq rfl
  · intros
    rfl

/-- A reading that goes on with what a file has to say. -/
def expectBytes {α : Type} (expected : Bytes) (a : α) :
    Except DirectoryError DirectoryAnswer → IndexReading α
  | .ok (.bytes bytes) =>
      if bytes = expected then .ret a else .fail ⟨"data corruption"⟩
  | _ => .fail ⟨"read error"⟩

/-- The schema is in the first golden file, the documents in the
second. -/
def goldenOpening : IndexReading Index :=
  .call (.atomicRead "meta.json") (expectBytes [0x61, 0x62]
    ⟨buildSchema {} default_distinctNames, fun _ => none⟩)

def goldenLoading : IndexReading (List SegmentReader) :=
  .call (.readBytes "segment.idx" ⟨0, 4⟩) (expectBytes [0x63, 0x64, 0x65, 0x66]
    (goldenSegments.map IndexedSegment.reader))

theorem safe_expectBytes {α : Type} {expected : Bytes} {a : α}
    {Pre : DirectoryCall → Prop}
    {Post : DirectoryCall → Except DirectoryError DirectoryAnswer → Prop}
    {Q : α → Prop} (ha : Q a) (r : Except DirectoryError DirectoryAnswer) :
    (expectBytes expected a r).Safe Pre Post
      fun r => ∀ b, r = .ok b → Q b := by
  unfold expectBytes
  split
  · split
    · intro b hb
      cases hb
      exact ha
    · intro b hb
      cases hb
  · intro b hb
    cases hb

theorem golden_readsAgain :
    ReadsAgain textLibrary (fun text => [text]) 0 {} default_distinctNames
      (fun _ _ => false) (leftBy goldenDisk [0x74]) ".tantivy-meta.lock"
      (runCalls ⟨defaultWriter, []⟩ goldenAdds).documents goldenOpening
      goldenLoading := by
  constructor
  · exact ⟨trivial, fun r _ => safe_expectBytes
      (Q := fun index : Index =>
        index.schema = buildSchema {} default_distinctNames)
      rfl r⟩
  · exact ⟨trivial, fun r _ => safe_expectBytes
      (Q := fun readers => ∃ segments : List (IndexedSegment _ _ 0),
        readers = segments.map IndexedSegment.reader
          ∧ HoldsDocuments textLibrary (buildSchema {} default_distinctNames) {}
            (fun _ _ => false) segments _)
      ⟨goldenSegments, rfl, golden_holds⟩ r⟩

/-- The input serves the golden bytes. -/
theorem golden_pread {pos len : UInt64} {bytes : Bytes}
    (hbytes : slice (goldenData.take 549) pos.toNat len.toNat = bytes)
    (hle : pos.toNat + len.toNat ≤ (goldenData.take 549).length)
    (cache : ArchiveReadCache) :
    CacheStep (goldenData.take 549) cache (.pread pos len) (.ok bytes)
      { cache with metrics := cache.metrics.recordPread len } := by
  rw [← hbytes]
  exact .pread cache pos len hle

theorem golden_metaHandle : goldenDirectory.getFileHandle "meta.json"
    = some ⟨"meta.json", 543, 2⟩ := by
  decide +kernel

/-- A reading that starts with a call starts with its program. -/
theorem readThrough_call {α : Type} {build : Build} {metaLock : String}
    {directory : ArchiveDirectory} {call : DirectoryCall}
    {program : DirectoryProg DirectoryAnswer}
    (h : directory.perform build metaLock call = program)
    (f : Except DirectoryError DirectoryAnswer → IndexReading α) :
    readThrough build metaLock directory (.call call f)
      = program.attempt.bind fun r =>
          readThrough build metaLock directory (f r) := by
  rw [← h]
  rfl

/-- The golden index is opened through the archive. -/
theorem goldenOpening_run : ∃ events final,
    Run (CacheStep (goldenData.take 549))
        (readingsOn ⟨true⟩ ".tantivy-meta.lock" goldenDirectory [goldenOpening])
        events final
      ∧ final.threads[0]?
        = some (.ret ⟨buildSchema {} default_distinctNames, fun _ => none⟩) := by
  have hperform : goldenDirectory.perform ⟨true⟩ ".tantivy-meta.lock"
      (.atomicRead "meta.json")
        = (ArchiveFileHandle.readBytes ⟨true⟩ ⟨"meta.json", 543, 2⟩
            ⟨0, 2⟩).mapError (.ofRead (some "meta.json")) >>= fun bytes =>
              .ret (.bytes bytes) := by
    show (goldenDirectory.atomicRead ⟨true⟩ "meta.json" >>= fun bytes =>
      Prog.ret (DirectoryAnswer.bytes bytes)) = _
    unfold ArchiveDirectory.atomicRead ArchiveDirectory.openRead
    rw [golden_metaHandle]
    rfl
  refine exists_run_of_step (step_of_call 0
    ((congrArg some (readThrough_call hperform _)).trans rfl) (.get {} 543)) ?_
  refine exists_run_of_step (step_of_call 0 rfl (.recordMiss _)) ?_
  refine exists_run_of_step (step_of_call 0 rfl
    (@golden_pread 543 2 [0x61, 0x62] (by decide +kernel) (by decide +kernel) _))
    ?_
  refine exists_run_of_step (step_of_call 0 rfl (.insert _ 543 _)) ?_
  exact ⟨[], _, Run.nil _, rfl⟩

/-- And its segment loaded. -/
theorem goldenLoading_run : ∃ events final,
    Run (CacheStep (goldenData.take 549))
        (readingsOn ⟨true⟩ ".tantivy-meta.lock" goldenDirectory [goldenLoading])
        events final
      ∧ final.threads[0]?
        = some (.ret (goldenSegments.map IndexedSegment.reader)) := by
  have hperform : goldenDirectory.perform ⟨true⟩ ".tantivy-meta.lock"
      (.readBytes "segment.idx" ⟨0, 4⟩)
        = (ArchiveFileHandle.readBytes ⟨true⟩ ⟨"segment.idx", 545, 4⟩
            ⟨0, 4⟩).mapError (.ofRead none) >>= fun bytes =>
              .ret (.bytes bytes) := by
    show (goldenDirectory.readBytes ⟨true⟩ "segment.idx" ⟨0, 4⟩
      >>= fun bytes => Prog.ret (DirectoryAnswer.bytes bytes)) = _
    unfold ArchiveDirectory.readBytes ArchiveDirectory.openRead
    rw [golden_handle]
    rfl
  refine exists_run_of_step (step_of_call 0
    ((congrArg some (readThrough_call hperform _)).trans rfl) (.get {} 545)) ?_
  refine exists_run_of_step (step_of_call 0 rfl (.recordMiss _)) ?_
  refine exists_run_of_step (step_of_call 0 rfl
    (@golden_pread 545 4 [0x63, 0x64, 0x65, 0x66] (by decide +kernel)
      (by decide +kernel) _)) ?_
  refine exists_run_of_step (step_of_call 0 rfl (.insert _ 545 _)) ?_
  exact ⟨[], _, Run.nil _, rfl⟩

/-- Of the rows 7 and 9, the query "lake" means the first. -/
theorem golden_meansRow (index : Index) :
    ((okAdds ⟨defaultWriter, []⟩ goldenAdds).filter
      (meansRow textLibrary index {} (fun text => [text]) (fun _ _ => false)
        (.match none "lake" .or F32.one (some 0) 50 0))).map Prod.fst
      = [7] := by
  have hmeans : ∀ rowId word, meansRow textLibrary index {} (fun text => [text])
        (fun _ _ => false) (.match none "lake" .or F32.one (some 0) 50 0)
        (rowId, [("text", word)]) = decide (word = "lake") := by
    intro rowId word
    rw [Bool.eq_iff_iff, meansRow_iff, RowMeaning, decide_eq_true_iff]
    have htext : "text" ∈ dedupStrs defaultTextFields := by decide
    simp [InMatchFields, FieldHas, HasToken, eq_comm, htext,
      FullTextIndexConfig.indexedTextFields]
  show (List.filter _ [(7, [("text", "lake")]), (9, [("text", "paimon")])]).map
    Prod.fst = _
  simp [hmeans]

/-- The index of the golden reader. -/
def goldenIndex (analyzer : TextAnalyzer) : Index where
  schema := buildSchema {} default_distinctNames
  tokenizers name :=
    if name = tokenizerName {} then some analyzer else none

/-- The golden archive opens under the analyzer of its writer. -/
theorem golden_opened : ∃ analyzer,
    @buildTextAnalyzer asciiCase quietCreate.library {} = .ok analyzer
      ∧ @openIndex asciiCase goldenOpen (sliceReader (goldenData.take 549))
        = .ok ⟨goldenDirectory, goldenIndex analyzer, goldenHeader.metadata⟩ := by
  obtain ⟨index, hopen⟩ :=
    @golden_opens 549 [0x61, 0x62, 0x63, 0x64, 0x65, 0x66] (by decide +kernel)
  obtain ⟨_, _, _, _, _, index', analyzer, -, -, -, hindex, hanalyzer, hopened⟩ :=
    @opened_of_wrote asciiCase _ _ _ _ _ _ _ golden_wrote _ golden_sameCrates
      549 _ (sliceReader_immutable _) _ hopen
  cases hindex
  have hindex : index = goldenIndex analyzer :=
    congrArg OpenIndex.index hopened
  exact ⟨analyzer, hanalyzer, hindex ▸ hopen⟩

theorem golden_search (analyzer : TextAnalyzer) :
    ∃ result, @FullTextIndexReader.search _ lakeCrates ⟨fun _ => ""⟩
      ⟨goldenIndex analyzer, goldenHeader.metadata,
        .ok (goldenSegments.map IndexedSegment.reader)⟩ lakeText 10
      = .ok result :=
  ⟨_, @searchWithFilter_eq _ _ _ _ lakeCrates
    ⟨goldenIndex analyzer, goldenHeader.metadata,
      .ok (goldenSegments.map IndexedSegment.reader)⟩
    (.term ⟨1, "lake"⟩ .withFreqs) goldenSegments ⟨fun _ => ""⟩ rfl rfl lakeText
    (.match none "lake" .or F32.one (some 0) 50 0) rfl rfl 10 (by decide) none _
    (collect_none 10) (fun hit hhit => List.mem_of_mem_take hhit)⟩

/-- The query "lake" over the golden archive finds row 7, and no other. -/
theorem search_rows_golden : ∃ opened readers result,
    @openIndex asciiCase goldenOpen (sliceReader (goldenData.take 549))
        = .ok opened
      ∧ @FullTextIndexReader.search _ lakeCrates ⟨fun _ => ""⟩
          ⟨opened.index, opened.metadata, .ok readers⟩ lakeText 10
        = .ok result
      ∧ result.rowIds = [7] := by
  obtain ⟨analyzer, hanalyzer, hopen⟩ := golden_opened
  obtain ⟨result, hfound⟩ := golden_search analyzer
  obtain ⟨events, final, hrun, hloaded⟩ := goldenLoading_run
  have hopening : ∀ index, goldenOpen.indexOpen
        (sliceReader (goldenData.take 549)) goldenDirectory = .ok index →
      ∃ events final, Run (CacheStep (goldenData.take 549))
          (readingsOn ⟨true⟩ ".tantivy-meta.lock" goldenDirectory
            [goldenOpening]) events final
        ∧ final.threads[0]? = some (.ret index) := by
    intro index hindex
    cases hindex
    exact goldenOpening_run
  obtain ⟨hsub, hlength⟩ := @search_rows asciiCase ⟨fun _ => ""⟩ quietCreate {}
    [0x74] defaultWriter goldenAdds goldenEnv goldenData _ lakeCrates
    golden_wrote [] rfl analyzer hanalyzer goldenOpening goldenLoading 0
    (fun _ _ => false) _ golden_readsAgain _ golden_sameCrates 549 _
    (sliceReader_immutable _) _ hopen _ hopening _ _ _ hrun 0 rfl _ hloaded
    lakeText (.match none "lake" .or F32.one (some 0) 50 0) rfl
    (.match none "lake" .or F32.one 50 0) 10 result hfound
  have hgolden := golden_meansRow (goldenIndex analyzer)
  have hcount := congrArg List.length hgolden
  rw [List.length_map] at hcount
  have hone : result.rowIds.length = 1 :=
    hlength.trans (congrArg (min _) hcount)
  have hrow : result.rowIds.Subperm [7] :=
    hsub.trans (List.Perm.of_eq hgolden).subperm
  exact ⟨_, _, result, hopen, hfound,
    (hrow.perm_of_length_le (by rw [hone]; rfl)).eq_singleton⟩

end PaimonFtindex.Proofs

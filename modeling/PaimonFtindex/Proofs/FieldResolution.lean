/-
The writer and the query resolver on one field name.

The writer stores a text under the schema's field of the name it is
given. The resolver trims the name first, so the two agree on a name
exactly when it is trimmed (`resolveTextField_self_iff`), and this
decides for a whole configuration (`searched_as_stored_iff`): its checks
ask of a name only that it is not blank, so `title` and ` title` may
stand side by side, and the texts of the second are then searched for in
the first (`padded_name_searches_other`).
-/
import PaimonFtindex.Proofs.Columns
import PaimonFtindex.Proofs.IndexedSegment

namespace PaimonFtindex.Proofs

open Model Lib

-- ============================================================ the schema

/-- The schema read back has the fields the writer added. -/
def SchemaOf (config : FullTextIndexConfig) (index : Index) : Prop :=
  ∀ hnames : config.DistinctNames,
    ∀ name ∈ config.rowIdField :: config.indexedTextFields,
      index.schema.getField name = (buildSchema config hnames).getField name

@[simp] theorem mem_indexedTextFields {config : FullTextIndexConfig}
    {name : String} :
    name ∈ config.indexedTextFields ↔ name ∈ config.textFields := by
  simp [FullTextIndexConfig.indexedTextFields, dedupStrs]

variable {config : FullTextIndexConfig} {index : Index}

/-- Every configured name has a field. -/
theorem exists_getField_of_schemaOf (hvalid : config.validate = .ok ())
    (hschema : SchemaOf config index) {name : String}
    (hname : name ∈ config.indexedTextFields) :
    ∃ field, index.schema.getField name = some field := by
  have hnames := nodup_of_validate hvalid
  have hmem : name ∈ config.rowIdField :: config.indexedTextFields :=
    List.mem_cons_of_mem _ hname
  rw [hschema hnames name hmem]
  apply Option.isSome_iff_exists.mp
  rw [Schema.getField_isSome, buildSchema_names]
  exact hmem

-- ============================================================== one name

/-- A configured name resolves to its own field exactly when trimming it
changes nothing. -/
theorem resolveTextField_self_iff (hvalid : config.validate = .ok ())
    {name : String} (hname : name ∈ config.indexedTextFields) {field : Field}
    (hfield : index.schema.getField name = some field) :
    resolveTextField index config (some name) = .ok field
      ↔ trim name = name := by
  have hblank : isBlank name = false :=
    ((validate_eq_ok.mp hvalid).2.2.1 name (mem_indexedTextFields.mp hname)).1
  have hdes : ∀ name', Designates config (some name) name' ↔ name' = trim name := by
    intro name'
    unfold Designates
    simp [hblank]
  rw [resolveTextField_eq_ok]
  constructor
  · intro h
    obtain ⟨name', hname', -, hget⟩ := h
    rw [hdes] at hname'
    rw [← hname']
    exact Schema.getField_inj hget hfield
  · intro htrim
    exact ⟨name, (hdes name).mpr htrim.symm, hname, hfield⟩

-- ============================================================ what is law

/-- Every text that a writer of the configuration takes, in any state it
can be in, is stored in the field its name resolves to. -/
def StoredWhereSearched [UnicodeCase] (config : FullTextIndexConfig)
    (index : Index) : Prop :=
  ∀ env writer, FullTextIndexWriter.new env config = .ok writer →
    ∀ calls answer rowId fields session',
      (runCalls ⟨writer, []⟩ calls).addDocumentFields answer rowId fields
        = (.ok (), session') →
      ∃ row values,
        session'.documents
            = (runCalls ⟨writer, []⟩ calls).documents ++ [row :: values]
          ∧ List.Forall₂ (fun entry value =>
              value.2 = .text entry.2
                ∧ resolveTextField index config (some entry.1) = .ok value.1)
              fields values

/-- A match query without a column searches the fields of the configured
names, each once, in the order of the configuration. -/
def MatchesConfiguredFields (config : FullTextIndexConfig) (index : Index) :
    Prop :=
  ∃ names fields, resolveMatchFields index config none = .ok fields
    ∧ names.Nodup ∧ names.Sublist config.textFields
    ∧ (∀ name, name ∈ names ↔ name ∈ config.textFields)
    ∧ List.Forall₂ (fun name field =>
        index.schema.getField name = some field) names fields

/-- The names of the texts a writer takes are configured. -/
theorem configured_of_textValues {writer : FullTextIndexWriter}
    {fields : List (String × String)} {texts : TantivyDocument}
    (h : writer.textValues fields = .ok texts) :
    ∀ entry ∈ fields, entry.1 ∈ writer.config.indexedTextFields := by
  induction fields generalizing texts with
  | nil => simp
  | cons entry fields ih =>
      obtain ⟨name, text⟩ := entry
      unfold FullTextIndexWriter.textValues at h
      rw [except_bind_eq_ok] at h
      obtain ⟨_, hcheck, h⟩ := h
      have hconfigured : name ∈ writer.config.indexedTextFields := by
        unfold validateIndexedField at hcheck
        split at hcheck
        · cases hcheck
        · split at hcheck
          · rename_i hcontains
            exact List.contains_iff_mem.mp hcontains
          · cases hcheck
      have hrest : ∃ rest, writer.textValues fields = .ok rest := by
        cases hlookup : writer.textFields.lookup name with
        | none =>
            rw [hlookup] at h
            simp only [except_bind_eq_ok] at h
            obtain ⟨_, hthrow, -⟩ := h
            cases hthrow
        | some textField =>
            rw [hlookup] at h
            simp only [pure_bind, except_bind_eq_ok] at h
            obtain ⟨rest, hrest, -⟩ := h
            exact ⟨rest, hrest⟩
      obtain ⟨rest, hrest⟩ := hrest
      intro e he
      rcases List.mem_cons.mp he with rfl | he
      · exact hconfigured
      · exact ih hrest e he

/-- With trimmed names, what is stored is found. -/
theorem storedWhereSearched_of_trimmed [UnicodeCase]
    (hvalid : config.validate = .ok ()) (hschema : SchemaOf config index)
    (htrim : ∀ name ∈ config.textFields, trim name = name) :
    StoredWhereSearched config index := by
  intro env writer hnew calls answer rowId fields session' hadd
  obtain ⟨hnames, hstart⟩ := inStep_new hnew
  have hin := inStep_runCalls hstart calls
  rcases addDocumentFields_cases (runCalls ⟨writer, []⟩ calls) answer rowId
    fields with ⟨e, heq⟩ | ⟨next, doc, hprepare, heq⟩
  · rw [heq] at hadd
    cases hadd
  · rw [heq] at hadd
    cases hadd
    obtain ⟨-, -, -, texts, htexts, rfl⟩ := prepare_ok hprepare
    refine ⟨_, texts, rfl, ?_⟩
    have hmap : textFieldMap (buildSchema config hnames)
        (runCalls ⟨writer, []⟩ calls).writer.config
        = .ok (runCalls ⟨writer, []⟩ calls).writer.textFields := by
      rw [hin.config_eq]
      exact hin.textFields_eq
    have hconfigured := configured_of_textValues htexts
    rw [hin.config_eq] at hconfigured
    have hvalues := textValues_ok hmap htexts
    rw [List.forall₂_iff_get] at hvalues ⊢
    refine ⟨hvalues.1, fun i hi hi' => ?_⟩
    obtain ⟨hget, htext⟩ := hvalues.2 i hi hi'
    have hname := hconfigured _ (List.get_mem fields ⟨i, hi⟩)
    refine ⟨htext, ?_⟩
    rw [← hschema hnames _ (List.mem_cons_of_mem _ hname)] at hget
    exact (resolveTextField_self_iff hvalid hname hget).mpr
      (htrim _ (mem_indexedTextFields.mp hname))

/-- With trimmed names, a match without a column searches them all. -/
theorem matchesConfiguredFields_of_trimmed (hvalid : config.validate = .ok ())
    (hschema : SchemaOf config index)
    (htrim : ∀ name ∈ config.textFields, trim name = name) :
    MatchesConfiguredFields config index := by
  have hfound : ∀ names : List String,
      (∀ name ∈ names, name ∈ config.indexedTextFields) →
      ∃ fields, List.Forall₂ (fun name field =>
        index.schema.getField name = some field
          ∧ resolveTextField index config (some name) = .ok field)
        names fields := by
    intro names
    induction names with
    | nil => exact fun _ => ⟨[], List.Forall₂.nil⟩
    | cons name names ih =>
        intro hnames
        rw [List.forall_mem_cons] at hnames
        obtain ⟨field, hfield⟩ :=
          exists_getField_of_schemaOf hvalid hschema hnames.1
        obtain ⟨fields, hfields⟩ := ih hnames.2
        have hresolve := (resolveTextField_self_iff hvalid hnames.1 hfield).mpr
          (htrim name (mem_indexedTextFields.mp hnames.1))
        exact ⟨field :: fields,
          List.Forall₂.cons ⟨hfield, hresolve⟩ hfields⟩
  obtain ⟨fields, hfields⟩ := hfound config.indexedTextFields fun _ h => h
  refine ⟨config.indexedTextFields, fields, ?_, ?_, ?_, ?_, ?_⟩
  · show config.indexedTextFields.mapM _ = _
    exact mapM_eq_ok.mpr (hfields.imp fun _ _ h => h.2)
  · exact nodup_dedupInto _ List.nodup_nil
  · exact dedupInto_sublist [] config.textFields
  · exact fun name => mem_indexedTextFields
  · exact hfields.imp fun _ _ h => h.1

/-- A match without a column that searches every configured field, as
itself, shows that the names are trimmed. -/
theorem trimmed_of_matchesConfiguredFields (hvalid : config.validate = .ok ())
    (h : MatchesConfiguredFields config index) :
    ∀ name ∈ config.textFields, trim name = name := by
  obtain ⟨names, fields, hresolve, -, -, hmem, hfields⟩ := h
  intro name hname
  obtain ⟨field, hfield, hget⟩ :=
    exists_mem_of_forall₂ hfields name ((hmem name).mpr hname)
  -- the field of the name was resolved from a configured name, trimmed
  have hresolved := mapM_eq_ok.mp hresolve
  obtain ⟨other, hother, hfrom⟩ :=
    exists_mem_of_forall₂ hresolved.flip field hfield
  obtain ⟨name', hdes, -, hget'⟩ := resolveTextField_eq_ok.mp hfrom
  have hblank : isBlank other = false :=
    ((validate_eq_ok.mp hvalid).2.2.1 other
      (mem_indexedTextFields.mp hother)).1
  have htrim : name' = trim other := by
    unfold Designates at hdes
    simpa [hblank] using hdes
  rw [Schema.getField_inj hget hget', htrim, trim_trim]

/-- Every field the writer accepts is searched, and as itself, exactly
when the configured names are trimmed. -/
theorem searched_as_stored_iff [UnicodeCase] (hvalid : config.validate = .ok ())
    (hschema : SchemaOf config index) :
    (StoredWhereSearched config index ∧ MatchesConfiguredFields config index)
      ↔ ∀ name ∈ config.textFields, trim name = name := by
  constructor
  · intro h
    exact trimmed_of_matchesConfiguredFields hvalid h.2
  · intro htrim
    exact ⟨storedWhereSearched_of_trimmed hvalid hschema htrim,
      matchesConfiguredFields_of_trimmed hvalid hschema htrim⟩

/-- `title` and `body`. -/
def trimmedConfig : FullTextIndexConfig where
  textFields := ["title", "body"]

def trimmedIndex : Index where
  schema := buildSchema trimmedConfig (nodup_of_validate (by rfl))
  tokenizers _ := none

/-- Two trimmed names: each is stored where it is searched, and a match
without a column searches both. -/
theorem trimmed_searched_as_stored :
    @StoredWhereSearched asciiCase trimmedConfig trimmedIndex
      ∧ MatchesConfiguredFields trimmedConfig trimmedIndex :=
  (@searched_as_stored_iff trimmedConfig trimmedIndex asciiCase rfl
    fun _ _ _ => rfl).mpr (by decide +kernel)

-- ------------------------------------------- two names that trim to one

/-- `title` and ` title`. -/
def paddedConfig : FullTextIndexConfig where
  textFields := ["title", " title"]

def paddedIndex : Index where
  schema := buildSchema paddedConfig (nodup_of_validate (by rfl))
  tokenizers _ := none

def paddedWriter : FullTextIndexWriter where
  config := paddedConfig
  state := some { tempDir := [0x74] }
  rowIdField := 0
  textFields := [("title", 1), (" title", 2)]
  documentCount := 0

/-- A text stored under ` title` goes to the second text field and is
searched for in the first. -/
theorem padded_name_searches_other :
    ∃ config index, config.validate = .ok () ∧ SchemaOf config index
      ∧ ¬ (@StoredWhereSearched asciiCase config index
        ∧ MatchesConfiguredFields config index) := by
  refine ⟨paddedConfig, paddedIndex, rfl, fun hnames name hname => rfl, ?_⟩
  intro h
  have hnew : @FullTextIndexWriter.new asciiCase quietCreate paddedConfig
      = .ok paddedWriter := by decide +kernel
  have hadd : (runCalls ⟨paddedWriter, []⟩ []).addDocumentFields (.ok ()) 7
      [(" title", "a")]
      = (.ok (), ⟨{ paddedWriter with documentCount := 1 },
          [[(0, .u64 7), (2, .text "a")]]⟩) := by rfl
  obtain ⟨row, values, hdocs, hvalues⟩ :=
    h.1 quietCreate paddedWriter hnew [] _ _ _ _ hadd
  cases hdocs
  cases hvalues with
  | cons hvalue _ =>
      have hresolve : resolveTextField paddedIndex paddedConfig (some " title")
          = .ok 1 := by decide +kernel
      rw [hresolve] at hvalue
      cases hvalue.2

end PaimonFtindex.Proofs

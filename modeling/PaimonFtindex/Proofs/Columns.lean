/-
Which fields a query names.

`Designates` and `InMatchFields` say it without the code: a column that
is not blank names itself, trimmed; otherwise a phrase or a listed
column falls back to the only field of a single-field index, and a match
to every indexed field. `resolve_text_field` and `resolve_match_fields`
return the schema's fields of those names, provided the configured names
are trimmed themselves, which those of `from_options` are.
-/
import PaimonFtindex.Lib.Outcome
import PaimonFtindex.Model.BuildQuery

namespace PaimonFtindex.Proofs

open Model Lib

-- =============================================== the fields of an options map

/-- The field names collected so far are trimmed. -/
def Trimmed (locals : FieldOptions) : Prop :=
  (∀ field, locals.textField = some field → trim field = field)
    ∧ ∀ fields, locals.textFields = some fields →
        ∀ field ∈ fields, trim field = field

theorem trim_of_cleanName {value key field : String}
    (h : cleanName value key = .ok field) : trim field = field := by
  unfold cleanName at h
  dsimp only at h
  split at h
  · cases h
  · cases h
    exact trim_trim value

theorem trim_of_splitTextFields {value : String} {fields : List String}
    (h : splitTextFields value = .ok fields) {field : String}
    (hf : field ∈ fields) : trim field = field := by
  unfold splitTextFields at h
  dsimp only at h
  split at h
  · cases h
  · cases h
    rw [mem_dedupPreserveOrder, List.mem_filter, List.mem_map] at hf
    obtain ⟨⟨part, -, rfl⟩, -⟩ := hf
    exact trim_trim part

/-- An option leaves the names trimmed. -/
theorem trimmed_of_setKey {locals locals' : FieldOptions} {key value : String}
    (h : locals.setKey key value = .ok locals') (ht : Trimmed locals) :
    Trimmed locals' := by
  unfold FieldOptions.setKey at h
  split at h
  · obtain ⟨name, -, hret⟩ := except_bind_eq_ok.mp h
    cases hret
    exact ht
  · obtain ⟨name, hname, hret⟩ := except_bind_eq_ok.mp h
    cases hret
    refine ⟨?_, ht.2⟩
    intro field heq
    cases heq
    exact trim_of_cleanName hname
  · obtain ⟨names, hnames, hret⟩ := except_bind_eq_ok.mp h
    cases hret
    refine ⟨ht.1, ?_⟩
    intro fields heq field hf
    cases heq
    exact trim_of_splitTextFields hnames hf
  · obtain ⟨names, hnames, hret⟩ := except_bind_eq_ok.mp h
    cases hret
    refine ⟨ht.1, ?_⟩
    intro fields heq field hf
    cases heq
    exact trim_of_splitTextFields hnames hf
  · cases h
    exact ht

theorem trimmed_of_foldlM [UnicodeCase] {options : List OptionEntry}
    {locals locals' : FieldOptions}
    (h : options.foldlM FieldOptions.setOption locals = .ok locals')
    (ht : Trimmed locals) : Trimmed locals' := by
  induction options generalizing locals with
  | nil =>
      cases h
      exact ht
  | cons entry options ih =>
      rw [List.foldlM_cons] at h
      obtain ⟨next, hnext, hrest⟩ := except_bind_eq_ok.mp h
      exact ih hrest (trimmed_of_setKey hnext ht)

/-- A configuration read from options names its fields trimmed. -/
def TrimmedFields (config : FullTextIndexConfig) : Prop :=
  ∀ field ∈ config.indexedTextFields, trim field = field ∧ isBlank field = false

/-- A configuration read from options has passed its checks. -/
theorem validate_of_fromOptions [UnicodeCase] {options : List OptionEntry}
    {config : FullTextIndexConfig}
    (h : FullTextIndexConfig.fromOptions options = .ok config) :
    config.validate = .ok () := by
  unfold FullTextIndexConfig.fromOptions at h
  obtain ⟨tokenizer, -, h⟩ := except_bind_eq_ok.mp h
  obtain ⟨locals, -, h⟩ := except_bind_eq_ok.mp h
  unfold FieldOptions.toConfig at h
  dsimp only at h
  split at h
  · obtain ⟨_, hthrow, -⟩ := except_bind_eq_ok.mp h
    cases hthrow
  · obtain ⟨_, hvalid, hret⟩ := except_bind_eq_ok.mp h
    cases hret
    exact hvalid

/-- The field names of a configuration read from options are trimmed. -/
theorem trimmedFields_of_fromOptions [UnicodeCase] {options : List OptionEntry}
    {config : FullTextIndexConfig}
    (h : FullTextIndexConfig.fromOptions options = .ok config) :
    TrimmedFields config := by
  unfold FullTextIndexConfig.fromOptions at h
  obtain ⟨tokenizer, -, h⟩ := except_bind_eq_ok.mp h
  obtain ⟨locals, hlocals, h⟩ := except_bind_eq_ok.mp h
  have htrimmed : Trimmed locals := by
    refine trimmed_of_foldlM hlocals ⟨?_, ?_⟩
    · intro field heq
      cases heq
    · intro fields heq
      cases heq
  unfold FieldOptions.toConfig at h
  dsimp only at h
  split at h
  · obtain ⟨_, hthrow, -⟩ := except_bind_eq_ok.mp h
    cases hthrow
  · obtain ⟨_, hvalid, hret⟩ := except_bind_eq_ok.mp h
    cases hret
    intro field hf
    have hmem : field ∈ dedupPreserveOrder
        ((locals.textFields.orElse fun _ =>
          locals.textField.map fun field => [field]).getD defaultTextFields) := by
      simpa [FullTextIndexConfig.indexedTextFields, dedupStrs] using hf
    have hblank := ((validate_eq_ok.mp hvalid).2.2.1 field hmem).1
    refine ⟨?_, hblank⟩
    rw [mem_dedupPreserveOrder] at hmem
    cases hfields : locals.textFields with
    | some fields =>
        rw [hfields] at hmem
        exact htrimmed.2 fields hfields field hmem
    | none =>
        rw [hfields] at hmem
        cases hone : locals.textField with
        | some one =>
            rw [hone] at hmem
            cases List.mem_singleton.mp hmem
            exact htrimmed.1 _ hone
        | none =>
            rw [hone] at hmem
            cases List.mem_singleton.mp hmem
            decide

-- ============================================================ designation

/-- The field a column of a phrase or of a multi-match names. -/
def Designates (config : FullTextIndexConfig) (column : Option String)
    (name : String) : Prop :=
  match column with
  | some column =>
      if isBlank column then config.indexedTextFields = [name]
      else name = trim column
  | none => config.indexedTextFields = [name]

/-- A field that a match query searches. -/
def InMatchFields (config : FullTextIndexConfig) (column : Option String)
    (name : String) : Prop :=
  match column with
  | some column =>
      if isBlank column then name ∈ config.indexedTextFields
      else name = trim column
  | none => name ∈ config.indexedTextFields

theorem givenColumn_some {column : String} (h : isBlank column = false) :
    givenColumn (some column) = some (trim column) := by
  unfold isBlank at h
  simp [givenColumn, h]

theorem givenColumn_blank {column : String} (h : isBlank column = true) :
    givenColumn (some column) = none := by
  unfold isBlank at h
  unfold givenColumn
  rw [Option.map_some, Option.filter_some, h]
  rfl

/-- The column the code goes on with is the designated one. -/
theorem columnOrOnly_eq_ok {config : FullTextIndexConfig}
    {column : Option String} {name : String} :
    columnOrOnly config column = .ok name ↔ Designates config column name := by
  have honly : ∀ {column : Option String}, givenColumn column = none →
      (columnOrOnly config column = .ok name
        ↔ config.indexedTextFields = [name]) := by
    intro column hnone
    unfold columnOrOnly
    rw [hnone]
    dsimp only
    cases config.indexedTextFields with
    | nil => simp [invalidQuery]
    | cons field fields =>
        cases fields with
        | nil => simp
        | cons other fields => simp [invalidQuery]
  unfold Designates
  cases column with
  | none => exact honly rfl
  | some column =>
      dsimp only
      by_cases h : isBlank column = true
      · rw [if_pos h]
        exact honly (givenColumn_blank h)
      · rw [if_neg h]
        unfold columnOrOnly
        rw [givenColumn_some (eq_false_of_ne_true h)]
        simp only [Except.ok.injEq]
        exact eq_comm

section
variable {index : Index} {config : FullTextIndexConfig}

/-- `resolve_text_field` finds the schema's field of the indexed field
that the column designates. -/
theorem resolveTextField_eq_ok {column : Option String} {field : Field} :
    resolveTextField index config column = .ok field
      ↔ ∃ name, Designates config column name
          ∧ name ∈ config.indexedTextFields
          ∧ index.schema.getField name = some field := by
  unfold resolveTextField
  rw [except_bind_eq_ok]
  refine exists_congr fun name => ?_
  rw [columnOrOnly_eq_ok]
  refine and_congr_right fun _ => ?_
  by_cases h : name ∈ config.indexedTextFields
  · have hcontains : config.indexedTextFields.contains name = true :=
      List.contains_iff_mem.mpr h
    rw [hcontains]
    simp only [Bool.not_true, Bool.false_eq_true, if_false]
    cases index.schema.getField name with
    | none => simp [invalidQuery]
    | some f => simp [h, pure, Except.pure]
  · have hcontains : config.indexedTextFields.contains name = false := by
      rw [Bool.eq_false_iff]
      intro hc
      exact h (List.contains_iff_mem.mp hc)
    rw [hcontains]
    simp [invalidQuery, h]

/-- A column designates one field at most. -/
theorem designates_unique {column : Option String} {name name' : String}
    (h : Designates config column name) (h' : Designates config column name') :
    name = name' := by
  have heq := columnOrOnly_eq_ok.mpr h
  rw [columnOrOnly_eq_ok.mpr h'] at heq
  cases heq
  rfl

/-- An indexed name designates itself. -/
theorem designates_self {name name' : String}
    (h : trim name = name ∧ isBlank name = false) :
    Designates config (some name) name' ↔ name' = name := by
  unfold Designates
  dsimp only
  rw [h.2, h.1]
  simp

/-- `resolve_match_fields` returns the schema's fields of the searched
names, one by one. -/
theorem resolveMatchFields_eq_ok (htrim : TrimmedFields config)
    {column : Option String} {fields : List Field}
    (h : resolveMatchFields index config column = .ok fields) :
    ∃ names, (∀ name, InMatchFields config column name ↔ name ∈ names)
      ∧ List.Forall₂ (fun name field =>
          index.schema.getField name = some field) names fields := by
  -- without a column: every indexed field resolves to itself
  have hall : givenColumn column = none →
      ∃ names, (∀ name, name ∈ config.indexedTextFields ↔ name ∈ names)
        ∧ List.Forall₂ (fun name field =>
            index.schema.getField name = some field) names fields := by
    intro hnone
    unfold resolveMatchFields at h
    rw [hnone] at h
    refine ⟨config.indexedTextFields, fun _ => Iff.rfl, ?_⟩
    have hfields := mapM_eq_ok.mp h
    rw [List.forall₂_iff_get] at hfields ⊢
    refine ⟨hfields.1, fun i hi hi' => ?_⟩
    obtain ⟨name, hname, -, hget⟩ :=
      resolveTextField_eq_ok.mp (hfields.2 i hi hi')
    rw [designates_self (htrim _ (List.get_mem _ _))] at hname
    rwa [hname] at hget
  have hone : ∀ c, givenColumn column = some c →
      Designates config column c →
      ∃ names, (∀ name, name = c ↔ name ∈ names)
        ∧ List.Forall₂ (fun name field =>
            index.schema.getField name = some field) names fields := by
    intro c hc hdes
    unfold resolveMatchFields at h
    rw [hc] at h
    obtain ⟨field, hfield, hret⟩ := except_bind_eq_ok.mp h
    cases hret
    obtain ⟨name, hname, -, hget⟩ := resolveTextField_eq_ok.mp hfield
    rw [designates_unique hname hdes] at hget
    exact ⟨[c], fun _ => List.mem_singleton.symm,
      List.Forall₂.cons hget List.Forall₂.nil⟩
  cases column with
  | none => exact hall rfl
  | some column =>
      by_cases hb : isBlank column = true
      · obtain ⟨names, hmem, hnames⟩ := hall (givenColumn_blank hb)
        refine ⟨names, fun name => ?_, hnames⟩
        unfold InMatchFields
        dsimp only
        rw [if_pos hb]
        exact hmem name
      · rw [Bool.not_eq_true] at hb
        obtain ⟨names, hmem, hnames⟩ := hone _ (givenColumn_some hb) (by
          unfold Designates
          dsimp only
          rw [hb]
          simp)
        refine ⟨names, fun name => ?_, hnames⟩
        unfold InMatchFields
        dsimp only
        rw [hb]
        simpa using hmem name

end

end PaimonFtindex.Proofs

/-
core/src/config.rs: the index configuration, its option parser, its
builder methods and its checks.
-/
import PaimonFtindex.Model.Tokenizer

namespace PaimonFtindex.Model

/-- `default_row_id_field`. -/
def defaultRowIdField : String := "row_id"

/-- `default_text_fields`. -/
def defaultTextFields : List String := ["text"]

/-- `FullTextIndexConfig`, with `Default` as the field defaults. -/
structure FullTextIndexConfig where
  rowIdField : String := defaultRowIdField
  textFields : List String := defaultTextFields
  tokenizer : TokenizerConfig := {}
  deriving DecidableEq, Repr

-- ========================================================== the helpers

/-- The shared loop of `dedup_preserve_order` and `dedup_strs`: push each
field that the result does not hold yet. -/
def dedupInto (deduped : List String) : List String → List String
  | [] => deduped
  | field :: fields =>
      if deduped.contains field then dedupInto deduped fields
      else dedupInto (deduped ++ [field]) fields

/-- A field is kept exactly when it was there. -/
@[simp] theorem mem_dedupInto {field : String} {deduped fields : List String} :
    field ∈ dedupInto deduped fields ↔ field ∈ deduped ∨ field ∈ fields := by
  induction fields generalizing deduped with
  | nil => simp [dedupInto]
  | cons f fields ih =>
      unfold dedupInto
      split
      · rename_i h
        rw [ih, List.mem_cons]
        rw [List.contains_iff_mem] at h
        grind
      · rw [ih, List.mem_append, List.mem_singleton, List.mem_cons, or_assoc]

/-- No field is kept twice. -/
theorem nodup_dedupInto {deduped : List String} (fields : List String)
    (h : deduped.Nodup) : (dedupInto deduped fields).Nodup := by
  induction fields generalizing deduped with
  | nil => exact h
  | cons f fields ih =>
      unfold dedupInto
      split
      · exact ih h
      · rename_i hf
        rw [List.contains_iff_mem] at hf
        exact ih (List.nodup_append.mpr ⟨h, by simp, by grind⟩)

/-- What is kept, is kept in order. -/
theorem dedupInto_sublist (deduped fields : List String) :
    (dedupInto deduped fields).Sublist (deduped ++ fields) := by
  induction fields generalizing deduped with
  | nil => simp [dedupInto]
  | cons f fields ih =>
      unfold dedupInto
      split
      · exact (ih deduped).trans ((List.sublist_cons_self f fields).append_left _)
      · simpa using ih (deduped ++ [f])

/-- Distinct fields are all kept, in order. -/
theorem dedupInto_eq_append {deduped fields : List String}
    (h : (deduped ++ fields).Nodup) : dedupInto deduped fields = deduped ++ fields := by
  induction fields generalizing deduped with
  | nil => simp [dedupInto]
  | cons f fields ih =>
      have hf : ¬ deduped.contains f := by
        rw [List.contains_iff_mem]
        grind [List.nodup_append]
      unfold dedupInto
      rw [if_neg hf, ih (by simpa using h)]
      simp

/-- `dedup_preserve_order`. -/
def dedupPreserveOrder (fields : List String) : List String :=
  dedupInto [] fields

/-- `dedup_strs`. -/
def dedupStrs (fields : List String) : List String := dedupInto [] fields

@[simp] theorem mem_dedupPreserveOrder {field : String} {fields : List String} :
    field ∈ dedupPreserveOrder fields ↔ field ∈ fields := by
  simp [dedupPreserveOrder]

theorem nodup_dedupPreserveOrder (fields : List String) :
    (dedupPreserveOrder fields).Nodup :=
  nodup_dedupInto fields List.nodup_nil

/-- Deduplicating distinct fields changes nothing. -/
theorem dedupPreserveOrder_eq_self {fields : List String} (h : fields.Nodup) :
    dedupPreserveOrder fields = fields := by
  simpa [dedupPreserveOrder] using
    @dedupInto_eq_append [] fields (by simpa using h)

/-- Deduplicating twice deduplicates once. -/
@[simp] theorem dedupPreserveOrder_idem (fields : List String) :
    dedupPreserveOrder (dedupPreserveOrder fields) = dedupPreserveOrder fields :=
  dedupPreserveOrder_eq_self (nodup_dedupPreserveOrder fields)

/-- `clean_name`. -/
def cleanName (value key : String) : Result String :=
  let value := trim value
  if value.isEmpty then .error (.invalidOption key "must not be empty")
  else .ok value

/-- `split_text_fields`. -/
def splitTextFields (value : String) : Result (List String) :=
  let fields := dedupPreserveOrder
    (((splitChars value [',', ';']).map trim).filter fun field =>
      !field.isEmpty)
  if fields.isEmpty then
    .error (.invalidOption "text-fields" "must contain at least one field")
  else .ok fields

/-- config.rs `normalize_option_key`: `_` is turned into `-`. -/
def FullTextIndexConfig.normalizeOptionKey [UnicodeCase] (rawKey : String) :
    String :=
  replaceChar (UnicodeCase.toLowercase (trim (stripOptionPrefix rawKey))) '_' "-"

-- ============================================================ the checks

/-- The loop of `validate` over the deduplicated fields. -/
def validateTextFields (rowIdField : String) : List String → Result Unit
  | [] => .ok ()
  | field :: fields =>
      if isBlank field then
        .error (.invalidOption "text-fields"
          "must not contain empty field names")
      else if field = rowIdField then
        .error (.invalidOption "text-fields"
          "must not contain the row id field")
      else validateTextFields rowIdField fields

/-- `FullTextIndexConfig::validate`. -/
def FullTextIndexConfig.validate (config : FullTextIndexConfig) :
    Result Unit := do
  if isBlank config.rowIdField then
    throw (.invalidOption "row-id-field" "must not be empty")
  let fields := dedupPreserveOrder config.textFields
  if fields.isEmpty then
    throw (.invalidOption "text-fields" "must contain at least one field")
  validateTextFields config.rowIdField fields
  config.tokenizer.validate

/-- What the loop of `validate` over the fields accepts. -/
theorem validateTextFields_eq_ok {rowIdField : String} {fields : List String} :
    validateTextFields rowIdField fields = .ok ()
      ↔ ∀ field ∈ fields, isBlank field = false ∧ field ≠ rowIdField := by
  induction fields with
  | nil => simp [validateTextFields]
  | cons field fields ih =>
      unfold validateTextFields
      split
      · simp_all
      · split
        · simp_all
        · simp_all

/-- What `validate` accepts, check by check. -/
theorem validate_eq_ok {config : FullTextIndexConfig} :
    config.validate = .ok ()
      ↔ isBlank config.rowIdField = false
        ∧ config.textFields ≠ []
        ∧ (∀ field ∈ config.textFields,
            isBlank field = false ∧ field ≠ config.rowIdField)
        ∧ config.tokenizer.validate = .ok () := by
  have hempty : (dedupPreserveOrder config.textFields).isEmpty = true
      ↔ config.textFields = [] := by
    rw [List.isEmpty_iff, List.eq_nil_iff_forall_not_mem,
      List.eq_nil_iff_forall_not_mem]
    simp
  unfold FullTextIndexConfig.validate
  by_cases hblank : isBlank config.rowIdField = true
  · simp [hblank]
    intro h
    cases h
  · by_cases hnil : config.textFields = []
    · have hdedup := hempty.mpr hnil
      constructor
      · intro h
        simp only [hblank, hdedup] at h
        cases h
      · intro h
        exact absurd hnil h.2.1
    · have hne : (dedupPreserveOrder config.textFields).isEmpty = false := by
        rw [Bool.eq_false_iff]
        intro h
        exact hnil (hempty.mp h)
      have hloop := @validateTextFields_eq_ok config.rowIdField
        (dedupPreserveOrder config.textFields)
      simp only [mem_dedupPreserveOrder] at hloop
      rw [← hloop]
      simp only [hblank, hne]
      cases hv : validateTextFields config.rowIdField
          (dedupPreserveOrder config.textFields) with
      | error e =>
          constructor
          · intro h; cases h
          · intro h; cases h.2.2.1
      | ok u =>
          constructor
          · intro h
            exact ⟨by simp, hnil, rfl, h⟩
          · intro h
            exact h.2.2.2

-- ====================================================== the option parser

/-- The three locals of the option loop of
`FullTextIndexConfig::from_options`. -/
structure FieldOptions where
  rowIdField : Option String := none
  textField : Option String := none
  textFields : Option (List String) := none
  deriving DecidableEq, Repr

/-- The `match` of the option loop of `FullTextIndexConfig::from_options`. -/
def FieldOptions.setKey (locals : FieldOptions) (key value : String) :
    Result FieldOptions := do
  match key with
  | "row-id-field" =>
      return { locals with rowIdField := some (← cleanName value key) }
  | "text-field" =>
      return { locals with textField := some (← cleanName value key) }
  | "text-fields" | "columns" =>
      return { locals with textFields := some (← splitTextFields value) }
  | _ => return locals

/-- The body of that loop. -/
def FieldOptions.setOption [UnicodeCase] (locals : FieldOptions)
    (entry : OptionEntry) : Result FieldOptions :=
  locals.setKey (FullTextIndexConfig.normalizeOptionKey entry.1) entry.2

/-- The tail of `from_options`: `text-fields` wins over `text-field`,
which wins over the default; then the checks. -/
def FieldOptions.toConfig (locals : FieldOptions)
    (tokenizer : TokenizerConfig) : Result FullTextIndexConfig := do
  let fields := dedupPreserveOrder
    ((locals.textFields.orElse fun _ =>
      locals.textField.map fun field => [field]).getD defaultTextFields)
  if fields.isEmpty then
    throw (.invalidOption "text-fields" "must contain at least one field")
  let config : FullTextIndexConfig :=
    { rowIdField := locals.rowIdField.getD defaultRowIdField
      textFields := fields
      tokenizer := tokenizer }
  config.validate
  return config

/-- `FullTextIndexConfig::from_options` over the entries in loop order;
one map is walked twice in the same order. -/
def FullTextIndexConfig.fromOptions [UnicodeCase] (options : List OptionEntry) :
    Result FullTextIndexConfig := do
  let tokenizer ← TokenizerConfig.fromOptions options
  let locals ← options.foldlM FieldOptions.setOption {}
  locals.toConfig tokenizer

-- ============================================================ accessors

/-- `indexed_text_fields`. -/
def FullTextIndexConfig.indexedTextFields (config : FullTextIndexConfig) :
    List String := dedupStrs config.textFields

/-- `default_text_field`. -/
def FullTextIndexConfig.defaultTextField (config : FullTextIndexConfig) :
    String := config.textFields.head?.getD "text"

/-- `FullTextIndexMetadata`. -/
structure FullTextIndexMetadata where
  config : FullTextIndexConfig := {}
  documentCount : UInt64 := 0
  tantivyVersion : String := ""
  deriving DecidableEq, Repr

end PaimonFtindex.Model

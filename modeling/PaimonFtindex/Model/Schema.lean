/-
The Tantivy schema of an index (core/src/index.rs, `build_schema`,
`text_field_map`) and the documents added under it.

Tantivy numbers fields in the order they are added and panics when a
name is added twice. A `Schema` carries that its names are distinct, so
`buildSchema` takes the distinctness of a configuration's names as an
argument; `FullTextIndexConfig.validate` is what provides it
(`nodup_of_validate`).
-/
import PaimonFtindex.Model.Config

namespace PaimonFtindex.Model

/-- `tantivy::schema::Field`: a position in the schema. -/
abbrev Field := Nat

inductive IndexRecordOption where
  | basic
  | withFreqs
  | withFreqsAndPositions
  deriving DecidableEq, Repr

inductive FieldType where
  | u64 (fast stored indexed : Bool)
  | text (tokenizer : String) (indexOption : IndexRecordOption)
  deriving DecidableEq, Repr

structure FieldEntry where
  name : String
  fieldType : FieldType
  deriving DecidableEq, Repr

structure Schema where
  fields : List FieldEntry
  nodup_names : (fields.map FieldEntry.name).Nodup

/-- `Schema::get_field`. -/
def Schema.getField (schema : Schema) (name : String) : Option Field :=
  schema.fields.findIdx? fun entry => entry.name = name

/-- Two names of one field are one name. -/
theorem Schema.getField_inj {schema : Schema} {name name' : String}
    {field : Field} (h : schema.getField name = some field)
    (h' : schema.getField name' = some field) : name = name' := by
  unfold Schema.getField at h h'
  rw [List.findIdx?_eq_some_iff_getElem] at h h'
  obtain ⟨_, hname, _⟩ := h
  obtain ⟨_, hname', _⟩ := h'
  simp only [decide_eq_true_iff] at hname hname'
  exact hname.symm.trans hname'

/-- A field is found exactly when its name is in the schema. -/
theorem Schema.getField_isSome {schema : Schema} {name : String} :
    (schema.getField name).isSome
      ↔ name ∈ schema.fields.map FieldEntry.name := by
  unfold Schema.getField
  rw [List.findIdx?_isSome, List.any_eq_true, List.mem_map]
  simp only [decide_eq_true_iff]

-- =========================================================== the fields

/-- `tokenizer_name`. -/
def tokenizerName (config : TokenizerConfig) : String :=
  match config.tokenizer with
  | .default | .simple => "paimon_custom"
  | .whitespace => "paimon_custom"
  | .raw => "paimon_custom"
  | .ngram => "paimon_ngram"
  | .jieba => "paimon_jieba"
  | .icu => "paimon_icu"
  | .icuSplit => "paimon_icu_split"

/-- The text fields of `build_schema`: all share one indexing. -/
def textFieldEntry (config : TokenizerConfig) (name : String) : FieldEntry :=
  { name := name
    fieldType := .text (tokenizerName config)
      (if config.withPosition then .withFreqsAndPositions else .withFreqs) }

/-- The names `build_schema` adds are distinct. -/
def FullTextIndexConfig.DistinctNames (config : FullTextIndexConfig) : Prop :=
  (config.rowIdField :: config.indexedTextFields).Nodup

/-- `build_schema`. -/
def buildSchema (config : FullTextIndexConfig)
    (h : config.DistinctNames) : Schema where
  fields :=
    { name := config.rowIdField, fieldType := .u64 true true true }
      :: config.indexedTextFields.map (textFieldEntry config.tokenizer)
  nodup_names := by
    rw [List.map_cons, List.map_map]
    show (config.rowIdField :: config.indexedTextFields.map id).Nodup
    rw [List.map_id]
    exact h

theorem buildSchema_names (config : FullTextIndexConfig)
    (h : config.DistinctNames) :
    (buildSchema config h).fields.map FieldEntry.name
      = config.rowIdField :: config.indexedTextFields := by
  unfold buildSchema
  rw [List.map_cons, List.map_map]
  show config.rowIdField :: config.indexedTextFields.map id = _
  rw [List.map_id]

/-- A configuration that passes its checks names its fields once each. -/
theorem nodup_of_validate {config : FullTextIndexConfig}
    (h : config.validate = .ok ()) : config.DistinctNames := by
  have hfields := (validate_eq_ok.mp h).2.2.1
  refine List.nodup_cons.mpr ⟨?_, nodup_dedupInto _ List.nodup_nil⟩
  intro hmem
  have hmem' : config.rowIdField ∈ config.textFields := by
    simpa [FullTextIndexConfig.indexedTextFields, dedupStrs] using hmem
  exact (hfields _ hmem').2 rfl

theorem default_distinctNames : ({} : FullTextIndexConfig).DistinctNames :=
  nodup_of_validate rfl

-- ============================================================= documents

/-- A value of a document field. -/
inductive FieldValue where
  | u64 (value : UInt64)
  | text (value : String)
  deriving DecidableEq, Repr

/-- `TantivyDocument`: field values in the order they were added. -/
abbrev TantivyDocument := List (Field × FieldValue)

/-- The loop of `text_field_map`. -/
def collectTextFields (schema : Schema) :
    List String → Result (List (String × Field))
  | [] => return []
  | name :: names => do
      let field ← match schema.getField name with
        | some field => pure field
        | none => throw (.invalidStorage s!"missing text field '{name}'")
      return (name, field) :: (← collectTextFields schema names)

/-- `text_field_map`: the names are distinct, so no insert overwrites. -/
def textFieldMap (schema : Schema) (config : FullTextIndexConfig) :
    Result (List (String × Field)) :=
  collectTextFields schema config.indexedTextFields

/-- A name in the map has the schema's field. -/
theorem getField_of_lookup {schema : Schema} {names : List String}
    {fields : List (String × Field)}
    (h : collectTextFields schema names = .ok fields) {name : String}
    {field : Field} (hf : fields.lookup name = some field) :
    schema.getField name = some field := by
  induction names generalizing fields with
  | nil =>
      cases h
      cases hf
  | cons n names ih =>
      unfold collectTextFields at h
      cases hn : schema.getField n with
      | none => rw [hn] at h; cases h
      | some f =>
          cases hrest : collectTextFields schema names with
          | error e => rw [hn, hrest] at h; cases h
          | ok rest =>
              rw [hn, hrest] at h
              cases h
              rw [List.lookup_cons] at hf
              split at hf
              · rename_i heq
                rw [beq_iff_eq] at heq
                rw [heq, hn, hf]
              · exact ih hrest hf

end PaimonFtindex.Model

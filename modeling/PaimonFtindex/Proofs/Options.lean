/-
The two option loops as one run of writes to named settings.

`setOption` of tokenizer.rs and of config.rs each match one normalised
key against their own list of names and assign one field. Seen from
outside they are a single loop over entries that write slots: `Setting`
names the seventeen slots, `readEntry` says which slot an entry writes
and with what value, or that its value is rejected. The two normal
forms differ, but no entry is read by both loops
(`fieldSetting_of_tokenizerSetting`), so the loops do not interfere and
`fromOptions_eq_ok` reduces `from_options` to a run over `optionSlots`
followed by the checks.
-/
import PaimonFtindex.Lib.Slots
import PaimonFtindex.Model.Config

namespace PaimonFtindex.Proofs

open Model Lib

-- ========================================================= the settings

/-- The settings the two option loops know. -/
inductive Setting where
  | tokenizer
  | ngramMinGram
  | ngramMaxGram
  | ngramPrefixOnly
  | jiebaSearchMode
  | jiebaOrdinalPosition
  | lowerCase
  | maxTokenLength
  | asciiFolding
  | stem
  | language
  | removeStopWords
  | stopWords
  | withPosition
  | rowIdField
  | textField
  | textFields
  deriving DecidableEq, Repr

/-- What the slot of a setting holds. -/
def Setting.Value : Setting → Type
  | .tokenizer => TokenizerKind
  | .ngramMinGram | .ngramMaxGram | .maxTokenLength => UInt64
  | .ngramPrefixOnly | .jiebaSearchMode | .jiebaOrdinalPosition | .lowerCase
  | .asciiFolding | .stem | .removeStopWords | .withPosition => Bool
  | .language => String
  | .stopWords => List String
  | .rowIdField | .textField => Option String
  | .textFields => Option (List String)

/-- The locals of both loops together. -/
structure OptionLocals where
  tokenizer : TokenizerConfig := {}
  fields : FieldOptions := {}

/-- Read the slot of a setting. -/
def Setting.get : (s : Setting) → OptionLocals → s.Value
  | .tokenizer, l => l.tokenizer.tokenizer
  | .ngramMinGram, l => l.tokenizer.ngramMinGram
  | .ngramMaxGram, l => l.tokenizer.ngramMaxGram
  | .ngramPrefixOnly, l => l.tokenizer.ngramPrefixOnly
  | .jiebaSearchMode, l => l.tokenizer.jiebaSearchMode
  | .jiebaOrdinalPosition, l => l.tokenizer.jiebaOrdinalPosition
  | .lowerCase, l => l.tokenizer.lowerCase
  | .maxTokenLength, l => l.tokenizer.maxTokenLength
  | .asciiFolding, l => l.tokenizer.asciiFolding
  | .stem, l => l.tokenizer.stem
  | .language, l => l.tokenizer.language
  | .removeStopWords, l => l.tokenizer.removeStopWords
  | .stopWords, l => l.tokenizer.stopWords
  | .withPosition, l => l.tokenizer.withPosition
  | .rowIdField, l => l.fields.rowIdField
  | .textField, l => l.fields.textField
  | .textFields, l => l.fields.textFields

/-- Assign the slot of a setting. -/
def Setting.put : (s : Setting) → s.Value → OptionLocals → OptionLocals
  | .tokenizer, v, l => { l with tokenizer.tokenizer := v }
  | .ngramMinGram, v, l => { l with tokenizer.ngramMinGram := v }
  | .ngramMaxGram, v, l => { l with tokenizer.ngramMaxGram := v }
  | .ngramPrefixOnly, v, l => { l with tokenizer.ngramPrefixOnly := v }
  | .jiebaSearchMode, v, l => { l with tokenizer.jiebaSearchMode := v }
  | .jiebaOrdinalPosition, v, l =>
      { l with tokenizer.jiebaOrdinalPosition := v }
  | .lowerCase, v, l => { l with tokenizer.lowerCase := v }
  | .maxTokenLength, v, l => { l with tokenizer.maxTokenLength := v }
  | .asciiFolding, v, l => { l with tokenizer.asciiFolding := v }
  | .stem, v, l => { l with tokenizer.stem := v }
  | .language, v, l => { l with tokenizer.language := v }
  | .removeStopWords, v, l => { l with tokenizer.removeStopWords := v }
  | .stopWords, v, l => { l with tokenizer.stopWords := v }
  | .withPosition, v, l => { l with tokenizer.withPosition := v }
  | .rowIdField, v, l => { l with fields.rowIdField := v }
  | .textField, v, l => { l with fields.textField := v }
  | .textFields, v, l => { l with fields.textFields := v }

/-- The settings are independent slots, and all there is to the locals. -/
def optionSlots : SlotMap Setting Setting.Value OptionLocals where
  get := Setting.get
  put := Setting.put
  get_put_self := by
    intro s v l
    cases s <;> rfl
  get_put_of_ne := by
    intro s t v l hne
    cases s <;> cases t <;> first | exact absurd rfl hne | rfl
  ext := by
    intro l l' h
    obtain ⟨⟨⟩, ⟨⟩⟩ := l
    obtain ⟨⟨⟩, ⟨⟩⟩ := l'
    have h1 := h .tokenizer
    have h2 := h .ngramMinGram
    have h3 := h .ngramMaxGram
    have h4 := h .ngramPrefixOnly
    have h5 := h .jiebaSearchMode
    have h6 := h .jiebaOrdinalPosition
    have h7 := h .lowerCase
    have h8 := h .maxTokenLength
    have h9 := h .asciiFolding
    have h10 := h .stem
    have h11 := h .language
    have h12 := h .removeStopWords
    have h13 := h .stopWords
    have h14 := h .withPosition
    have h15 := h .rowIdField
    have h16 := h .textField
    have h17 := h .textFields
    simp only [Setting.get] at *
    subst_vars
    rfl

theorem optionSlots_put (s : Setting) (v : s.Value) (l : OptionLocals) :
    optionSlots.put s v l = s.put v l := rfl

-- ===================================================== reading an entry

/-- The setting a key of the tokenizer loop names. -/
def tokenizerSetting : String → Option Setting
  | "tokenizer" => some .tokenizer
  | "ngram.min-gram" => some .ngramMinGram
  | "ngram.max-gram" => some .ngramMaxGram
  | "ngram.prefix-only" => some .ngramPrefixOnly
  | "jieba.search-mode" => some .jiebaSearchMode
  | "jieba.ordinal-position" | "jieba.ordinal-position-mode" =>
      some .jiebaOrdinalPosition
  | "lower-case" => some .lowerCase
  | "max-token-length" => some .maxTokenLength
  | "ascii-folding" => some .asciiFolding
  | "stem" => some .stem
  | "language" => some .language
  | "remove-stop-words" => some .removeStopWords
  | "stop-words" => some .stopWords
  | "with-position" => some .withPosition
  | _ => none

/-- The setting a key of the field loop names. -/
def fieldSetting : String → Option Setting
  | "row-id-field" => some .rowIdField
  | "text-field" => some .textField
  | "text-fields" | "columns" => some .textFields
  | _ => none

section
variable [UnicodeCase]

/-- The value a setting takes from an option value. -/
def Setting.parse : (s : Setting) → String → String → Result s.Value
  | .tokenizer, _, value => parseTokenizer value
  | .ngramMinGram, key, value => parseUsize key value
  | .ngramMaxGram, key, value => parseUsize key value
  | .ngramPrefixOnly, key, value => parseBool key value
  | .jiebaSearchMode, key, value => parseBool key value
  | .jiebaOrdinalPosition, key, value => parseBool key value
  | .lowerCase, key, value => parseBool key value
  | .maxTokenLength, key, value => parseUsize key value
  | .asciiFolding, key, value => parseBool key value
  | .stem, key, value => parseBool key value
  | .language, _, value => .ok (UnicodeCase.toLowercase (trim value))
  | .removeStopWords, key, value => parseBool key value
  | .stopWords, _, value => .ok (splitStopWords value)
  | .withPosition, key, value => parseBool key value
  | .rowIdField, key, value => (cleanName value key).map some
  | .textField, key, value => (cleanName value key).map some
  | .textFields, _, value => (splitTextFields value).map some

/-- The key of an entry as the tokenizer loop sees it. -/
def tokenizerKey (entry : OptionEntry) : String :=
  TokenizerConfig.normalizeOptionKey (stripOptionPrefix entry.1)

/-- The key of an entry as the field loop sees it. -/
def fieldKey (entry : OptionEntry) : String :=
  FullTextIndexConfig.normalizeOptionKey entry.1

/-- What an entry writes: nothing, or a value for one setting; an error
when the setting rejects the value. -/
def readEntry (entry : OptionEntry) : Result (Option (Σ s : Setting, s.Value)) :=
  match tokenizerSetting (tokenizerKey entry) with
  | some s => (s.parse (tokenizerKey entry) entry.2).map fun v => some ⟨s, v⟩
  | none =>
      match fieldSetting (fieldKey entry) with
      | some s => (s.parse (fieldKey entry) entry.2).map fun v => some ⟨s, v⟩
      | none => .ok none

/-- The write of an entry whose value is accepted. -/
def entryWrites (entry : OptionEntry) : Option (Σ s : Setting, s.Value) :=
  match readEntry entry with
  | .ok w => w
  | .error _ => none

-- ================================================ the loops as one run

/-- The field loop's key is the tokenizer loop's key with every `_`
turned into `-`: the only difference between the two normal forms. -/
theorem fieldKey_eq (entry : OptionEntry) :
    fieldKey entry = replaceChar (tokenizerKey entry) '_' "-" := rfl

omit [UnicodeCase] in
/-- A name of the tokenizer loop is none of the field loop. -/
private theorem fieldSetting_replaceChar {key : String} {s : Setting}
    (h : tokenizerSetting key = some s) :
    fieldSetting (replaceChar key '_' "-") = none := by
  unfold tokenizerSetting at h
  split at h <;> first | (cases h; done) | decide

/-- No entry is read by both loops. -/
theorem fieldSetting_of_tokenizerSetting {entry : OptionEntry} {s : Setting}
    (h : tokenizerSetting (tokenizerKey entry) = some s) :
    fieldSetting (fieldKey entry) = none :=
  fieldSetting_replaceChar h

omit [UnicodeCase] in
/-- Parse, then assign: `?` followed by one assignment maps the result. -/
private theorem bind_pure_eq_map {α β : Type} (r : Result α) (f : α → β) :
    (r >>= fun a => pure (f a)) = r.map f := by
  cases r <;> rfl

/-- The tokenizer loop's body, read through the settings. -/
theorem setKey_tokenizer (l : OptionLocals) (key value : String) :
    TokenizerConfig.setKey l.tokenizer key value
      = match tokenizerSetting key with
        | some s => (s.parse key value).map fun v => (s.put v l).tokenizer
        | none => .ok l.tokenizer := by
  unfold TokenizerConfig.setKey
  split
  case h_16 =>
    have hnone : tokenizerSetting key = none := by simp [tokenizerSetting, *]
    rw [hnone]
    rfl
  all_goals first | exact bind_pure_eq_map _ _ | rfl

/-- The field loop's body, read through the settings. -/
theorem setKey_fields (l : OptionLocals) (key value : String) :
    FieldOptions.setKey l.fields key value
      = match fieldSetting key with
        | some s => (s.parse key value).map fun v => (s.put v l).fields
        | none => .ok l.fields := by
  unfold FieldOptions.setKey
  split
  · show _ = ((cleanName value "row-id-field").map some).map _
    cases cleanName value "row-id-field" <;> rfl
  · show _ = ((cleanName value "text-field").map some).map _
    cases cleanName value "text-field" <;> rfl
  · show _ = ((splitTextFields value).map some).map _
    cases splitTextFields value <;> rfl
  · show _ = ((splitTextFields value).map some).map _
    cases splitTextFields value <;> rfl
  · have hnone : fieldSetting key = none := by simp [fieldSetting, *]
    rw [hnone]
    rfl

omit [UnicodeCase] in
/-- The tokenizer loop's settings leave the field loop's locals alone. -/
private theorem put_fields {key : String} {s : Setting}
    (h : tokenizerSetting key = some s) (v : s.Value) (l : OptionLocals) :
    (s.put v l).fields = l.fields := by
  unfold tokenizerSetting at h
  split at h <;> cases h <;> rfl

omit [UnicodeCase] in
/-- The field loop's settings leave the tokenizer loop's local alone. -/
private theorem put_tokenizer {key : String} {s : Setting}
    (h : fieldSetting key = some s) (v : s.Value) (l : OptionLocals) :
    (s.put v l).tokenizer = l.tokenizer := by
  unfold fieldSetting at h
  split at h <;> cases h <;> rfl

/-- The value of the entry is accepted, or the entry is not read. -/
def Accepts (entry : OptionEntry) : Prop := ∃ w, readEntry entry = .ok w

omit [UnicodeCase] in
/-- Locals are the same when both loops' locals are. -/
private theorem locals_eq_iff {l l' : OptionLocals} :
    l = l' ↔ l.tokenizer = l'.tokenizer ∧ l.fields = l'.fields := by
  constructor
  · intro h
    subst h
    exact ⟨rfl, rfl⟩
  · rintro ⟨ht, hf⟩
    cases l
    cases l'
    simp_all

/-- One entry through both loops is one accepted write. -/
theorem setOption_eq_ok (l l' : OptionLocals) (entry : OptionEntry) :
    (TokenizerConfig.setOption l.tokenizer entry = .ok l'.tokenizer
        ∧ FieldOptions.setOption l.fields entry = .ok l'.fields)
      ↔ Accepts entry ∧ optionSlots.write entryWrites l entry = l' := by
  have htok : TokenizerConfig.setOption l.tokenizer entry = _ :=
    setKey_tokenizer l (tokenizerKey entry) entry.2
  have hfld : FieldOptions.setOption l.fields entry = _ :=
    setKey_fields l (fieldKey entry) entry.2
  rw [htok, hfld]
  unfold Accepts SlotMap.write entryWrites readEntry
  cases hs : tokenizerSetting (tokenizerKey entry) with
  | some s =>
      rw [fieldSetting_of_tokenizerSetting hs]
      dsimp only
      cases s.parse (tokenizerKey entry) entry.2 with
      | error err => simp [Except.map]
      | ok v =>
          dsimp only [Except.map]
          rw [optionSlots_put, locals_eq_iff, put_fields hs v l]
          simp
  | none =>
      dsimp only
      cases hf : fieldSetting (fieldKey entry) with
      | none => simp [locals_eq_iff]
      | some s =>
          dsimp only
          cases s.parse (fieldKey entry) entry.2 with
          | error err => simp [Except.map]
          | ok v =>
              dsimp only [Except.map]
              rw [optionSlots_put, locals_eq_iff, put_tokenizer hf v l]
              simp

/-- Both loops succeed exactly when every entry is accepted, and then
they have run the entries' writes. -/
theorem foldlM_setOption_eq_ok (entries : List OptionEntry)
    (l l' : OptionLocals) :
    (entries.foldlM TokenizerConfig.setOption l.tokenizer = .ok l'.tokenizer
        ∧ entries.foldlM FieldOptions.setOption l.fields = .ok l'.fields)
      ↔ (∀ e ∈ entries, Accepts e)
        ∧ optionSlots.run entryWrites entries l = l' := by
  induction entries generalizing l with
  | nil => simp [SlotMap.run, locals_eq_iff, pure, Except.pure]
  | cons e entries ih =>
      rw [List.foldlM_cons, List.foldlM_cons]
      constructor
      · rintro ⟨ht, hf⟩
        cases htok : TokenizerConfig.setOption l.tokenizer e with
        | error err => rw [htok] at ht; cases ht
        | ok c =>
            cases hfld : FieldOptions.setOption l.fields e with
            | error err => rw [hfld] at hf; cases hf
            | ok f =>
                obtain ⟨hacc, hw⟩ :=
                  (setOption_eq_ok l ⟨c, f⟩ e).mp ⟨htok, hfld⟩
                rw [htok] at ht
                rw [hfld] at hf
                obtain ⟨hall, hrun⟩ := (ih ⟨c, f⟩).mp ⟨ht, hf⟩
                refine ⟨?_, ?_⟩
                · intro e' he'
                  rcases List.mem_cons.mp he' with rfl | he'
                  · exact hacc
                  · exact hall e' he'
                · rw [← hrun, ← hw]
                  rfl
      · rintro ⟨hall, hrun⟩
        obtain ⟨htok, hfld⟩ := (setOption_eq_ok l _ e).mpr
          ⟨hall e List.mem_cons_self, rfl⟩
        rw [htok, hfld]
        exact (ih _).mpr
          ⟨fun e' he' => hall e' (List.mem_cons_of_mem e he'), hrun⟩

/-- What `from_options` does with the locals the loops leave. -/
def OptionLocals.finish (l : OptionLocals) : Result FullTextIndexConfig := do
  l.tokenizer.validate
  l.fields.toConfig l.tokenizer

/-- `from_options` succeeds when every entry is accepted and the checks
pass on what the writes leave. -/
theorem fromOptions_eq_ok (entries : List OptionEntry)
    (config : FullTextIndexConfig) :
    FullTextIndexConfig.fromOptions entries = .ok config
      ↔ (∀ e ∈ entries, Accepts e)
        ∧ (optionSlots.run entryWrites entries {}).finish = .ok config := by
  unfold FullTextIndexConfig.fromOptions TokenizerConfig.fromOptions
  constructor
  · intro h
    cases htok : entries.foldlM TokenizerConfig.setOption {} with
    | error err => rw [htok] at h; cases h
    | ok c =>
        rw [htok] at h
        cases hval : c.validate with
        | error err => simp [hval, bind, Except.bind] at h
        | ok u =>
            cases hfld : entries.foldlM FieldOptions.setOption {} with
            | error err =>
                simp [hval, hfld, bind, Except.bind, pure, Except.pure] at h
            | ok f =>
                obtain ⟨hall, hrun⟩ :=
                  (foldlM_setOption_eq_ok entries {} ⟨c, f⟩).mp ⟨htok, hfld⟩
                refine ⟨hall, ?_⟩
                rw [hrun]
                simpa [OptionLocals.finish, hval, hfld, bind, Except.bind, pure,
                  Except.pure] using h
  · rintro ⟨hall, hfin⟩
    obtain ⟨htok, hfld⟩ := (foldlM_setOption_eq_ok entries {} _).mpr ⟨hall, rfl⟩
    have htok' : entries.foldlM TokenizerConfig.setOption {} = _ := htok
    have hfld' : entries.foldlM FieldOptions.setOption {} = _ := hfld
    rw [htok', hfld']
    unfold OptionLocals.finish at hfin
    generalize optionSlots.run entryWrites entries {} = l at hfin
    cases hval : l.tokenizer.validate with
    | error err => simp [hval, bind, Except.bind] at hfin
    | ok u => simpa [hval, bind, Except.bind, pure, Except.pure] using hfin

end

end PaimonFtindex.Proofs

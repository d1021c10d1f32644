/-
What the order of an option map can do to `from_options`.

A `HashMap` yields its entries in any order, so one map stands for all
the orders of its entries, and several spellings fold onto one setting
by assignment. By `Lib.Slots` the states the loops can leave are the
readings of the map: each setting holds a value some entry gives it, or
its default when no entry does. The outcome is the same under all orders
exactly when the map is refused under all of them or settled, that is
when every setting that counts is given one value only
(`sameOutcome_orders_iff`). The same comparison across two maps decides
respelling: there the maps differ in which entries the tokenizer loop
recognises, because its normal form keeps `_`.

The one setting that may not count is `text-field`: `text-fields` and
`columns` win over it whatever the order.
-/
import PaimonFtindex.Lib.Outcome
import PaimonFtindex.Proofs.Options

namespace PaimonFtindex.Proofs

open Model Lib

/-- An option map: entries whose keys are distinct. -/
structure OptionMap where
  entries : List OptionEntry
  nodup_keys : (entries.map Prod.fst).Nodup

section
variable [UnicodeCase]

-- ========================================================= the vocabulary

/-- `l` is one of the orders in which the map can yield its entries. -/
def OptionMap.Order (m : OptionMap) (l : List OptionEntry) : Prop :=
  l.Perm m.entries

/-- Some entry's value is rejected by the parser of its setting. -/
def OptionMap.Rejects (m : OptionMap) : Prop :=
  ∃ e ∈ m.entries, ¬ Accepts e

/-- The map can give setting `s` the value `v`: an entry does, or no
entry is read for `s` and `v` is its default. -/
def OptionMap.Gives (m : OptionMap) (s : Setting) (v : s.Value) : Prop :=
  (∃ e ∈ m.entries, entryWrites e = some ⟨s, v⟩)
    ∨ ((∀ e ∈ m.entries, ∀ w, entryWrites e ≠ some ⟨s, w⟩) ∧ v = s.get {})

/-- A choice of one value the map gives for each setting. -/
def OptionMap.Reading (m : OptionMap) (l : OptionLocals) : Prop :=
  ∀ s, m.Gives s (s.get l)

/-- The map is refused in every order: a value is rejected, or no choice
of values passes the checks. -/
def OptionMap.Refused (m : OptionMap) : Prop :=
  m.Rejects ∨ ∀ l, m.Reading l → ∀ config, l.finish ≠ .ok config

/-- `s` has no effect: it is `text-field`, and `text-fields` or `columns`
is given. -/
def OptionMap.Overridden (m : OptionMap) (s : Setting) : Prop :=
  s = .textField ∧ ∃ e ∈ m.entries, ∃ v, entryWrites e = some ⟨.textFields, v⟩

/-- All values the two maps give a setting that counts are one value. -/
def OptionMap.Agree (m m' : OptionMap) : Prop :=
  ∀ s, ¬ m.Overridden s → ∀ v v', m.Gives s v → m'.Gives s v' → v = v'

/-- Every setting that counts is given one value only. -/
def OptionMap.Settled (m : OptionMap) : Prop := m.Agree m

/-- The settings of the field loop. -/
def Setting.isField : Setting → Bool
  | .rowIdField | .textField | .textFields => true
  | _ => false

-- ==================================================== orders and readings

/-- The readings are what the loops leave, over all orders. -/
theorem OptionMap.reading_iff {m : OptionMap} {l : OptionLocals} :
    m.Reading l
      ↔ ∃ es, m.Order es ∧ optionSlots.run entryWrites es {} = l :=
  (@SlotMap.run_perm_iff_reads _ _ _ _ optionSlots entryWrites _ _ _).symm

/-- A map that rejects no value reaches each reading that passes the
checks, and nothing else. -/
theorem OptionMap.exists_order_eq_ok_iff {m : OptionMap}
    {config : FullTextIndexConfig} :
    (∃ es, m.Order es ∧ FullTextIndexConfig.fromOptions es = .ok config)
      ↔ ¬ m.Rejects ∧ ∃ l, m.Reading l ∧ l.finish = .ok config := by
  constructor
  · rintro ⟨es, hes, hok⟩
    obtain ⟨hall, hfin⟩ := (fromOptions_eq_ok es config).mp hok
    refine ⟨?_, _, OptionMap.reading_iff.mpr ⟨es, hes, rfl⟩, hfin⟩
    rintro ⟨e, he, hrej⟩
    exact hrej (hall e (hes.mem_iff.mpr he))
  · rintro ⟨hrej, l, hl, hfin⟩
    obtain ⟨es, hes, rfl⟩ := OptionMap.reading_iff.mp hl
    refine ⟨es, hes, (fromOptions_eq_ok es config).mpr ⟨fun e he => ?_, hfin⟩⟩
    by_contra hacc
    exact hrej ⟨e, hes.mem_iff.mp he, hacc⟩

/-- A refused map is one no order of which succeeds. -/
theorem OptionMap.refused_iff {m : OptionMap} :
    m.Refused ↔ ∀ es, m.Order es → ∀ config,
      FullTextIndexConfig.fromOptions es ≠ .ok config := by
  constructor
  · intro h es hes config hok
    obtain ⟨hrej, l, hl, hfin⟩ :=
      OptionMap.exists_order_eq_ok_iff.mp ⟨es, hes, hok⟩
    rcases h with h | h
    · exact hrej h
    · exact h l hl config hfin
  · intro h
    by_cases hrej : m.Rejects
    · exact Or.inl hrej
    · refine Or.inr fun l hl config hfin => ?_
      obtain ⟨es, hes, hok⟩ :=
        OptionMap.exists_order_eq_ok_iff.mpr ⟨hrej, l, hl, hfin⟩
      exact h es hes config hok

/-- Every map has a reading. -/
theorem OptionMap.exists_reading (m : OptionMap) : ∃ l, m.Reading l :=
  ⟨_, OptionMap.reading_iff.mpr ⟨m.entries, List.Perm.refl _, rfl⟩⟩

/-- A reading with one setting given another of its values is a
reading. -/
theorem OptionMap.Reading.put {m : OptionMap} {l : OptionLocals}
    (h : m.Reading l) {s : Setting} {v : s.Value} (hv : m.Gives s v) :
    m.Reading (s.put v l) := by
  intro t
  by_cases hts : t = s
  · subst hts
    have hget : t.get (t.put v l) = v := optionSlots.get_put_self t v l
    rw [hget]
    exact hv
  · have hget : t.get (s.put v l) = t.get l :=
      optionSlots.get_put_of_ne s t v l hts
    rw [hget]
    exact h t

-- ================================================= what finish keeps

omit [UnicodeCase] in
/-- The field list `toConfig` builds. -/
private def chosenFields (f : FieldOptions) : List String :=
  dedupPreserveOrder
    ((f.textFields.orElse fun _ =>
      f.textField.map fun field => [field]).getD defaultTextFields)

omit [UnicodeCase] in
/-- An accepted configuration carries the locals as they are: the
tokenizer, the row id field or its default, the chosen fields. -/
theorem OptionLocals.finish_eq {l : OptionLocals}
    {config : FullTextIndexConfig} (h : l.finish = .ok config) :
    config.tokenizer = l.tokenizer
      ∧ config.rowIdField = l.fields.rowIdField.getD defaultRowIdField
      ∧ config.textFields = chosenFields l.fields := by
  unfold OptionLocals.finish FieldOptions.toConfig at h
  cases hval : l.tokenizer.validate with
  | error err => simp [hval, bind, Except.bind] at h
  | ok u =>
      simp only [hval, bind, Except.bind] at h
      split at h
      · cases h
      · split at h
        · cases h
        · cases h
          exact ⟨rfl, rfl, rfl⟩

omit [UnicodeCase] in
/-- The outcome of the checks does not read `text-field` when
`text-fields` is set. -/
theorem OptionLocals.finish_congr {l l' : OptionLocals}
    (htok : l.tokenizer = l'.tokenizer)
    (hrow : l.fields.rowIdField = l'.fields.rowIdField)
    (hfields : l.fields.textFields = l'.fields.textFields)
    (hfield : l.fields.textFields = none →
      l.fields.textField = l'.fields.textField) :
    l.finish = l'.finish := by
  have hchosen : (l.fields.textFields.orElse fun _ =>
        l.fields.textField.map fun field => [field])
      = l'.fields.textFields.orElse fun _ =>
        l'.fields.textField.map fun field => [field] := by
    cases h : l.fields.textFields with
    | none => rw [← hfields, h, hfield h]
    | some fields => rw [← hfields, h]; rfl
  unfold OptionLocals.finish FieldOptions.toConfig
  rw [htok, hrow, hchosen]

/-- A written value is the setting's reading of the entry's value. -/
theorem exists_parse_of_entryWrites {e : OptionEntry} {s : Setting}
    {v : s.Value} (h : entryWrites e = some ⟨s, v⟩) :
    ∃ key, s.parse key e.2 = .ok v := by
  unfold entryWrites readEntry at h
  cases htok : tokenizerSetting (tokenizerKey e) with
  | some t =>
      simp only [htok] at h
      cases hv : t.parse (tokenizerKey e) e.2 with
      | error err => simp [hv, Except.map] at h
      | ok w =>
          simp only [hv, Except.map, Option.some.injEq] at h
          cases h
          exact ⟨_, hv⟩
  | none =>
      cases hfld : fieldSetting (fieldKey e) with
      | none => simp [htok, hfld] at h
      | some t =>
          simp only [htok, hfld] at h
          cases hv : t.parse (fieldKey e) e.2 with
          | error err => simp [hv, Except.map] at h
          | ok w =>
              simp only [hv, Except.map, Option.some.injEq] at h
              cases h
              exact ⟨_, hv⟩

theorem Setting.parse_rowIdField (key value : String) :
    Setting.rowIdField.parse key value = (cleanName value key).map some := rfl

theorem Setting.parse_textField (key value : String) :
    Setting.textField.parse key value = (cleanName value key).map some := rfl

/-- An entry of a setting whose values are cleaned names gives it one. -/
theorem exists_name_of_entryWrites {s : Setting} {wrap : String → s.Value}
    (hparse : ∀ key value, s.parse key value = (cleanName value key).map wrap)
    {e : OptionEntry} {v : s.Value} (h : entryWrites e = some ⟨s, v⟩) :
    ∃ name, v = wrap name := by
  obtain ⟨key, hv⟩ := exists_parse_of_entryWrites h
  rw [hparse] at hv
  cases hname : cleanName e.2 key with
  | error err =>
      rw [hname] at hv
      cases hv
  | ok name =>
      rw [hname] at hv
      cases hv
      exact ⟨name, rfl⟩

/-- The fields an entry gives are deduplicated already. -/
theorem textFields_of_entryWrites {e : OptionEntry}
    {v : Setting.textFields.Value} (h : entryWrites e = some ⟨.textFields, v⟩) :
    ∃ fields, v = some fields ∧ dedupPreserveOrder fields = fields := by
  obtain ⟨key, hv⟩ := exists_parse_of_entryWrites h
  have hsplit : (splitTextFields e.2).map some = .ok v := hv
  unfold splitTextFields at hsplit
  dsimp only at hsplit
  split at hsplit
  · cases hsplit
  · cases hsplit
    exact ⟨_, rfl, dedupPreserveOrder_idem _⟩

-- ======================================== one outcome, one value each

/-- Two values a map gives one setting come from entries, or are both the
default. -/
theorem OptionMap.Gives.written_or_eq {m : OptionMap} {s : Setting}
    {v v' : s.Value} (h : m.Gives s v) (h' : m.Gives s v') :
    (∃ e e', entryWrites e = some ⟨s, v⟩ ∧ entryWrites e' = some ⟨s, v'⟩)
      ∨ v = v' := by
  rcases h with ⟨e, he, hw⟩ | ⟨hnone, rfl⟩
  · rcases h' with ⟨e', he', hw'⟩ | ⟨hnone, -⟩
    · exact .inl ⟨e, e', hw, hw'⟩
    · exact absurd hw (hnone e he _)
  · rcases h' with ⟨e', he', hw'⟩ | ⟨-, rfl⟩
    · exact absurd hw' (hnone e' he' _)
    · exact .inr rfl

omit [UnicodeCase] in
/-- A tokenizer setting is read off the tokenizer local. -/
private theorem get_congr_tokenizer {s : Setting} (hs : s.isField = false)
    {l l' : OptionLocals} (h : l.tokenizer = l'.tokenizer) :
    s.get l = s.get l' := by
  obtain ⟨t, f⟩ := l
  obtain ⟨t', f'⟩ := l'
  have ht : t = t' := h
  subst ht
  cases s <;> first | (cases hs; done) | rfl

/-- If two maps set the same fields and every reading of either passes
the checks with one configuration, they agree on every setting. -/
theorem OptionMap.agree_of_finish {m m' : OptionMap}
    (hsame : ∀ s : Setting, s.isField = true → ∀ v, m.Gives s v ↔ m'.Gives s v)
    {config : FullTextIndexConfig}
    (h : ∀ l, m.Reading l → l.finish = .ok config)
    (h' : ∀ l, m'.Reading l → l.finish = .ok config) : m.Agree m' := by
  intro s hs v v' hv hv'
  obtain ⟨l, hl⟩ := m.exists_reading
  obtain ⟨l', hl'⟩ := m'.exists_reading
  -- the configuration read off two readings that give `s` either value
  obtain ⟨htok, hrow, hfields⟩ := OptionLocals.finish_eq (h _ (hl.put hv))
  obtain ⟨htok', hrow', hfields'⟩ := OptionLocals.finish_eq (h' _ (hl'.put hv'))
  cases hf : s.isField with
  | false =>
      calc v = s.get (s.put v l) := (optionSlots.get_put_self s v l).symm
        _ = s.get (s.put v' l') :=
            get_congr_tokenizer hf (htok.symm.trans htok')
        _ = v' := optionSlots.get_put_self s v' l'
  | true =>
      have hv'' := (hsame s hf v').mpr hv'
      cases s with
      | rowIdField =>
          have heq : (v : Option String).getD defaultRowIdField
              = (v' : Option String).getD defaultRowIdField :=
            hrow.symm.trans hrow'
          rcases hv.written_or_eq hv'' with ⟨e, e', hw, hw'⟩ | hsame
          · obtain ⟨field, rfl⟩ := exists_name_of_entryWrites
              Setting.parse_rowIdField hw
            obtain ⟨field', rfl⟩ := exists_name_of_entryWrites
              Setting.parse_rowIdField hw'
            exact congrArg some heq
          · exact hsame
      | textFields =>
          rcases hv.written_or_eq hv'' with ⟨e, e', hw, hw'⟩ | hsame
          · obtain ⟨fields, rfl, hdedup⟩ := textFields_of_entryWrites hw
            obtain ⟨fields', rfl, hdedup'⟩ := textFields_of_entryWrites hw'
            have heq : dedupPreserveOrder fields
                = dedupPreserveOrder fields' := hfields.symm.trans hfields'
            rw [hdedup, hdedup'] at heq
            exact congrArg some heq
          · exact hsame
      | textField =>
          -- nothing overrides it: no entry sets `text-fields` in either map
          have hno : ∀ e ∈ m.entries, ∀ w,
              entryWrites e ≠ some ⟨.textFields, w⟩ := by
            intro e he w hw
            exact hs ⟨rfl, e, he, w, hw⟩
          have hnone : l.fields.textFields = none := by
            rcases hl .textFields with ⟨e, he, hw⟩ | ⟨-, hget⟩
            · exact absurd hw (hno e he _)
            · exact hget
          have hnone' : l'.fields.textFields = none := by
            rcases (hsame .textFields rfl _).mpr (hl' .textFields) with
              ⟨e, he, hw⟩ | ⟨-, hget⟩
            · exact absurd hw (hno e he _)
            · exact hget
          have heq := hfields.symm.trans hfields'
          unfold chosenFields at heq
          rw [show (Setting.textField.put v l).fields.textFields = none from hnone,
            show (Setting.textField.put v' l').fields.textFields = none
              from hnone'] at heq
          rcases hv.written_or_eq hv'' with ⟨e, e', hw, hw'⟩ | hsame
          · obtain ⟨field, rfl⟩ := exists_name_of_entryWrites
              Setting.parse_textField hw
            obtain ⟨field', rfl⟩ := exists_name_of_entryWrites
              Setting.parse_textField hw'
            have hone : [field] = [field'] := by
              have hd := @dedupPreserveOrder_eq_self [field] (by simp)
              have hd' := @dedupPreserveOrder_eq_self [field'] (by simp)
              rw [← hd, ← hd']
              exact heq
            rw [List.singleton_inj.mp hone]
          · exact hsame
      | _ => cases hf

/-- If two maps agree on every setting that counts, their readings end
in the same outcome. -/
theorem OptionMap.Agree.finish_eq {m m' : OptionMap} (h : m.Agree m')
    {l l' : OptionLocals} (hl : m.Reading l) (hl' : m'.Reading l') :
    l.finish = l'.finish := by
  have hget : ∀ s : Setting, ¬ m.Overridden s → s.get l = s.get l' := fun s hs =>
    h s hs _ _ (hl s) (hl' s)
  have hother : ∀ s : Setting, s ≠ .textField → s.get l = s.get l' := fun s hs =>
    hget s fun ho => hs ho.1
  have hfields : l.fields.textFields = l'.fields.textFields :=
    hother .textFields (by decide)
  refine OptionLocals.finish_congr ?_ (hother .rowIdField (by decide)) hfields ?_
  · have hext := optionSlots.ext ⟨l.tokenizer, {}⟩ ⟨l'.tokenizer, {}⟩ (by
      intro s
      cases hf : s.isField with
      | false =>
          calc s.get ⟨l.tokenizer, {}⟩ = s.get l := get_congr_tokenizer hf rfl
            _ = s.get l' := hother s (by intro hs; subst hs; cases hf)
            _ = s.get ⟨l'.tokenizer, {}⟩ := get_congr_tokenizer hf rfl
      | true => cases s <;> first | rfl | cases hf)
    have htok := congrArg OptionLocals.tokenizer hext
    exact htok
  · intro hnone
    refine hget .textField fun ho => ?_
    obtain ⟨-, e, he, v, hw⟩ := ho
    -- an overriding entry would have set `text-fields` in this reading
    rcases hl .textFields with ⟨e', he', hw'⟩ | ⟨hno, -⟩
    · obtain ⟨fields, hsome, -⟩ := textFields_of_entryWrites hw'
      have hnone' : Setting.textFields.get l = none := hnone
      rw [hnone'] at hsome
      cases hsome
    · exact hno e he v hw

-- ==================================================== the comparison

/-- Two maps that set the same fields have one outcome, over all orders
of both, exactly when both are refused or neither rejects a value and
they agree on every setting that counts. -/
theorem OptionMap.sameOutcome_iff {m m' : OptionMap}
    (hsame : ∀ s : Setting, s.isField = true → ∀ v, m.Gives s v ↔ m'.Gives s v) :
    (∀ es es', m.Order es → m'.Order es' →
        SameOutcome (FullTextIndexConfig.fromOptions es)
          (FullTextIndexConfig.fromOptions es'))
      ↔ (m.Refused ∧ m'.Refused)
        ∨ (¬ m.Rejects ∧ ¬ m'.Rejects ∧ m.Agree m') := by
  constructor
  · intro h
    by_cases hm : m.Refused
    · refine Or.inl ⟨hm, OptionMap.refused_iff.mpr fun es' hes' config hok => ?_⟩
      exact OptionMap.refused_iff.mp hm m.entries (List.Perm.refl _) config
        ((h m.entries es' (List.Perm.refl _) hes' config).mpr hok)
    · apply Or.inr
      -- some order of `m` succeeds, so every order of either map does,
      -- with that one configuration
      rw [OptionMap.refused_iff] at hm
      push Not at hm
      obtain ⟨es, hes, config, hok⟩ := hm
      have hall' : ∀ es', m'.Order es' →
          FullTextIndexConfig.fromOptions es' = .ok config := fun es' hes' =>
        (h es es' hes hes' config).mp hok
      have hall : ∀ es, m.Order es →
          FullTextIndexConfig.fromOptions es = .ok config := fun es hes =>
        (h es m'.entries hes (List.Perm.refl _) config).mpr
          (hall' m'.entries (List.Perm.refl _))
      have hagree := @OptionMap.agree_of_finish _ m m' hsame config
      refine ⟨?_, ?_, hagree ?_ ?_⟩
      · exact (OptionMap.exists_order_eq_ok_iff.mp ⟨es, hes, hok⟩).1
      · exact (OptionMap.exists_order_eq_ok_iff.mp
          ⟨m'.entries, List.Perm.refl _, hall' _ (List.Perm.refl _)⟩).1
      · intro l hl
        obtain ⟨es, hes, rfl⟩ := OptionMap.reading_iff.mp hl
        exact ((fromOptions_eq_ok es config).mp (hall es hes)).2
      · intro l hl
        obtain ⟨es, hes, rfl⟩ := OptionMap.reading_iff.mp hl
        exact ((fromOptions_eq_ok es config).mp (hall' es hes)).2
  · intro h es es' hes hes' config
    rcases h with ⟨hm, hm'⟩ | ⟨hrej, hrej', hagree⟩
    · constructor
      · intro hok
        exact absurd hok (OptionMap.refused_iff.mp hm es hes config)
      · intro hok
        exact absurd hok (OptionMap.refused_iff.mp hm' es' hes' config)
    · have hfin := hagree.finish_eq
        (OptionMap.reading_iff.mpr ⟨es, hes, rfl⟩)
        (OptionMap.reading_iff.mpr ⟨es', hes', rfl⟩)
      have hacc : ∀ e ∈ es, Accepts e := fun e he => by
        by_contra hno
        exact hrej ⟨e, hes.mem_iff.mp he, hno⟩
      have hacc' : ∀ e ∈ es', Accepts e := fun e he => by
        by_contra hno
        exact hrej' ⟨e, hes'.mem_iff.mp he, hno⟩
      rw [fromOptions_eq_ok, fromOptions_eq_ok, hfin]
      exact ⟨fun h => ⟨hacc', h.2⟩, fun h => ⟨hacc, h.2⟩⟩

/-- Parsing does not depend on the order of a map's entries exactly when
the map is refused in every order, or every setting that counts is given
one value only. -/
theorem sameOutcome_orders_iff (m : OptionMap) :
    (∀ es es', m.Order es → m.Order es' →
        SameOutcome (FullTextIndexConfig.fromOptions es)
          (FullTextIndexConfig.fromOptions es'))
      ↔ m.Refused ∨ m.Settled := by
  rw [OptionMap.sameOutcome_iff fun _ _ _ => Iff.rfl]
  constructor
  · intro h
    rcases h with ⟨hm, -⟩ | ⟨-, -, hagree⟩
    · exact Or.inl hm
    · exact Or.inr hagree
  · intro h
    by_cases hrej : m.Rejects
    · exact Or.inl ⟨Or.inl hrej, Or.inl hrej⟩
    · rcases h with hm | hsettled
      · exact Or.inl ⟨hm, hm⟩
      · exact Or.inr ⟨hrej, hrej, hsettled⟩

end

/-- `columns` and `text-fields` fold onto one setting, and the entry met
last stays: two orders of this map index different fields. -/
theorem columns_textFields_order_matters :
    ¬ ∀ (m : OptionMap) (es es' : List OptionEntry), m.Order es → m.Order es' →
        SameOutcome (@FullTextIndexConfig.fromOptions asciiCase es)
          (@FullTextIndexConfig.fromOptions asciiCase es') := by
  intro h
  have hsame := h ⟨[("columns", "a"), ("text-fields", "b")], by decide⟩
    [("columns", "a"), ("text-fields", "b")]
    [("text-fields", "b"), ("columns", "a")]
    (List.Perm.refl _) (List.Perm.swap _ _ _)
    { textFields := ["b"] }
  have hfirst : @FullTextIndexConfig.fromOptions asciiCase
      [("columns", "a"), ("text-fields", "b")]
      = .ok { textFields := ["b"] } := by decide +kernel
  have hsecond : @FullTextIndexConfig.fromOptions asciiCase
      [("text-fields", "b"), ("columns", "a")]
      ≠ .ok { textFields := ["b"] } := by decide +kernel
  exact hsecond (hsame.mp hfirst)

-- ======================================================== respelled keys

section
variable [UnicodeCase]

/-- `m'` is `m` with keys respelled: entry by entry the same value and
the same config.rs normal form. -/
def OptionMap.Respells (m m' : OptionMap) : Prop :=
  List.Forall₂ (fun e e' : OptionEntry => fieldKey e = fieldKey e' ∧ e.2 = e'.2)
    m.entries m'.entries

/-- A field setting is written by an entry exactly when its config.rs
normal form names the setting, whatever the tokenizer loop sees. -/
theorem entryWrites_field_iff {e : OptionEntry} {s : Setting}
    (hs : s.isField = true) {v : s.Value} :
    entryWrites e = some ⟨s, v⟩
      ↔ fieldSetting (fieldKey e) = some s
        ∧ s.parse (fieldKey e) e.2 = .ok v := by
  unfold entryWrites readEntry
  cases htok : tokenizerSetting (tokenizerKey e) with
  | some t =>
      have hnone := fieldSetting_of_tokenizerSetting htok
      have ht : t.isField = false := by
        unfold tokenizerSetting at htok
        split at htok <;> cases htok <;> rfl
      constructor
      · intro h
        dsimp only at h
        cases hv : t.parse (tokenizerKey e) e.2 with
        | error err => rw [hv] at h; cases h
        | ok w =>
            rw [hv] at h
            cases h
            rw [hs] at ht
            cases ht
      · intro h
        rw [hnone] at h
        cases h.1
  | none =>
      dsimp only
      cases hfld : fieldSetting (fieldKey e) with
      | none => simp
      | some t =>
          constructor
          · intro h
            dsimp only at h
            cases hv : t.parse (fieldKey e) e.2 with
            | error err => rw [hv] at h; cases h
            | ok w =>
                rw [hv] at h
                cases h
                exact ⟨rfl, hv⟩
          · intro h
            obtain ⟨hts, hv⟩ := h
            cases hts
            simp [hv, Except.map]

/-- A map of which each entry's writes to `s` are some entry's of the
other gives `s` what the other gives it. -/
private theorem gives_of_entries {m m' : OptionMap} {s : Setting}
    (h : ∀ e ∈ m.entries, ∃ e' ∈ m'.entries, ∀ v : s.Value,
      entryWrites e = some ⟨s, v⟩ ↔ entryWrites e' = some ⟨s, v⟩)
    (h' : ∀ e' ∈ m'.entries, ∃ e ∈ m.entries, ∀ v : s.Value,
      entryWrites e = some ⟨s, v⟩ ↔ entryWrites e' = some ⟨s, v⟩)
    {v : s.Value} (hv : m.Gives s v) : m'.Gives s v := by
  rcases hv with ⟨e, he, hw⟩ | ⟨hnone, hdef⟩
  · obtain ⟨e', he', hiff⟩ := h e he
    exact Or.inl ⟨e', he', (hiff v).mp hw⟩
  · refine Or.inr ⟨fun e' he' w hw => ?_, hdef⟩
    obtain ⟨e, he, hiff⟩ := h' e' he'
    exact hnone e he w ((hiff w).mpr hw)

/-- Respelled keys set the same fields. -/
theorem OptionMap.Respells.gives_field {m m' : OptionMap}
    (h : m.Respells m') {s : Setting} (hs : s.isField = true) (v : s.Value) :
    m.Gives s v ↔ m'.Gives s v := by
  have hiff : ∀ e e' : OptionEntry, fieldKey e = fieldKey e' ∧ e.2 = e'.2 →
      ∀ v : s.Value,
        entryWrites e = some ⟨s, v⟩ ↔ entryWrites e' = some ⟨s, v⟩ := by
    intro e e' hee v
    rw [entryWrites_field_iff hs, entryWrites_field_iff hs, hee.1, hee.2]
  have hl : ∀ e ∈ m.entries, ∃ e' ∈ m'.entries, ∀ v : s.Value,
      entryWrites e = some ⟨s, v⟩ ↔ entryWrites e' = some ⟨s, v⟩ := by
    intro e he
    obtain ⟨e', he', hee⟩ := exists_mem_of_forall₂ h e he
    exact ⟨e', he', hiff e e' hee⟩
  have hr : ∀ e' ∈ m'.entries, ∃ e ∈ m.entries, ∀ v : s.Value,
      entryWrites e = some ⟨s, v⟩ ↔ entryWrites e' = some ⟨s, v⟩ := by
    intro e' he'
    obtain ⟨e, he, hee⟩ := exists_mem_of_forall₂ h.flip e' he'
    exact ⟨e, he, hiff e e' hee⟩
  constructor
  · exact gives_of_entries hl hr
  · exact gives_of_entries (fun e' he' => by
      obtain ⟨e, he, h⟩ := hr e' he'
      exact ⟨e, he, fun v => (h v).symm⟩) (fun e he => by
      obtain ⟨e', he', h⟩ := hl e he
      exact ⟨e', he', fun v => (h v).symm⟩)

/-- Respelling keeps the outcome, in all orders of both maps, exactly
when both maps are refused or neither rejects a value and the two give
every setting that counts one and the same value. Since the tokenizer
loop keeps `_`, an entry spelled with it gives its setting nothing. -/
theorem respelled_sameOutcome_iff {m m' : OptionMap} (h : m.Respells m') :
    (∀ es es', m.Order es → m'.Order es' →
        SameOutcome (FullTextIndexConfig.fromOptions es)
          (FullTextIndexConfig.fromOptions es'))
      ↔ (m.Refused ∧ m'.Refused)
        ∨ (¬ m.Rejects ∧ ¬ m'.Rejects ∧ m.Agree m') :=
  OptionMap.sameOutcome_iff fun _ hs v => h.gives_field hs v

/-- A map that gives no setting two values is settled. -/
theorem OptionMap.settled_of_single {m : OptionMap}
    (h : ∀ e ∈ m.entries, ∀ e' ∈ m.entries, ∀ (s : Setting) (v v' : s.Value),
      entryWrites e = some ⟨s, v⟩ → entryWrites e' = some ⟨s, v'⟩ → v = v') :
    m.Settled := by
  intro s _ v v' hv hv'
  rcases hv with ⟨e, he, hw⟩ | ⟨hnone, hdef⟩
  · rcases hv' with ⟨e', he', hw'⟩ | ⟨hnone', -⟩
    · exact h e he e' he' s v v' hw hw'
    · exact absurd hw (hnone' e he v)
  · rcases hv' with ⟨e', he', hw'⟩ | ⟨-, hdef'⟩
    · exact absurd hw' (hnone e' he' v')
    · rw [hdef, hdef']

/-- A settled map agrees with one whose entries are read as its own are. -/
theorem OptionMap.Settled.agree {m m' : OptionMap} (h : m.Settled)
    (hl : ∀ e ∈ m.entries, ∃ e' ∈ m'.entries, readEntry e = readEntry e')
    (hr : ∀ e' ∈ m'.entries, ∃ e ∈ m.entries, readEntry e = readEntry e') :
    m.Agree m' := by
  intro s hs v v' hv hv'
  refine h s hs v v' hv (gives_of_entries ?_ ?_ hv')
  · intro e' he'
    obtain ⟨e, he, hread⟩ := hr e' he'
    exact ⟨e, he, fun v => by rw [entryWrites, entryWrites, hread]⟩
  · intro e he
    obtain ⟨e', he', hread⟩ := hl e he
    exact ⟨e', he', fun v => by rw [entryWrites, entryWrites, hread]⟩

omit [UnicodeCase] in
/-- `stem` and `text-fields`, and the two spelled `fulltext. STEM` and
`Text_Fields`: the outcome is the same. -/
theorem respelled_stem_fields :
    let m : OptionMap := ⟨[("stem", "false"), ("text-fields", "a")], by decide⟩
    let m' : OptionMap :=
      ⟨[("fulltext. STEM", "false"), ("Text_Fields", "a")], by decide⟩
    ∀ es es', m.Order es → m'.Order es' →
      SameOutcome (@FullTextIndexConfig.fromOptions asciiCase es)
        (@FullTextIndexConfig.fromOptions asciiCase es') := by
  intro m m'
  have hstem : @readEntry asciiCase ("stem", "false")
      = .ok (some ⟨.stem, false⟩) := by rfl
  have hfields : @readEntry asciiCase ("text-fields", "a")
      = .ok (some ⟨.textFields, some ["a"]⟩) := by rfl
  have hstem' : @readEntry asciiCase ("fulltext. STEM", "false")
      = .ok (some ⟨.stem, false⟩) := by rfl
  have hfields' : @readEntry asciiCase ("Text_Fields", "a")
      = .ok (some ⟨.textFields, some ["a"]⟩) := by rfl
  have hsettled : @OptionMap.Settled asciiCase m := by
    apply @OptionMap.settled_of_single asciiCase
    intro e he e' he' s v v' hw hw'
    unfold entryWrites at hw hw'
    rcases List.mem_pair.mp he with rfl | rfl
    · rw [hstem] at hw
      rcases List.mem_pair.mp he' with rfl | rfl
      · rw [hstem] at hw'
        cases hw
        cases hw'
        rfl
      · rw [hfields] at hw'
        cases hw
        cases hw'
    · rw [hfields] at hw
      rcases List.mem_pair.mp he' with rfl | rfl
      · rw [hstem] at hw'
        cases hw
        cases hw'
      · rw [hfields] at hw'
        cases hw
        cases hw'
        rfl
  have hl : ∀ e ∈ m.entries, ∃ e' ∈ m'.entries,
      @readEntry asciiCase e = @readEntry asciiCase e' := by
    simp [m, m', hstem, hfields, hstem', hfields']
  have hr : ∀ e' ∈ m'.entries, ∃ e ∈ m.entries,
      @readEntry asciiCase e = @readEntry asciiCase e' := by
    simp [m, m', hstem, hfields, hstem', hfields']
  refine (@respelled_sameOutcome_iff asciiCase m m'
    (List.Forall₂.cons (by decide +kernel) (List.Forall₂.cons
      (by decide +kernel) List.Forall₂.nil))).mpr (.inr ⟨?_, ?_,
        @OptionMap.Settled.agree asciiCase m m' hsettled hl hr⟩)
  · rintro ⟨e, he, hno⟩
    rcases List.mem_pair.mp he with rfl | rfl
    · exact hno ⟨_, hstem⟩
    · exact hno ⟨_, hfields⟩
  · rintro ⟨e, he, hno⟩
    rcases List.mem_pair.mp he with rfl | rfl
    · exact hno ⟨_, hstem'⟩
    · exact hno ⟨_, hfields'⟩

/-- Without `_` in the bare keys both loops see one key, and respelling
an entry does not change how it is read. -/
theorem readEntry_respelled {e e' : OptionEntry}
    (he : '_' ∉ (tokenizerKey e).toList)
    (he' : '_' ∉ (tokenizerKey e').toList)
    (hkey : fieldKey e = fieldKey e') (hvalue : e.2 = e'.2) :
    readEntry e = readEntry e' := by
  have htok : tokenizerKey e = tokenizerKey e' := by
    rw [fieldKey_eq, fieldKey_eq, replaceChar_eq_self he,
      replaceChar_eq_self he'] at hkey
    exact hkey
  unfold readEntry
  rw [htok, hkey, hvalue]

/-- Respelling a settled map is harmless as long as no bare key holds
an `_`. -/
theorem hyphenated_sameOutcome {m m' : OptionMap} (h : m.Respells m')
    (hm : ∀ e ∈ m.entries, '_' ∉ (tokenizerKey e).toList)
    (hm' : ∀ e ∈ m'.entries, '_' ∉ (tokenizerKey e).toList)
    (hsettled : m.Settled) {es es' : List OptionEntry} (hes : m.Order es)
    (hes' : m'.Order es') :
    SameOutcome (FullTextIndexConfig.fromOptions es)
      (FullTextIndexConfig.fromOptions es') := by
  have hpair : ∀ e ∈ m.entries, ∃ e' ∈ m'.entries, readEntry e = readEntry e' := by
    intro e he
    obtain ⟨e', he', hkey, hvalue⟩ := exists_mem_of_forall₂ h e he
    exact ⟨e', he', readEntry_respelled (hm e he) (hm' e' he') hkey hvalue⟩
  have hpair' : ∀ e' ∈ m'.entries, ∃ e ∈ m.entries, readEntry e = readEntry e' := by
    intro e' he'
    obtain ⟨e, he, hkey, hvalue⟩ := exists_mem_of_forall₂ h.flip e' he'
    exact ⟨e, he, readEntry_respelled (hm e he) (hm' e' he') hkey hvalue⟩
  refine (OptionMap.sameOutcome_iff fun _ hs v => h.gives_field hs v).mpr ?_
    es es' hes hes'
  by_cases hrej : m.Rejects
  · obtain ⟨e, he, hno⟩ := hrej
    obtain ⟨e', he', hread⟩ := hpair e he
    refine Or.inl ⟨Or.inl ⟨e, he, hno⟩, Or.inl ⟨e', he', ?_⟩⟩
    unfold Accepts at hno ⊢
    rw [← hread]
    exact hno
  · refine Or.inr ⟨hrej, ?_, hsettled.agree hpair hpair'⟩
    intro hrej'
    obtain ⟨e', he', hno⟩ := hrej'
    obtain ⟨e, he, hread⟩ := hpair' e' he'
    refine hrej ⟨e, he, ?_⟩
    unfold Accepts at hno ⊢
    rw [hread]
    exact hno

end

/-- `max_token_length` has the normal form of `max-token-length`, but
only config.rs turns the `_`: the tokenizer loop skips it and the limit
stays at its default. -/
theorem underscore_key_ignored :
    ¬ ∀ m m' : OptionMap, (m.entries.map (@fieldKey asciiCase)).Nodup →
        @OptionMap.Respells asciiCase m m' →
        ∀ es es', m.Order es → m'.Order es' →
          SameOutcome (@FullTextIndexConfig.fromOptions asciiCase es)
            (@FullTextIndexConfig.fromOptions asciiCase es') := by
  intro h
  have hsame := h ⟨[("max-token-length", "5")], by decide⟩
    ⟨[("max_token_length", "5")], by decide⟩ (by decide +kernel)
    (List.Forall₂.cons (by decide +kernel) List.Forall₂.nil)
    _ _ (List.Perm.refl _) (List.Perm.refl _)
    { tokenizer := { maxTokenLength := 5 } }
  have hfirst : @FullTextIndexConfig.fromOptions asciiCase
      [("max-token-length", "5")]
      = .ok { tokenizer := { maxTokenLength := 5 } } := by decide +kernel
  have hsecond : @FullTextIndexConfig.fromOptions asciiCase
      [("max_token_length", "5")]
      ≠ .ok { tokenizer := { maxTokenLength := 5 } } := by decide +kernel
  exact hsecond (hsame.mp hfirst)

end PaimonFtindex.Proofs

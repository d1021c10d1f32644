/-
Which document texts cross the C boundary unchanged.

Encoding and decoding are inverse on characters, but the terminator that
`CStr` reads up to may be one of them: what arrives is the string up to
its first U+0000 (`cstrToString_textBytes`). So a list of fields crosses
unchanged when none of its strings has one, and a list with one is
indexed cut short, and reported as a success, unless the call raises for
some other reason (`raises_iff`).
-/
import PaimonFtindex.Model.Ffi
import PaimonFtindex.Proofs.IndexedSegment

namespace PaimonFtindex.Proofs

open Model Lib

-- ======================================================== code points

/-- The code point of a character. -/
def codePoint (c : Char) : CodePoint where
  val := c.toNat
  valid := by
    rcases c.valid with h | h
    · exact Nat.lt_trans h (by decide)
    · exact h.2

/-- The Python string of a Rust string. -/
def pyStr (s : String) : PyStr := s.toList.map codePoint

/-- The code point is a surrogate. -/
def IsSurrogate (c : CodePoint) : Prop := 0xD800 ≤ c.val ∧ c.val ≤ 0xDFFF

theorem char?_codePoint (c : Char) : (codePoint c).char? = some c := by
  have hvalid : (codePoint c).val.isValidChar := c.valid
  unfold CodePoint.char?
  rw [dif_pos hvalid]
  rfl

theorem char?_eq_none_iff {c : CodePoint} : c.char? = none ↔ IsSurrogate c := by
  have hbound := c.valid
  have hvalid : c.val.isValidChar
      ↔ c.val < 0xD800 ∨ 0xDFFF < c.val ∧ c.val < 0x110000 := Iff.rfl
  unfold CodePoint.char? IsSurrogate
  by_cases h : c.val.isValidChar
  · rw [dif_pos h]
    constructor
    · intro hnone
      cases hnone
    · intro hsurrogate
      omega
  · rw [dif_neg h]
    constructor
    · intro _
      omega
    · intro _
      rfl

theorem eq_codePoint_of_char? {c : CodePoint} {char : Char}
    (h : c.char? = some char) : c = codePoint char := by
  unfold CodePoint.char? at h
  by_cases hvalid : c.val.isValidChar
  · rw [dif_pos hvalid] at h
    cases h
    rfl
  · rw [dif_neg hvalid] at h
    cases h

theorem codePoint_val_eq_zero {c : Char} :
    (codePoint c).val = 0 ↔ c = '\x00' := by
  constructor
  · intro h
    exact Char.ext (UInt32.toNat_inj.mp h)
  · rintro rfl
    rfl

-- ============================================================= encoding

/-- A string of characters encodes as they do. -/
theorem encodeUtf8_pyStr (cs : List Char) :
    encodeUtf8 (cs.map codePoint)
      = .ok (cs.flatMap String.utf8EncodeChar) := by
  induction cs with
  | nil => rfl
  | cons c cs ih =>
      rw [List.map_cons, List.flatMap_cons]
      unfold encodeUtf8
      rw [char?_codePoint, ih]
      rfl

/-- A string is one of characters, or it has a surrogate, and encoding it
raises. -/
theorem encodeUtf8_cases (s : PyStr) :
    (∃ cs : List Char, s = cs.map codePoint)
      ∨ (∃ c ∈ s, IsSurrogate c)
        ∧ encodeUtf8 s = .error .unicodeEncodeError := by
  induction s with
  | nil => exact Or.inl ⟨[], rfl⟩
  | cons c s ih =>
      cases hchar : c.char? with
      | none =>
          refine Or.inr ⟨⟨c, List.mem_cons_self, char?_eq_none_iff.mp hchar⟩, ?_⟩
          unfold encodeUtf8
          rw [hchar]
          rfl
      | some char =>
          rcases ih with ⟨cs, rfl⟩ | ⟨⟨d, hd, hsurrogate⟩, herror⟩
          · refine Or.inl ⟨char :: cs, ?_⟩
            rw [List.map_cons, ← eq_codePoint_of_char? hchar]
          · refine Or.inr ⟨⟨d, List.mem_cons_of_mem c hd, hsurrogate⟩, ?_⟩
            unfold encodeUtf8
            rw [hchar, herror]
            rfl

-- ============================================================= decoding

theorem zero_eq_ofNat_iff {n : Nat} :
    (0 : UInt8) = UInt8.ofNat n ↔ n % 256 = 0 := by
  rw [← UInt8.toNat_inj, UInt8.toNat_ofNat', eq_comm]
  rfl

/-- Of all characters, U+0000 alone has a zero byte in its encoding. -/
theorem zero_mem_utf8EncodeChar {c : Char} :
    0 ∈ String.utf8EncodeChar c ↔ c = '\x00' := by
  constructor
  · intro h
    have hzero : c.val.toNat = 0 := by
      unfold String.utf8EncodeChar at h
      generalize c.val.toNat = v at h
      dsimp only at h
      -- a leading or continuation byte is never zero
      split at h
      · rw [List.mem_singleton, zero_eq_ofNat_iff] at h
        omega
      · split at h
        · simp only [List.mem_cons, List.not_mem_nil, or_false,
            zero_eq_ofNat_iff] at h
          omega
        · split at h <;>
          · simp only [List.mem_cons, List.not_mem_nil, or_false,
              zero_eq_ofNat_iff] at h
            omega
    exact Char.ext (UInt32.toNat_inj.mp hzero)
  · rintro rfl
    decide

theorem utf8EncodeChar_zero : String.utf8EncodeChar '\x00' = [0] := by decide

/-- The characters in front of the first U+0000. -/
def cutAtNul (cs : List Char) : List Char := cs.takeWhile (· ≠ '\x00')

/-- `CStr` stops at the first U+0000, or at the terminator. -/
theorem cstrFromPtr_charPointer (cs : List Char) :
    cstrFromPtr (charPointer (cs.flatMap String.utf8EncodeChar))
      = (cutAtNul cs).flatMap String.utf8EncodeChar := by
  unfold cstrFromPtr charPointer cutAtNul
  induction cs with
  | nil => rfl
  | cons c cs ih =>
      by_cases hc : c = '\x00'
      · rw [hc, List.flatMap_cons, utf8EncodeChar_zero]
        rfl
      · have hbytes : ∀ b ∈ String.utf8EncodeChar c, decide (b ≠ 0) = true := by
          intro b hb
          rw [decide_eq_true_iff]
          rintro rfl
          exact hc (zero_mem_utf8EncodeChar.mp hb)
        rw [List.flatMap_cons, List.append_assoc,
          List.takeWhile_append_of_pos hbytes, ih,
          List.takeWhile_cons_of_pos (by simpa using hc), List.flatMap_cons]

/-- The string up to its first U+0000. -/
def cutText (s : String) : String := String.ofList (cutAtNul s.toList)

/-- The bytes of a string that encodes. -/
def textBytes (s : String) : Bytes := s.toList.flatMap String.utf8EncodeChar

/-- Characters are read back from their encoding. -/
theorem fromUTF8?_encoded (cs : List Char) :
    String.fromUTF8? ⟨(cs.flatMap String.utf8EncodeChar).toArray⟩
      = some (String.ofList cs) := by
  have hbytes : (⟨(cs.flatMap String.utf8EncodeChar).toArray⟩ : ByteArray)
      = cs.utf8Encode := by
    rw [ByteArray.ext_iff]
    exact List.data_toByteArray.symm
  have hvalid : cs.utf8Encode.IsValidUTF8 := ByteArray.IsValidUTF8.intro cs rfl
  rw [hbytes]
  unfold String.fromUTF8?
  rw [dif_pos hvalid]
  rfl

/-- What crosses is the string up to its first U+0000. -/
theorem cstrToString_textBytes (s name : String) :
    cstrToString (some (charPointer (textBytes s))) name = .ok (cutText s) := by
  unfold cstrToString textBytes cutText
  dsimp only
  rw [cstrFromPtr_charPointer, fromUTF8?_encoded]

/-- Nothing is cut from a string without U+0000, and something from every
other. -/
theorem cutText_eq_self_iff {s : String} :
    cutText s = s ↔ ∀ c ∈ pyStr s, c.val ≠ 0 := by
  have hchars : cutText s = s ↔ cutAtNul s.toList = s.toList := by
    unfold cutText
    rw [← String.toList_inj, String.toList_ofList]
  rw [hchars]
  unfold cutAtNul pyStr
  rw [List.takeWhile_eq_self_iff, List.forall_mem_map]
  simp only [ne_eq, decide_eq_true_eq, codePoint_val_eq_zero]

-- ================================================================ fields

/-- A field of a document as a Python item. -/
def pyItem (field : String × String) : PyStr × PyStr :=
  (pyStr field.1, pyStr field.2)

/-- A field with both its strings cut. -/
def cutField (field : String × String) : String × String :=
  (cutText field.1, cutText field.2)

/-- A string of `items` has a code point in `P`. -/
def HasCodePoint (P : CodePoint → Prop) (items : List (PyStr × PyStr)) : Prop :=
  ∃ item ∈ items, (∃ c ∈ item.1, P c) ∨ ∃ c ∈ item.2, P c

/-- A string of `items` has a surrogate. -/
def HasSurrogate : List (PyStr × PyStr) → Prop := HasCodePoint IsSurrogate

/-- A string of `items` has U+0000. -/
def HasNul : List (PyStr × PyStr) → Prop := HasCodePoint fun c => c.val = 0

/-- What `fields_from_raw` passes to the core for `items`. -/
def passedFields (items : List (PyStr × PyStr)) :
    Except PyError (List (String × String)) :=
  match encodeItems items with
  | .error e => .error e
  | .ok (nameArray, textArray) =>
      match fieldsFromRaw (some nameArray) (some textArray) items.length with
      | .error e => .error (.native e)
      | .ok fields => .ok fields

theorem encodeAll_pyStr (strings : List String) :
    encodeAll (strings.map pyStr) = .ok (strings.map textBytes) := by
  apply mapM_eq_ok.mpr
  rw [List.forall₂_map_left_iff, List.forall₂_map_right_iff, List.forall₂_same]
  intro s _
  exact encodeUtf8_pyStr s.toList

/-- Strings are those of Rust, or one has a surrogate, and encoding them
raises. -/
theorem encodeAll_cases (strings : List PyStr) :
    (∃ ss : List String, strings = ss.map pyStr)
      ∨ (∃ s ∈ strings, ∃ c ∈ s, IsSurrogate c)
        ∧ encodeAll strings = .error .unicodeEncodeError := by
  unfold encodeAll
  induction strings with
  | nil => exact Or.inl ⟨[], rfl⟩
  | cons s strings ih =>
      rw [List.mapM_cons]
      rcases encodeUtf8_cases s with ⟨cs, hs⟩ | ⟨hsurrogate, herror⟩
      · have hpy : s = pyStr (String.ofList cs) := by
          unfold pyStr
          rw [hs, String.toList_ofList]
        rcases ih with ⟨ss, hss⟩ | ⟨⟨t, ht, hsurrogate⟩, herror⟩
        · refine Or.inl ⟨String.ofList cs :: ss, ?_⟩
          rw [List.map_cons, ← hpy, ← hss]
        · refine Or.inr ⟨⟨t, List.mem_cons_of_mem s ht, hsurrogate⟩, ?_⟩
          rw [herror, hs, encodeUtf8_pyStr]
          rfl
      · refine Or.inr ⟨⟨s, List.mem_cons_self, hsurrogate⟩, ?_⟩
        rw [herror]
        rfl

/-- The pointers of the fields' names, and those of their texts. -/
theorem encodeItems_pyItem (fields : List (String × String)) :
    encodeItems (fields.map pyItem)
      = .ok (fields.map fun field => some (charPointer (textBytes field.1)),
          fields.map fun field => some (charPointer (textBytes field.2))) := by
  have hnames : (fields.map pyItem).map Prod.fst
      = (fields.map Prod.fst).map pyStr := by simp [pyItem]
  have htexts : (fields.map pyItem).map Prod.snd
      = (fields.map Prod.snd).map pyStr := by simp [pyItem]
  unfold encodeItems
  rw [hnames, htexts, encodeAll_pyStr, encodeAll_pyStr]
  show Except.ok _ = _
  simp

theorem not_hasSurrogate_pyItem (fields : List (String × String)) :
    ¬ HasSurrogate (fields.map pyItem) := by
  have hstr : ∀ (s : String), ¬ ∃ c ∈ pyStr s, IsSurrogate c := by
    intro s h
    obtain ⟨c, hc, hsurrogate⟩ := h
    obtain ⟨char, -, rfl⟩ := List.mem_map.mp hc
    rw [← char?_eq_none_iff, char?_codePoint] at hsurrogate
    cases hsurrogate
  intro h
  obtain ⟨item, hitem, h⟩ := h
  obtain ⟨field, -, rfl⟩ := List.mem_map.mp hitem
  rcases h with h | h
  · exact hstr field.1 h
  · exact hstr field.2 h

/-- Items without surrogates are fields; others do not encode. -/
theorem encodeItems_cases (items : List (PyStr × PyStr)) :
    (∃ fields : List (String × String), items = fields.map pyItem)
      ∨ HasSurrogate items ∧ encodeItems items = .error .unicodeEncodeError := by
  unfold encodeItems
  rcases encodeAll_cases (items.map Prod.fst) with ⟨names, hnames⟩
    | ⟨⟨s, hs, hsurrogate⟩, herror⟩
  · rcases encodeAll_cases (items.map Prod.snd) with ⟨texts, htexts⟩
      | ⟨⟨s, hs, hsurrogate⟩, herror⟩
    · refine Or.inl ⟨names.zip texts, ?_⟩
      rw [← List.zip_unzip items, List.unzip_eq_map]
      dsimp only
      rw [hnames, htexts, List.zip_map, List.map_congr_left]
      intro field _
      rfl
    · obtain ⟨item, hitem, rfl⟩ := List.mem_map.mp hs
      refine Or.inr ⟨⟨item, hitem, Or.inr hsurrogate⟩, ?_⟩
      rw [hnames, encodeAll_pyStr, herror]
      rfl
  · obtain ⟨item, hitem, rfl⟩ := List.mem_map.mp hs
    refine Or.inr ⟨⟨item, hitem, Or.inl hsurrogate⟩, ?_⟩
    rw [herror]
    rfl

/-- The loop reads every field, cut. -/
theorem readFields_textBytes (fields : List (String × String)) :
    readFields
        ((fields.map fun field => some (charPointer (textBytes field.1))).zip
          (fields.map fun field => some (charPointer (textBytes field.2))))
      = .ok (fields.map cutField) := by
  induction fields with
  | nil => rfl
  | cons field fields ih =>
      rw [List.map_cons, List.map_cons, List.zip_cons_cons]
      unfold readFields
      rw [cstrToString_textBytes, cstrToString_textBytes, ih]
      rfl

theorem fieldsFromRaw_textBytes {fields : List (String × String)}
    (hne : fields ≠ []) :
    fieldsFromRaw
        (some (fields.map fun field => some (charPointer (textBytes field.1))))
        (some (fields.map fun field => some (charPointer (textBytes field.2))))
        (fields.map pyItem).length
      = .ok (fields.map cutField) := by
  have hlength : (fields.map pyItem).length ≠ 0 := by simpa using hne
  unfold fieldsFromRaw
  rw [if_neg hlength]
  dsimp only
  rw [List.take_of_length_le (by simp), List.take_of_length_le (by simp)]
  exact readFields_textBytes fields

theorem passedFields_pyItem {fields : List (String × String)}
    (hne : fields ≠ []) :
    passedFields (fields.map pyItem) = .ok (fields.map cutField) := by
  unfold passedFields
  rw [encodeItems_pyItem]
  dsimp only
  rw [fieldsFromRaw_textBytes hne]

/-- A list of fields is passed on as it is when no string has U+0000. -/
theorem map_cutField_eq_self_iff {fields : List (String × String)} :
    fields.map cutField = fields ↔ ¬ HasNul (fields.map pyItem) := by
  have hfield : ∀ field : String × String, cutField field = field
      ↔ ¬ ((∃ c ∈ pyStr field.1, c.val = 0)
        ∨ ∃ c ∈ pyStr field.2, c.val = 0) := by
    intro field
    unfold cutField
    rw [Prod.ext_iff, cutText_eq_self_iff, cutText_eq_self_iff]
    push Not
    rfl
  have hself : fields.map cutField = fields.map id
      ↔ ∀ field ∈ fields, cutField field = field := List.map_inj_left
  rw [List.map_id] at hself
  unfold HasNul HasCodePoint
  rw [hself, not_exists]
  simp only [not_and, List.forall_mem_map, hfield]
  rfl

-- ============================================================== the core

/-- The writer has a place for the texts of a field. -/
def TakesField (writer : FullTextIndexWriter) (name : String) : Prop :=
  validateIndexedField writer.config name = .ok ()
    ∧ ∃ field, writer.textFields.lookup name = some field

/-- The core refuses a document with these field names. -/
def CoreRefuses (writer : FullTextIndexWriter)
    (answer : Except TantivyError Unit) (rowId : Int64) (names : List String) :
    Prop :=
  rowId < 0 ∨ writer.state = none ∨ writer.documentCount.toNat + 1 = 2 ^ 64
    ∨ (∃ name ∈ names, ¬ TakesField writer name)
    ∨ ∃ e, answer = .error e

theorem succeeds_textValues {writer : FullTextIndexWriter}
    {fields : List (String × String)} :
    Succeeds (writer.textValues fields)
      ↔ ∀ name ∈ fields.map Prod.fst, TakesField writer name := by
  induction fields with
  | nil =>
      unfold FullTextIndexWriter.textValues
      simp
  | cons field fields ih =>
      obtain ⟨name, text⟩ := field
      unfold FullTextIndexWriter.textValues
      rw [List.map_cons, List.forall_mem_cons, ← ih, succeeds_bind]
      cases hlookup : writer.textFields.lookup name with
      | none =>
          constructor
          · intro h
            obtain ⟨_, -, h⟩ := h
            obtain ⟨_, hthrow, -⟩ := succeeds_bind.mp h
            cases hthrow
          · intro h
            obtain ⟨⟨-, _, hfield⟩, -⟩ := h
            cases hlookup.symm.trans hfield
      | some field =>
          simp only [pure_bind, succeeds_bind_pure]
          constructor
          · intro h
            obtain ⟨_, hvalid, htexts⟩ := h
            exact ⟨⟨hvalid, field, hlookup⟩, htexts⟩
          · intro h
            obtain ⟨⟨hvalid, -⟩, htexts⟩ := h
            exact ⟨(), hvalid, htexts⟩

/-- Every field has a text value. -/
theorem textValues_isEmpty {writer : FullTextIndexWriter}
    {fields : List (String × String)} {texts : TantivyDocument}
    (h : writer.textValues fields = .ok texts) :
    texts.isEmpty = fields.isEmpty := by
  cases fields with
  | nil =>
      cases h
      rfl
  | cons field fields =>
      unfold FullTextIndexWriter.textValues at h
      obtain ⟨_, -, h⟩ := except_bind_eq_ok.mp h
      split at h
      · simp only [pure_bind, except_bind_eq_ok] at h
        obtain ⟨_, -, hret⟩ := h
        cases hret
        rfl
      · obtain ⟨_, hthrow, -⟩ := except_bind_eq_ok.mp h
        cases hthrow

/-- What `add_document_fields` checks in front of Tantivy. -/
theorem succeeds_prepare {writer : FullTextIndexWriter} {rowId : Int64}
    {fields : List (String × String)} (hne : fields ≠ []) :
    Succeeds (writer.prepare rowId fields)
      ↔ ¬ rowId < 0 ∧ writer.state ≠ none
        ∧ writer.documentCount.toNat + 1 ≠ 2 ^ 64
        ∧ ∀ name ∈ fields.map Prod.fst, TakesField writer name := by
  rw [← succeeds_textValues]
  constructor
  · intro h
    obtain ⟨⟨next, doc⟩, hdoc⟩ := h
    obtain ⟨hneg, hstate, hnext, texts, htexts, -⟩ := prepare_ok hdoc
    have hbound := next.toNat_lt
    refine ⟨hneg, ?_, by omega, texts, htexts⟩
    rw [← Option.isSome_iff_ne_none]
    exact hstate
  · intro h
    obtain ⟨hneg, hstate, hcount, texts, htexts⟩ := h
    have hbound := writer.documentCount.toNat_lt
    obtain ⟨state, hstate⟩ := Option.ne_none_iff_exists'.mp hstate
    have hsome : ¬ texts.isEmpty = true := by
      rw [textValues_isEmpty htexts]
      simpa using hne
    cases hnext : checkedAdd writer.documentCount 1 with
    | none =>
        have hfull := checkedAdd_eq_none.mp hnext
        have hone : (1 : UInt64).toNat = 1 := rfl
        omega
    | some next =>
        unfold FullTextIndexWriter.prepare
        simp only [hneg, hstate, hnext, Option.isNone_some, Bool.false_eq_true,
          if_false, pure_bind, succeeds_bind]
        refine ⟨texts, htexts, ?_⟩
        rw [if_neg hsome]
        exact succeeds_pure _

/-- A document with fields is taken exactly when the core does not refuse
it. -/
theorem addDocumentFields_ok_iff {session : IndexSession}
    {answer : Except TantivyError Unit} {rowId : Int64}
    {fields : List (String × String)} (hne : fields ≠ []) :
    (session.addDocumentFields answer rowId fields).1 = .ok ()
      ↔ ¬ CoreRefuses session.writer answer rowId (fields.map Prod.fst) := by
  have hrefuses :
      ¬ CoreRefuses session.writer answer rowId (fields.map Prod.fst)
        ↔ Succeeds (session.writer.prepare rowId fields) ∧ answer = .ok () := by
    rw [succeeds_prepare hne]
    unfold CoreRefuses
    cases answer with
    | ok u => simp
    | error e => simp
  rw [hrefuses]
  unfold IndexSession.addDocumentFields
  cases hprepare : session.writer.prepare rowId fields with
  | error e => simp
  | ok prepared =>
      obtain ⟨next, doc⟩ := prepared
      cases answer with
      | ok u => simp
      | error e => simp

-- ==================================================== across the boundary

/-- The call raises. -/
def Raises (py : PyWriter) (answer : Except TantivyError Unit) (rowId : Int)
    (items : List (PyStr × PyStr)) : Prop :=
  ∃ e, (py.addDocumentFields answer rowId items).1 = .error e

/-- `fields_from_raw` passes `items` on as they are, and the call leaves
what the Rust writer would leave with them. -/
def CrossesUnchanged (py : PyWriter) (answer : Except TantivyError Unit)
    (rowId : Int) (items : List (PyStr × PyStr)) : Prop :=
  ∃ fields : List (String × String), items = fields.map pyItem
    ∧ passedFields items = .ok fields
    ∧ (py.addDocumentFields answer rowId items).2.session
      = (py.session.addDocumentFields answer (Int64.ofInt rowId) fields).2

/-- A Python string as a Rust one, its surrogates left out. -/
def rustStr (s : PyStr) : String := String.ofList (s.filterMap CodePoint.char?)

/-- The field names of `items` as they cross. -/
def cutNames (items : List (PyStr × PyStr)) : List String :=
  items.map fun item => cutText (rustStr item.1)

theorem rustStr_pyStr (s : String) : rustStr (pyStr s) = s := by
  unfold rustStr pyStr
  rw [List.filterMap_map]
  have hchar : CodePoint.char? ∘ codePoint = some := funext char?_codePoint
  rw [hchar, List.filterMap_some, String.ofList_toList]

theorem pyItem_injective : Function.Injective pyItem := by
  intro a b hab
  apply Prod.ext
  · rw [← rustStr_pyStr a.1, ← rustStr_pyStr b.1]
    exact congrArg (fun item => rustStr item.1) hab
  · rw [← rustStr_pyStr a.2, ← rustStr_pyStr b.2]
    exact congrArg (fun item => rustStr item.2) hab

theorem cutNames_pyItem (fields : List (String × String)) :
    cutNames (fields.map pyItem) = (fields.map cutField).map Prod.fst := by
  unfold cutNames
  rw [List.map_map, List.map_map]
  apply List.map_congr_left
  intro field _
  show cutText (rustStr (pyStr field.1)) = cutText field.1
  rw [rustStr_pyStr]

/-- A closed writer raises, and so does any writer without fields or with
a surrogate in them. -/
theorem raises_of_closed {py : PyWriter} (hclosed : py.closed = true)
    (answer : Except TantivyError Unit) (rowId : Int)
    (items : List (PyStr × PyStr)) : Raises py answer rowId items := by
  unfold Raises PyWriter.addDocumentFields
  rw [if_pos hclosed]
  exact ⟨_, rfl⟩

theorem raises_nil (py : PyWriter) (answer : Except TantivyError Unit)
    (rowId : Int) : Raises py answer rowId [] := by
  unfold Raises PyWriter.addDocumentFields
  cases py.closed with
  | true => exact ⟨_, rfl⟩
  | false => exact ⟨_, rfl⟩

theorem raises_of_encodeItems {items : List (PyStr × PyStr)} {e : PyError}
    (herror : encodeItems items = .error e) (py : PyWriter)
    (answer : Except TantivyError Unit) (rowId : Int) :
    Raises py answer rowId items := by
  unfold Raises PyWriter.addDocumentFields
  rw [herror]
  cases py.closed with
  | true => exact ⟨_, rfl⟩
  | false =>
      cases items with
      | nil => exact ⟨_, rfl⟩
      | cons item items => exact ⟨_, rfl⟩

/-- On an open writer the call is the core's, on the fields as they
cross. -/
theorem addDocumentFields_pyItem {py : PyWriter} (hopen : py.closed = false)
    (answer : Except TantivyError Unit) (rowId : Int)
    {fields : List (String × String)} (hne : fields ≠ []) :
    (Raises py answer rowId (fields.map pyItem)
        ↔ (py.session.addDocumentFields answer (Int64.ofInt rowId)
            (fields.map cutField)).1 ≠ .ok ())
      ∧ (py.addDocumentFields answer rowId (fields.map pyItem)).2.session
        = (py.session.addDocumentFields answer (Int64.ofInt rowId)
            (fields.map cutField)).2 := by
  have hsome : ¬ (fields.map pyItem).isEmpty = true := by simpa using hne
  unfold Raises PyWriter.addDocumentFields writerAddDocumentFields
  rw [hopen, if_neg hsome, encodeItems_pyItem]
  dsimp only
  rw [fieldsFromRaw_textBytes hne]
  dsimp only
  rcases py.session.addDocumentFields answer (Int64.ofInt rowId)
    (fields.map cutField) with ⟨e | _, session⟩
  · simp
  · simp

/-- An open writer given fields raises when the core refuses their names
as they cross, and not otherwise. -/
theorem raises_iff {py : PyWriter} (hopen : py.closed = false)
    {answer : Except TantivyError Unit} {rowId : Int}
    {fields : List (String × String)} (hne : fields ≠ []) :
    Raises py answer rowId (fields.map pyItem)
      ↔ CoreRefuses py.session.writer answer (Int64.ofInt rowId)
          (cutNames (fields.map pyItem)) := by
  have hcut : fields.map cutField ≠ [] := by simpa using hne
  rw [(addDocumentFields_pyItem hopen answer rowId hne).1, ne_eq,
    addDocumentFields_ok_iff hcut, not_not, cutNames_pyItem]

/-- It crosses unchanged when no string has U+0000. -/
theorem crossesUnchanged_iff {py : PyWriter} (hopen : py.closed = false)
    {answer : Except TantivyError Unit} {rowId : Int}
    {fields : List (String × String)} (hne : fields ≠ []) :
    CrossesUnchanged py answer rowId (fields.map pyItem)
      ↔ ¬ HasNul (fields.map pyItem) := by
  rw [← map_cutField_eq_self_iff]
  unfold CrossesUnchanged
  rw [passedFields_pyItem hne,
    (addDocumentFields_pyItem hopen answer rowId hne).2]
  constructor
  · intro h
    obtain ⟨passed, hitems, hpassed, -⟩ := h
    cases hpassed
    exact (List.map_injective_iff.mpr pyItem_injective hitems).symm
  · intro h
    exact ⟨fields, rfl, by rw [h], by rw [h]⟩

/-- A document's fields reach the core unchanged, or the call raises,
exactly when none of their strings has U+0000 or something else makes the
call raise: a closed writer, a surrogate, or a core that refuses the names
as they cross. -/
theorem crosses_or_raises_iff (py : PyWriter) (answer : Except TantivyError Unit)
    (rowId : Int) (items : List (PyStr × PyStr)) :
    CrossesUnchanged py answer rowId items ∨ Raises py answer rowId items
      ↔ ¬ HasNul items ∨ py.closed = true ∨ HasSurrogate items
        ∨ CoreRefuses py.session.writer answer (Int64.ofInt rowId)
            (cutNames items) := by
  cases hclosed : py.closed with
  | true => simp [raises_of_closed hclosed]
  | false =>
      rcases encodeItems_cases items with ⟨fields, rfl⟩ | ⟨hsurrogate, herror⟩
      · by_cases hne : fields = []
        · have hnul : ¬ HasNul [] := by
            intro h
            obtain ⟨_, hitem, -⟩ := h
            cases hitem
          rw [hne]
          simp [raises_nil, hnul]
        · rw [crossesUnchanged_iff hclosed hne, raises_iff hclosed hne]
          simp [not_hasSurrogate_pyItem]
      · simp [raises_of_encodeItems herror, hsurrogate]

/-- A text with U+0000 is indexed up to it, and the call reports
success. -/
theorem nul_text_cut :
    ¬ ∀ (py : PyWriter) (answer : Except TantivyError Unit) (rowId : Int)
        (items : List (PyStr × PyStr)), items ≠ [] →
        CrossesUnchanged py answer rowId items
          ∨ Raises py answer rowId items := by
  intro h
  let py : PyWriter := { closed := false, session := openSession }
  let fields : List (String × String) := [("text", "a\x00b")]
  have hne : fields ≠ [] := List.cons_ne_nil _ _
  have hnul : HasNul (fields.map pyItem) :=
    ⟨_, List.mem_cons_self, Or.inr ⟨codePoint '\x00', by decide, rfl⟩⟩
  have htaken : (py.session.addDocumentFields (.ok ()) (Int64.ofInt 0)
      (fields.map cutField)).1 = .ok () := by decide
  rcases h py (.ok ()) 0 (fields.map pyItem) (List.cons_ne_nil _ _)
    with hcrosses | hraises
  · exact (crossesUnchanged_iff rfl hne).mp hcrosses hnul
  · exact (addDocumentFields_pyItem rfl (.ok ()) 0 hne).1.mp hraises htaken

end PaimonFtindex.Proofs

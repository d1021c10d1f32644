/-
What JSON is read as a header: exactly its renderings.

The header's records are nested, and every one may be rendered in its own
way (`RecordSpelled`).

# Why no depth is asked for

The readers go down six levels from the header, and serde_json's
recursion limit is far above that. Members of unknown names are skipped
without entering them, so how deep those nest does not matter.
-/
import PaimonFtindex.Proofs.HeaderRead
import PaimonFtindex.Proofs.RecordJson
import PaimonFtindex.Model.HeaderJson

namespace PaimonFtindex.Proofs

open Model Lib

-- ============================================================== the values

/-- What serde writes for a record is a rendering of it. -/
theorem recordSpelled_toJson {F : Type} [DecidableEq F] {fields : List F}
    {names : F → List String} {isDefault : F → Prop}
    {spelled : F → Json → Prop} {toJson : F → Json}
    (hnames : FieldNames fields names)
    (hspelled : ∀ f, spelled f (toJson f)) :
    RecordSpelled fields names isDefault spelled
      (derivedToJson fields names toJson) := by
  refine ⟨fun f => some ((names f).headD "", toJson f), ?_,
    fun f => ⟨hnames.head f, hspelled f⟩⟩
  have hmap : fields.filterMap
      (fun f => some ((names f).headD "", toJson f))
      = fields.map fun f => ((names f).headD "", toJson f) :=
    congrFun List.filterMap_eq_map fields
  rw [hmap, List.filter_eq_self.mpr]
  intro m hm
  obtain ⟨f, hf, rfl⟩ := List.mem_map.mp hm
  rw [hnames.find f _ (hnames.head f)]
  rfl

theorem readBool_iff {json : Json} {b : Bool} :
    readBool json = .ok b ↔ json = .bool b := by
  cases json <;> simp [readBool, invalidType]

/-- Strings are spelled one way only. -/
theorem readStrings_iff {remaining : Nat} (hone : 1 < remaining)
    {strings : List String} {json : Json} :
    readVec (fun _ => readString) remaining json = .ok strings
      ↔ json = stringsToJson strings := by
  rw [@readVec_iff _ (fun _ => readString) (fun s json => json = .string s) _
    hone fun _ _ => readString_iff]
  constructor
  · rintro ⟨elements, rfl, h⟩
    have heq : elements = strings.map Json.string := by
      induction h with
      | nil => rfl
      | cons hx _ ih => rw [hx, ih, List.map_cons]
    rw [heq]
    rfl
  · rintro rfl
    exact ⟨_, rfl, List.forall₂_map_right_iff.mpr (List.forall₂_same.mpr
      fun _ _ => rfl)⟩

-- ====================================================== the tokenizer kind

/-- Its name, or the name as the only member of an object. -/
def KindSpelled (kind : TokenizerKind) (json : Json) : Prop :=
  json = .string kind.tag ∨ json = .object [(kind.tag, .null)]

/-- The names of the kinds differ. -/
theorem ofTag_iff {tag : String} {kind : TokenizerKind} :
    TokenizerKind.ofTag tag = .ok kind ↔ tag = kind.tag := by
  constructor
  · intro h
    unfold TokenizerKind.ofTag at h
    split at h <;> cases h <;> rfl
  · rintro rfl
    cases kind <;> rfl

/-- A kind is read off its two spellings and nothing else. -/
theorem readTokenizerKind_iff {remaining : Nat} (hone : 1 < remaining)
    {kind : TokenizerKind} {json : Json} :
    readTokenizerKind remaining json = .ok kind ↔ KindSpelled kind json := by
  constructor
  · intro h
    unfold readTokenizerKind at h
    split at h
    · exact Or.inl (by rw [ofTag_iff.mp h])
    · rename_i tag content
      rw [enter_eq hone] at h
      obtain ⟨kind', hkind, h⟩ := except_bind_eq_ok.mp h
      cases content with
      | null =>
          cases h
          exact Or.inr (by rw [ofTag_iff.mp hkind])
      | _ => cases h
    · cases h
  · rintro (rfl | rfl)
    · exact ofTag_iff.mpr rfl
    · unfold readTokenizerKind
      dsimp only
      rw [enter_eq hone, ofTag_iff.mpr rfl]
      rfl

-- ======================================================= the configuration

/-- How the settings are spelled: the kind in two ways, the rest as serde
writes it. -/
def TokenizerFieldSpelled : (f : TokenizerField) → f.Value → Json → Prop
  | .tokenizer => KindSpelled
  | .ngramMinGram | .ngramMaxGram | .maxTokenLength =>
      fun n json => json = usizeToJson n
  | .ngramPrefixOnly | .jiebaSearchMode | .jiebaOrdinalPosition =>
      fun b json => json = .bool b
  | .lowerCase | .asciiFolding | .stem | .removeStopWords | .withPosition =>
      fun b json => json = .bool b
  | .language => fun s json => json = .string s
  | .stopWords => fun strings json => json = stringsToJson strings

/-- A rendering of the settings: those that are as the default has them may
be left out. -/
def TokenizerSpelled (config : TokenizerConfig) : Json → Prop :=
  RecordSpelled TokenizerField.all TokenizerField.names
    (fun f => f.get config = f.get {})
    fun f => TokenizerFieldSpelled f (f.get config)

theorem tokenizerNames : FieldNames TokenizerField.all TokenizerField.names where
  nodup := by decide
  all f := by cases f <;> decide
  head f := by cases f <;> decide
  find f := by cases f <;> decide

/-- Absent settings are the default's. -/
theorem tokenizerFinish_iff {missing : String → JsonError}
    {slots : Slots TokenizerField.Value} {config : TokenizerConfig} :
    TokenizerField.finish missing slots = .ok config
      ↔ ∀ f, Fills (· = f.get {}) (slots f) (f.get config) := by
  simp only [fills_eq_iff]
  unfold TokenizerField.finish
  dsimp only
  constructor
  · rintro h f
    cases h
    cases f <;> rfl
  · intro h
    simp only [h]
    rfl

/-- The settings are read off their renderings: their object is a level, the
list of stop words another. -/
theorem readTokenizerConfig_iff {remaining : Nat} (hdeep : 2 < remaining)
    {config : TokenizerConfig} {json : Json} :
    readTokenizerConfig remaining json = .ok config
      ↔ TokenizerSpelled config json := by
  have hone : 1 < remaining - 1 := by omega
  refine structVariant_iff tokenizerNames (by omega) ?_
    fun _ _ => tokenizerFinish_iff
  intro f json y
  cases f with
  | tokenizer => exact readTokenizerKind_iff hone
  | ngramMinGram | ngramMaxGram | maxTokenLength => exact readUsize_iff
  | language => exact readString_iff
  | stopWords => exact readStrings_iff hone
  | _ => exact readBool_iff

theorem tokenizerSpelled_toJson (config : TokenizerConfig) :
    TokenizerSpelled config config.toJson := by
  refine recordSpelled_toJson tokenizerNames fun f => ?_
  cases f with
  | tokenizer => exact Or.inl rfl
  | _ => rfl

/-- How the fields of a configuration are spelled. -/
def ConfigFieldSpelled : (f : ConfigField) → f.Value → Json → Prop
  | .rowIdField => fun s json => json = .string s
  | .textFields => fun strings json => json = stringsToJson strings
  | .tokenizer => TokenizerSpelled

/-- A rendering of a configuration. -/
def ConfigSpelled (config : FullTextIndexConfig) : Json → Prop :=
  RecordSpelled ConfigField.all ConfigField.names
    (fun f => f.get config = f.get {})
    fun f => ConfigFieldSpelled f (f.get config)

theorem configNames : FieldNames ConfigField.all ConfigField.names where
  nodup := by decide
  all f := by cases f <;> decide
  head f := by cases f <;> decide
  find f := by cases f <;> decide

/-- Absent fields are those of the default configuration. -/
theorem configFinish_iff {missing : String → JsonError}
    {slots : Slots ConfigField.Value} {config : FullTextIndexConfig} :
    ConfigField.finish missing slots = .ok config
      ↔ ∀ f, Fills (· = f.get {}) (slots f) (f.get config) := by
  simp only [fills_eq_iff]
  constructor
  · intro h f
    cases h
    cases f <;> rfl
  · intro h
    have hrow := h .rowIdField
    have htext := h .textFields
    have htokenizer := h .tokenizer
    refine congrArg Except.ok ?_
    cases config
    exact FullTextIndexConfig.mk.injEq .. ▸ ⟨hrow, htext, htokenizer⟩

/-- A configuration is read off its renderings. -/
theorem readConfig_iff {remaining : Nat} (hdeep : 3 < remaining)
    {config : FullTextIndexConfig} {json : Json} :
    readFullTextIndexConfig remaining json = .ok config
      ↔ ConfigSpelled config json := by
  refine structVariant_iff configNames (by omega) ?_
    fun _ _ => configFinish_iff
  intro f json y
  cases f with
  | rowIdField => exact readString_iff
  | textFields => exact readStrings_iff (by omega)
  | tokenizer => exact readTokenizerConfig_iff (by omega)

theorem configSpelled_toJson (config : FullTextIndexConfig) :
    ConfigSpelled config config.toJson := by
  refine recordSpelled_toJson configNames fun f => ?_
  cases f with
  | tokenizer => exact tokenizerSpelled_toJson config.tokenizer
  | _ => rfl

-- =========================================================== the header

/-- The defaults of the metadata. -/
def noMetadata : FullTextIndexMetadata := ⟨{}, 0, ""⟩

/-- How the fields of the metadata are spelled. -/
def MetadataFieldSpelled : (f : MetadataField) → f.Value → Json → Prop
  | .config => ConfigSpelled
  | .documentCount => fun n json => json = usizeToJson n
  | .tantivyVersion => fun s json => json = .string s

/-- A rendering of the metadata. -/
def MetadataSpelled (metadata : FullTextIndexMetadata) : Json → Prop :=
  RecordSpelled MetadataField.all MetadataField.names
    (fun f => f.get metadata = f.get noMetadata)
    fun f => MetadataFieldSpelled f (f.get metadata)

theorem metadataNames : FieldNames MetadataField.all MetadataField.names where
  nodup := by decide
  all f := by cases f <;> decide
  head f := by cases f <;> decide
  find f := by cases f <;> decide

/-- Absent fields are empty. -/
theorem metadataFinish_iff {missing : String → JsonError}
    {slots : Slots MetadataField.Value} {metadata : FullTextIndexMetadata} :
    MetadataField.finish missing slots = .ok metadata
      ↔ ∀ f, Fills (· = f.get noMetadata) (slots f) (f.get metadata) := by
  simp only [fills_eq_iff]
  constructor
  · intro h f
    cases h
    cases f <;> rfl
  · intro h
    have hconfig := h .config
    have hcount := h .documentCount
    have hversion := h .tantivyVersion
    refine congrArg Except.ok ?_
    cases metadata
    exact FullTextIndexMetadata.mk.injEq .. ▸ ⟨hconfig, hcount, hversion⟩

/-- Metadata is read off its renderings. -/
theorem readMetadata_iff {remaining : Nat} (hdeep : 4 < remaining)
    {metadata : FullTextIndexMetadata} {json : Json} :
    readFullTextIndexMetadata remaining json = .ok metadata
      ↔ MetadataSpelled metadata json := by
  refine structVariant_iff metadataNames (by omega) ?_
    fun _ _ => metadataFinish_iff
  intro f json y
  cases f with
  | config => exact readConfig_iff (by omega)
  | documentCount => exact readUsize_iff
  | tantivyVersion => exact readString_iff

theorem metadataSpelled_toJson (metadata : FullTextIndexMetadata) :
    MetadataSpelled metadata metadata.toJson := by
  refine recordSpelled_toJson metadataNames fun f => ?_
  cases f with
  | config => exact configSpelled_toJson metadata.config
  | _ => rfl

def EntryFieldSpelled : (f : EntryField) → f.Value → Json → Prop
  | .name => fun s json => json = .string s
  | .offset | .length => fun n json => json = usizeToJson n

/-- The fields of an entry have no defaults. -/
def EntrySpelled (entry : ArchiveFileEntry) : Json → Prop :=
  RecordSpelled EntryField.all EntryField.names (fun _ => False)
    fun f => EntryFieldSpelled f (f.get entry)

theorem entryNames : FieldNames EntryField.all EntryField.names where
  nodup := by decide
  all f := by cases f <;> decide
  head f := by cases f <;> decide
  find f := by cases f <;> decide

/-- An entry has all its fields or is not read. -/
theorem entryFinish_iff {missing : String → JsonError}
    {slots : Slots EntryField.Value} {entry : ArchiveFileEntry} :
    EntryField.finish missing slots = .ok entry
      ↔ ∀ f, Fills (fun _ => False) (slots f) (f.get entry) := by
  simp only [fills_required_iff]
  constructor
  · intro h
    obtain ⟨name, hname, h⟩ := except_bind_eq_ok.mp h
    obtain ⟨offset, hoffset, h⟩ := except_bind_eq_ok.mp h
    obtain ⟨length, hlength, h⟩ := except_bind_eq_ok.mp h
    cases h
    intro f
    cases f with
    | name => exact required_eq_ok.mp hname
    | offset => exact required_eq_ok.mp hoffset
    | length => exact required_eq_ok.mp hlength
  · intro h
    exact except_bind_eq_ok.mpr ⟨_, required_eq_ok.mpr (h .name),
      except_bind_eq_ok.mpr ⟨_, required_eq_ok.mpr (h .offset),
        except_bind_eq_ok.mpr ⟨_, required_eq_ok.mpr (h .length), rfl⟩⟩⟩

/-- An entry is read off its renderings. -/
theorem readEntry_iff {remaining : Nat} (hone : 1 < remaining)
    {entry : ArchiveFileEntry} {json : Json} :
    readArchiveFileEntry remaining json = .ok entry
      ↔ EntrySpelled entry json := by
  refine @structVariant_iff _ _ _ _ _ _ _ _ _ (fun _ => EntryField.read) _
    entryNames _ hone ?_ _ (fun _ _ => entryFinish_iff) _
  intro f json y
  cases f with
  | name => exact readString_iff
  | _ => exact readUsize_iff

theorem entrySpelled_toJson (entry : ArchiveFileEntry) :
    EntrySpelled entry entry.toJson := by
  refine recordSpelled_toJson entryNames fun f => ?_
  cases f <;> rfl

def HeaderFieldSpelled : (f : HeaderField) → f.Value → Json → Prop
  | .metadata => MetadataSpelled
  | .files => VecSpelled EntrySpelled

/-- A rendering of a header. -/
def HeaderSpelled (header : IndexHeader) : Json → Prop :=
  RecordSpelled HeaderField.all HeaderField.names (fun _ => False)
    fun f => HeaderFieldSpelled f (f.get header)

theorem headerNames : FieldNames HeaderField.all HeaderField.names where
  nodup := by decide
  all f := by cases f <;> decide
  head f := by cases f <;> decide
  find f := by cases f <;> decide

/-- A header has both its fields or is not read. -/
theorem headerFinish_iff {missing : String → JsonError}
    {slots : Slots HeaderField.Value} {header : IndexHeader} :
    HeaderField.finish missing slots = .ok header
      ↔ ∀ f, Fills (fun _ => False) (slots f) (f.get header) := by
  simp only [fills_required_iff]
  constructor
  · intro h
    obtain ⟨metadata, hmetadata, h⟩ := except_bind_eq_ok.mp h
    obtain ⟨files, hfiles, h⟩ := except_bind_eq_ok.mp h
    cases h
    intro f
    cases f with
    | metadata => exact required_eq_ok.mp hmetadata
    | files => exact required_eq_ok.mp hfiles
  · intro h
    exact except_bind_eq_ok.mpr ⟨_, required_eq_ok.mpr (h .metadata),
      except_bind_eq_ok.mpr ⟨_, required_eq_ok.mpr (h .files), rfl⟩⟩

/-- A header is read off its renderings, with five levels left. -/
theorem readIndexHeader_iff {remaining : Nat} (hdeep : 5 < remaining)
    {header : IndexHeader} {json : Json} :
    readIndexHeader remaining json = .ok header ↔ HeaderSpelled header json := by
  refine structVariant_iff headerNames (by omega) ?_
    fun _ _ => headerFinish_iff
  intro f json y
  cases f with
  | metadata => exact readMetadata_iff (by omega)
  | files => exact readVec_iff (by omega) fun _ _ => readEntry_iff (by omega)

/-- What serde writes for a header is one of them. -/
theorem headerSpelled_toJson (header : IndexHeader) :
    HeaderSpelled header header.toJson := by
  refine recordSpelled_toJson headerNames fun f => ?_
  cases f with
  | metadata => exact metadataSpelled_toJson header.metadata
  | files =>
      exact ⟨_, rfl, List.forall₂_map_right_iff.mpr (List.forall₂_same.mpr
        fun entry _ => entrySpelled_toJson entry)⟩

-- ========================================================= the envelope

/-- Bytes are decoded as a header exactly when their text is one of the
header's renderings. -/
theorem fromSlice_iff {text : JsonText} {bytes : Bytes} {header : IndexHeader} :
    text.headerJson.fromSlice bytes = .ok header
      ↔ ∃ json, text.parse bytes = .ok json ∧ HeaderSpelled header json := by
  have hdeep : 5 < recursionLimit := by decide
  unfold JsonText.headerJson
  constructor
  · intro h
    obtain ⟨json, hjson, h⟩ := except_bind_eq_ok.mp h
    exact ⟨json, hjson, (readIndexHeader_iff hdeep).mp h⟩
  · rintro ⟨json, hjson, h⟩
    exact except_bind_eq_ok.mpr ⟨json, hjson, (readIndexHeader_iff hdeep).mpr h⟩

/-- The derives lose nothing: text that parses back what it prints
decodes what it encodes. -/
theorem headerJson_roundTrips {text : JsonText}
    (hback : ∀ header : IndexHeader,
      text.parse (text.print header.toJson) = .ok header.toJson) :
    text.headerJson.RoundTrips := by
  rintro header bytes h
  cases h
  exact fromSlice_iff.mpr ⟨_, hback header, headerSpelled_toJson header⟩

/-- A file that starts with an envelope: its prefix, the header's text
and the rest. -/
def Enveloped (text : JsonText) (header : IndexHeader) (bodyStart : UInt64)
    (data : Bytes) : Prop :=
  ∃ bytes json rest, data = envelopePrefix bytes ++ bytes ++ rest
    ∧ bytes.length ≤ maxHeaderBytes
    ∧ text.parse bytes = .ok json ∧ HeaderSpelled header json
    ∧ validateHeader header = .ok ()
    ∧ bodyStart = 16 + UInt64.ofNat bytes.length

/-- The fixed part that passes its checks is the prefix of any header as
long as it says. -/
theorem fixed_eq_envelopePrefix {fixed json : Bytes} (hsize : fixed.length = 16)
    (h : FixedOk fixed) (hlen : json.length = headerLength fixed) :
    fixed = envelopePrefix json := by
  have hcut : fixed = fixed.take 8 ++ slice fixed 8 4 ++ slice fixed 12 4 := by
    have hlast : slice fixed 12 4 = fixed.drop 12 :=
      List.take_of_length_le (by simp [hsize])
    have hrest : fixed.drop 8 = slice fixed 8 4 ++ fixed.drop 12 := by
      have hdrop : fixed.drop 12 = (fixed.drop 8).drop 4 := by
        rw [List.drop_drop]
      rw [hdrop]
      exact (List.take_append_drop 4 (fixed.drop 8)).symm
    rw [hlast, List.append_assoc, ← hrest, List.take_append_drop]
  have hversion : slice fixed 8 4 = toBeBytes formatVersion := by
    rw [← h.version, toBeBytes_fromBeBytes (slice_length (by omega))]
  have hlength : slice fixed 12 4 = toBeBytes (UInt32.ofNat json.length) := by
    rw [hlen]
    unfold headerLength
    rw [UInt32.ofNat_toNat, toBeBytes_fromBeBytes (slice_length (by omega))]
  unfold envelopePrefix
  rw [← h.magic, ← hversion, ← hlength]
  exact hcut

/-- What `read_header` accepts is exactly the envelope format: magic,
version 1, the length of the header's text, a rendering of a header that
passes `validate_header`, and anything after it. -/
theorem readHeader_iff {text : JsonText} {data : Bytes} {header : IndexHeader}
    {bodyStart : UInt64} :
    readHeader text.headerJson (sliceReader data) = .ok (header, bodyStart)
      ↔ Enveloped text header bodyStart data := by
  constructor
  · intro h
    obtain ⟨fixed, bytes, hfixed, hok, hbytes, hdecode, hvalid, rfl⟩ :=
      readHeader_eq_ok h
    obtain ⟨hfit, hfixed⟩ :=
      readExactAt_of_immutable (sliceReader_immutable data) hfixed
    obtain ⟨hfit', hbytes⟩ :=
      readExactAt_of_immutable (sliceReader_immutable data) hbytes
    obtain ⟨json, hjson, hspelled⟩ := fromSlice_iff.mp hdecode
    have hlen : bytes.length = headerLength fixed := by
      rw [hbytes, slice_length hfit']
    have hfixedPart : fixed = envelopePrefix bytes :=
      fixed_eq_envelopePrefix (by rw [hfixed, slice_length hfit]) hok hlen
    have hdata : data = fixed ++ bytes ++ data.drop (16 + headerLength fixed) := by
      have hzero : UInt64.toNat 0 = 0 := rfl
      have hword : UInt64.toNat 16 = 16 := rfl
      rw [hword] at hbytes
      have htake : data.drop 16
          = bytes ++ data.drop (16 + headerLength fixed) := by
        rw [hbytes]
        unfold slice
        rw [← List.drop_drop, List.take_append_drop]
      rw [List.append_assoc, ← htake, hfixed, hzero]
      exact (List.take_append_drop 16 data).symm
    rw [hfixedPart] at hdata
    exact ⟨bytes, json, _, hdata, by rw [hlen]; exact hok.length, hjson,
      hspelled, hvalid, by rw [hlen]⟩
  · rintro ⟨bytes, json, rest, rfl, hlen, hjson, hspelled, hvalid, rfl⟩
    exact readHeader_of_prefix (fromSlice_iff.mpr ⟨json, hjson, hspelled⟩) hlen
      hvalid

end PaimonFtindex.Proofs

/-
What JSON is read as a query: exactly its renderings.

`QuerySpelled` is the grammar of queries: at every node one member tagged
by the variant, its content a rendering of the variant's fields in the
sense of `RecordSpelled`. It counts the levels that are left: serde_json
enters at most 127 arrays and objects, and a query is read as long as its
own stay within them, however deep the members that are skipped may be.

The parser accepts nothing else (`fromJson_iff`): a text without
`columns`, with a field given twice under two of its names, with a number
above its type's range or with two variants in one object is an error,
and two texts that are read as different queries differ in the grammar.
-/
import PaimonFtindex.Proofs.RecordJson

namespace PaimonFtindex.Proofs

open Model Lib

-- ============================================================= the grammar

/-- The object around a variant's content. -/
def Tagged (tags : List String) (content : Json → Prop) (json : Json) : Prop :=
  ∃ tag value, json = .object [(tag, value)] ∧ tag ∈ tags ∧ content value

/-- An array, where a level is left for it. -/
def VecWithin {α : Type} (levels : Nat) (spelled : α → Json → Prop)
    (xs : List α) (json : Json) : Prop :=
  0 < levels ∧ VecSpelled spelled xs json

/-- The value a field of a match has when it is left out; the terms have
none. -/
def MatchDefault : (f : MatchField) → f.Value → Prop
  | .column => fun column => column = (none : Option String)
  | .terms => fun _ => False
  | .operator => fun operator => operator = MatchOperator.or
  | .boost => fun boost => boost = defaultBoost
  | .fuzziness => fun fuzziness => fuzziness = defaultFuzziness
  | .maxExpansions => fun n => n = defaultMaxExpansions
  | .prefixLength => fun n => n = (0 : UInt32)

/-- How the fields of a match are spelled. -/
def MatchFieldSpelled (serde : SerdeJson) :
    (f : MatchField) → f.Value → Json → Prop
  | .column => ColumnSpelled
  | .terms => fun s json => json = .string s
  | .operator => OperatorSpelled
  | .boost => F32Spelled serde
  | .fuzziness => FuzzinessSpelled
  | .maxExpansions => fun n json => json = usizeToJson n
  | .prefixLength => fun n json => json = u32ToJson n

/-- The values left out of a match of several columns. -/
def MultiMatchDefault : (f : MultiMatchField) → f.Value → Prop
  | .terms => fun _ => False
  | .columns => fun _ => False
  | .boosts => fun boosts => boosts = ([] : List F32)
  | .operator => fun operator => operator = MatchOperator.or
  | .fuzziness => fun fuzziness => fuzziness = defaultFuzziness
  | .maxExpansions => fun n => n = defaultMaxExpansions
  | .prefixLength => fun n => n = (0 : UInt32)

/-- How its fields are spelled; the lists need a level. -/
def MultiMatchFieldSpelled (serde : SerdeJson) (levels : Nat) :
    (f : MultiMatchField) → f.Value → Json → Prop
  | .terms => fun s json => json = .string s
  | .columns => VecWithin levels fun s json => json = .string s
  | .boosts => VecWithin levels (F32Spelled serde)
  | .operator => OperatorSpelled
  | .fuzziness => FuzzinessSpelled
  | .maxExpansions => fun n json => json = usizeToJson n
  | .prefixLength => fun n json => json = u32ToJson n

/-- The values left out of a phrase. -/
def PhraseDefault : (f : PhraseField) → f.Value → Prop
  | .column => fun column => column = (none : Option String)
  | .terms => fun _ => False
  | .slop => fun n => n = (0 : UInt32)

/-- How the fields of a phrase are spelled. -/
def PhraseFieldSpelled : (f : PhraseField) → f.Value → Json → Prop
  | .column => ColumnSpelled
  | .terms => fun s json => json = .string s
  | .slop => fun n json => json = u32ToJson n

/-- A boolean query has no clauses that are left out. -/
def BooleanDefault : (f : BooleanField) → f.Value → Prop
  | .should | .must | .mustNot => fun queries => queries = ([] : List QuerySpec)
  | .queries => fun clauses => clauses = ([] : List (BooleanOccur × QuerySpec))

/-- A pair of an occur and a query, where a level is left for it. -/
def ClauseWithin (levels : Nat) (spelled : QuerySpec → Json → Prop)
    (clause : BooleanOccur × QuerySpec) (json : Json) : Prop :=
  ∃ s element, json = .array [.string s, element]
    ∧ trim s ∈ occurSpellings clause.1 ∧ 0 < levels ∧ spelled clause.2 element

/-- The queries of a list are two levels below the boolean one's fields,
those of a clause three. -/
def BooleanFieldSpelled (levels : Nat)
    (inList inClause : QuerySpec → Json → Prop) :
    (f : BooleanField) → f.Value → Json → Prop
  | .should | .must | .mustNot => VecWithin levels inList
  | .queries => VecWithin levels (ClauseWithin (levels - 1) inClause)

/-- The value left out of a demotion. -/
def BoostDefault : (f : BoostField) → f.Value → Prop
  | .positive | .negative => fun _ => False
  | .negativeBoost => fun boost => boost = defaultNegativeBoost

/-- How the fields of a demotion are spelled. -/
def BoostFieldSpelled (serde : SerdeJson) (spelled : QuerySpec → Json → Prop) :
    (f : BoostField) → f.Value → Json → Prop
  | .positive | .negative => spelled
  | .negativeBoost => F32Spelled serde

/-- `json` is a rendering of the query that enters no more than so many
levels of arrays and objects. -/
def QuerySpelled (serde : SerdeJson) : Nat → QuerySpec → Json → Prop
  | 0, _, _ => False
  | 1, _, _ => False
  | _ + 2, .match column terms operator boost fuzziness maxExpansions
      prefixLength, json =>
      Tagged ["match"] (RecordSpelled MatchField.all MatchField.names
        (fun f => MatchDefault f (matchValues column terms operator boost
          fuzziness maxExpansions prefixLength f))
        (fun f => MatchFieldSpelled serde f (matchValues column terms operator
          boost fuzziness maxExpansions prefixLength f))) json
  | levels + 2, .multiMatch terms columns boosts operator fuzziness
      maxExpansions prefixLength, json =>
      Tagged ["multi_match"] (RecordSpelled MultiMatchField.all
        MultiMatchField.names
        (fun f => MultiMatchDefault f (multiMatchValues terms columns boosts
          operator fuzziness maxExpansions prefixLength f))
        (fun f => MultiMatchFieldSpelled serde levels f (multiMatchValues terms
          columns boosts operator fuzziness maxExpansions prefixLength f))) json
  | _ + 2, .matchPhrase column terms slop, json =>
      Tagged ["match_phrase", "phrase"] (RecordSpelled PhraseField.all
        PhraseField.names
        (fun f => PhraseDefault f (phraseValues column terms slop f))
        (fun f => PhraseFieldSpelled f (phraseValues column terms slop f))) json
  | levels + 2, .boolean should must mustNot queries, json =>
      Tagged ["boolean"] (RecordSpelled BooleanField.all BooleanField.names
        (fun f => BooleanDefault f (booleanValues should must mustNot queries f))
        (fun f => BooleanFieldSpelled levels
          (fun q json => QuerySpelled serde (levels - 1) q json)
          (fun q json => QuerySpelled serde (levels - 2) q json) f
          (booleanValues should must mustNot queries f))) json
  | levels + 2, .boost positive negative negativeBoost, json =>
      Tagged ["boost"] (RecordSpelled BoostField.all BoostField.names
        (fun f => BoostDefault f (boostValues positive negative negativeBoost f))
        (fun f => BoostFieldSpelled serde
          (fun q json => QuerySpelled serde levels q json) f
          (boostValues positive negative negativeBoost f))) json
termination_by levels => levels

-- ============================================================== the values

theorem readOptionString_iff {json : Json} {column : Option String} :
    readOptionString json = .ok column ↔ ColumnSpelled column json := by
  constructor
  · intro h
    unfold readOptionString at h
    split at h
    · cases h
      exact rfl
    · cases h
      exact rfl
    · cases h
  · exact readOptionString_of_spelled

/-- An operator is read off its spellings, blanks around them aside. -/
theorem readOperator_iff {json : Json} {operator : MatchOperator} :
    readOperator json = .ok operator ↔ OperatorSpelled operator json := by
  constructor
  · intro h
    obtain ⟨s, hs, h⟩ := except_bind_eq_ok.mp h
    rw [readString_iff] at hs
    refine ⟨s, hs, ?_⟩
    split at h <;> cases h <;> simp [operatorSpellings, *]
  · exact readOperator_of_spelled

/-- So is an occur. -/
theorem readOccur_iff {json : Json} {occur : BooleanOccur} :
    readOccur json = .ok occur
      ↔ ∃ s, json = .string s ∧ trim s ∈ occurSpellings occur := by
  constructor
  · intro h
    obtain ⟨s, hs, h⟩ := except_bind_eq_ok.mp h
    rw [readString_iff] at hs
    refine ⟨s, hs, ?_⟩
    split at h <;> cases h <;> simp [occurSpellings, *]
  · intro h
    obtain ⟨s, rfl, hs⟩ := h
    exact readOccur_of_spelled hs

/-- A number is read as the float the crate makes of it. -/
theorem readF32_iff {serde : SerdeJson} {json : Json} {x : F32} :
    readF32 serde json = .ok x ↔ F32Spelled serde x json := by
  constructor
  · intro h
    cases json with
    | number n =>
        cases h
        exact ⟨n, rfl, rfl⟩
    | _ => cases h
  · exact readF32_of_spelled

/-- A fuzziness is a byte, or automatic. -/
theorem readFuzziness_iff {json : Json} {fuzziness : Option UInt8} :
    readFuzziness json = .ok fuzziness ↔ FuzzinessSpelled fuzziness json := by
  constructor
  · intro h
    unfold readFuzziness at h
    split at h
    · cases h
      exact .inl rfl
    · rename_i s
      split at h
      · rename_i hauto
        cases h
        exact .inr ⟨s, rfl, hauto⟩
      · cases h
    · rename_i n
      split at h
      · rename_i hlt
        cases h
        show Json.number (.posInt n) = .number (.posInt n.toUInt8.toUInt64)
        congr 2
        apply UInt64.toNat_inj.mp
        rw [UInt8.toNat_toUInt64, UInt64.toNat_toUInt8, Nat.mod_eq_of_lt hlt]
      · cases h
    · cases h
    · cases h
  · exact readFuzziness_of_spelled

theorem readU32_iff {json : Json} {n : UInt32} :
    readU32 json = .ok n ↔ json = u32ToJson n := by
  constructor
  · intro h
    unfold readU32 at h
    split at h
    · rename_i m
      split at h
      · rename_i hlt
        cases h
        show Json.number (.posInt m) = .number (.posInt m.toUInt32.toUInt64)
        congr 2
        apply UInt64.toNat_inj.mp
        rw [UInt32.toNat_toUInt64, UInt64.toNat_toUInt32, Nat.mod_eq_of_lt hlt]
      · cases h
    · cases h
  · intro h
    rw [h]
    exact readU32_u32ToJson n

/-- Without a level left nothing is entered. -/
theorem enter_eq_ok {α : Type} {remaining : Nat}
    {body : Nat → Except JsonError α} {x : α} :
    enter remaining body = .ok x
      ↔ 1 < remaining ∧ body (remaining - 1) = .ok x := by
  unfold enter
  by_cases h : remaining ≤ 1
  · rw [if_pos h]
    constructor
    · intro h
      cases h
    · intro h
      omega
  · rw [if_neg h]
    exact ⟨fun hx => ⟨by omega, hx⟩, fun hx => hx.2⟩

/-- A list is read off its renderings that stay within the levels left. -/
theorem readVec_within_iff {α : Type}
    {read : Nat → Json → Except JsonError α} {spelled : α → Json → Prop}
    {remaining : Nat}
    (hread : ∀ json x, read (remaining - 1) json = .ok x ↔ spelled x json)
    {xs : List α} {json : Json} :
    readVec read remaining json = .ok xs
      ↔ VecWithin (remaining - 1) spelled xs json := by
  by_cases hone : 1 < remaining
  · rw [readVec_iff hone hread]
    exact ⟨fun h => ⟨by omega, h⟩, fun h => h.2⟩
  · constructor
    · intro h
      unfold readVec at h
      split at h
      · exact absurd (enter_eq_ok.mp h).1 hone
      · cases h
    · intro h
      have := h.1
      omega

/-- So is a clause. -/
theorem readClause_iff {querySpec : Nat → Json → Except JsonError QuerySpec}
    {spelled : QuerySpec → Json → Prop} {remaining : Nat}
    (hread : ∀ json q, querySpec (remaining - 1) json = .ok q
      ↔ spelled q json)
    {clause : BooleanOccur × QuerySpec} {json : Json} :
    BooleanField.readClause querySpec remaining json = .ok clause
      ↔ ClauseWithin (remaining - 1) spelled clause json := by
  unfold BooleanField.readClause
  constructor
  · intro h
    cases json with
    | array elements =>
        obtain ⟨hone, h⟩ := enter_eq_ok.mp h
        rcases elements with _ | ⟨occurJson, _ | ⟨query, rest⟩⟩
        · cases h
        · cases h
        · obtain ⟨occur, hoccur, h⟩ := except_bind_eq_ok.mp h
          obtain ⟨q, hq, h⟩ := except_bind_eq_ok.mp h
          cases rest with
          | cons _ _ => cases h
          | nil =>
              cases h
              obtain ⟨s, rfl, hs⟩ := readOccur_iff.mp hoccur
              exact ⟨s, query, rfl, hs, by omega, (hread _ _).mp hq⟩
    | _ => cases h
  · intro h
    obtain ⟨s, element, rfl, hs, hlevel, helement⟩ := h
    refine enter_eq_ok.mpr ⟨by omega, ?_⟩
    exact except_bind_eq_ok.mpr ⟨clause.1, readOccur_of_spelled hs,
      except_bind_eq_ok.mpr ⟨clause.2, (hread _ _).mpr helement, rfl⟩⟩

-- =============================================================== the nodes

theorem matchNames : FieldNames MatchField.all MatchField.names where
  nodup := by decide
  all f := by cases f <;> decide
  head f := by cases f <;> decide
  find f := by cases f <;> decide

theorem multiMatchNames :
    FieldNames MultiMatchField.all MultiMatchField.names where
  nodup := by decide
  all f := by cases f <;> decide
  head f := by cases f <;> decide
  find f := by cases f <;> decide

theorem phraseNames : FieldNames PhraseField.all PhraseField.names where
  nodup := by decide
  all f := by cases f <;> decide
  head f := by cases f <;> decide
  find f := by cases f <;> decide

theorem booleanNames : FieldNames BooleanField.all BooleanField.names where
  nodup := by decide
  all f := by cases f <;> decide
  head f := by cases f <;> decide
  find f := by cases f <;> decide

theorem boostNames : FieldNames BoostField.all BoostField.names where
  nodup := by decide
  all f := by cases f <;> decide
  head f := by cases f <;> decide
  find f := by cases f <;> decide

section
variable {missing : String → JsonError}

/-- A match takes its defaults for what is absent. -/
theorem matchFinish_iff {slots : Slots MatchField.Value}
    {column : Option String} {terms : String} {operator : MatchOperator}
    {boost : F32} {fuzziness : Option UInt8} {maxExpansions : UInt64} {prefixLength : UInt32} :
    MatchField.finish missing slots
        = .ok (.match column terms operator boost fuzziness maxExpansions
          prefixLength)
      ↔ ∀ f, Fills (MatchDefault f) (slots f) (matchValues column terms operator
        boost fuzziness maxExpansions prefixLength f) := by
  constructor
  · intro h
    obtain ⟨terms', hterms, h⟩ := except_bind_eq_ok.mp h
    cases h
    intro f
    cases f with
    | terms => exact fills_required_iff.mpr (required_eq_ok.mp hterms)
    | _ => exact fills_eq_iff.mpr rfl
  · intro h
    have hterms : slots .terms = some terms := fills_required_iff.mp (h .terms)
    have hcolumn := fills_eq_iff.mp (h .column)
    have hoperator := fills_eq_iff.mp (h .operator)
    have hboost := fills_eq_iff.mp (h .boost)
    have hfuzziness := fills_eq_iff.mp (h .fuzziness)
    have hmax := fills_eq_iff.mp (h .maxExpansions)
    have hprefix := fills_eq_iff.mp (h .prefixLength)
    refine except_bind_eq_ok.mpr ⟨terms, required_eq_ok.mpr hterms, ?_⟩
    exact congrArg Except.ok (QuerySpec.match.injEq .. ▸ ⟨hcolumn, rfl,
      hoperator, hboost, hfuzziness, hmax, hprefix⟩)

theorem multiMatchFinish_iff {slots : Slots MultiMatchField.Value}
    {terms : String} {columns : List String} {boosts : List F32}
    {operator : MatchOperator} {fuzziness : Option UInt8}
    {maxExpansions : UInt64} {prefixLength : UInt32} :
    MultiMatchField.finish missing slots
        = .ok (.multiMatch terms columns boosts operator fuzziness maxExpansions
          prefixLength)
      ↔ ∀ f, Fills (MultiMatchDefault f) (slots f) (multiMatchValues terms columns
        boosts operator fuzziness maxExpansions prefixLength f) := by
  constructor
  · intro h
    obtain ⟨terms', hterms, h⟩ := except_bind_eq_ok.mp h
    obtain ⟨columns', hcolumns, h⟩ := except_bind_eq_ok.mp h
    cases h
    intro f
    cases f with
    | terms => exact fills_required_iff.mpr (required_eq_ok.mp hterms)
    | columns => exact fills_required_iff.mpr (required_eq_ok.mp hcolumns)
    | _ => exact fills_eq_iff.mpr rfl
  · intro h
    have hterms : slots .terms = some terms := fills_required_iff.mp (h .terms)
    have hcolumns : slots .columns = some columns :=
      fills_required_iff.mp (h .columns)
    have hboosts := fills_eq_iff.mp (h .boosts)
    have hoperator := fills_eq_iff.mp (h .operator)
    have hfuzziness := fills_eq_iff.mp (h .fuzziness)
    have hmax := fills_eq_iff.mp (h .maxExpansions)
    have hprefix := fills_eq_iff.mp (h .prefixLength)
    refine except_bind_eq_ok.mpr ⟨terms, required_eq_ok.mpr hterms, ?_⟩
    refine except_bind_eq_ok.mpr ⟨columns, required_eq_ok.mpr hcolumns, ?_⟩
    exact congrArg Except.ok (QuerySpec.multiMatch.injEq .. ▸ ⟨rfl, rfl,
      hboosts, hoperator, hfuzziness, hmax, hprefix⟩)

theorem phraseFinish_iff {slots : Slots PhraseField.Value}
    {column : Option String} {terms : String} {slop : UInt32} :
    PhraseField.finish missing slots = .ok (.matchPhrase column terms slop)
      ↔ ∀ f, Fills (PhraseDefault f) (slots f)
        (phraseValues column terms slop f) := by
  constructor
  · intro h
    obtain ⟨terms', hterms, h⟩ := except_bind_eq_ok.mp h
    cases h
    intro f
    cases f with
    | terms => exact fills_required_iff.mpr (required_eq_ok.mp hterms)
    | _ => exact fills_eq_iff.mpr rfl
  · intro h
    have hterms : slots .terms = some terms := fills_required_iff.mp (h .terms)
    have hcolumn := fills_eq_iff.mp (h .column)
    have hslop := fills_eq_iff.mp (h .slop)
    refine except_bind_eq_ok.mpr ⟨terms, required_eq_ok.mpr hterms, ?_⟩
    exact congrArg Except.ok (QuerySpec.matchPhrase.injEq .. ▸
      ⟨hcolumn, rfl, hslop⟩)

/-- A boolean query is read whatever is absent. -/
theorem booleanFinish_iff {slots : Slots BooleanField.Value}
    {should must mustNot : List QuerySpec}
    {queries : List (BooleanOccur × QuerySpec)} :
    BooleanField.finish missing slots = .ok (.boolean should must mustNot queries)
      ↔ ∀ f, Fills (BooleanDefault f) (slots f)
        (booleanValues should must mustNot queries f) := by
  constructor
  · intro h
    cases h
    intro f
    cases f <;> exact fills_eq_iff.mpr rfl
  · intro h
    have hshould := fills_eq_iff.mp (h .should)
    have hmust := fills_eq_iff.mp (h .must)
    have hmustNot := fills_eq_iff.mp (h .mustNot)
    have hqueries := fills_eq_iff.mp (h .queries)
    exact congrArg Except.ok (QuerySpec.boolean.injEq .. ▸
      ⟨hshould, hmust, hmustNot, hqueries⟩)

theorem boostFinish_iff {slots : Slots BoostField.Value}
    {positive negative : QuerySpec} {negativeBoost : F32} :
    BoostField.finish missing slots
        = .ok (.boost positive negative negativeBoost)
      ↔ ∀ f, Fills (BoostDefault f) (slots f)
        (boostValues positive negative negativeBoost f) := by
  constructor
  · intro h
    obtain ⟨positive', hpositive, h⟩ := except_bind_eq_ok.mp h
    obtain ⟨negative', hnegative, h⟩ := except_bind_eq_ok.mp h
    cases h
    intro f
    cases f with
    | positive => exact fills_required_iff.mpr (required_eq_ok.mp hpositive)
    | negative => exact fills_required_iff.mpr (required_eq_ok.mp hnegative)
    | negativeBoost => exact fills_eq_iff.mpr rfl
  · intro h
    have hpositive : slots .positive = some positive :=
      fills_required_iff.mp (h .positive)
    have hnegative : slots .negative = some negative :=
      fills_required_iff.mp (h .negative)
    have hboost := fills_eq_iff.mp (h .negativeBoost)
    refine except_bind_eq_ok.mpr ⟨positive, required_eq_ok.mpr hpositive, ?_⟩
    refine except_bind_eq_ok.mpr ⟨negative, required_eq_ok.mpr hnegative, ?_⟩
    exact congrArg Except.ok (QuerySpec.boost.injEq .. ▸ ⟨rfl, rfl, hboost⟩)

end

section
variable {serde : SerdeJson}
  {querySpec : Nat → Json → Except JsonError QuerySpec} {remaining : Nat}
  {content : Json}

/-- A match is read off its renderings. -/
theorem readMatch_iff (hone : 1 < remaining) {column : Option String}
    {terms : String} {operator : MatchOperator} {boost : F32}
    {fuzziness : Option UInt8} {maxExpansions : UInt64} {prefixLength : UInt32} :
    readVariant serde querySpec .match remaining content
        = .ok (.match column terms operator boost fuzziness maxExpansions
          prefixLength)
      ↔ RecordSpelled MatchField.all MatchField.names
        (fun f => MatchDefault f (matchValues column terms operator boost
          fuzziness maxExpansions prefixLength f))
        (fun f => MatchFieldSpelled serde f (matchValues column terms operator
          boost fuzziness maxExpansions prefixLength f)) content := by
  refine @structVariant_iff _ _ _ _ _ _ _ _ _ (fun _ => MatchField.read serde)
    MatchField.finish matchNames _ hone ?_ _ (fun _ _ => matchFinish_iff) _
  intro f json y
  cases f with
  | column => exact readOptionString_iff
  | terms => exact readString_iff
  | operator => exact readOperator_iff
  | boost => exact readF32_iff
  | fuzziness => exact readFuzziness_iff
  | maxExpansions => exact readUsize_iff
  | prefixLength => exact readU32_iff

theorem readMultiMatch_iff (hone : 1 < remaining) {terms : String}
    {columns : List String} {boosts : List F32} {operator : MatchOperator}
    {fuzziness : Option UInt8} {maxExpansions : UInt64} {prefixLength : UInt32} :
    readVariant serde querySpec .multiMatch remaining content
        = .ok (.multiMatch terms columns boosts operator fuzziness maxExpansions
          prefixLength)
      ↔ RecordSpelled MultiMatchField.all MultiMatchField.names
        (fun f => MultiMatchDefault f (multiMatchValues terms columns boosts
          operator fuzziness maxExpansions prefixLength f))
        (fun f => MultiMatchFieldSpelled serde (remaining - 2) f
          (multiMatchValues terms columns boosts operator fuzziness maxExpansions
            prefixLength f)) content := by
  refine @structVariant_iff _ _ _ _ _ _ _ _ _ (MultiMatchField.read serde)
    MultiMatchField.finish multiMatchNames _ hone ?_ _
    (fun _ _ => multiMatchFinish_iff) _
  intro f json y
  cases f with
  | terms => exact readString_iff
  | columns => exact readVec_within_iff fun _ _ => readString_iff
  | boosts => exact readVec_within_iff fun _ _ => readF32_iff
  | operator => exact readOperator_iff
  | fuzziness => exact readFuzziness_iff
  | maxExpansions => exact readUsize_iff
  | prefixLength => exact readU32_iff

theorem readMatchPhrase_iff (hone : 1 < remaining) {column : Option String}
    {terms : String} {slop : UInt32} :
    readVariant serde querySpec .matchPhrase remaining content
        = .ok (.matchPhrase column terms slop)
      ↔ RecordSpelled PhraseField.all PhraseField.names
        (fun f => PhraseDefault f (phraseValues column terms slop f))
        (fun f => PhraseFieldSpelled f (phraseValues column terms slop f))
        content := by
  refine @structVariant_iff _ _ _ _ _ _ _ _ _ (fun _ => PhraseField.read)
    PhraseField.finish phraseNames _ hone ?_ _ (fun _ _ => phraseFinish_iff) _
  intro f json y
  cases f with
  | column => exact readOptionString_iff
  | terms => exact readString_iff
  | slop => exact readU32_iff

/-- A boolean query is read off its renderings, if the queries inside are. -/
theorem readBoolean_iff (hone : 1 < remaining)
    {inList inClause : QuerySpec → Json → Prop}
    (hlist : ∀ json q, querySpec (remaining - 2) json = .ok q ↔ inList q json)
    (hclause : ∀ json q, querySpec (remaining - 3) json = .ok q
      ↔ inClause q json)
    {should must mustNot : List QuerySpec}
    {queries : List (BooleanOccur × QuerySpec)} :
    readVariant serde querySpec .boolean remaining content
        = .ok (.boolean should must mustNot queries)
      ↔ RecordSpelled BooleanField.all BooleanField.names
        (fun f => BooleanDefault f (booleanValues should must mustNot queries f))
        (fun f => BooleanFieldSpelled (remaining - 2) inList inClause f
          (booleanValues should must mustNot queries f)) content := by
  refine @structVariant_iff _ _ _ _ _ _ _ _ _ (BooleanField.read querySpec)
    BooleanField.finish booleanNames _ hone ?_ _ (fun _ _ => booleanFinish_iff) _
  intro f json y
  cases f with
  | queries =>
      exact readVec_within_iff fun _ _ => readClause_iff hclause
  | _ => exact readVec_within_iff hlist

/-- A demotion is, if both its queries are. -/
theorem readBoost_iff (hone : 1 < remaining) {spelled : QuerySpec → Json → Prop}
    (hquery : ∀ json q, querySpec (remaining - 1) json = .ok q ↔ spelled q json)
    {positive negative : QuerySpec} {negativeBoost : F32} :
    readVariant serde querySpec .boost remaining content
        = .ok (.boost positive negative negativeBoost)
      ↔ RecordSpelled BoostField.all BoostField.names
        (fun f => BoostDefault f (boostValues positive negative negativeBoost f))
        (fun f => BoostFieldSpelled serde spelled f
          (boostValues positive negative negativeBoost f)) content := by
  refine @structVariant_iff _ _ _ _ _ _ _ _ _ (BoostField.read serde querySpec)
    BoostField.finish boostNames _ hone ?_ _ (fun _ _ => boostFinish_iff) _
  intro f json y
  cases f with
  | positive => exact hquery json y
  | negative => exact hquery json y
  | negativeBoost => exact readF32_iff

end

-- ============================================================== the queries

/-- The names of each variant. -/
def variantTags : Variant → List String
  | .match => ["match"]
  | .multiMatch => ["multi_match"]
  | .matchPhrase => ["match_phrase", "phrase"]
  | .boolean => ["boolean"]
  | .boost => ["boost"]

theorem ofTag_eq_some_iff {tag : String} {variant : Variant} :
    Variant.ofTag tag = some variant ↔ tag ∈ variantTags variant := by
  constructor
  · intro h
    unfold Variant.ofTag at h
    split at h <;> cases h <;> simp [variantTags]
  · intro h
    cases variant with
    | matchPhrase =>
        simp only [variantTags, List.mem_cons, List.not_mem_nil, or_false] at h
        rcases h with rfl | rfl <;> rfl
    | _ =>
        cases List.mem_singleton.mp h
        rfl

/-- A record that is read was finished from some slots, a level down. -/
theorem exists_of_structVariant {F α : Type} {V : F → Type} [DecidableEq F]
    {spec : Nat → RecordSpec JsonError Json F V} {fields : List F}
    {finish : (String → JsonError) → Slots V → Except JsonError α}
    {remaining : Nat} {json : Json} {a : α}
    (h : structVariant spec fields finish remaining json = .ok a) :
    1 < remaining ∧ ∃ missing slots, finish missing slots = .ok a := by
  cases json with
  | object members =>
      unfold structVariant at h
      obtain ⟨hone, h⟩ := enter_eq_ok.mp h
      obtain ⟨slots, -, h⟩ := except_bind_eq_ok.mp h
      exact ⟨hone, missingField, slots, h⟩
  | array elements =>
      unfold structVariant at h
      obtain ⟨hone, h⟩ := enter_eq_ok.mp h
      obtain ⟨⟨slots, rest⟩, -, h⟩ := except_bind_eq_ok.mp h
      obtain ⟨value, hvalue, h⟩ := except_bind_eq_ok.mp h
      cases rest with
      | cons _ _ => cases h
      | nil =>
          cases h
          exact ⟨hone, _, slots, hvalue⟩
  | _ => cases h

/-- What a variant's reader returns is of that variant. -/
def OfVariant : Variant → QuerySpec → Prop
  | .match, q => ∃ column terms operator boost fuzziness maxExpansions
      prefixLength, q = .match column terms operator boost fuzziness
        maxExpansions prefixLength
  | .multiMatch, q => ∃ terms columns boosts operator fuzziness maxExpansions
      prefixLength, q = .multiMatch terms columns boosts operator fuzziness
        maxExpansions prefixLength
  | .matchPhrase, q => ∃ column terms slop, q = .matchPhrase column terms slop
  | .boolean, q => ∃ should must mustNot queries,
      q = .boolean should must mustNot queries
  | .boost, q => ∃ positive negative negativeBoost,
      q = .boost positive negative negativeBoost

/-- A variant that was read had a level left. -/
theorem one_lt_of_readVariant {serde : SerdeJson}
    {querySpec : Nat → Json → Except JsonError QuerySpec} {variant : Variant}
    {remaining : Nat} {content : Json} {q : QuerySpec}
    (h : readVariant serde querySpec variant remaining content = .ok q) :
    1 < remaining := by
  cases variant <;> exact (exists_of_structVariant h).1

theorem ofVariant_of_readVariant {serde : SerdeJson}
    {querySpec : Nat → Json → Except JsonError QuerySpec} {variant : Variant}
    {remaining : Nat} {content : Json} {q : QuerySpec}
    (h : readVariant serde querySpec variant remaining content = .ok q) :
    OfVariant variant q := by
  cases variant with
  | «match» =>
      obtain ⟨-, missing, slots, h⟩ := exists_of_structVariant h
      obtain ⟨terms, -, h⟩ := except_bind_eq_ok.mp h
      cases h
      exact ⟨_, _, _, _, _, _, _, rfl⟩
  | multiMatch =>
      obtain ⟨-, missing, slots, h⟩ := exists_of_structVariant h
      obtain ⟨terms, -, h⟩ := except_bind_eq_ok.mp h
      obtain ⟨columns, -, h⟩ := except_bind_eq_ok.mp h
      cases h
      exact ⟨_, _, _, _, _, _, _, rfl⟩
  | matchPhrase =>
      obtain ⟨-, missing, slots, h⟩ := exists_of_structVariant h
      obtain ⟨terms, -, h⟩ := except_bind_eq_ok.mp h
      cases h
      exact ⟨_, _, _, rfl⟩
  | boolean =>
      obtain ⟨-, missing, slots, h⟩ := exists_of_structVariant h
      cases h
      exact ⟨_, _, _, _, rfl⟩
  | boost =>
      obtain ⟨-, missing, slots, h⟩ := exists_of_structVariant h
      obtain ⟨positive, -, h⟩ := except_bind_eq_ok.mp h
      obtain ⟨negative, -, h⟩ := except_bind_eq_ok.mp h
      cases h
      exact ⟨_, _, _, rfl⟩

section
variable {serde : SerdeJson} {fuel remaining : Nat} {json : Json}
  {q : QuerySpec}

/-- One turn of the reader: a tag, a level, and the variant it names. -/
theorem readQuerySpec_succ_iff :
    readQuerySpec serde (fuel + 1) remaining json = .ok q
      ↔ ∃ tag content variant, json = .object [(tag, content)]
        ∧ tag ∈ variantTags variant ∧ 1 < remaining
        ∧ readVariant serde (readQuerySpec serde fuel) variant (remaining - 1)
          content = .ok q := by
  constructor
  · intro h
    unfold readQuerySpec at h
    split at h
    · cases h
    · rename_i tag content heq
      obtain ⟨hone, h⟩ := enter_eq_ok.mp h
      cases hvariant : Variant.ofTag tag with
      | none =>
          rw [hvariant] at h
          cases h
      | some variant =>
          rw [hvariant] at h
          cases heq
          exact ⟨tag, content, variant, rfl, ofTag_eq_some_iff.mp hvariant,
            hone, h⟩
    · cases h
  · intro h
    obtain ⟨tag, content, variant, rfl, htag, hone, h⟩ := h
    unfold readQuerySpec
    rw [enter_eq hone, ofTag_eq_some_iff.mpr htag]
    exact h

/-- A rendering enters its tag and its content at least. -/
theorem levels_of_querySpelled {levels : Nat}
    (h : QuerySpelled serde levels q json) : 2 ≤ levels := by
  rcases levels with _ | _ | levels
  · rw [QuerySpelled] at h
    exact h.elim
  · rw [QuerySpelled] at h
    exact h.elim
  · omega

/-- What is read is read from its rendering, whichever variant it has. -/
theorem querySpelled_of_readVariant {levels : Nat}
    {querySpec : Nat → Json → Except JsonError QuerySpec}
    (hread : ∀ n ≤ levels + 1, ∀ json q, querySpec n json = .ok q
      ↔ QuerySpelled serde (n - 1) q json) {tag : String} {content : Json}
    {variant : Variant} (htag : tag ∈ variantTags variant)
    (h : readVariant serde querySpec variant (levels + 2) content = .ok q) :
    QuerySpelled serde (levels + 2) q (.object [(tag, content)]) := by
  have hone : 1 < levels + 2 := by omega
  have hof := ofVariant_of_readVariant h
  cases variant with
  | «match» =>
      obtain ⟨column, terms, operator, boost, fuzziness, maxExpansions,
        prefixLength, rfl⟩ := hof
      simp only [QuerySpelled]
      exact ⟨tag, content, rfl, htag, (readMatch_iff hone).mp h⟩
  | multiMatch =>
      obtain ⟨terms, columns, boosts, operator, fuzziness, maxExpansions,
        prefixLength, rfl⟩ := hof
      simp only [QuerySpelled]
      exact ⟨tag, content, rfl, htag, (readMultiMatch_iff hone).mp h⟩
  | matchPhrase =>
      obtain ⟨column, terms, slop, rfl⟩ := hof
      simp only [QuerySpelled]
      exact ⟨tag, content, rfl, htag, (readMatchPhrase_iff hone).mp h⟩
  | boolean =>
      obtain ⟨should, must, mustNot, queries, rfl⟩ := hof
      simp only [QuerySpelled]
      exact ⟨tag, content, rfl, htag, (readBoolean_iff hone
        (hread levels (by omega)) (hread (levels - 1) (by omega))).mp h⟩
  | boost =>
      obtain ⟨positive, negative, negativeBoost, rfl⟩ := hof
      simp only [QuerySpelled]
      exact ⟨tag, content, rfl, htag,
        (readBoost_iff hone (hread (levels + 1) le_rfl)).mp h⟩

/-- And every rendering is read. -/
theorem readVariant_of_querySpelled {levels : Nat}
    {querySpec : Nat → Json → Except JsonError QuerySpec}
    (hread : ∀ n ≤ levels + 1, ∀ json q, querySpec n json = .ok q
      ↔ QuerySpelled serde (n - 1) q json)
    (h : QuerySpelled serde (levels + 2) q json) :
    ∃ tag content variant, json = .object [(tag, content)]
      ∧ tag ∈ variantTags variant
      ∧ readVariant serde querySpec variant (levels + 2) content = .ok q := by
  have hone : 1 < levels + 2 := by omega
  cases q with
  | «match» =>
      simp only [QuerySpelled] at h
      obtain ⟨tag, content, hjson, htag, h⟩ := h
      exact ⟨tag, content, .match, hjson, htag, (readMatch_iff hone).mpr h⟩
  | multiMatch =>
      simp only [QuerySpelled] at h
      obtain ⟨tag, content, hjson, htag, h⟩ := h
      exact ⟨tag, content, .multiMatch, hjson, htag,
        (readMultiMatch_iff hone).mpr h⟩
  | matchPhrase =>
      simp only [QuerySpelled] at h
      obtain ⟨tag, content, hjson, htag, h⟩ := h
      exact ⟨tag, content, .matchPhrase, hjson, htag,
        (readMatchPhrase_iff hone).mpr h⟩
  | boolean =>
      simp only [QuerySpelled] at h
      obtain ⟨tag, content, hjson, htag, h⟩ := h
      exact ⟨tag, content, .boolean, hjson, htag, (readBoolean_iff hone
        (hread levels (by omega)) (hread (levels - 1) (by omega))).mpr h⟩
  | boost =>
      simp only [QuerySpelled] at h
      obtain ⟨tag, content, hjson, htag, h⟩ := h
      exact ⟨tag, content, .boost, hjson, htag,
        (readBoost_iff hone (hread (levels + 1) le_rfl)).mpr h⟩

/-- The reader reads renderings and nothing else, by induction on the
fuel: every query inside has less of it, and fewer levels. -/
theorem readQuerySpec_iff (hfuel : remaining ≤ fuel) :
    readQuerySpec serde fuel remaining json = .ok q
      ↔ QuerySpelled serde (remaining - 1) q json := by
  induction fuel generalizing remaining json q with
  | zero =>
      constructor
      · intro h
        cases h
      · intro h
        have := levels_of_querySpelled h
        omega
  | succ fuel ih =>
      rw [readQuerySpec_succ_iff]
      constructor
      · intro h
        obtain ⟨tag, content, variant, rfl, htag, hone, h⟩ := h
        have hcontent := one_lt_of_readVariant h
        obtain ⟨levels, rfl⟩ : ∃ levels, remaining = levels + 3 :=
          ⟨remaining - 3, by omega⟩
        exact querySpelled_of_readVariant
          (fun n hn json q => ih (show n ≤ fuel by omega)) htag h
      · intro h
        have hlevels := levels_of_querySpelled h
        obtain ⟨levels, rfl⟩ : ∃ levels, remaining = levels + 3 :=
          ⟨remaining - 3, by omega⟩
        obtain ⟨tag, content, variant, hjson, htag, h⟩ :=
          readVariant_of_querySpelled
            (fun n hn json q => ih (show n ≤ fuel by omega)) h
        exact ⟨tag, content, variant, hjson, htag, by omega, h⟩

/-- The grammar is not ambiguous: a value renders one query at most. -/
theorem querySpelled_unique {levels : Nat} {q' : QuerySpec}
    (h : QuerySpelled serde levels q json)
    (h' : QuerySpelled serde levels q' json) : q = q' := by
  have hread := (@readQuerySpec_iff serde (levels + 1) (levels + 1) json q
    le_rfl).mpr h
  have hread' := (@readQuerySpec_iff serde (levels + 1) (levels + 1) json q'
    le_rfl).mpr h'
  rw [hread] at hread'
  exact Except.ok.inj hread'

end

/-- What `QuerySpec::from_json` accepts is exactly the grammar: a text
that parses as a rendering of the query within serde_json's recursion
limit, and the query it returns is the one rendered. -/
theorem fromJson_iff {serde : SerdeJson} {text : String} {spec : QuerySpec} :
    QuerySpec.fromJson serde text = .ok spec
      ↔ ∃ json, serde.parse text = .ok json
        ∧ QuerySpelled serde (recursionLimit - 1) spec json := by
  unfold QuerySpec.fromJson
  rw [liftError_eq_ok]
  constructor
  · intro h
    obtain ⟨json, hjson, h⟩ := except_bind_eq_ok.mp h
    exact ⟨json, hjson, (readQuerySpec_iff le_rfl).mp h⟩
  · intro h
    obtain ⟨json, hjson, h⟩ := h
    exact except_bind_eq_ok.mpr ⟨json, hjson, (readQuerySpec_iff le_rfl).mpr h⟩

/-- By position, the fields behind the given ones are at their defaults. -/
example (serde : SerdeJson) :
    readQuerySpec serde recursionLimit recursionLimit
        (.object [("match", .array [.null, .string "lake"])])
      = .ok (.match none "lake" .or F32.one (some 0) 50 0) := rfl

end PaimonFtindex.Proofs

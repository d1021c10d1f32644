/-
core/src/query.rs: the query language and its JSON form.

The deserializers of the source are partly derived and partly written by
hand. A derived one for a struct variant is the member loop of
`Lib.Record`, over the variant's fields with their aliases; it also
takes the fields by position, from an array. The ones by hand, for
operators, occurs and the fuzziness, are functions of their own.

# serde_json

`SerdeJson` stands for the crate: its text parser, and the reading and
writing of numbers as `f32`. A typed value is read off the parsed
members in their order, so duplicates are still there. Every array or
object that a typed reader enters costs one level of the recursion limit
(`enter`).
-/
import PaimonFtindex.Lib.Record
import PaimonFtindex.Model.Error
import PaimonFtindex.Model.Num
import PaimonFtindex.Model.Str

namespace PaimonFtindex.Model

open Lib

-- ============================================================ the language

/-- `MatchOperator`. -/
inductive MatchOperator where
  | or
  | and
  deriving DecidableEq, Repr

/-- `BooleanOccur`. -/
inductive BooleanOccur where
  | should
  | must
  | mustNot
  deriving DecidableEq, Repr

/-- `QuerySpec`. -/
inductive QuerySpec where
  | «match» (column : Option String) (terms : String)
      (operator : MatchOperator) (boost : F32) (fuzziness : Option UInt8)
      (maxExpansions : UInt64) (prefixLength : UInt32)
  | multiMatch (terms : String) (columns : List String) (boosts : List F32)
      (operator : MatchOperator) (fuzziness : Option UInt8)
      (maxExpansions : UInt64) (prefixLength : UInt32)
  | matchPhrase (column : Option String) (terms : String) (slop : UInt32)
  | boolean (should must mustNot : List QuerySpec)
      (queries : List (BooleanOccur × QuerySpec))
  | boost (positive negative : QuerySpec) (negativeBoost : F32)

/-- Induction over queries, with every clause of a boolean query. -/
theorem QuerySpec.induction {P : QuerySpec → Prop}
    (hmatch : ∀ column terms operator boost fuzziness maxExpansions prefixLength,
      P (.match column terms operator boost fuzziness maxExpansions prefixLength))
    (hmulti : ∀ terms columns boosts operator fuzziness maxExpansions
        prefixLength,
      P (.multiMatch terms columns boosts operator fuzziness maxExpansions
        prefixLength))
    (hphrase : ∀ column terms slop, P (.matchPhrase column terms slop))
    (hboolean : ∀ should must mustNot queries,
      (∀ q ∈ should, P q) → (∀ q ∈ must, P q) → (∀ q ∈ mustNot, P q) →
      (∀ c ∈ queries, P c.2) → P (.boolean should must mustNot queries))
    (hboost : ∀ positive negative negativeBoost, P positive → P negative →
      P (.boost positive negative negativeBoost)) :
    ∀ q, P q
  | .match .. => hmatch ..
  | .multiMatch .. => hmulti ..
  | .matchPhrase .. => hphrase ..
  | .boolean should must mustNot queries =>
      hboolean should must mustNot queries
        (fun q _ => induction hmatch hmulti hphrase hboolean hboost q)
        (fun q _ => induction hmatch hmulti hphrase hboolean hboost q)
        (fun q _ => induction hmatch hmulti hphrase hboolean hboost q)
        (fun c _ => induction hmatch hmulti hphrase hboolean hboost c.2)
  | .boost positive negative negativeBoost =>
      hboost positive negative negativeBoost
        (induction hmatch hmulti hphrase hboolean hboost positive)
        (induction hmatch hmulti hphrase hboolean hboost negative)
termination_by q => sizeOf q
decreasing_by
  all_goals simp_wf
  · have := List.sizeOf_lt_of_mem ‹q ∈ should›
    omega
  · have := List.sizeOf_lt_of_mem ‹q ∈ must›
    omega
  · have := List.sizeOf_lt_of_mem ‹q ∈ mustNot›
    omega
  · have := List.sizeOf_lt_of_mem ‹c ∈ queries›
    have : sizeOf c = 1 + sizeOf c.1 + sizeOf c.2 := by cases c; rfl
    omega
  · omega
  · omega

/-- `default_boost`. -/
def defaultBoost : F32 := F32.one

/-- `default_negative_boost`. -/
def defaultNegativeBoost : F32 := F32.half

/-- `default_fuzziness`: no edits. -/
def defaultFuzziness : Option UInt8 := some 0

/-- `default_max_expansions`. -/
def defaultMaxExpansions : UInt64 := 50

-- ================================================================== JSON

/-- `serde_json::Number`. -/
inductive JsonNumber where
  | posInt (n : UInt64)
  | negInt (n : Int64)
  | float (bits : UInt64)
  deriving DecidableEq, Repr

/-- A JSON value, the members of an object in their order. -/
inductive Json where
  | null
  | bool (b : Bool)
  | number (n : JsonNumber)
  | string (s : String)
  | array (elements : List Json)
  | object (members : List (String × Json))

/-- serde_json, from outside. -/
structure SerdeJson where
  parse : String → Except JsonError Json
  toF32 : JsonNumber → F32
  ofF32 : F32 → JsonNumber

/-- serde_json's `remaining_depth`. -/
def recursionLimit : Nat := 128

/-- `check_recursion!`. -/
def enter {α : Type} (remaining : Nat)
    (body : Nat → Except JsonError α) : Except JsonError α :=
  if remaining ≤ 1 then .error ⟨"recursion limit exceeded"⟩
  else body (remaining - 1)

/-- A value of another JSON type than the reader takes. -/
def invalidType {α : Type} (expected : String) : Except JsonError α :=
  .error ⟨s!"invalid type: expected {expected}"⟩

/-- A field without a default that no member gave. -/
def missingField (name : String) : JsonError := ⟨s!"missing field {name}"⟩

def duplicateField (name : String) : JsonError :=
  ⟨s!"duplicate field {name}"⟩

/-- An array that ends before a field without a default. -/
def invalidLength : JsonError := ⟨"invalid length"⟩

/-- An array that goes on behind the last field. -/
def trailingCharacters : JsonError := ⟨"trailing characters"⟩

-- ============================================================ the scalars

/-- `String`. -/
def readString : Json → Except JsonError String
  | .string s => .ok s
  | _ => invalidType "a string"

/-- `Option<String>`. -/
def readOptionString : Json → Except JsonError (Option String)
  | .null => .ok none
  | .string s => .ok (some s)
  | _ => invalidType "a string"

/-- `usize`. -/
def readUsize : Json → Except JsonError UInt64
  | .number (.posInt n) => .ok n
  | _ => invalidType "usize"

/-- `u32`. -/
def readU32 : Json → Except JsonError UInt32
  | .number (.posInt n) =>
      if n.toNat < 2 ^ 32 then .ok n.toUInt32
      else .error ⟨"invalid value: expected u32"⟩
  | _ => invalidType "u32"

/-- `f32`. -/
def readF32 (serde : SerdeJson) : Json → Except JsonError F32
  | .number n => .ok (serde.toF32 n)
  | _ => invalidType "f32"

/-- `Vec<T>`. -/
def readVec {α : Type} (read : Nat → Json → Except JsonError α)
    (remaining : Nat) : Json → Except JsonError (List α)
  | .array elements => enter remaining fun remaining =>
      elements.mapM (read remaining)
  | _ => invalidType "a sequence"

/-- `MatchOperator::deserialize`. -/
def readOperator (json : Json) : Except JsonError MatchOperator := do
  let value ← readString json
  match trim value with
  | "Or" | "or" | "OR" => return .or
  | "And" | "and" | "AND" => return .and
  | _ => throw ⟨s!"invalid full-text query operator: {value}"⟩

/-- `BooleanOccur::deserialize`. -/
def readOccur (json : Json) : Except JsonError BooleanOccur := do
  let value ← readString json
  match trim value with
  | "Should" | "should" | "SHOULD" => return .should
  | "Must" | "must" | "MUST" => return .must
  | "MustNot" | "must_not" | "MUST_NOT" | "mustnot" | "MUSTNOT" =>
      return .mustNot
  | _ => throw ⟨s!"invalid boolean query occur: {value}"⟩

/-- `deserialize_fuzziness`. -/
def readFuzziness : Json → Except JsonError (Option UInt8)
  | .null => .ok none
  | .string value =>
      if eqIgnoreAsciiCase value "auto" then .ok none
      else .error ⟨s!"invalid fuzziness: {value}"⟩
  | .number (.posInt n) =>
      if n.toNat < 2 ^ 8 then .ok (some n.toUInt8)
      else .error ⟨"fuzziness must be an unsigned byte"⟩
  | .number _ => .error ⟨"fuzziness must be an unsigned byte"⟩
  | _ => .error ⟨"invalid fuzziness"⟩

-- ===================================================== the struct variants

/-- The derived reader of a struct variant: members by name, or elements
by position. `finish` gives absent fields their defaults, or the error
it is passed. -/
def structVariant {F α : Type} {V : F → Type} [DecidableEq F]
    (spec : Nat → RecordSpec JsonError Json F V) (fields : List F)
    (finish : (String → JsonError) → Slots V → Except JsonError α)
    (remaining : Nat) : Json → Except JsonError α
  | .object members => enter remaining fun remaining => do
      let slots ← (spec remaining).readMembers members emptySlots
      finish missingField slots
  | .array elements => enter remaining fun remaining => do
      let (slots, rest) ← (spec remaining).readElements fields elements emptySlots
      let value ← finish (fun _ => invalidLength) slots
      if rest.isEmpty then return value
      else throw trailingCharacters
  | _ => invalidType "struct variant"

/-- A field without a default. -/
def required {α : Type} (error : JsonError) : Option α → Except JsonError α
  | some x => .ok x
  | none => .error error

/-- The fields of `QuerySpec::Match`, in their order. -/
inductive MatchField where
  | column
  | terms
  | operator
  | boost
  | fuzziness
  | maxExpansions
  | prefixLength
  deriving DecidableEq, Repr

namespace MatchField

def Value : MatchField → Type
  | column => Option String
  | terms => String
  | operator => MatchOperator
  | boost => F32
  | fuzziness => Option UInt8
  | maxExpansions => UInt64
  | prefixLength => UInt32

def all : List MatchField :=
  [column, terms, operator, boost, fuzziness, maxExpansions, prefixLength]

/-- Each field under its name, then under its alias. -/
def names : MatchField → List String
  | column => ["column"]
  | terms => ["terms", "query"]
  | operator => ["operator"]
  | boost => ["boost"]
  | fuzziness => ["fuzziness"]
  | maxExpansions => ["max_expansions", "maxExpansions"]
  | prefixLength => ["prefix_length", "prefixLength"]

def read (serde : SerdeJson) : (f : MatchField) → Json → Except JsonError f.Value
  | column => readOptionString
  | terms => readString
  | operator => readOperator
  | boost => readF32 serde
  | fuzziness => readFuzziness
  | maxExpansions => readUsize
  | prefixLength => readU32

/-- Only `terms` has no default. -/
def finish (missing : String → JsonError) (slots : Slots Value) :
    Except JsonError QuerySpec := do
  let terms : String ← required (missing "terms") (slots terms)
  return .match ((slots column).getD (none : Option String)) terms
    ((slots operator).getD MatchOperator.or) ((slots boost).getD defaultBoost)
    ((slots fuzziness).getD defaultFuzziness)
    ((slots maxExpansions).getD defaultMaxExpansions)
    ((slots prefixLength).getD (0 : UInt32))

end MatchField

/-- The fields of `QuerySpec::MultiMatch`. -/
inductive MultiMatchField where
  | terms
  | columns
  | boosts
  | operator
  | fuzziness
  | maxExpansions
  | prefixLength
  deriving DecidableEq, Repr

namespace MultiMatchField

def Value : MultiMatchField → Type
  | terms => String
  | columns => List String
  | boosts => List F32
  | operator => MatchOperator
  | fuzziness => Option UInt8
  | maxExpansions => UInt64
  | prefixLength => UInt32

def all : List MultiMatchField :=
  [terms, columns, boosts, operator, fuzziness, maxExpansions, prefixLength]

/-- The alias of `boosts` is the name a match has for its one boost. -/
def names : MultiMatchField → List String
  | terms => ["terms", "query"]
  | columns => ["columns"]
  | boosts => ["boosts", "boost"]
  | operator => ["operator"]
  | fuzziness => ["fuzziness"]
  | maxExpansions => ["max_expansions", "maxExpansions"]
  | prefixLength => ["prefix_length", "prefixLength"]

/-- `columns` and `boosts` are one level further down. -/
def read (serde : SerdeJson) (remaining : Nat) :
    (f : MultiMatchField) → Json → Except JsonError f.Value
  | terms => readString
  | columns => readVec (fun _ => readString) remaining
  | boosts => readVec (fun _ => readF32 serde) remaining
  | operator => readOperator
  | fuzziness => readFuzziness
  | maxExpansions => readUsize
  | prefixLength => readU32

/-- Neither `terms` nor `columns` has a default. -/
def finish (missing : String → JsonError) (slots : Slots Value) :
    Except JsonError QuerySpec := do
  let terms : String ← required (missing "terms") (slots terms)
  let columns : List String ← required (missing "columns") (slots columns)
  return .multiMatch terms columns ((slots boosts).getD ([] : List F32))
    ((slots operator).getD MatchOperator.or)
    ((slots fuzziness).getD defaultFuzziness)
    ((slots maxExpansions).getD defaultMaxExpansions)
    ((slots prefixLength).getD (0 : UInt32))

end MultiMatchField

/-- The fields of `QuerySpec::MatchPhrase`. -/
inductive PhraseField where
  | column
  | terms
  | slop
  deriving DecidableEq, Repr

namespace PhraseField

def Value : PhraseField → Type
  | column => Option String
  | terms => String
  | slop => UInt32

def all : List PhraseField := [column, terms, slop]

def names : PhraseField → List String
  | column => ["column"]
  | terms => ["terms", "query"]
  | slop => ["slop"]

def read : (f : PhraseField) → Json → Except JsonError f.Value
  | column => readOptionString
  | terms => readString
  | slop => readU32

/-- Only `terms` has no default. -/
def finish (missing : String → JsonError) (slots : Slots Value) :
    Except JsonError QuerySpec := do
  let terms : String ← required (missing "terms") (slots terms)
  return .matchPhrase ((slots column).getD (none : Option String)) terms
    ((slots slop).getD (0 : UInt32))

end PhraseField

/-- The fields of `QuerySpec::Boolean`. -/
inductive BooleanField where
  | should
  | must
  | mustNot
  | queries
  deriving DecidableEq, Repr

namespace BooleanField

def Value : BooleanField → Type
  | should | must | mustNot => List QuerySpec
  | queries => List (BooleanOccur × QuerySpec)

def all : List BooleanField := [should, must, mustNot, queries]

def names : BooleanField → List String
  | should => ["should"]
  | must => ["must"]
  | mustNot => ["must_not"]
  | queries => ["queries"]

/-- One element of `queries`: a pair. -/
def readClause (querySpec : Nat → Json → Except JsonError QuerySpec)
    (remaining : Nat) : Json → Except JsonError (BooleanOccur × QuerySpec)
  | .array elements => enter remaining fun remaining =>
      match elements with
      | occur :: query :: rest => do
          let clause := (← readOccur occur, ← querySpec remaining query)
          if rest.isEmpty then return clause
          else throw trailingCharacters
      | _ => .error invalidLength
  | _ => invalidType "a tuple of size 2"

/-- The queries inside are read by the reader of queries. -/
def read (querySpec : Nat → Json → Except JsonError QuerySpec)
    (remaining : Nat) : (f : BooleanField) → Json → Except JsonError f.Value
  | should | must | mustNot => readVec querySpec remaining
  | queries => readVec (readClause querySpec) remaining

/-- Every field may be left out: a query without clauses is read. -/
def finish (_missing : String → JsonError) (slots : Slots Value) :
    Except JsonError QuerySpec :=
  .ok (.boolean ((slots should).getD ([] : List QuerySpec))
    ((slots must).getD ([] : List QuerySpec))
    ((slots mustNot).getD ([] : List QuerySpec))
    ((slots queries).getD ([] : List (BooleanOccur × QuerySpec))))

end BooleanField

/-- The fields of `QuerySpec::Boost`. -/
inductive BoostField where
  | positive
  | negative
  | negativeBoost
  deriving DecidableEq, Repr

namespace BoostField

def Value : BoostField → Type
  | positive | negative => QuerySpec
  | negativeBoost => F32

def all : List BoostField := [positive, negative, negativeBoost]

def names : BoostField → List String
  | positive => ["positive"]
  | negative => ["negative"]
  | negativeBoost => ["negative_boost"]

def read (serde : SerdeJson)
    (querySpec : Nat → Json → Except JsonError QuerySpec) (remaining : Nat) :
    (f : BoostField) → Json → Except JsonError f.Value
  | positive | negative => querySpec remaining
  | negativeBoost => readF32 serde

/-- Only `negative_boost` has a default. -/
def finish (missing : String → JsonError) (slots : Slots Value) :
    Except JsonError QuerySpec := do
  let positive : QuerySpec ← required (missing "positive") (slots positive)
  let negative : QuerySpec ← required (missing "negative") (slots negative)
  return .boost positive negative
    ((slots negativeBoost).getD defaultNegativeBoost)

end BoostField

-- ============================================================== the reader

/-- A record whose fields have these names. -/
def namedFields {F : Type} {V : F → Type} (fields : List F)
    (names : F → List String) (read : (f : F) → Json → Except JsonError (V f)) :
    RecordSpec JsonError Json F V where
  ofKey key := fields.find? fun f => (names f).contains key
  read := read
  duplicate f := duplicateField ((names f).headD "")

/-- The variants of `QuerySpec`. -/
inductive Variant where
  | «match»
  | multiMatch
  | matchPhrase
  | boolean
  | boost
  deriving DecidableEq, Repr

/-- The variant names, `phrase` an alias. -/
def Variant.ofTag : String → Option Variant
  | "match" => some .match
  | "multi_match" => some .multiMatch
  | "match_phrase" | "phrase" => some .matchPhrase
  | "boolean" => some .boolean
  | "boost" => some .boost
  | _ => none

/-- The content of a variant; `querySpec` reads the queries inside. -/
def readVariant (serde : SerdeJson)
    (querySpec : Nat → Json → Except JsonError QuerySpec) :
    Variant → Nat → Json → Except JsonError QuerySpec
  | .match =>
      structVariant
        (fun _ => namedFields MatchField.all MatchField.names
          (MatchField.read serde))
        MatchField.all MatchField.finish
  | .multiMatch =>
      structVariant
        (fun remaining => namedFields MultiMatchField.all MultiMatchField.names
          (MultiMatchField.read serde remaining))
        MultiMatchField.all MultiMatchField.finish
  | .matchPhrase =>
      structVariant
        (fun _ => namedFields PhraseField.all PhraseField.names PhraseField.read)
        PhraseField.all PhraseField.finish
  | .boolean =>
      structVariant
        (fun remaining => namedFields BooleanField.all BooleanField.names
          (BooleanField.read querySpec remaining))
        BooleanField.all BooleanField.finish
  | .boost =>
      structVariant
        (fun remaining => namedFields BoostField.all BoostField.names
          (BoostField.read serde querySpec remaining))
        BoostField.all BoostField.finish

/-- The derived `QuerySpec::deserialize`: one member, tagged by the
variant. Every query inside is at least two levels down, so as much fuel
as levels is enough. -/
def readQuerySpec (serde : SerdeJson) :
    Nat → Nat → Json → Except JsonError QuerySpec
  | 0, _, _ => .error ⟨"recursion limit exceeded"⟩
  | fuel + 1, remaining, .object [(tag, content)] =>
      enter remaining fun remaining =>
        match Variant.ofTag tag with
        | some variant =>
            readVariant serde (readQuerySpec serde fuel) variant remaining content
        | none => .error ⟨s!"unknown variant {tag}"⟩
  | _, _, _ => invalidType "enum QuerySpec"

/-- `QuerySpec::from_json`. -/
def QuerySpec.fromJson (serde : SerdeJson) (text : String) :
    Result QuerySpec :=
  liftError FtIndexError.json do
    let json ← serde.parse text
    readQuerySpec serde recursionLimit recursionLimit json

-- ============================================================= the writer

/-- The derived `MatchOperator::serialize`. -/
def MatchOperator.toJson : MatchOperator → Json
  | .or => .string "Or"
  | .and => .string "And"

def BooleanOccur.toJson : BooleanOccur → Json
  | .should => .string "Should"
  | .must => .string "Must"
  | .mustNot => .string "MustNot"

/-- `Option<String>`, `null` for none. -/
def optionStringToJson : Option String → Json
  | some s => .string s
  | none => .null

/-- Automatic fuzziness is written as `null`. -/
def fuzzinessToJson : Option UInt8 → Json
  | some n => .number (.posInt n.toUInt64)
  | none => .null

def usizeToJson (n : UInt64) : Json := .number (.posInt n)

def u32ToJson (n : UInt32) : Json := .number (.posInt n.toUInt64)

/-- A float that is not finite is written as `null`. -/
def f32ToJson (serde : SerdeJson) (x : F32) : Json :=
  if x.isFinite then .number (serde.ofF32 x) else .null

mutual

/-- The derived `QuerySpec::serialize`. -/
def QuerySpec.toJson (serde : SerdeJson) : QuerySpec → Json
  | .match column terms operator boost fuzziness maxExpansions prefixLength =>
      .object [("match", .object
        [("column", optionStringToJson column), ("terms", .string terms),
          ("operator", operator.toJson), ("boost", f32ToJson serde boost),
          ("fuzziness", fuzzinessToJson fuzziness),
          ("max_expansions", usizeToJson maxExpansions),
          ("prefix_length", u32ToJson prefixLength)])]
  | .multiMatch terms columns boosts operator fuzziness maxExpansions
      prefixLength =>
      .object [("multi_match", .object
        [("terms", .string terms), ("columns", .array (columns.map .string)),
          ("boosts", .array (boosts.map (f32ToJson serde))),
          ("operator", operator.toJson),
          ("fuzziness", fuzzinessToJson fuzziness),
          ("max_expansions", usizeToJson maxExpansions),
          ("prefix_length", u32ToJson prefixLength)])]
  | .matchPhrase column terms slop =>
      .object [("match_phrase", .object
        [("column", optionStringToJson column), ("terms", .string terms),
          ("slop", u32ToJson slop)])]
  | .boolean should must mustNot queries =>
      .object [("boolean", .object
        [("should", .array (queriesToJson serde should)),
          ("must", .array (queriesToJson serde must)),
          ("must_not", .array (queriesToJson serde mustNot)),
          ("queries", .array (clausesToJson serde queries))])]
  | .boost positive negative negativeBoost =>
      .object [("boost", .object
        [("positive", positive.toJson serde),
          ("negative", negative.toJson serde),
          ("negative_boost", f32ToJson serde negativeBoost)])]

def queriesToJson (serde : SerdeJson) : List QuerySpec → List Json
  | [] => []
  | query :: queries => query.toJson serde :: queriesToJson serde queries

def clausesToJson (serde : SerdeJson) :
    List (BooleanOccur × QuerySpec) → List Json
  | [] => []
  | (occur, query) :: clauses =>
      .array [occur.toJson, query.toJson serde] :: clausesToJson serde clauses

end

end PaimonFtindex.Model

/-
The query parser inverts every spelling it accepts.

`Renders` says what a JSON rendering of a query is: at every node, and
for every field independently, one of the names the field goes by with
one of the spellings its value has, or nothing when the value is the
field's default; the members of a node come in any order. It is a
relation on the query's own structure and says nothing about how a
reader works.

The reader is the member loop of `Lib.Record` at every node, so
`readMembers_of_rendering` does the work once: a node whose members
render its fields is read as those fields (`structVariant_of_given`).
The rest is one lemma per kind of value, and an induction on the query
that keeps count of the levels.
-/
import Mathlib.Data.List.Forall2
import PaimonFtindex.Lib.Outcome
import PaimonFtindex.Model.Query

namespace PaimonFtindex.Proofs

open Model Lib

-- ============================================================== renderings

/-- A field is left out when its value is the default, or given under
one of its names with a spelling of its value. -/
def GivenAs (names : List String) (isDefault : Prop) (spelled : Json → Prop) :
    Option (String × Json) → Prop
  | none => isDefault
  | some (key, json) => key ∈ names ∧ spelled json

/-- A column is its name, and none is `null`. -/
def ColumnSpelled : Option String → Json → Prop
  | none, json => json = .null
  | some column, json => json = .string column

/-- The texts an operator is read from. -/
def operatorSpellings : MatchOperator → List String
  | .or => ["Or", "or", "OR"]
  | .and => ["And", "and", "AND"]

/-- One of them, with blanks around it or not. -/
def OperatorSpelled (operator : MatchOperator) (json : Json) : Prop :=
  ∃ s, json = .string s ∧ trim s ∈ operatorSpellings operator

/-- The texts an occur is read from. -/
def occurSpellings : BooleanOccur → List String
  | .should => ["Should", "should", "SHOULD"]
  | .must => ["Must", "must", "MUST"]
  | .mustNot => ["MustNot", "must_not", "MUST_NOT", "mustnot", "MUSTNOT"]

/-- Automatic fuzziness is `null` or `auto` in any case. -/
def FuzzinessSpelled : Option UInt8 → Json → Prop
  | some n, json => json = .number (.posInt n.toUInt64)
  | none, json =>
      json = .null
        ∨ ∃ s, json = .string s ∧ eqIgnoreAsciiCase s "auto" = true

/-- A number that reads as the float. -/
def F32Spelled (serde : SerdeJson) (x : F32) (json : Json) : Prop :=
  ∃ n, json = .number n ∧ serde.toF32 n = x

/-- An array of spellings of the elements. -/
def VecSpelled {α : Type} (spelled : α → Json → Prop) (xs : List α)
    (json : Json) : Prop :=
  ∃ elements, json = .array elements ∧ List.Forall₂ spelled xs elements

mutual

/-- `json` is a rendering of the query. -/
def Renders (serde : SerdeJson) : QuerySpec → Json → Prop
  | .match column terms operator boost fuzziness maxExpansions prefixLength,
      json =>
      ∃ members member, json = .object [("match", .object members)]
        ∧ members.Perm (MatchField.all.filterMap member)
        ∧ GivenAs ["column"] (column = none) (ColumnSpelled column)
            (member .column)
        ∧ GivenAs ["terms", "query"] False (fun v => v = .string terms)
            (member .terms)
        ∧ GivenAs ["operator"] (operator = .or) (OperatorSpelled operator)
            (member .operator)
        ∧ GivenAs ["boost"] (boost = F32.one) (F32Spelled serde boost)
            (member .boost)
        ∧ GivenAs ["fuzziness"] (fuzziness = some 0)
            (FuzzinessSpelled fuzziness) (member .fuzziness)
        ∧ GivenAs ["max_expansions", "maxExpansions"] (maxExpansions = 50)
            (fun v => v = usizeToJson maxExpansions) (member .maxExpansions)
        ∧ GivenAs ["prefix_length", "prefixLength"] (prefixLength = 0)
            (fun v => v = u32ToJson prefixLength) (member .prefixLength)
  | .multiMatch terms columns boosts operator fuzziness maxExpansions
      prefixLength, json =>
      ∃ members member, json = .object [("multi_match", .object members)]
        ∧ members.Perm (MultiMatchField.all.filterMap member)
        ∧ GivenAs ["terms", "query"] False (fun v => v = .string terms)
            (member .terms)
        ∧ GivenAs ["columns"] False
            (VecSpelled (fun c v => v = .string c) columns) (member .columns)
        ∧ GivenAs ["boosts", "boost"] (boosts = [])
            (VecSpelled (F32Spelled serde) boosts) (member .boosts)
        ∧ GivenAs ["operator"] (operator = .or) (OperatorSpelled operator)
            (member .operator)
        ∧ GivenAs ["fuzziness"] (fuzziness = some 0)
            (FuzzinessSpelled fuzziness) (member .fuzziness)
        ∧ GivenAs ["max_expansions", "maxExpansions"] (maxExpansions = 50)
            (fun v => v = usizeToJson maxExpansions) (member .maxExpansions)
        ∧ GivenAs ["prefix_length", "prefixLength"] (prefixLength = 0)
            (fun v => v = u32ToJson prefixLength) (member .prefixLength)
  | .matchPhrase column terms slop, json =>
      ∃ tag members member, json = .object [(tag, .object members)]
        ∧ tag ∈ ["match_phrase", "phrase"]
        ∧ members.Perm (PhraseField.all.filterMap member)
        ∧ GivenAs ["column"] (column = none) (ColumnSpelled column)
            (member .column)
        ∧ GivenAs ["terms", "query"] False (fun v => v = .string terms)
            (member .terms)
        ∧ GivenAs ["slop"] (slop = 0) (fun v => v = u32ToJson slop)
            (member .slop)
  | .boolean should must mustNot queries, json =>
      ∃ members member, json = .object [("boolean", .object members)]
        ∧ members.Perm (BooleanField.all.filterMap member)
        ∧ GivenAs ["should"] (should = []) (RendersAll serde should)
            (member .should)
        ∧ GivenAs ["must"] (must = []) (RendersAll serde must) (member .must)
        ∧ GivenAs ["must_not"] (mustNot = []) (RendersAll serde mustNot)
            (member .mustNot)
        ∧ GivenAs ["queries"] (queries = []) (RendersClauses serde queries)
            (member .queries)
  | .boost positive negative negativeBoost, json =>
      ∃ members member, json = .object [("boost", .object members)]
        ∧ members.Perm (BoostField.all.filterMap member)
        ∧ GivenAs ["positive"] False (Renders serde positive)
            (member .positive)
        ∧ GivenAs ["negative"] False (Renders serde negative)
            (member .negative)
        ∧ GivenAs ["negative_boost"] (negativeBoost = F32.half)
            (F32Spelled serde negativeBoost) (member .negativeBoost)

/-- An array of renderings. -/
def RendersAll (serde : SerdeJson) : List QuerySpec → Json → Prop
  | [], json => json = .array []
  | query :: queries, json =>
      ∃ element elements, json = .array (element :: elements)
        ∧ Renders serde query element
        ∧ RendersAll serde queries (.array elements)

/-- An array of pairs of an occur and a rendering. -/
def RendersClauses (serde : SerdeJson) :
    List (BooleanOccur × QuerySpec) → Json → Prop
  | [], json => json = .array []
  | (occur, query) :: clauses, json =>
      ∃ s element elements,
        json = .array (.array [.string s, element] :: elements)
        ∧ trim s ∈ occurSpellings occur
        ∧ Renders serde query element
        ∧ RendersClauses serde clauses (.array elements)

end

-- ================================================================= nesting

mutual

/-- How deep the arrays and objects of a value are nested. -/
def nesting : Json → Nat
  | .array elements => nestingElements elements + 1
  | .object members => nestingMembers members + 1
  | _ => 0

def nestingElements : List Json → Nat
  | [] => 0
  | element :: elements => max (nesting element) (nestingElements elements)

def nestingMembers : List (String × Json) → Nat
  | [] => 0
  | (_, value) :: members => max (nesting value) (nestingMembers members)

end

/-- An element nests less deep than its array. -/
theorem nesting_lt_array {element : Json} {elements : List Json}
    (h : element ∈ elements) : nesting element < nesting (.array elements) := by
  rw [nesting]
  induction elements with
  | nil => cases h
  | cons e elements ih =>
      rw [nestingElements]
      rcases List.mem_cons.mp h with rfl | h
      · omega
      · have := ih h
        omega

/-- A member nests less deep than its object. -/
theorem nesting_lt_object {key : String} {value : Json}
    {members : List (String × Json)} (h : (key, value) ∈ members) :
    nesting value < nesting (.object members) := by
  rw [nesting]
  induction members with
  | nil => cases h
  | cons m members ih =>
      obtain ⟨k, v⟩ := m
      rw [nestingMembers]
      rcases List.mem_cons.mp h with heq | h
      · cases heq
        omega
      · have := ih h
        omega

-- ============================================================== the values

theorem readOptionString_of_spelled {column : Option String} {json : Json}
    (h : ColumnSpelled column json) :
    readOptionString json = .ok column := by
  cases column with
  | none => rw [show json = .null from h]; rfl
  | some s => rw [show json = .string s from h]; rfl

theorem readOperator_of_spelled {operator : MatchOperator} {json : Json}
    (h : OperatorSpelled operator json) :
    readOperator json = .ok operator := by
  obtain ⟨s, rfl, hs⟩ := h
  dsimp only [readOperator, readString, bind, Except.bind]
  generalize trim s = spelling at hs
  cases operator with
  | or =>
      simp only [operatorSpellings, List.mem_cons, List.not_mem_nil,
        or_false] at hs
      rcases hs with rfl | rfl | rfl <;> rfl
  | and =>
      simp only [operatorSpellings, List.mem_cons, List.not_mem_nil,
        or_false] at hs
      rcases hs with rfl | rfl | rfl <;> rfl

theorem readOccur_of_spelled {occur : BooleanOccur} {s : String}
    (h : trim s ∈ occurSpellings occur) :
    readOccur (.string s) = .ok occur := by
  dsimp only [readOccur, readString, bind, Except.bind]
  generalize trim s = spelling at h
  cases occur with
  | should =>
      simp only [occurSpellings, List.mem_cons, List.not_mem_nil,
        or_false] at h
      rcases h with rfl | rfl | rfl <;> rfl
  | must =>
      simp only [occurSpellings, List.mem_cons, List.not_mem_nil,
        or_false] at h
      rcases h with rfl | rfl | rfl <;> rfl
  | mustNot =>
      simp only [occurSpellings, List.mem_cons, List.not_mem_nil,
        or_false] at h
      rcases h with rfl | rfl | rfl | rfl | rfl <;> rfl

/-- Automatic fuzziness is read off `null` and off "auto" in any case. -/
theorem readFuzziness_of_spelled {fuzziness : Option UInt8} {json : Json}
    (h : FuzzinessSpelled fuzziness json) :
    readFuzziness json = .ok fuzziness := by
  cases fuzziness with
  | none =>
      rcases h with rfl | ⟨s, rfl, hs⟩
      · rfl
      · unfold readFuzziness
        dsimp only
        rw [if_pos hs]
  | some n =>
      rw [show json = .number (.posInt n.toUInt64) from h]
      unfold readFuzziness
      dsimp only
      have hlt : n.toUInt64.toNat < 2 ^ 8 := by
        rw [UInt8.toNat_toUInt64]
        exact n.toNat_lt
      rw [if_pos hlt, UInt8.toUInt8_toUInt64]

theorem readU32_u32ToJson (n : UInt32) : readU32 (u32ToJson n) = .ok n := by
  unfold readU32 u32ToJson
  have hlt : n.toUInt64.toNat < 2 ^ 32 := by
    rw [UInt32.toNat_toUInt64]
    exact n.toNat_lt
  dsimp only
  rw [if_pos hlt, UInt32.toUInt32_toUInt64]

theorem readF32_of_spelled {serde : SerdeJson} {x : F32} {json : Json}
    (h : F32Spelled serde x json) : readF32 serde json = .ok x := by
  obtain ⟨n, rfl, rfl⟩ := h
  rfl

/-- Reading spellings one by one. -/
theorem mapM_of_spelled {α : Type} {read : Json → Except JsonError α}
    {spelled : α → Json → Prop} {xs : List α} {elements : List Json}
    (h : List.Forall₂ spelled xs elements)
    (hread : ∀ x ∈ xs, ∀ json ∈ elements, spelled x json →
      read json = .ok x) :
    elements.mapM read = .ok xs := by
  induction h with
  | nil => rfl
  | @cons x json xs elements hx _ ih =>
      rw [List.mapM_cons, hread x List.mem_cons_self json List.mem_cons_self hx,
        ih fun x hmem json hjson => hread x (List.mem_cons_of_mem _ hmem) json
          (List.mem_cons_of_mem _ hjson)]
      rfl

/-- Entering one level when there is one. -/
theorem enter_eq {α : Type} {remaining : Nat} (h : 1 < remaining)
    (body : Nat → Except JsonError α) :
    enter remaining body = body (remaining - 1) := by
  unfold enter
  rw [if_neg (by omega)]

/-- A list is read element by element. -/
theorem readVec_of_spelled {α : Type} {read : Nat → Json → Except JsonError α}
    {spelled : α → Json → Prop} {xs : List α} {json : Json} {remaining : Nat}
    (h : VecSpelled spelled xs json) (hdeep : nesting json < remaining)
    (hread : ∀ x ∈ xs, ∀ json, nesting json < remaining - 1 →
      spelled x json → read (remaining - 1) json = .ok x) :
    readVec read remaining json = .ok xs := by
  obtain ⟨elements, rfl, hxs⟩ := h
  have hone : 1 < remaining := by
    rw [nesting] at hdeep
    omega
  unfold readVec
  dsimp only
  rw [enter_eq hone]
  refine mapM_of_spelled hxs fun x hmem json hjson hx =>
    hread x hmem json ?_ hx
  have := nesting_lt_array hjson
  omega

-- =============================================================== the nodes

/-- A field that was given holds its value, one left out its default. -/
theorem getD_of_given {α : Type} {names : List String} {x default : α}
    {spelled : Json → Prop} {member : Option (String × Json)}
    (h : GivenAs names (x = default) spelled member) :
    (member.map fun _ => x).getD default = x := by
  cases member with
  | none => exact (show x = default from h).symm
  | some m => rfl

theorem required_of_given {α : Type} {names : List String} {x : α}
    {spelled : Json → Prop} {member : Option (String × Json)}
    (error : JsonError) (h : GivenAs names False spelled member) :
    required error (member.map fun _ => x) = .ok x := by
  cases member with
  | none => exact h.elim
  | some m => rfl

/-- A node whose members render its fields is read as those fields. -/
theorem structVariant_of_given {F α : Type} {V : F → Type} [DecidableEq F]
    {fields : List F} {names : F → List String}
    {read : Nat → (f : F) → Json → Except JsonError (V f)}
    {finish : (String → JsonError) → Slots V → Except JsonError α}
    (hnodup : fields.Nodup) (hall : ∀ f, f ∈ fields)
    (hkeys : ∀ f, ∀ key ∈ names f,
      (fields.find? fun g => (names g).contains key) = some f)
    {member : F → Option (String × Json)} {value : (f : F) → V f}
    {members : List (String × Json)} {remaining : Nat}
    (hmembers : members.Perm (fields.filterMap member))
    (hdeep : nesting (.object members) < remaining)
    (hgiven : ∀ f key json, member f = some (key, json) →
      key ∈ names f ∧ (nesting json < remaining - 1 →
        read (remaining - 1) f json = .ok (value f)))
    {a : α}
    (hfinish : finish missingField (fun f => (member f).map fun _ => value f)
      = .ok a) :
    structVariant (fun remaining => namedFields fields names (read remaining))
      fields finish remaining (.object members) = .ok a := by
  have hone : 1 < remaining := by
    rw [nesting] at hdeep
    omega
  have hread : (namedFields fields names (read (remaining - 1))).readMembers
      members emptySlots = .ok fun f => (member f).map fun _ => value f := by
    apply RecordSpec.readMembers_of_rendering hnodup hall hmembers
    · intro f key json hf
      obtain ⟨hkey, hjson⟩ := hgiven f key json hf
      have hmem : (key, json) ∈ members :=
        hmembers.mem_iff.mpr (List.mem_filterMap.mpr ⟨f, hall f, hf⟩)
      have := nesting_lt_object hmem
      refine ⟨hkeys f key hkey, value f, hjson (by omega), ?_⟩
      rw [hf]
      rfl
    · intro f hf
      rw [hf]
      rfl
  unfold structVariant
  dsimp only
  rw [enter_eq hone, hread]
  exact hfinish

/-- What a field's rendering gives the reader. -/
theorem read_of_given {α : Type} {names : List String} {isDefault : Prop}
    {spelled : Json → Prop} {member : Option (String × Json)}
    {read : Json → Except JsonError α} {x : α} {remaining : Nat}
    (h : GivenAs names isDefault spelled member)
    (hread : ∀ json, nesting json < remaining → spelled json →
      read json = .ok x) :
    ∀ key json, member = some (key, json) →
      key ∈ names ∧ (nesting json < remaining → read json = .ok x) := by
  intro key json hm
  rw [hm] at h
  exact ⟨h.1, fun hlt => hread json hlt h.2⟩

theorem rendersAll_iff {serde : SerdeJson} {queries : List QuerySpec}
    {json : Json} :
    RendersAll serde queries json ↔ VecSpelled (Renders serde) queries json := by
  induction queries generalizing json with
  | nil =>
      rw [RendersAll]
      constructor
      · intro h
        exact ⟨[], h, List.Forall₂.nil⟩
      · intro h
        obtain ⟨elements, rfl, h⟩ := h
        cases h
        rfl
  | cons query queries ih =>
      rw [RendersAll]
      constructor
      · intro h
        obtain ⟨element, elements, rfl, hquery, hrest⟩ := h
        obtain ⟨elements', heq, hrest⟩ := ih.mp hrest
        cases heq
        exact ⟨_, rfl, List.Forall₂.cons hquery hrest⟩
      · intro h
        obtain ⟨elements, rfl, h⟩ := h
        cases h with
        | cons hquery hrest =>
            exact ⟨_, _, rfl, hquery, ih.mpr ⟨_, rfl, hrest⟩⟩

/-- One clause of `queries`. -/
def ClauseSpelled (serde : SerdeJson) (clause : BooleanOccur × QuerySpec)
    (json : Json) : Prop :=
  ∃ s element, json = .array [.string s, element]
    ∧ trim s ∈ occurSpellings clause.1 ∧ Renders serde clause.2 element

theorem rendersClauses_iff {serde : SerdeJson}
    {clauses : List (BooleanOccur × QuerySpec)} {json : Json} :
    RendersClauses serde clauses json
      ↔ VecSpelled (ClauseSpelled serde) clauses json := by
  induction clauses generalizing json with
  | nil =>
      rw [RendersClauses]
      constructor
      · intro h
        exact ⟨[], h, List.Forall₂.nil⟩
      · intro h
        obtain ⟨elements, rfl, h⟩ := h
        cases h
        rfl
  | cons clause clauses ih =>
      obtain ⟨occur, query⟩ := clause
      rw [RendersClauses]
      constructor
      · intro h
        obtain ⟨s, element, elements, rfl, hs, hquery, hrest⟩ := h
        obtain ⟨elements', heq, hrest⟩ := ih.mp hrest
        cases heq
        exact ⟨_, rfl, List.Forall₂.cons ⟨s, element, rfl, hs, hquery⟩ hrest⟩
      · intro h
        obtain ⟨elements, rfl, h⟩ := h
        cases h with
        | cons hclause hrest =>
            obtain ⟨s, element, rfl, hs, hquery⟩ := hclause
            exact ⟨s, element, _, rfl, hs, hquery, ih.mpr ⟨_, rfl, hrest⟩⟩

-- ========================================================= node by node

/-- With as much fuel as levels, the renderings of `q` that fit the
levels are read as `q`. -/
def ReadsAt (serde : SerdeJson) (fuel remaining : Nat) (q : QuerySpec) : Prop :=
  remaining ≤ fuel → ∀ json, Renders serde q json → nesting json < remaining →
    readQuerySpec serde fuel remaining json = .ok q

/-- The tag is one level, the variant's content is read below it. -/
theorem readQuerySpec_tagged {serde : SerdeJson} {fuel remaining : Nat}
    {tag : String} {variant : Variant} {content : Json} {q : QuerySpec}
    (htag : Variant.ofTag tag = some variant)
    (hdeep : nesting (.object [(tag, content)]) < remaining)
    (hread : nesting content < remaining - 1 →
      readVariant serde (readQuerySpec serde fuel) variant (remaining - 1)
        content = .ok q) :
    readQuerySpec serde (fuel + 1) remaining (.object [(tag, content)])
      = .ok q := by
  have hcontent : nesting content < nesting (.object [(tag, content)]) :=
    nesting_lt_object List.mem_cons_self
  unfold readQuerySpec
  rw [enter_eq (by omega), htag]
  exact hread (by omega)

/-- The values of a match query, by their fields. -/
def matchValues (column : Option String) (terms : String)
    (operator : MatchOperator) (boost : F32) (fuzziness : Option UInt8)
    (maxExpansions : UInt64) (prefixLength : UInt32) : (f : MatchField) → f.Value
  | .column => column
  | .terms => terms
  | .operator => operator
  | .boost => boost
  | .fuzziness => fuzziness
  | .maxExpansions => maxExpansions
  | .prefixLength => prefixLength

/-- The values of a multi-match query, by their fields. -/
def multiMatchValues (terms : String) (columns : List String)
    (boosts : List F32) (operator : MatchOperator) (fuzziness : Option UInt8)
    (maxExpansions : UInt64) (prefixLength : UInt32) :
    (f : MultiMatchField) → f.Value
  | .terms => terms
  | .columns => columns
  | .boosts => boosts
  | .operator => operator
  | .fuzziness => fuzziness
  | .maxExpansions => maxExpansions
  | .prefixLength => prefixLength

/-- The values of a phrase query, by their fields. -/
def phraseValues (column : Option String) (terms : String) (slop : UInt32) :
    (f : PhraseField) → f.Value
  | .column => column
  | .terms => terms
  | .slop => slop

/-- The values of a boolean query, by their fields. -/
def booleanValues (should must mustNot : List QuerySpec)
    (queries : List (BooleanOccur × QuerySpec)) : (f : BooleanField) → f.Value
  | .should => should
  | .must => must
  | .mustNot => mustNot
  | .queries => queries

/-- The values of a boost query, by their fields. -/
def boostValues (positive negative : QuerySpec) (negativeBoost : F32) :
    (f : BoostField) → f.Value
  | .positive => positive
  | .negative => negative
  | .negativeBoost => negativeBoost

section
variable {serde : SerdeJson} {fuel remaining : Nat}

theorem readsAt_match (column : Option String) (terms : String)
    (operator : MatchOperator) (boost : F32) (fuzziness : Option UInt8)
    (maxExpansions : UInt64) (prefixLength : UInt32) :
    ReadsAt serde (fuel + 1) remaining
      (.match column terms operator boost fuzziness maxExpansions
        prefixLength) := by
  intro hfuel json h hdeep
  rw [Renders] at h
  obtain ⟨members, member, rfl, hmembers, hcolumn, hterms, hoperator, hboost,
    hfuzziness, hmax, hprefix⟩ := h
  refine readQuerySpec_tagged rfl hdeep fun hcontent => ?_
  let value := matchValues column terms operator boost fuzziness
    maxExpansions prefixLength
  refine @structVariant_of_given _ _ _ _ _ MatchField.names
    (fun _ => MatchField.read serde) MatchField.finish (by decide)
    (fun f => by cases f <;> decide) (fun f => by cases f <;> decide)
    member value members _ hmembers hcontent ?_ _ ?_
  · intro f
    cases f with
    | column =>
        exact read_of_given hcolumn fun _ _ h => readOptionString_of_spelled h
    | terms => exact read_of_given hterms fun _ _ h => by rw [h]; rfl
    | operator =>
        exact read_of_given hoperator fun _ _ h => readOperator_of_spelled h
    | boost => exact read_of_given hboost fun _ _ h => readF32_of_spelled h
    | fuzziness =>
        exact read_of_given hfuzziness fun _ _ h => readFuzziness_of_spelled h
    | maxExpansions => exact read_of_given hmax fun _ _ h => by rw [h]; rfl
    | prefixLength =>
        exact read_of_given hprefix fun _ _ h => by
          rw [h]
          exact readU32_u32ToJson prefixLength
  · unfold MatchField.finish
    erw [required_of_given _ hterms]
    show Except.ok (QuerySpec.match
      (((member .column).map fun _ => column).getD none) terms
      (((member .operator).map fun _ => operator).getD .or)
      (((member .boost).map fun _ => boost).getD F32.one)
      (((member .fuzziness).map fun _ => fuzziness).getD (some 0))
      (((member .maxExpansions).map fun _ => maxExpansions).getD 50)
      (((member .prefixLength).map fun _ => prefixLength).getD 0)) = _
    rw [getD_of_given hcolumn, getD_of_given hoperator, getD_of_given hboost,
      getD_of_given hfuzziness, getD_of_given hmax, getD_of_given hprefix]

theorem readsAt_multiMatch (terms : String) (columns : List String)
    (boosts : List F32) (operator : MatchOperator) (fuzziness : Option UInt8)
    (maxExpansions : UInt64) (prefixLength : UInt32) :
    ReadsAt serde (fuel + 1) remaining
      (.multiMatch terms columns boosts operator fuzziness maxExpansions
        prefixLength) := by
  intro hfuel json h hdeep
  rw [Renders] at h
  obtain ⟨members, member, rfl, hmembers, hterms, hcolumns, hboosts,
    hoperator, hfuzziness, hmax, hprefix⟩ := h
  refine readQuerySpec_tagged rfl hdeep fun hcontent => ?_
  let value := multiMatchValues terms columns boosts operator fuzziness
    maxExpansions prefixLength
  refine @structVariant_of_given _ _ _ _ _ MultiMatchField.names
    (MultiMatchField.read serde) MultiMatchField.finish (by decide)
    (fun f => by cases f <;> decide) (fun f => by cases f <;> decide)
    member value members _ hmembers hcontent ?_ _ ?_
  · intro f
    cases f with
    | terms => exact read_of_given hterms fun _ _ h => by rw [h]; rfl
    | columns =>
        exact read_of_given hcolumns fun _ hlt h =>
          readVec_of_spelled h hlt fun _ _ _ _ h => by rw [h]; rfl
    | boosts =>
        exact read_of_given hboosts fun _ hlt h =>
          readVec_of_spelled h hlt fun _ _ _ _ h => readF32_of_spelled h
    | operator =>
        exact read_of_given hoperator fun _ _ h => readOperator_of_spelled h
    | fuzziness =>
        exact read_of_given hfuzziness fun _ _ h => readFuzziness_of_spelled h
    | maxExpansions => exact read_of_given hmax fun _ _ h => by rw [h]; rfl
    | prefixLength =>
        exact read_of_given hprefix fun _ _ h => by
          rw [h]
          exact readU32_u32ToJson prefixLength
  · unfold MultiMatchField.finish
    erw [required_of_given _ hterms, required_of_given _ hcolumns]
    show Except.ok (QuerySpec.multiMatch terms columns
      (((member .boosts).map fun _ => boosts).getD [])
      (((member .operator).map fun _ => operator).getD .or)
      (((member .fuzziness).map fun _ => fuzziness).getD (some 0))
      (((member .maxExpansions).map fun _ => maxExpansions).getD 50)
      (((member .prefixLength).map fun _ => prefixLength).getD 0)) = _
    rw [getD_of_given hboosts, getD_of_given hoperator,
      getD_of_given hfuzziness, getD_of_given hmax, getD_of_given hprefix]

theorem readsAt_matchPhrase (column : Option String) (terms : String)
    (slop : UInt32) :
    ReadsAt serde (fuel + 1) remaining (.matchPhrase column terms slop) := by
  intro hfuel json h hdeep
  rw [Renders] at h
  obtain ⟨tag, members, member, rfl, htag, hmembers, hcolumn, hterms, hslop⟩ := h
  have hvariant : Variant.ofTag tag = some .matchPhrase := by
    simp only [List.mem_cons, List.not_mem_nil, or_false] at htag
    rcases htag with rfl | rfl <;> rfl
  refine readQuerySpec_tagged hvariant hdeep fun hcontent => ?_
  let value := phraseValues column terms slop
  refine @structVariant_of_given _ _ _ _ _ PhraseField.names
    (fun _ => PhraseField.read) PhraseField.finish (by decide)
    (fun f => by cases f <;> decide) (fun f => by cases f <;> decide)
    member value members _ hmembers hcontent ?_ _ ?_
  · intro f
    cases f with
    | column =>
        exact read_of_given hcolumn fun _ _ h => readOptionString_of_spelled h
    | terms => exact read_of_given hterms fun _ _ h => by rw [h]; rfl
    | slop =>
        exact read_of_given hslop fun _ _ h => by
          rw [h]
          exact readU32_u32ToJson slop
  · unfold PhraseField.finish
    erw [required_of_given _ hterms]
    show Except.ok (QuerySpec.matchPhrase
      (((member .column).map fun _ => column).getD none) terms
      (((member .slop).map fun _ => slop).getD 0)) = _
    rw [getD_of_given hcolumn, getD_of_given hslop]

/-- A clause is one more level around its query. -/
theorem readClause_of_spelled {clause : BooleanOccur × QuerySpec} {json : Json}
    (h : ClauseSpelled serde clause json) (hdeep : nesting json < remaining)
    (hfuel : remaining ≤ fuel)
    (hquery : ReadsAt serde fuel (remaining - 1) clause.2) :
    BooleanField.readClause (readQuerySpec serde fuel) remaining json
      = .ok clause := by
  obtain ⟨s, element, rfl, hs, helement⟩ := h
  have hlt : nesting element < nesting (.array [.string s, element]) :=
    nesting_lt_array (by simp)
  unfold BooleanField.readClause
  dsimp only
  rw [enter_eq (by omega), readOccur_of_spelled hs,
    hquery (by omega) element helement (by omega)]
  rfl

/-- A boolean query is read if each query inside is. -/
theorem readsAt_boolean (should must mustNot : List QuerySpec)
    (queries : List (BooleanOccur × QuerySpec))
    (hshould : ∀ q ∈ should, ∀ r, ReadsAt serde fuel r q)
    (hmust : ∀ q ∈ must, ∀ r, ReadsAt serde fuel r q)
    (hmustNot : ∀ q ∈ mustNot, ∀ r, ReadsAt serde fuel r q)
    (hqueries : ∀ c ∈ queries, ∀ r, ReadsAt serde fuel r c.2) :
    ReadsAt serde (fuel + 1) remaining
      (.boolean should must mustNot queries) := by
  intro hfuel json h hdeep
  rw [Renders] at h
  obtain ⟨members, member, rfl, hmembers, hshould', hmust', hmustNot',
    hqueries'⟩ := h
  refine readQuerySpec_tagged rfl hdeep fun hcontent => ?_
  let value := booleanValues should must mustNot queries
  have hvec : ∀ {queries : List QuerySpec} {json : Json} {remaining : Nat},
      (∀ q ∈ queries, ∀ r, ReadsAt serde fuel r q) →
      remaining ≤ fuel → nesting json < remaining →
      RendersAll serde queries json →
      readVec (readQuerySpec serde fuel) remaining json = .ok queries := by
    intro queries json remaining hall hfuel hlt h
    exact readVec_of_spelled (rendersAll_iff.mp h) hlt fun q hq json hjson hr =>
      hall q hq _ (by omega) json hr hjson
  refine @structVariant_of_given _ _ _ _ _ BooleanField.names
    (fun r => BooleanField.read (readQuerySpec serde fuel) r)
    BooleanField.finish (by decide)
    (fun f => by cases f <;> decide) (fun f => by cases f <;> decide)
    member value members _ hmembers hcontent ?_ _ ?_
  · intro f
    cases f with
    | should =>
        exact read_of_given hshould' fun _ hlt h =>
          hvec hshould (by omega) hlt h
    | must => exact read_of_given hmust' fun _ hlt h =>
          hvec hmust (by omega) hlt h
    | mustNot =>
        exact read_of_given hmustNot' fun _ hlt h =>
          hvec hmustNot (by omega) hlt h
    | queries =>
        exact read_of_given hqueries' fun _ hlt h =>
          readVec_of_spelled (rendersClauses_iff.mp h) hlt
            fun c hc _ hjson hclause =>
              readClause_of_spelled hclause hjson (by omega) (hqueries c hc _)
  · show Except.ok (QuerySpec.boolean
      (((member .should).map fun _ => should).getD [])
      (((member .must).map fun _ => must).getD [])
      (((member .mustNot).map fun _ => mustNot).getD [])
      (((member .queries).map fun _ => queries).getD [])) = _
    rw [getD_of_given hshould', getD_of_given hmust', getD_of_given hmustNot',
      getD_of_given hqueries']

/-- A demotion is read if both its queries are. -/
theorem readsAt_boost (positive negative : QuerySpec) (negativeBoost : F32)
    (hpositive : ∀ r, ReadsAt serde fuel r positive)
    (hnegative : ∀ r, ReadsAt serde fuel r negative) :
    ReadsAt serde (fuel + 1) remaining
      (.boost positive negative negativeBoost) := by
  intro hfuel json h hdeep
  rw [Renders] at h
  obtain ⟨members, member, rfl, hmembers, hpositive', hnegative', hboost⟩ := h
  refine readQuerySpec_tagged rfl hdeep fun hcontent => ?_
  let value := boostValues positive negative negativeBoost
  refine @structVariant_of_given _ _ _ _ _ BoostField.names
    (fun r => BoostField.read serde (readQuerySpec serde fuel) r)
    BoostField.finish (by decide)
    (fun f => by cases f <;> decide) (fun f => by cases f <;> decide)
    member value members _ hmembers hcontent ?_ _ ?_
  · intro f
    cases f with
    | positive =>
        exact read_of_given hpositive' fun json hlt h =>
          hpositive _ (by omega) json h hlt
    | negative =>
        exact read_of_given hnegative' fun json hlt h =>
          hnegative _ (by omega) json h hlt
    | negativeBoost =>
        exact read_of_given hboost fun _ _ h => readF32_of_spelled h
  · unfold BoostField.finish
    erw [required_of_given _ hpositive', required_of_given _ hnegative']
    show Except.ok (QuerySpec.boost positive negative
      (((member .negativeBoost).map fun _ => negativeBoost).getD F32.half)) = _
    rw [getD_of_given hboost]

end

theorem readsAt_zero {serde : SerdeJson} {remaining : Nat} {q : QuerySpec} :
    ReadsAt serde 0 remaining q := by
  intro hfuel json _ hdeep
  omega

/-- A rendering nested no deeper than the levels left is read, whatever the
query: induction on the query, a lemma for each variant. -/
theorem readsAt_all {serde : SerdeJson} (q : QuerySpec) :
    ∀ fuel remaining, ReadsAt serde fuel remaining q := by
  induction q using QuerySpec.induction with
  | hmatch =>
      intro fuel remaining
      cases fuel with
      | zero => exact readsAt_zero
      | succ fuel => apply readsAt_match
  | hmulti =>
      intro fuel remaining
      cases fuel with
      | zero => exact readsAt_zero
      | succ fuel => apply readsAt_multiMatch
  | hphrase =>
      intro fuel remaining
      cases fuel with
      | zero => exact readsAt_zero
      | succ fuel => apply readsAt_matchPhrase
  | hboolean should must mustNot queries ihs ihm ihn ihq =>
      intro fuel remaining
      cases fuel with
      | zero => exact readsAt_zero
      | succ fuel =>
          exact readsAt_boolean should must mustNot queries
            (fun q hq => ihs q hq fuel) (fun q hq => ihm q hq fuel)
            (fun q hq => ihn q hq fuel) fun c hc => ihq c hc fuel
  | hboost positive negative negativeBoost ihp ihn =>
      intro fuel remaining
      cases fuel with
      | zero => exact readsAt_zero
      | succ fuel =>
          exact readsAt_boost positive negative negativeBoost (ihp fuel)
            (ihn fuel)

-- ============================================================== the writer

mutual

/-- Every boost in the query is finite. -/
def FiniteBoosts : QuerySpec → Prop
  | .match _ _ _ boost _ _ _ => boost.isFinite = true
  | .multiMatch _ _ boosts _ _ _ _ => ∀ boost ∈ boosts, boost.isFinite = true
  | .matchPhrase .. => True
  | .boolean should must mustNot queries =>
      FiniteBoostsAll should ∧ FiniteBoostsAll must ∧ FiniteBoostsAll mustNot
        ∧ FiniteBoostsClauses queries
  | .boost positive negative negativeBoost =>
      FiniteBoosts positive ∧ FiniteBoosts negative
        ∧ negativeBoost.isFinite = true

def FiniteBoostsAll : List QuerySpec → Prop
  | [] => True
  | query :: queries => FiniteBoosts query ∧ FiniteBoostsAll queries

def FiniteBoostsClauses : List (BooleanOccur × QuerySpec) → Prop
  | [] => True
  | (_, query) :: clauses => FiniteBoosts query ∧ FiniteBoostsClauses clauses

end

section
variable {serde : SerdeJson}

theorem columnSpelled_toJson (column : Option String) :
    ColumnSpelled column (optionStringToJson column) := by
  cases column <;> rfl

theorem operatorSpelled_toJson (operator : MatchOperator) :
    OperatorSpelled operator operator.toJson := by
  cases operator with
  | or => exact ⟨"Or", rfl, by decide⟩
  | and => exact ⟨"And", rfl, by decide⟩

theorem fuzzinessSpelled_toJson (fuzziness : Option UInt8) :
    FuzzinessSpelled fuzziness (fuzzinessToJson fuzziness) := by
  cases fuzziness with
  | none => exact Or.inl rfl
  | some n => exact rfl

/-- The number written for a float reads as that float. -/
def ReadsBack (serde : SerdeJson) : Prop :=
  ∀ x : F32, x.isFinite = true → serde.toF32 (serde.ofF32 x) = x

theorem f32Spelled_toJson (hback : ReadsBack serde) {x : F32}
    (hx : x.isFinite = true) : F32Spelled serde x (f32ToJson serde x) := by
  refine ⟨serde.ofF32 x, ?_, hback x hx⟩
  rw [f32ToJson, if_pos hx]

mutual

/-- What serde writes for a query is one of its renderings, if its numbers
are finite. -/
theorem renders_toJson (hback : ReadsBack serde) : ∀ q : QuerySpec, FiniteBoosts q →
    Renders serde q (q.toJson serde)
  | .match column terms operator boost fuzziness maxExpansions prefixLength,
      h => by
      rw [FiniteBoosts] at h
      rw [Renders]
      refine ⟨_, fun
        | .column => some ("column", optionStringToJson column)
        | .terms => some ("terms", .string terms)
        | .operator => some ("operator", operator.toJson)
        | .boost => some ("boost", f32ToJson serde boost)
        | .fuzziness => some ("fuzziness", fuzzinessToJson fuzziness)
        | .maxExpansions => some ("max_expansions", usizeToJson maxExpansions)
        | .prefixLength => some ("prefix_length", u32ToJson prefixLength),
        rfl, List.Perm.refl _, ?_⟩
      exact ⟨⟨by simp, columnSpelled_toJson column⟩, ⟨by simp, rfl⟩,
        ⟨by simp, operatorSpelled_toJson operator⟩,
        ⟨by simp, f32Spelled_toJson hback h⟩,
        ⟨by simp, fuzzinessSpelled_toJson fuzziness⟩, ⟨by simp, rfl⟩,
        ⟨by simp, rfl⟩⟩
  | .multiMatch terms columns boosts operator fuzziness maxExpansions
      prefixLength, h => by
      rw [FiniteBoosts] at h
      rw [Renders]
      refine ⟨_, fun
        | .terms => some ("terms", .string terms)
        | .columns => some ("columns", .array (columns.map .string))
        | .boosts => some ("boosts", .array (boosts.map (f32ToJson serde)))
        | .operator => some ("operator", operator.toJson)
        | .fuzziness => some ("fuzziness", fuzzinessToJson fuzziness)
        | .maxExpansions => some ("max_expansions", usizeToJson maxExpansions)
        | .prefixLength => some ("prefix_length", u32ToJson prefixLength),
        rfl, List.Perm.refl _, ?_⟩
      have hcolumns : List.Forall₂ (fun c v => v = Json.string c) columns
          (columns.map .string) := by
        rw [List.forall₂_map_right_iff, List.forall₂_same]
        exact fun _ _ => rfl
      have hboosts : List.Forall₂ (F32Spelled serde) boosts
          (boosts.map (f32ToJson serde)) := by
        rw [List.forall₂_map_right_iff, List.forall₂_same]
        exact fun x hx => f32Spelled_toJson hback (h x hx)
      exact ⟨⟨by simp, rfl⟩, ⟨by simp, _, rfl, hcolumns⟩,
        ⟨by simp, _, rfl, hboosts⟩, ⟨by simp, operatorSpelled_toJson operator⟩,
        ⟨by simp, fuzzinessSpelled_toJson fuzziness⟩, ⟨by simp, rfl⟩,
        ⟨by simp, rfl⟩⟩
  | .matchPhrase column terms slop, _ => by
      rw [Renders]
      refine ⟨"match_phrase", _, fun
        | .column => some ("column", optionStringToJson column)
        | .terms => some ("terms", .string terms)
        | .slop => some ("slop", u32ToJson slop),
        rfl, by simp, List.Perm.refl _, ?_⟩
      exact ⟨⟨by simp, columnSpelled_toJson column⟩, ⟨by simp, rfl⟩,
        ⟨by simp, rfl⟩⟩
  | .boolean should must mustNot queries, h => by
      rw [FiniteBoosts] at h
      rw [Renders]
      refine ⟨_, fun
        | .should => some ("should", .array (queriesToJson serde should))
        | .must => some ("must", .array (queriesToJson serde must))
        | .mustNot => some ("must_not", .array (queriesToJson serde mustNot))
        | .queries => some ("queries", .array (clausesToJson serde queries)),
        rfl, List.Perm.refl _, ?_⟩
      exact ⟨⟨by simp, rendersAll_toJson hback should h.1⟩,
        ⟨by simp, rendersAll_toJson hback must h.2.1⟩,
        ⟨by simp, rendersAll_toJson hback mustNot h.2.2.1⟩,
        ⟨by simp, rendersClauses_toJson hback queries h.2.2.2⟩⟩
  | .boost positive negative negativeBoost, h => by
      rw [FiniteBoosts] at h
      rw [Renders]
      refine ⟨_, fun
        | .positive => some ("positive", positive.toJson serde)
        | .negative => some ("negative", negative.toJson serde)
        | .negativeBoost => some ("negative_boost", f32ToJson serde negativeBoost),
        rfl, List.Perm.refl _, ?_⟩
      exact ⟨⟨by simp, renders_toJson hback positive h.1⟩,
        ⟨by simp, renders_toJson hback negative h.2.1⟩,
        ⟨by simp, f32Spelled_toJson hback h.2.2⟩⟩

theorem rendersAll_toJson (hback : ReadsBack serde) :
    ∀ queries : List QuerySpec, FiniteBoostsAll queries →
    RendersAll serde queries (.array (queriesToJson serde queries))
  | [], _ => by
      rw [RendersAll]
      rfl
  | query :: queries, h => by
      rw [FiniteBoostsAll] at h
      rw [RendersAll]
      exact ⟨_, _, rfl, renders_toJson hback query h.1,
        rendersAll_toJson hback queries h.2⟩

theorem rendersClauses_toJson (hback : ReadsBack serde) :
    ∀ clauses : List (BooleanOccur × QuerySpec), FiniteBoostsClauses clauses →
    RendersClauses serde clauses (.array (clausesToJson serde clauses))
  | [], _ => by
      rw [RendersClauses]
      rfl
  | (occur, query) :: clauses, h => by
      rw [FiniteBoostsClauses] at h
      rw [RendersClauses]
      have hoccur : ∃ s, occur.toJson = .string s
          ∧ trim s ∈ occurSpellings occur := by
        cases occur with
        | should => exact ⟨"Should", rfl, by decide⟩
        | must => exact ⟨"Must", rfl, by decide⟩
        | mustNot => exact ⟨"MustNot", rfl, by decide⟩
      obtain ⟨s, hs, htrim⟩ := hoccur
      refine ⟨s, _, _, ?_, htrim, renders_toJson hback query h.1,
        rendersClauses_toJson hback clauses h.2⟩
      rw [clausesToJson, hs]

end

end

-- ============================================================== the parser

/-- Every rendering within the recursion limit is parsed back to the
query, whatever its author chose at each node; what the serializer
writes is one of the renderings. -/
theorem fromJson_of_renders (serde : SerdeJson)
    (hback : ReadsBack serde) :
    (∀ q text json, Renders serde q json → nesting json < recursionLimit →
      serde.parse text = .ok json → QuerySpec.fromJson serde text = .ok q)
    ∧ ∀ q, FiniteBoosts q → Renders serde q (q.toJson serde) := by
  refine ⟨?_, renders_toJson hback⟩
  intro q text json hrenders hnesting hparse
  unfold QuerySpec.fromJson
  rw [hparse]
  show liftError FtIndexError.json
    (readQuerySpec serde recursionLimit recursionLimit json) = _
  rw [readsAt_all q _ _ (Nat.le_refl _) json hrenders hnesting]
  rfl

/-- A match query with aliases, blanks and another case. -/
def aliasText : String :=
  "\x7b\"match\":\x7b\"fuzziness\":\"AUTO\",\"query\":\"Paimon\"," ++
    "\"operator\":\" and \",\"boost\":0.5\x7d\x7d"

def aliasJson : Json :=
  .object [("match", .object
    [("fuzziness", .string "AUTO"), ("query", .string "Paimon"),
      ("operator", .string " and "),
      ("boost", .number (.float 0x3FE0000000000000))])]

/-- serde_json on this text and on one half. -/
def aliasSerde : SerdeJson where
  parse text :=
    if text = aliasText then .ok aliasJson else .error ⟨"expected value"⟩
  toF32
    | .float bits =>
        if bits = 0x3FE0000000000000 then F32.half else ⟨bits.toUInt32⟩
    | .posInt n => ⟨n.toUInt32⟩
    | .negInt n => ⟨n.toUInt64.toUInt32⟩
  ofF32 x :=
    if x = F32.half then .float 0x3FE0000000000000
    else .float x.bits.toUInt64

theorem fromJson_aliases :
    QuerySpec.fromJson aliasSerde aliasText
      = .ok (.match none "Paimon" .and F32.half none 50 0) := by
  have hback : ReadsBack aliasSerde := by
    intro x _
    dsimp only [aliasSerde]
    by_cases h : x = F32.half
    · rw [if_pos h, h]
      rfl
    · rw [if_neg h]
      dsimp only
      have hlt := x.bits.toNat_lt
      have hne : x.bits.toUInt64 ≠ 0x3FE0000000000000 := by
        intro heq
        have := congrArg UInt64.toNat heq
        rw [UInt32.toNat_toUInt64] at this
        simp at this
        omega
      rw [if_neg hne, UInt32.toUInt32_toUInt64]
  refine (fromJson_of_renders aliasSerde hback).1 _ _ aliasJson ?_ ?_
    (by simp [aliasSerde])
  · rw [Renders]
    refine ⟨_, fun
      | .terms => some ("query", .string "Paimon")
      | .operator => some ("operator", .string " and ")
      | .boost => some ("boost", .number (.float 0x3FE0000000000000))
      | .fuzziness => some ("fuzziness", .string "AUTO")
      | _ => none, rfl, ?_, ?_⟩
    · exact @List.perm_append_comm _ [_] [_, _, _]
    · exact ⟨rfl, ⟨by simp, rfl⟩, ⟨by simp, " and ", rfl, by decide⟩,
        ⟨by simp, _, rfl, rfl⟩, ⟨by simp, Or.inr ⟨"AUTO", rfl, by decide⟩⟩,
        rfl, rfl⟩
  · simp [aliasJson, nesting, nestingMembers, recursionLimit]

end PaimonFtindex.Proofs

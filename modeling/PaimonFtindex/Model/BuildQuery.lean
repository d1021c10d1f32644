/-
core/src/index.rs, `build_query`: from the query language to Tantivy's
queries.

`TantivyQuery` has one constructor for each `Query` the function builds,
with the arguments it builds it with. A phrase goes through Tantivy's
own query parser, so what comes back for it is Tantivy's (`parsed`).
-/
import PaimonFtindex.Model.Analyzer
import PaimonFtindex.Model.Query
import PaimonFtindex.Model.Schema

namespace PaimonFtindex.Model

-- ========================================================== Tantivy's side

/-- `tantivy::query::Occur`. -/
inductive Occur where
  | should
  | must
  | mustNot
  deriving DecidableEq, Repr

/-- A text term of a field. -/
structure Term where
  field : Field
  text : String
  deriving DecidableEq, Repr

/-- `Box<dyn Query>`, for a parser that returns queries of type `P`. -/
inductive TantivyQuery (P : Type) where
  | empty
  | term (term : Term) (option : IndexRecordOption)
  | cappedFuzzyTerm (term : Term) (distance : UInt8) (pre : String)
      (maxExpansions : UInt64)
  | parsed (query : P)
  | boolean (children : List (Occur × TantivyQuery P))
  | boost (query : TantivyQuery P) (boost : F32)
  | demote (positive negative : TantivyQuery P) (negativeBoost : F32)

/-- `tantivy::Index`, the parts that are asked: its schema and its
tokenizer manager. -/
structure Index where
  schema : Schema
  tokenizers : String → Option TextAnalyzer

/-- `register_tokenizer`. -/
def registerTokenizer [UnicodeCase] (library : AnalyzerLibrary) (index : Index)
    (config : TokenizerConfig) : Result Index := do
  let analyzer ← buildTextAnalyzer library config
  return { index with
    tokenizers := fun name =>
      if name = tokenizerName config then some analyzer
      else index.tokenizers name }

/-- Tantivy while a query is built: the texts of the tokens an analyzer
makes, and the query parser over some fields. -/
structure QueryLibrary (P : Type) where
  tokenTexts : TextAnalyzer → String → List String
  parseQuery : List Field → String → Except String P

-- ============================================================== the checks

def invalidQuery {α : Type} (message : String) : Result α :=
  .error (.invalidQuery message)

/-- `validate_match_options`; the prefix length is not checked. -/
def validateMatchOptions (fuzziness : Option UInt8) (maxExpansions : UInt64)
    (_prefixLength : UInt32) : Result Unit :=
  if 2 < fuzziness.getD 0 then
    invalidQuery "match query fuzziness must be auto/null or a value in [0, 2]"
  else if maxExpansions = 0 then
    invalidQuery "match query max_expansions must be positive"
  else .ok ()

/-- `validate_boost`. -/
def validateBoost [F32Display] (boost : F32) : Result Unit :=
  if !boost.isFinite || boost.le F32.zero then
    invalidQuery
      s!"boost must be a finite positive value, got {F32Display.display boost}"
  else .ok ()

/-- The loop of `validate_multi_match_options`. -/
def validateBoosts [F32Display] : List F32 → Result Unit
  | [] => .ok ()
  | boost :: boosts => do
      validateBoost boost
      validateBoosts boosts

/-- `validate_multi_match_options`. -/
def validateMultiMatchOptions [F32Display] (columns : List String)
    (boosts : List F32) (fuzziness : Option UInt8) (maxExpansions : UInt64)
    (prefixLength : UInt32) : Result Unit := do
  if columns.isEmpty then
    invalidQuery "multi_match query must contain at least one column"
  else if !boosts.isEmpty && boosts.length != columns.length then
    invalidQuery s!"multi_match boosts length {boosts.length} does not match columns length {columns.length}"
  else
    validateBoosts boosts
    validateMatchOptions fuzziness maxExpansions prefixLength

/-- `validate_negative_boost`. -/
def validateNegativeBoost [F32Display] (negativeBoost : F32) : Result Unit :=
  if !negativeBoost.isFinite
      || !(F32.zero.le negativeBoost && negativeBoost.le F32.one) then
    invalidQuery s!"negative_boost must be a finite value in [0.0, 1.0], got {F32Display.display negativeBoost}"
  else .ok ()

-- ============================================================== the fields

/-- `column.map(str::trim).filter(|column| !column.is_empty())`. -/
def givenColumn (column : Option String) : Option String :=
  (column.map trim).filter fun column => !column.isEmpty

section
variable (index : Index) (config : FullTextIndexConfig)

/-- The column `resolve_text_field` starts with: the given one, else the
field of a single-field index. -/
def columnOrOnly (column : Option String) : Result String :=
  match givenColumn column with
  | some column => .ok column
  | none =>
      match config.indexedTextFields with
      | [field] => .ok field
      | _ => invalidQuery
          "full-text query column must be set for multi-field indexes"

/-- `resolve_text_field`. -/
def resolveTextField (column : Option String) : Result Field := do
  let column ← columnOrOnly config column
  if !config.indexedTextFields.contains column then
    invalidQuery
      s!"full-text query column '{column}' is not configured for this index"
  else
    match index.schema.getField column with
    | some field => return field
    | none => invalidQuery s!"missing text field '{column}'"

/-- `resolve_match_fields`. -/
def resolveMatchFields (column : Option String) : Result (List Field) :=
  if (givenColumn column).isSome then do
    return [← resolveTextField index config column]
  else
    config.indexedTextFields.mapM fun field =>
      resolveTextField index config (some field)

-- ============================================================== the leaves

/-- `FieldMatchOptions`. -/
structure FieldMatchOptions where
  operator : MatchOperator
  boost : F32
  fuzziness : Option UInt8
  maxExpansions : UInt64
  prefixLength : UInt32
  deriving DecidableEq, Repr

/-- `auto_fuzziness`. -/
def autoFuzziness (token : String) : UInt8 :=
  if token.length ≤ 2 then 0
  else if token.length ≤ 5 then 1
  else 2

/-- `token.chars().take(n)`, collected. -/
def takeChars (n : Nat) (token : String) : String :=
  String.ofList (token.toList.take n)

variable {P : Type}

/-- `build_token_query`. -/
def buildTokenQuery (field : Field) (token : String) (fuzziness : Option UInt8)
    (maxExpansions : UInt64) (prefixLength : UInt32) :
    Result (TantivyQuery P) :=
  let fuzziness := fuzziness.getD (autoFuzziness token)
  if fuzziness = 0 then .ok (.term ⟨field, token⟩ .withFreqs)
  else if 2 < fuzziness then
    invalidQuery "match query fuzziness must be auto/null or a value in [0, 2]"
  else
    .ok (.cappedFuzzyTerm ⟨field, token⟩ fuzziness
      (takeChars prefixLength.toNat token) maxExpansions)

variable (library : QueryLibrary P)

/-- `analyze_terms`. -/
def analyzeTerms (terms : String) : Result (List String) :=
  match index.tokenizers (tokenizerName config.tokenizer) with
  | some analyzer => .ok (library.tokenTexts analyzer terms)
  | none => invalidQuery
      s!"tokenizer '{tokenizerName config.tokenizer}' is not registered"

/-- The occur of a token among several. -/
def MatchOperator.occur : MatchOperator → Occur
  | .or => .should
  | .and => .must

/-- The tokens of `build_field_match_query`. -/
def buildTokensQuery (field : Field) (options : FieldMatchOptions) :
    List String → Result (TantivyQuery P)
  | [] => .ok .empty
  | [token] => buildTokenQuery field token options.fuzziness
      options.maxExpansions options.prefixLength
  | tokens => do
      let children ← tokens.mapM fun token => do
        return (options.operator.occur,
          ← buildTokenQuery field token options.fuzziness
            options.maxExpansions options.prefixLength)
      return .boolean children

/-- `build_field_match_query`. -/
def buildFieldMatchQuery [F32Display] (field : Field) (terms : String)
    (options : FieldMatchOptions) : Result (TantivyQuery P) := do
  validateBoost options.boost
  let tokens ← analyzeTerms index config library terms
  let query ← buildTokensQuery field options tokens
  if options.boost.farFromOne then return .boost query options.boost
  else return query

/-- The text a phrase is handed to the query parser as. -/
def phraseText (terms : String) (slop : UInt32) : String :=
  let escaped := replaceChar (replaceChar terms '\\' "\\\\") '"' "\\\""
  if slop = 0 then s!"\"{escaped}\"" else s!"\"{escaped}\"~{slop}"

-- =============================================================== the nodes

def BooleanOccur.toOccur : BooleanOccur → Occur
  | .should => .should
  | .must => .must
  | .mustNot => .mustNot

variable [F32Display]

mutual

/-- `build_query`. -/
def buildQuery : QuerySpec → Result (TantivyQuery P)
  | .match column terms operator boost fuzziness maxExpansions prefixLength => do
      validateMatchOptions fuzziness maxExpansions prefixLength
      let fields ← resolveMatchFields index config column
      let options : FieldMatchOptions :=
        { operator, boost, fuzziness, maxExpansions, prefixLength }
      let children ← fields.mapM fun field => do
        return (Occur.should,
          ← buildFieldMatchQuery index config library field terms options)
      match children with
      | [child] => return child.2
      | children => return .boolean children
  | .multiMatch terms columns boosts operator fuzziness maxExpansions
      prefixLength => do
      validateMultiMatchOptions columns boosts fuzziness maxExpansions
        prefixLength
      let children ← columns.zipIdx.mapM fun (column, idx) => do
        let boost := boosts[idx]?.getD F32.one
        let field ← resolveTextField index config (some column)
        let options : FieldMatchOptions :=
          { operator, boost, fuzziness, maxExpansions, prefixLength }
        return (Occur.should,
          ← buildFieldMatchQuery index config library field terms options)
      return .boolean children
  | .matchPhrase column terms slop =>
      if !config.tokenizer.withPosition then
        invalidQuery "phrase query requires positions"
      else do
        let textField ← resolveTextField index config column
        match library.parseQuery [textField] (phraseText terms slop) with
        | .ok query => return .parsed query
        | .error message => invalidQuery message
  | .boolean should must mustNot queries =>
      if should.isEmpty && must.isEmpty && mustNot.isEmpty
          && queries.isEmpty then
        invalidQuery "boolean query must contain at least one clause"
      else if !(!should.isEmpty || !must.isEmpty
          || queries.any fun clause => clause.1 != .mustNot) then
        invalidQuery
          "boolean query must contain at least one should or must clause"
      else do
        return .boolean ((← buildQueries .should should)
          ++ (← buildQueries .must must) ++ (← buildQueries .mustNot mustNot)
          ++ (← buildClauses queries))
  | .boost positive negative negativeBoost => do
      validateNegativeBoost negativeBoost
      return .demote (← buildQuery positive) (← buildQuery negative)
        negativeBoost

/-- The loops over `should`, `must` and `must_not`. -/
def buildQueries (occur : Occur) :
    List QuerySpec → Result (List (Occur × TantivyQuery P))
  | [] => .ok []
  | query :: queries => do
      return (occur, ← buildQuery query) :: (← buildQueries occur queries)

/-- The loop over `queries`. -/
def buildClauses :
    List (BooleanOccur × QuerySpec) → Result (List (Occur × TantivyQuery P))
  | [] => .ok []
  | (occur, query) :: clauses => do
      return (occur.toOccur, ← buildQuery query) :: (← buildClauses clauses)

end

end

end PaimonFtindex.Model

/-
The query compiler preserves meaning.

`Meaning` is the reference: what a query of the language says about a
document, by field names and clauses, with no word about Tantivy's query
trees. Its leaves are the token and phrase queries themselves.
`buildQuery_meaning` says that the tree `build_query` returns matches a
document exactly when the query means it, scored or not.

A boolean query is read off its clauses, wherever they are written
(`clausesOf`). The compiler's children are those clauses one by one, so
one lemma about `booleanMatches` serves the boolean queries and the two
kinds of tree over tokens and fields.
-/
import PaimonFtindex.Model.Weight
import PaimonFtindex.Proofs.Columns

namespace PaimonFtindex.Proofs

open Model Lib

-- ============================================================ the reference

/-- The clauses of a boolean query, from all four lists. -/
def clausesOf (should must mustNot : List QuerySpec)
    (queries : List (BooleanOccur × QuerySpec)) :
    List (BooleanOccur × QuerySpec) :=
  should.map (BooleanOccur.should, ·) ++ must.map (BooleanOccur.must, ·)
    ++ mustNot.map (BooleanOccur.mustNot, ·) ++ queries

/-- What holds of every clause holds of the four lists. -/
theorem forall_clausesOf {should must mustNot : List QuerySpec}
    {queries : List (BooleanOccur × QuerySpec)}
    {p : BooleanOccur × QuerySpec → Prop} :
    (∀ clause ∈ clausesOf should must mustNot queries, p clause)
      ↔ (∀ q ∈ should, p (.should, q)) ∧ (∀ q ∈ must, p (.must, q))
        ∧ (∀ q ∈ mustNot, p (.mustNot, q)) ∧ ∀ clause ∈ queries, p clause := by
  unfold clausesOf
  simp only [List.forall_mem_append, List.forall_mem_map, and_assoc]

/-- A clause is smaller than its query, in either spelling. -/
theorem sizeOf_clause_lt {should must mustNot : List QuerySpec}
    {queries : List (BooleanOccur × QuerySpec)}
    {clause : BooleanOccur × QuerySpec}
    (h : clause ∈ clausesOf should must mustNot queries) :
    sizeOf clause.2 < sizeOf (QuerySpec.boolean should must mustNot queries) := by
  have hlist : ∀ {occur : BooleanOccur} {list : List QuerySpec},
      clause ∈ list.map (occur, ·) → sizeOf clause.2 < sizeOf list := by
    intro occur list hmem
    obtain ⟨query, hquery, rfl⟩ := List.mem_map.mp hmem
    exact List.sizeOf_lt_of_mem hquery
  rw [QuerySpec.boolean.sizeOf_spec]
  unfold clausesOf at h
  simp only [List.mem_append] at h
  rcases h with ((h | h) | h) | h
  · have := hlist h
    omega
  · have := hlist h
    omega
  · have := hlist h
    omega
  · have := List.sizeOf_lt_of_mem h
    have : sizeOf clause = 1 + sizeOf clause.1 + sizeOf clause.2 := by
      cases clause
      rfl
    omega

section
variable {P : Type} (library : SearchLibrary P) (index : Index)
  (config : FullTextIndexConfig) (reader : SegmentReader) (doc : DocId)

/-- The query for the token in the named field matches. -/
def TokenMatches (name token : String) (fuzziness : Option UInt8)
    (maxExpansions : UInt64) (prefixLength : UInt32) : Prop :=
  ∃ field query, index.schema.getField name = some field
    ∧ buildTokenQuery field token fuzziness maxExpansions prefixLength
        = .ok query
    ∧ query.matches library reader doc true = true

/-- There are tokens, and some or every one of them matches. -/
def FieldMatches (name terms : String) (operator : MatchOperator)
    (fuzziness : Option UInt8) (maxExpansions : UInt64)
    (prefixLength : UInt32) : Prop :=
  ∃ tokens, analyzeTerms index config library.toQueryLibrary terms = .ok tokens
    ∧ tokens ≠ []
    ∧ match operator with
      | .or => ∃ token ∈ tokens, TokenMatches library index reader doc name
          token fuzziness maxExpansions prefixLength
      | .and => ∀ token ∈ tokens, TokenMatches library index reader doc name
          token fuzziness maxExpansions prefixLength

/-- The phrase query on the named field matches. -/
def PhraseMatches (name terms : String) (slop : UInt32) : Prop :=
  ∃ field query, index.schema.getField name = some field
    ∧ library.parseQuery [field] (phraseText terms slop) = .ok query
    ∧ library.parsedMatches query reader doc = true

/-- What a query says about a document. -/
def Meaning : QuerySpec → Prop
  | .match column terms operator _ fuzziness maxExpansions prefixLength =>
      ∃ name, InMatchFields config column name
        ∧ FieldMatches library index config reader doc name terms operator
            fuzziness maxExpansions prefixLength
  | .multiMatch terms columns _ operator fuzziness maxExpansions prefixLength =>
      ∃ column ∈ columns, ∃ name, Designates config (some column) name
        ∧ FieldMatches library index config reader doc name terms operator
            fuzziness maxExpansions prefixLength
  | .matchPhrase column terms slop =>
      ∃ name, Designates config column name
        ∧ PhraseMatches library index reader doc name terms slop
  | .boolean should must mustNot queries =>
      (∀ clause, (_ : clause ∈ clausesOf should must mustNot queries) →
        clause.1 = .must → Meaning clause.2)
      ∧ (∀ clause, (_ : clause ∈ clausesOf should must mustNot queries) →
        clause.1 = .mustNot → ¬ Meaning clause.2)
      ∧ ((∀ clause ∈ clausesOf should must mustNot queries,
          clause.1 ≠ .must) →
        ∃ clause, ∃ _ : clause ∈ clausesOf should must mustNot queries,
          clause.1 = .should ∧ Meaning clause.2)
  | .boost positive _ _ => Meaning positive
termination_by query => sizeOf query
decreasing_by
  · exact sizeOf_clause_lt ‹_›
  · exact sizeOf_clause_lt ‹_›
  · exact sizeOf_clause_lt ‹_›
  · rw [QuerySpec.boost.sizeOf_spec]
    omega

end

-- ========================================================== what trees match

/-- The rule of a boolean query: all of `must`, none of `must_not`, and some
of `should` where there is no `must`. -/
theorem booleanMatches_iff {clauses : List (Occur × Bool)} :
    booleanMatches clauses = true
      ↔ (∀ clause ∈ clauses, clause.1 = .must → clause.2 = true)
        ∧ (∀ clause ∈ clauses, clause.1 = .mustNot → ¬ clause.2 = true)
        ∧ ((∀ clause ∈ clauses, clause.1 ≠ .must) →
          ∃ clause ∈ clauses, clause.1 = .should ∧ clause.2 = true) := by
  unfold booleanMatches
  simp only [Bool.and_eq_true, Bool.or_eq_true, List.all_eq_true,
    List.any_eq_true, bne_iff_ne, beq_iff_eq, Bool.not_eq_true',
    Bool.not_eq_true, and_assoc]
  refine and_congr ?_ (and_congr ?_ ?_)
  · refine forall₂_congr fun clause _ => ?_
    rw [← imp_iff_not_or]
  · refine forall₂_congr fun clause _ => ?_
    rw [← imp_iff_not_or]
  · rw [or_iff_not_imp_left]
    refine imp_congr ?_ Iff.rfl
    simp only [not_exists, not_and, ne_eq]

section
variable {P : Type} {library : SearchLibrary P} {reader : SegmentReader}
  {doc : DocId} {scoring : Bool}

theorem matches_boolean {children : List (Occur × TantivyQuery P)} :
    (TantivyQuery.boolean children).matches library reader doc scoring = true
      ↔ (∀ child ∈ children, child.1 = .must →
          child.2.matches library reader doc scoring = true)
        ∧ (∀ child ∈ children, child.1 = .mustNot →
          ¬ child.2.matches library reader doc scoring = true)
        ∧ ((∀ child ∈ children, child.1 ≠ .must) →
          ∃ child ∈ children, child.1 = .should
            ∧ child.2.matches library reader doc scoring = true) := by
  have htree : (TantivyQuery.boolean children).matches library reader doc scoring
      = booleanMatches (children.map fun child =>
          (child.1, child.2.matches library reader doc scoring)) := by
    rw [TantivyQuery.matches, TantivyQuery.weight, Weight.matches,
      childMatches_childWeights]
  rw [htree, booleanMatches_iff]
  simp only [List.forall_mem_map]
  simp only [List.mem_map, exists_exists_and_eq_and]

/-- Some child of a disjunction matches. -/
theorem matches_boolean_should {children : List (Occur × TantivyQuery P)}
    (h : ∀ child ∈ children, child.1 = .should) :
    (TantivyQuery.boolean children).matches library reader doc scoring = true
      ↔ ∃ child ∈ children,
          child.2.matches library reader doc scoring = true := by
  rw [matches_boolean]
  constructor
  · intro hmatch
    obtain ⟨child, hmem, -, hchild⟩ := hmatch.2.2 fun child hmem heq => by
      rw [h child hmem] at heq
      cases heq
    exact ⟨child, hmem, hchild⟩
  · intro hmatch
    obtain ⟨child, hmem, hchild⟩ := hmatch
    refine ⟨?_, ?_, fun _ => ⟨child, hmem, h child hmem, hchild⟩⟩
    · intro child hmem heq
      rw [h child hmem] at heq
      cases heq
    · intro child hmem heq
      rw [h child hmem] at heq
      cases heq

/-- Every child of a conjunction matches. -/
theorem matches_boolean_must {children : List (Occur × TantivyQuery P)}
    (h : ∀ child ∈ children, child.1 = .must) (hne : children ≠ []) :
    (TantivyQuery.boolean children).matches library reader doc scoring = true
      ↔ ∀ child ∈ children,
          child.2.matches library reader doc scoring = true := by
  rw [matches_boolean]
  constructor
  · intro hmatch child hmem
    exact hmatch.1 child hmem (h child hmem)
  · intro hmatch
    refine ⟨fun child hmem _ => hmatch child hmem, ?_, ?_⟩
    · intro child hmem heq
      rw [h child hmem] at heq
      cases heq
    · intro hnone
      obtain ⟨child, hmem⟩ := List.exists_mem_of_ne_nil children hne
      exact absurd (h child hmem) (hnone child hmem)

-- =============================================================== the leaves

/-- A token query has one weight, scored or not. -/
theorem matches_of_buildTokenQuery {field : Field} {token : String}
    {fuzziness : Option UInt8} {maxExpansions : UInt64} {prefixLength : UInt32}
    {query : TantivyQuery P}
    (h : buildTokenQuery field token fuzziness maxExpansions prefixLength
      = .ok query) (scoring' : Bool) :
    query.matches library reader doc scoring
      = query.matches library reader doc scoring' := by
  unfold buildTokenQuery at h
  dsimp only at h
  split at h
  · cases h
    rfl
  · split at h
    · cases h
    · cases h
      rfl

variable {index : Index} {config : FullTextIndexConfig}

/-- The tree over the tokens of one field. -/
theorem matches_of_buildTokensQuery {name : String} {field : Field}
    (hfield : index.schema.getField name = some field)
    {options : FieldMatchOptions} {tokens : List String}
    {query : TantivyQuery P}
    (h : buildTokensQuery field options tokens = .ok query) :
    query.matches library reader doc scoring = true
      ↔ tokens ≠ []
        ∧ match options.operator with
          | .or => ∃ token ∈ tokens, TokenMatches library index reader doc name
              token options.fuzziness options.maxExpansions
              options.prefixLength
          | .and => ∀ token ∈ tokens, TokenMatches library index reader doc
              name token options.fuzziness options.maxExpansions
              options.prefixLength := by
  have htoken : ∀ token (query : TantivyQuery P),
      buildTokenQuery field token options.fuzziness options.maxExpansions
        options.prefixLength = .ok query →
      (TokenMatches library index reader doc name token options.fuzziness
        options.maxExpansions options.prefixLength
        ↔ query.matches library reader doc scoring = true) := by
    intro token query hquery
    unfold TokenMatches
    constructor
    · intro hmatch
      obtain ⟨field', query', hfield', hquery', hmatch⟩ := hmatch
      rw [hfield] at hfield'
      cases hfield'
      rw [hquery] at hquery'
      cases hquery'
      rw [matches_of_buildTokenQuery hquery true]
      exact hmatch
    · intro hmatch
      rw [matches_of_buildTokenQuery hquery true] at hmatch
      exact ⟨field, query, hfield, hquery, hmatch⟩
  match tokens, h with
  | [], h =>
      cases h
      simp
  | [token], h =>
      rw [← htoken token query h]
      cases options.operator <;> simp
  | first :: second :: tokens, h =>
      unfold buildTokensQuery at h
      obtain ⟨children, hchildren, hret⟩ := except_bind_eq_ok.mp h
      cases hret
      have hforall := (mapM_eq_ok.mp hchildren).imp
        (fun token child hchild => show child.1 = options.operator.occur
            ∧ buildTokenQuery field token options.fuzziness
              options.maxExpansions options.prefixLength = .ok child.2 by
          obtain ⟨query, hquery, hret⟩ := except_bind_eq_ok.mp hchild
          cases hret
          exact ⟨rfl, hquery⟩)
      have hoccur : ∀ child ∈ children, child.1 = options.operator.occur :=
        forall_of_forall₂ hforall fun _ _ hchild => hchild.1
      have hne : children ≠ [] := by
        intro hnil
        rw [hnil] at hforall
        cases hforall
      rw [and_iff_right (List.cons_ne_nil _ _)]
      cases hop : options.operator with
      | or =>
          rw [hop] at hoccur
          rw [matches_boolean_should hoccur]
          exact (exists_iff_of_forall₂ hforall fun token _ child hchild =>
            htoken token child.2 hchild.2).symm
      | and =>
          rw [hop] at hoccur
          rw [matches_boolean_must hoccur hne]
          exact (forall_iff_of_forall₂ hforall fun token _ child hchild =>
            htoken token child.2 hchild.2).symm

/-- A tree over fields matches when it matches in some field, also when
one field is not wrapped. -/
theorem matches_of_fieldChildren {children : List (Occur × TantivyQuery P)}
    {query : TantivyQuery P} (hshould : ∀ child ∈ children, child.1 = .should)
    (h : (match children with
        | [child] => (pure child.2 : Result (TantivyQuery P))
        | children => pure (.boolean children)) = .ok query) :
    query.matches library reader doc scoring = true
      ↔ ∃ child ∈ children,
          child.2.matches library reader doc scoring = true := by
  split at h
  · cases h
    simp
  · cases h
    exact matches_boolean_should hshould

variable [F32Display]

/-- What a match in one field compiles to finds that match. -/
theorem matches_of_buildFieldMatchQuery {name terms : String} {field : Field}
    (hfield : index.schema.getField name = some field)
    {options : FieldMatchOptions} {query : TantivyQuery P}
    (h : buildFieldMatchQuery index config library.toQueryLibrary field terms
      options = .ok query) :
    query.matches library reader doc scoring = true
      ↔ FieldMatches library index config reader doc name terms
          options.operator options.fuzziness options.maxExpansions
          options.prefixLength := by
  unfold buildFieldMatchQuery at h
  obtain ⟨_, -, h⟩ := except_bind_eq_ok.mp h
  obtain ⟨tokens, htokens, h⟩ := except_bind_eq_ok.mp h
  obtain ⟨inner, hinner, h⟩ := except_bind_eq_ok.mp h
  have hsame : query.matches library reader doc scoring
      = inner.matches library reader doc scoring := by
    split at h
    · cases h
      rfl
    · cases h
      rfl
  rw [hsame, matches_of_buildTokensQuery hfield hinner]
  unfold FieldMatches
  constructor
  · intro hmatch
    exact ⟨tokens, htokens, hmatch⟩
  · intro hmatch
    obtain ⟨tokens', htokens', hmatch⟩ := hmatch
    rw [htokens] at htokens'
    cases htokens'
    exact hmatch

-- ================================================================ the nodes

/-- One child of the tree per clause, with its occur and its query. -/
def CompilesTo (library : SearchLibrary P) (index : Index)
    (config : FullTextIndexConfig) (clause : BooleanOccur × QuerySpec)
    (child : Occur × TantivyQuery P) : Prop :=
  child.1 = clause.1.toOccur
    ∧ buildQuery index config library.toQueryLibrary clause.2 = .ok child.2

theorem buildQueries_eq_ok {occur : BooleanOccur} {queries : List QuerySpec}
    {children : List (Occur × TantivyQuery P)}
    (h : buildQueries index config library.toQueryLibrary occur.toOccur queries
      = .ok children) :
    List.Forall₂ (CompilesTo library index config) (queries.map (occur, ·))
      children := by
  induction queries generalizing children with
  | nil =>
      rw [buildQueries] at h
      cases h
      exact List.Forall₂.nil
  | cons query queries ih =>
      rw [buildQueries] at h
      obtain ⟨child, hchild, h⟩ := except_bind_eq_ok.mp h
      obtain ⟨rest, hrest, hret⟩ := except_bind_eq_ok.mp h
      cases hret
      exact List.Forall₂.cons ⟨rfl, hchild⟩ (ih hrest)

/-- The clauses are compiled one by one, in order. -/
theorem buildClauses_eq_ok {clauses : List (BooleanOccur × QuerySpec)}
    {children : List (Occur × TantivyQuery P)}
    (h : buildClauses index config library.toQueryLibrary clauses
      = .ok children) :
    List.Forall₂ (CompilesTo library index config) clauses children := by
  induction clauses generalizing children with
  | nil =>
      rw [buildClauses] at h
      cases h
      exact List.Forall₂.nil
  | cons clause clauses ih =>
      obtain ⟨occur, query⟩ := clause
      rw [buildClauses] at h
      obtain ⟨child, hchild, h⟩ := except_bind_eq_ok.mp h
      obtain ⟨rest, hrest, hret⟩ := except_bind_eq_ok.mp h
      cases hret
      exact List.Forall₂.cons ⟨rfl, hchild⟩ (ih hrest)

/-- The children of a boolean query are its clauses. -/
theorem buildQuery_boolean_eq_ok {should must mustNot : List QuerySpec}
    {queries : List (BooleanOccur × QuerySpec)} {query : TantivyQuery P}
    (h : buildQuery index config library.toQueryLibrary
      (.boolean should must mustNot queries) = .ok query) :
    ∃ children, query = .boolean children
      ∧ List.Forall₂ (CompilesTo library index config)
          (clausesOf should must mustNot queries) children := by
  rw [buildQuery] at h
  split at h
  · cases h
  · split at h
    · cases h
    · obtain ⟨cs, hcs, h⟩ := except_bind_eq_ok.mp h
      obtain ⟨cm, hcm, h⟩ := except_bind_eq_ok.mp h
      obtain ⟨cn, hcn, h⟩ := except_bind_eq_ok.mp h
      obtain ⟨cq, hcq, hret⟩ := except_bind_eq_ok.mp h
      cases hret
      refine ⟨_, rfl, ?_⟩
      apply List.rel_append
      · apply List.rel_append
        · apply List.rel_append
          · exact @buildQueries_eq_ok _ _ _ _ _ BooleanOccur.should _ _ hcs
          · exact @buildQueries_eq_ok _ _ _ _ _ BooleanOccur.must _ _ hcm
        · exact @buildQueries_eq_ok _ _ _ _ _ BooleanOccur.mustNot _ _ hcn
      · exact buildClauses_eq_ok hcq

/-- The tree means what the query means. -/
def Preserved (library : SearchLibrary P) (index : Index)
    (config : FullTextIndexConfig) (reader : SegmentReader) (doc : DocId)
    (q : QuerySpec) : Prop :=
  ∀ scoring query,
    buildQuery index config library.toQueryLibrary q = .ok query →
    (query.matches library reader doc scoring = true
      ↔ Meaning library index config reader doc q)

theorem preserved_match (htrim : TrimmedFields config) (column : Option String)
    (terms : String) (operator : MatchOperator) (boost : F32)
    (fuzziness : Option UInt8) (maxExpansions : UInt64)
    (prefixLength : UInt32) :
    Preserved library index config reader doc
      (.match column terms operator boost fuzziness maxExpansions
        prefixLength) := by
  intro scoring query h
  rw [buildQuery] at h
  obtain ⟨_, -, h⟩ := except_bind_eq_ok.mp h
  obtain ⟨fields, hfields, h⟩ := except_bind_eq_ok.mp h
  obtain ⟨children, hchildren, h⟩ := except_bind_eq_ok.mp h
  obtain ⟨names, hnames, hresolved⟩ := resolveMatchFields_eq_ok htrim hfields
  have hbuilt := (mapM_eq_ok.mp hchildren).imp
    (fun field child hchild => show child.1 = Occur.should
        ∧ buildFieldMatchQuery index config library.toQueryLibrary field terms
          { operator, boost, fuzziness, maxExpansions, prefixLength }
          = .ok child.2 by
      obtain ⟨query, hquery, hret⟩ := except_bind_eq_ok.mp hchild
      cases hret
      exact ⟨rfl, hquery⟩)
  have hshould : ∀ child ∈ children, child.1 = .should :=
    forall_of_forall₂ hbuilt fun _ _ hchild => hchild.1
  have hname : ∀ field ∈ fields, ∃ name,
      index.schema.getField name = some field :=
    forall_of_forall₂ hresolved fun name _ hget => ⟨name, hget⟩
  -- from the children to the fields, from the fields to the names
  let inField (field : Field) : Prop := ∃ name,
    index.schema.getField name = some field
      ∧ FieldMatches library index config reader doc name terms operator
          fuzziness maxExpansions prefixLength
  have hchild : (∃ field ∈ fields, inField field) ↔ ∃ child ∈ children,
      child.2.matches library reader doc scoring = true := by
    refine exists_iff_of_forall₂ hbuilt fun field hfield child hbuild => ?_
    obtain ⟨name, hget⟩ := hname field hfield
    rw [matches_of_buildFieldMatchQuery hget hbuild.2]
    constructor
    · intro hin
      obtain ⟨name', hget', hmatch⟩ := hin
      rw [Schema.getField_inj hget hget']
      exact hmatch
    · intro hmatch
      exact ⟨name, hget, hmatch⟩
  have hfield : (∃ name ∈ names, FieldMatches library index config reader doc
      name terms operator fuzziness maxExpansions prefixLength)
      ↔ ∃ field ∈ fields, inField field := by
    refine exists_iff_of_forall₂ hresolved fun name _ field hget => ?_
    constructor
    · intro hmatch
      exact ⟨name, hget, hmatch⟩
    · intro hin
      obtain ⟨name', hget', hmatch⟩ := hin
      rw [Schema.getField_inj hget hget']
      exact hmatch
  rw [matches_of_fieldChildren hshould h, ← hchild, ← hfield, Meaning]
  exact exists_congr fun name => and_congr_left' (hnames name).symm

theorem preserved_multiMatch (terms : String) (columns : List String)
    (boosts : List F32) (operator : MatchOperator) (fuzziness : Option UInt8)
    (maxExpansions : UInt64) (prefixLength : UInt32) :
    Preserved library index config reader doc
      (.multiMatch terms columns boosts operator fuzziness maxExpansions
        prefixLength) := by
  intro scoring query h
  rw [buildQuery] at h
  obtain ⟨_, -, h⟩ := except_bind_eq_ok.mp h
  obtain ⟨children, hchildren, hret⟩ := except_bind_eq_ok.mp h
  cases hret
  have hbuilt := (mapM_eq_ok.mp hchildren).imp
    (fun (entry : String × Nat) child hchild => show child.1 = Occur.should
        ∧ ∃ name, Designates config (some entry.1) name
          ∧ (child.2.matches library reader doc scoring = true
            ↔ FieldMatches library index config reader doc name terms operator
              fuzziness maxExpansions prefixLength) by
      obtain ⟨field, hfield, hchild⟩ := except_bind_eq_ok.mp hchild
      obtain ⟨query, hquery, hret⟩ := except_bind_eq_ok.mp hchild
      cases hret
      obtain ⟨name, hname, -, hget⟩ := resolveTextField_eq_ok.mp hfield
      exact ⟨rfl, name, hname, matches_of_buildFieldMatchQuery hget hquery⟩)
  have hshould : ∀ child ∈ children, child.1 = .should :=
    forall_of_forall₂ hbuilt fun _ _ hchild => hchild.1
  let inColumn (column : String) : Prop := ∃ name,
    Designates config (some column) name
      ∧ FieldMatches library index config reader doc name terms operator
          fuzziness maxExpansions prefixLength
  have hcolumn : (∃ entry ∈ columns.zipIdx, inColumn entry.1)
      ↔ ∃ child ∈ children,
        child.2.matches library reader doc scoring = true := by
    refine exists_iff_of_forall₂ hbuilt fun entry _ child hentry => ?_
    obtain ⟨-, name, hname, hmatch⟩ := hentry
    rw [hmatch]
    constructor
    · intro hin
      obtain ⟨name', hname', hin⟩ := hin
      rw [designates_unique hname hname']
      exact hin
    · intro hin
      exact ⟨name, hname, hin⟩
  have hlist : (∃ entry ∈ columns.zipIdx, inColumn entry.1)
      ↔ ∃ column ∈ columns, inColumn column := by
    conv_rhs => rw [← List.zipIdx_map_fst 0 columns]
    simp only [List.mem_map, exists_exists_and_eq_and]
  rw [matches_boolean_should hshould, ← hcolumn, hlist, Meaning]

theorem preserved_matchPhrase (column : Option String) (terms : String)
    (slop : UInt32) :
    Preserved library index config reader doc
      (.matchPhrase column terms slop) := by
  intro scoring query h
  rw [buildQuery] at h
  split at h
  · cases h
  · obtain ⟨field, hfield, h⟩ := except_bind_eq_ok.mp h
    obtain ⟨name, hname, -, hget⟩ := resolveTextField_eq_ok.mp hfield
    cases hparse : library.parseQuery [field] (phraseText terms slop) with
    | error message =>
        rw [hparse] at h
        cases h
    | ok parsed =>
        rw [hparse] at h
        cases h
        rw [Meaning]
        constructor
        · intro hmatch
          exact ⟨name, hname, field, parsed, hget, hparse, hmatch⟩
        · intro hmeaning
          obtain ⟨name', hname', field', parsed', hget', hparse', hmatch⟩ :=
            hmeaning
          rw [← designates_unique hname hname', hget] at hget'
          cases hget'
          rw [hparse] at hparse'
          cases hparse'
          exact hmatch

/-- A boolean query keeps its meaning if its clauses do. -/
theorem preserved_boolean (should must mustNot : List QuerySpec)
    (queries : List (BooleanOccur × QuerySpec))
    (hclauses : ∀ clause ∈ clausesOf should must mustNot queries,
      Preserved library index config reader doc clause.2) :
    Preserved library index config reader doc
      (.boolean should must mustNot queries) := by
  intro scoring query h
  obtain ⟨children, rfl, hchildren⟩ := buildQuery_boolean_eq_ok h
  have hoccur : ∀ (clause : BooleanOccur × QuerySpec)
      (child : Occur × TantivyQuery P),
      CompilesTo library index config clause child →
      (clause.1 = .must ↔ child.1 = .must)
        ∧ (clause.1 = .mustNot ↔ child.1 = .mustNot)
        ∧ (clause.1 = .should ↔ child.1 = .should) := by
    intro clause child hchild
    rw [hchild.1]
    cases clause.1 <;> decide
  have hmeaning : ∀ clause ∈ clausesOf should must mustNot queries,
      ∀ child, CompilesTo library index config clause child →
      (Meaning library index config reader doc clause.2
        ↔ child.2.matches library reader doc scoring = true) :=
    fun clause hmem child hchild =>
      (hclauses clause hmem scoring child.2 hchild.2).symm
  rw [matches_boolean, Meaning]
  refine and_congr ?_ (and_congr ?_ (imp_congr ?_ ?_))
  · exact (forall_iff_of_forall₂ hchildren fun clause hmem child hchild =>
      imp_congr (hoccur clause child hchild).1
        (hmeaning clause hmem child hchild)).symm
  · exact (forall_iff_of_forall₂ hchildren fun clause hmem child hchild =>
      imp_congr (hoccur clause child hchild).2.1
        (not_congr (hmeaning clause hmem child hchild))).symm
  · exact (forall_iff_of_forall₂ hchildren fun clause hmem child hchild =>
      not_congr (hoccur clause child hchild).1).symm
  · rw [← exists_iff_of_forall₂ hchildren fun clause hmem child hchild =>
      and_congr (hoccur clause child hchild).2.2
        (hmeaning clause hmem child hchild)]
    simp only [exists_prop]

/-- A demotion finds what its positive part finds. -/
theorem preserved_boost (positive negative : QuerySpec) (negativeBoost : F32)
    (hpositive : Preserved library index config reader doc positive) :
    Preserved library index config reader doc
      (.boost positive negative negativeBoost) := by
  intro scoring query h
  rw [buildQuery] at h
  obtain ⟨_, -, h⟩ := except_bind_eq_ok.mp h
  obtain ⟨p, hp, h⟩ := except_bind_eq_ok.mp h
  obtain ⟨n, -, hret⟩ := except_bind_eq_ok.mp h
  cases hret
  rw [matches_demote, Meaning]
  exact hpositive scoring p hp

/-- By induction on the query, over its clauses in either spelling. -/
theorem preserved_of_trimmed (htrim : TrimmedFields config) (q : QuerySpec) :
    Preserved library index config reader doc q := by
  induction q using QuerySpec.induction with
  | hmatch => apply preserved_match htrim
  | hmulti => apply preserved_multiMatch
  | hphrase => apply preserved_matchPhrase
  | hboolean should must mustNot queries ihs ihm ihn ihq =>
      apply preserved_boolean
      rw [forall_clausesOf]
      exact ⟨ihs, ihm, ihn, ihq⟩
  | hboost positive negative negativeBoost ihp _ =>
      exact preserved_boost positive negative negativeBoost ihp

end

/-- The tree that `build_query` returns for a query, under a
configuration read from options, matches a document of a segment exactly
when the query means it, whether or not the search scores. -/
theorem buildQuery_meaning [UnicodeCase] [F32Display] {P : Type}
    (library : SearchLibrary P) (index : Index) {options : List OptionEntry}
    {config : FullTextIndexConfig}
    (hconfig : FullTextIndexConfig.fromOptions options = .ok config)
    (q : QuerySpec) {query : TantivyQuery P}
    (hquery : buildQuery index config library.toQueryLibrary q = .ok query)
    (reader : SegmentReader) (doc : DocId) (scoring : Bool) :
    query.matches library reader doc scoring = true
      ↔ Meaning library index config reader doc q :=
  preserved_of_trimmed (trimmedFields_of_fromOptions hconfig) q scoring query
    hquery

-- ------------------------------------------------- two documents, searched

/-- Tokens are the words between blanks. -/
def wordLibrary : SearchLibrary String where
  tokenTexts _ text :=
    (splitChars text [' ']).filter fun word => !word.isEmpty
  parseQuery _ text := .ok text
  buildDfa _ _ _ := ⟨0, fun _ _ => 0, fun _ => .atLeast 1⟩
  parsedMatches _ _ _ := false
  score _ _ _ := F32.one

def wordIndex : Index where
  schema := buildSchema {} default_distinctNames
  tokenizers _ := some { base := .simple, filters := [] }

/-- Document 0 is "apache paimon", document 1 is "paimon lake". -/
def wordReader : SegmentReader where
  maxDoc := 2
  invertedIndex _ :=
    { terms :=
        [⟨utf8 "apache", .single 0⟩, ⟨utf8 "lake", .single 1⟩,
          ⟨utf8 "paimon",
            ⟨[[0], [1]], by decide, by decide, by decide, fun _ => []⟩⟩]
      sorted := by decide }
  fastU64 _ := .ok fun doc => some (UInt64.ofNat doc)

/-- Both words, and no "lake" in the text field. -/
def wordQuery : QuerySpec :=
  .boolean []
    [.match none "apache paimon" .and F32.one (some 0) 50 0] []
    [(.mustNot, .match (some " text ") "lake" .or F32.one (some 0) 50 0)]

theorem wordQuery_meaning :
    Meaning wordLibrary wordIndex {} wordReader 0 wordQuery
      ∧ ¬ Meaning wordLibrary wordIndex {} wordReader 1 wordQuery := by
  have hiff := @buildQuery_meaning asciiCase ⟨fun _ => ""⟩ _ wordLibrary
    wordIndex [] {} rfl wordQuery
    (.boolean
      [(.must, .boolean [(.must, .term ⟨1, "apache"⟩ .withFreqs),
          (.must, .term ⟨1, "paimon"⟩ .withFreqs)]),
        (.mustNot, .term ⟨1, "lake"⟩ .withFreqs)]) rfl wordReader
  refine ⟨(hiff 0 true).mp (by decide), ?_⟩
  intro h
  exact absurd ((hiff 1 true).mpr h) (by decide)

end PaimonFtindex.Proofs

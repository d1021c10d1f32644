/-
The life cycle of an index writer, over every sequence of its calls.

A writer's count, the documents Tantivy has taken and the finalized
state are separate pieces of state. `InStep` says how they belong
together after a run: the count is the number of adds that returned
`Ok`, and Tantivy holds exactly their documents, in order. Each
operation's step lemma says all it can do (`addDocumentFields_cases`,
`write_cases`), so the run lemma `inStep_runCalls` is one induction on
the calls. Finalization is the other invariant: once the state is taken
nothing brings it back, and without it no operation gets past its first
check.
-/
import PaimonFtindex.Model.Weight
import PaimonFtindex.Proofs.Envelope

namespace PaimonFtindex.Proofs

open Model Lib

-- ============================================================== the calls

/-- One call on a writer, with the answers it meets. -/
inductive Call where
  | addDocument (answer : Except TantivyError Unit) (rowId : Int64)
      (text : String)
  | addDocumentFields (answer : Except TantivyError Unit) (rowId : Int64)
      (fields : List (String × String))
  | write (env : WriteEnv) (output : Output)

def Call.isAdd : Call → Bool
  | .addDocument .. => true
  | .addDocumentFields .. => true
  | .write .. => false

def Call.exec (call : Call) (session : IndexSession) :
    Result Unit × IndexSession :=
  match call with
  | .addDocument answer rowId text => session.addDocument answer rowId text
  | .addDocumentFields answer rowId fields =>
      session.addDocumentFields answer rowId fields
  | .write env output =>
      let (result, session, _) := session.write env output
      (result, session)

def runCalls (session : IndexSession) (calls : List Call) : IndexSession :=
  calls.foldl (fun session call => (call.exec session).2) session

/-- A row as a caller adds it: its id and its field texts. -/
abbrev Row := Int64 × List (String × String)

/-- The row an add is called with. -/
def Call.row (call : Call) (session : IndexSession) : Option Row :=
  match call with
  | .addDocument _ rowId text =>
      some (rowId, [(session.writer.config.defaultTextField, text)])
  | .addDocumentFields _ rowId fields => some (rowId, fields)
  | .write .. => none

/-- The row of a call that returned `Ok`. -/
def Call.added (call : Call) (session : IndexSession) : List Row :=
  match (call.exec session).1 with
  | .ok () => (call.row session).toList
  | .error _ => []

/-- The rows of the adds of a run that returned `Ok`, in order. -/
def okAdds (session : IndexSession) : List Call → List Row
  | [] => []
  | call :: calls =>
      call.added session ++ okAdds (call.exec session).2 calls

/-- `doc` is the document of `row`: the row id first, then its fields in
their order. -/
def Carries (schema : Schema) (config : FullTextIndexConfig) (row : Row)
    (doc : TantivyDocument) : Prop :=
  ∃ rowIdField rowId values, doc = (rowIdField, .u64 rowId) :: values
    ∧ schema.getField config.rowIdField = some rowIdField
    ∧ (rowId.toNat : Int) = row.1.toInt
    ∧ List.Forall₂ (fun field value =>
        schema.getField field.1 = some value.1 ∧ value.2 = .text field.2)
      row.2 values

/-- The call fails, and a write sends nothing to its output. -/
def Refused (call : Call) (session : IndexSession) : Prop :=
  (∃ e, (call.exec session).1 = .error e)
    ∧ ∀ env output, call = .write env output →
      (session.write env output).2.2 = output

-- ======================================================= what a call does

/-- What `add_document_fields` hands to Tantivy when it gets that far. -/
theorem prepare_ok {writer : FullTextIndexWriter} {rowId : Int64}
    {fields : List (String × String)} {next : UInt64} {doc : TantivyDocument}
    (h : writer.prepare rowId fields = .ok (next, doc)) :
    ¬ rowId < 0 ∧ writer.state.isSome
      ∧ next.toNat = writer.documentCount.toNat + 1
      ∧ ∃ texts, writer.textValues fields = .ok texts
        ∧ doc = (writer.rowIdField, .u64 rowId.toUInt64) :: texts := by
  unfold FullTextIndexWriter.prepare at h
  by_cases hneg : rowId < 0
  · simp only [hneg, if_true, except_bind_eq_ok] at h
    obtain ⟨_, hthrow, -⟩ := h
    cases hthrow
  · cases hstate : writer.state with
    | none =>
        simp only [hneg, hstate, Option.isNone_none, if_true, if_false,
          except_bind_eq_ok] at h
        obtain ⟨_, hthrow, -⟩ := h
        cases hthrow
    | some state =>
        cases hcount : checkedAdd writer.documentCount 1 with
        | none =>
            rw [hcount] at h
            simp only [hneg, hstate, Option.isNone_some, Bool.false_eq_true,
              if_false] at h
            cases h
        | some next' =>
            rw [hcount] at h
            simp only [hneg, hstate, Option.isNone_some, Bool.false_eq_true,
              if_false, pure_bind, except_bind_eq_ok] at h
            obtain ⟨texts, htexts, h⟩ := h
            split at h
            · simp only [except_bind_eq_ok] at h
              obtain ⟨_, hthrow, -⟩ := h
              cases hthrow
            · cases h
              exact ⟨hneg, rfl, checkedAdd_eq_some.mp hcount, texts, htexts, rfl⟩

/-- The text values follow the fields, each under its schema field. -/
theorem textValues_ok {writer : FullTextIndexWriter} {schema : Schema}
    (hfields : textFieldMap schema writer.config = .ok writer.textFields)
    {fields : List (String × String)} {texts : TantivyDocument}
    (h : writer.textValues fields = .ok texts) :
    List.Forall₂ (fun field value =>
      schema.getField field.1 = some value.1 ∧ value.2 = .text field.2)
      fields texts := by
  induction fields generalizing texts with
  | nil =>
      cases h
      exact List.Forall₂.nil
  | cons field fields ih =>
      obtain ⟨name, text⟩ := field
      unfold FullTextIndexWriter.textValues at h
      cases hlookup : writer.textFields.lookup name with
      | none =>
          rw [hlookup] at h
          simp only [except_bind_eq_ok] at h
          obtain ⟨_, -, _, hthrow, -⟩ := h
          cases hthrow
      | some textField =>
          rw [hlookup] at h
          simp only [pure_bind, except_bind_eq_ok] at h
          obtain ⟨_, -, rest, hrest, h⟩ := h
          cases h
          exact List.Forall₂.cons
            ⟨getField_of_lookup hfields hlookup, rfl⟩ (ih hrest)

/-- An add either fails and changes nothing, or counts one more document
and hands it to Tantivy. -/
theorem addDocumentFields_cases (session : IndexSession)
    (answer : Except TantivyError Unit) (rowId : Int64)
    (fields : List (String × String)) :
    (∃ e, session.addDocumentFields answer rowId fields = (.error e, session))
      ∨ ∃ next doc, session.writer.prepare rowId fields = .ok (next, doc)
        ∧ session.addDocumentFields answer rowId fields
          = (.ok (),
              { writer := { session.writer with documentCount := next }
                documents := session.documents ++ [doc] }) := by
  unfold IndexSession.addDocumentFields
  cases hprepare : session.writer.prepare rowId fields with
  | error e => exact Or.inl ⟨e, rfl⟩
  | ok prepared =>
      obtain ⟨next, doc⟩ := prepared
      cases answer with
      | error e => exact Or.inl ⟨.tantivy e, rfl⟩
      | ok u => exact Or.inr ⟨next, doc, rfl, rfl⟩

/-- A write of a finalized writer is refused; any other one takes the
state, whatever comes of it. -/
theorem write_cases (session : IndexSession) (env : WriteEnv)
    (output : Output) :
    (session.writer.state = none
        ∧ (∃ e, session.write env output = (.error e, session, output)))
      ∨ ∃ state, session.writer.state = some state
        ∧ (session.write env output).2.1
            = { session with writer := { session.writer with state := none } }
        ∧ ∀ output',
            (session.write env output).1 = .ok () →
            (session.write env output).2.2 = output' →
            ({ session.writer with state := none } : FullTextIndexWriter).finish
              env state output = .ok () output' := by
  unfold IndexSession.write
  cases hstate : session.writer.state with
  | none => exact Or.inl ⟨rfl, _, rfl⟩
  | some state =>
      refine Or.inr ⟨state, rfl, ?_⟩
      dsimp only
      cases hfinish : ({ session.writer with state := none } :
          FullTextIndexWriter).finish env state output with
      | error e output₁ =>
          refine ⟨rfl, fun output' hok _ => ?_⟩
          cases hok
      | ok u output₁ =>
          refine ⟨rfl, fun output' _ hout => ?_⟩
          dsimp only at hout
          rw [hout]

/-- A failing add leaves the session as it was. -/
theorem exec_add_error {call : Call} {session : IndexSession}
    (hadd : call.isAdd = true) {e : FtIndexError}
    (h : (call.exec session).1 = .error e) :
    (call.exec session).2 = session := by
  have hfields : ∀ answer rowId fields,
      (session.addDocumentFields answer rowId fields).1 = .error e →
      (session.addDocumentFields answer rowId fields).2 = session := by
    intro answer rowId fields h
    rcases addDocumentFields_cases session answer rowId fields with
      ⟨e', heq⟩ | ⟨next, doc, -, heq⟩
    · rw [heq]
    · rw [heq] at h
      cases h
  cases call with
  | addDocument answer rowId text => exact hfields answer rowId _ h
  | addDocumentFields answer rowId fields => exact hfields answer rowId fields h
  | write env output => cases hadd

-- ========================================================== the invariant

/-- The writer, Tantivy and the rows added so far belong together. -/
structure InStep (schema : Schema) (config : FullTextIndexConfig)
    (session : IndexSession) (rows : List Row) : Prop where
  config_eq : session.writer.config = config
  rowIdField_eq :
    schema.getField config.rowIdField = some session.writer.rowIdField
  textFields_eq : textFieldMap schema config = .ok session.writer.textFields
  count_eq : session.writer.documentCount.toNat = rows.length
  documents_eq : List.Forall₂ (Carries schema config) rows session.documents

variable {schema : Schema} {config : FullTextIndexConfig}
  {session : IndexSession} {rows : List Row}

/-- A writer that has just been created is in step with no rows. -/
theorem inStep_new [UnicodeCase] {env : CreateEnv}
    {writer : FullTextIndexWriter}
    (h : FullTextIndexWriter.new env config = .ok writer) :
    ∃ hnames : config.DistinctNames,
      InStep (buildSchema config hnames) config ⟨writer, []⟩ [] := by
  unfold FullTextIndexWriter.new at h
  split at h
  · cases h
  · rename_i hvalid
    refine ⟨nodup_of_validate hvalid, ?_⟩
    cases hrow : (buildSchema config (nodup_of_validate hvalid)).getField
        config.rowIdField with
    | none =>
        simp only [hrow, except_bind_eq_ok] at h
        obtain ⟨_, -, _, -, _, -, _, hthrow, -⟩ := h
        cases hthrow
    | some rowIdField =>
        simp only [hrow, pure_bind, except_bind_eq_ok] at h
        obtain ⟨tempDir, -, _, -, _, -, textFields, htext, _, -, h⟩ := h
        cases h
        exact ⟨rfl, hrow, htext, rfl, List.Forall₂.nil⟩

/-- A non-negative `i64` cast to `u64` keeps its value. -/
theorem toUInt64_toNat_of_not_neg {rowId : Int64} (h : ¬ rowId < 0) :
    (rowId.toUInt64.toNat : Int) = rowId.toInt := by
  have hle : 0 ≤ rowId := Int64.not_lt.mp h
  rw [Int64.toNat_toUInt64_of_le hle, Int64.cast_toNatClampNeg rowId hle]

/-- An add that returned `Ok` keeps the session in step. -/
theorem InStep.addDocumentFields (hin : InStep schema config session rows)
    {rowId : Int64} {fields : List (String × String)} {next : UInt64}
    {doc : TantivyDocument}
    (h : session.writer.prepare rowId fields = .ok (next, doc)) :
    InStep schema config
      { writer := { session.writer with documentCount := next }
        documents := session.documents ++ [doc] }
      (rows ++ [(rowId, fields)]) := by
  obtain ⟨hneg, -, hnext, texts, htexts, rfl⟩ := prepare_ok h
  have hmap : textFieldMap schema session.writer.config
      = .ok session.writer.textFields := by
    rw [hin.config_eq]
    exact hin.textFields_eq
  have hdoc : Carries schema config (rowId, fields)
      ((session.writer.rowIdField, .u64 rowId.toUInt64) :: texts) :=
    ⟨_, _, texts, rfl, hin.rowIdField_eq, toUInt64_toNat_of_not_neg hneg,
      textValues_ok hmap htexts⟩
  refine ⟨hin.config_eq, hin.rowIdField_eq, hin.textFields_eq, ?_, ?_⟩
  · rw [List.length_append, ← hin.count_eq]
    exact hnext
  · exact List.rel_append hin.documents_eq
      (List.Forall₂.cons hdoc List.Forall₂.nil)

/-- Every call keeps the session in step, with the row it added. -/
theorem InStep.exec (hin : InStep schema config session rows) (call : Call) :
    InStep schema config (call.exec session).2 (rows ++ call.added session) := by
  have hfields : ∀ answer rowId fields,
      InStep schema config
        (session.addDocumentFields answer rowId fields).2
        (rows ++ match (session.addDocumentFields answer rowId fields).1 with
          | .ok () => [(rowId, fields)]
          | .error _ => []) := by
    intro answer rowId fields
    rcases addDocumentFields_cases session answer rowId fields with
      ⟨e, heq⟩ | ⟨next, doc, hprepare, heq⟩
    · rw [heq]
      simpa using hin
    · rw [heq]
      exact hin.addDocumentFields hprepare
  cases call with
  | addDocument answer rowId text =>
      exact hfields answer rowId [(session.writer.config.defaultTextField, text)]
  | addDocumentFields answer rowId fields => exact hfields answer rowId fields
  | write env output =>
      have hadded : (Call.write env output).added session = [] := by
        unfold Call.added
        split <;> rfl
      rw [hadded, List.append_nil]
      rcases write_cases session env output with
        ⟨-, e, heq⟩ | ⟨state, -, heq, -⟩
      · show InStep schema config (session.write env output).2.1 rows
        rw [heq]
        exact hin
      · show InStep schema config (session.write env output).2.1 rows
        rw [heq]
        exact ⟨hin.config_eq, hin.rowIdField_eq, hin.textFields_eq,
          hin.count_eq, hin.documents_eq⟩

/-- So does every run. -/
theorem inStep_runCalls (hin : InStep schema config session rows)
    (calls : List Call) :
    InStep schema config (runCalls session calls)
      (rows ++ okAdds session calls) := by
  induction calls generalizing session rows with
  | nil => simpa [okAdds, runCalls] using hin
  | cons call calls ih =>
      have hstep := ih (hin.exec call)
      rw [List.append_assoc] at hstep
      exact hstep

-- ============================================================ finalization

/-- A finalized writer refuses every call. -/
theorem refused_of_finalized (h : session.writer.state = none) (call : Call) :
    Refused call session := by
  have hfields : ∀ answer rowId fields,
      ∃ e, (session.addDocumentFields answer rowId fields).1 = .error e := by
    intro answer rowId fields
    rcases addDocumentFields_cases session answer rowId fields with
      ⟨e, heq⟩ | ⟨next, doc, hprepare, -⟩
    · exact ⟨e, by rw [heq]⟩
    · have hsome := (prepare_ok hprepare).2.1
      rw [h] at hsome
      cases hsome
  cases call with
  | addDocument answer rowId text =>
      exact ⟨hfields answer rowId _, fun _ _ heq => by cases heq⟩
  | addDocumentFields answer rowId fields =>
      exact ⟨hfields answer rowId fields, fun _ _ heq => by cases heq⟩
  | write env output =>
      rcases write_cases session env output with
        ⟨-, e, heq⟩ | ⟨state, hsome, -⟩
      · refine ⟨⟨e, ?_⟩, ?_⟩
        · show (session.write env output).1 = .error e
          rw [heq]
        · intro env' output' hcall
          cases hcall
          rw [heq]
      · rw [h] at hsome
        cases hsome

/-- No call brings the state back. -/
theorem exec_finalized (h : session.writer.state = none) (call : Call) :
    (call.exec session).2.writer.state = none := by
  obtain ⟨⟨e, he⟩, -⟩ := refused_of_finalized h call
  cases call with
  | addDocument answer rowId text =>
      rw [exec_add_error rfl he]
      exact h
  | addDocumentFields answer rowId fields =>
      rw [exec_add_error rfl he]
      exact h
  | write env output =>
      rcases write_cases session env output with
        ⟨-, e', heq⟩ | ⟨state, hsome, -⟩
      · show (session.write env output).2.1.writer.state = none
        rw [heq]
        exact h
      · rw [h] at hsome
        cases hsome

/-- A write finalizes, whatever it returned. -/
theorem exec_write_finalizes (session : IndexSession) (env : WriteEnv)
    (output : Output) :
    ((Call.write env output).exec session).2.writer.state = none := by
  show (session.write env output).2.1.writer.state = none
  rcases write_cases session env output with
    ⟨hnone, e, heq⟩ | ⟨state, -, heq, -⟩
  · rw [heq]
    exact hnone
  · rw [heq]

theorem runCalls_finalized (h : session.writer.state = none)
    (calls : List Call) : (runCalls session calls).writer.state = none := by
  induction calls generalizing session with
  | nil => exact h
  | cons call calls ih => exact ih (exec_finalized h call)

/-- After a run with a write in it the writer is finalized. -/
theorem finalized_of_write_mem {calls : List Call} {env : WriteEnv}
    {output : Output} (h : Call.write env output ∈ calls) :
    (runCalls session calls).writer.state = none := by
  induction calls generalizing session with
  | nil => cases h
  | cons call calls ih =>
      rcases List.mem_cons.mp h with rfl | h
      · exact runCalls_finalized (exec_write_finalizes session env output) calls
      · exact ih h

-- =============================================================== the header

/-- A successful write starts with an envelope whose header carries the
writer's count. -/
theorem header_of_write {env : WriteEnv} {output output' : Output}
    (hok : (session.write env output).1 = .ok ())
    (hout : (session.write env output).2.2 = output') :
    ∃ header json body, env.serde.toVec header = .ok json
      ∧ header.metadata.documentCount = session.writer.documentCount
      ∧ output'.bytes
          = output.bytes ++ (envelopePrefix json ++ json ++ body) := by
  rcases write_cases session env output with
    ⟨-, e, heq⟩ | ⟨state, -, -, hfinish⟩
  · rw [heq] at hok
    cases hok
  · have hrun := hfinish output' hok hout
    unfold FullTextIndexWriter.finish at hrun
    simp only [estate_bind_eq_ok] at hrun
    obtain ⟨_, o₁, h₁, _, o₂, h₂, files, o₃, h₃, entries, o₄, h₄, h₅⟩ := hrun
    obtain ⟨-, rfl⟩ := passed_of_ofResult h₁
    obtain ⟨-, rfl⟩ := passed_of_ofResult h₂
    obtain ⟨-, rfl⟩ := passed_of_ofResult h₃
    obtain ⟨-, rfl⟩ := passed_of_ofResult h₄
    obtain ⟨json, bodies, hjson, -, -, -, hbytes⟩ := bytes_of_writeEnvelope h₅
    exact ⟨_, json, bodies.flatten, hjson, rfl, hbytes⟩

/-- The life cycle of a writer. After any run of calls: a failing add
changes nothing; the count is the number of adds that returned `Ok`, and
Tantivy holds exactly their documents in their order; once a write has
been called every call is refused; and a write that returns `Ok` puts
the number of those adds in the header. -/
theorem writer_lifeCycle [UnicodeCase] {env : CreateEnv}
    {config : FullTextIndexConfig} {writer : FullTextIndexWriter}
    (hnew : FullTextIndexWriter.new env config = .ok writer)
    (calls : List Call) :
    let rows := okAdds ⟨writer, []⟩ calls
    let session := runCalls ⟨writer, []⟩ calls
    (∀ (call : Call) e, call.isAdd = true → (call.exec session).1 = .error e →
        (call.exec session).2 = session)
      ∧ (session.writer.documentCount.toNat = rows.length
        ∧ ∃ hnames : config.DistinctNames,
          List.Forall₂ (Carries (buildSchema config hnames) config) rows
            session.documents)
      ∧ ((∃ env output, Call.write env output ∈ calls) →
          ∀ call, Refused call session)
      ∧ (∀ env output,
          (session.write env output).1 = .ok () →
          ∃ header json body, env.serde.toVec header = .ok json
            ∧ header.metadata.documentCount.toNat = rows.length
            ∧ (session.write env output).2.2.bytes
                = output.bytes ++ (envelopePrefix json ++ json ++ body)) := by
  intro rows session
  obtain ⟨hnames, hstart⟩ := inStep_new hnew
  have hin : InStep (buildSchema config hnames) config session rows := by
    have := inStep_runCalls hstart calls
    rwa [List.nil_append] at this
  refine ⟨?_, ⟨hin.count_eq, hnames, hin.documents_eq⟩, ?_, ?_⟩
  · intro call e hadd he
    exact exec_add_error hadd he
  · intro h call
    obtain ⟨env, output, hmem⟩ := h
    exact refused_of_finalized (finalized_of_write_mem hmem) call
  · intro env output hok
    obtain ⟨header, json, body, hjson, hcount, hbytes⟩ := header_of_write hok rfl
    refine ⟨header, json, body, hjson, ?_, hbytes⟩
    rw [hcount, hin.count_eq]

/-- A writer of the default configuration, in the directory `t`. -/
def defaultWriter : FullTextIndexWriter where
  config := {}
  state := some { tempDir := [0x74] }
  rowIdField := 0
  textFields := [("text", 1)]
  documentCount := 0

/-- Everything outside answers well, and there are no files. -/
def quietCreate : CreateEnv where
  tempDir := .ok [0x74]
  createInDir := .ok ()
  library := {
    ngramNew := fun _ _ _ => .ok ()
    stopWordFilterNew := fun _ => some ["the"] }
  indexWriter := .ok ()

/-- The golden files in the directory `t`, and a lock. -/
def goldenDisk : Disk where
  readDir _ := .ok [.ok ⟨utf8 ".tantivy-writer.lock", .ok true⟩,
    .ok ⟨utf8 "meta.json", .ok true⟩, .ok ⟨utf8 "segment.idx", .ok true⟩]
  metadata path :=
    if path = joinPath [0x74] (utf8 "meta.json") then .ok 2 else .ok 4
  file path :=
    if path = joinPath [0x74] (utf8 "meta.json") then .ok [0x61, 0x62]
    else .ok [0x63, 0x64, 0x65, 0x66]

def goldenEnv : WriteEnv where
  commit := .ok ()
  waitMergingThreads := .ok ()
  disk := goldenDisk
  tantivyVersion := "0.26.0"
  serde := goldenSerde

def leftFiles : List IndexFile :=
  [⟨"meta.json", joinPath [0x74] (utf8 "meta.json"), 2⟩,
    ⟨"segment.idx", joinPath [0x74] (utf8 "segment.idx"), 4⟩]

theorem golden_collectIndexFiles :
    collectIndexFiles goldenDisk [0x74] = .ok leftFiles := by
  have hsorted : ([utf8 ".tantivy-writer.lock", utf8 "meta.json",
      utf8 "segment.idx"].mergeSort fun a b => decide (a ≤ b))
      = [utf8 ".tantivy-writer.lock", utf8 "meta.json",
        utf8 "segment.idx"] := by
    apply List.mergeSort_of_pairwise
    decide +kernel
  unfold collectIndexFiles
  simp only [except_bind_eq_ok, liftError_eq_ok]
  refine ⟨_, rfl, [utf8 ".tantivy-writer.lock", utf8 "meta.json",
    utf8 "segment.idx"], rfl, ?_⟩
  rw [hsorted]
  decide +kernel

/-- A write that finishes returns. -/
theorem write_of_finish {session : IndexSession} {env : WriteEnv}
    {output output' : Output} {state : FullTextIndexWriterState}
    (hstate : session.writer.state = some state)
    (h : FullTextIndexWriter.finish { session.writer with state := none } env
      state output = .ok () output') :
    ∃ session', session.write env output = (.ok (), session', output') := by
  unfold IndexSession.write
  rw [hstate]
  dsimp only
  rw [h]
  exact ⟨_, rfl⟩

/-- A writer that was given two documents. -/
def goldenWriter : FullTextIndexWriter where
  config := {}
  state := some ⟨[0x74]⟩
  rowIdField := 0
  textFields := [("text", 1)]
  documentCount := 2

/-- It writes the golden archive. -/
theorem goldenWriter_write (documents : List TantivyDocument) :
    ∃ session output,
      IndexSession.write ⟨goldenWriter, documents⟩ goldenEnv {}
          = (.ok (), session, output)
        ∧ output.bytes = goldenData := by
  have hstreamed : wroteBytes goldenData
      (writeEnvelopeFromPaths goldenSerde goldenDisk.file goldenHeader
        (leftFiles.map IndexFile.path) {}) = true := by
    decide +kernel
  obtain ⟨output, houtput, hbytes⟩ := exists_of_wroteBytes hstreamed
  have hentries : archiveEntries 0 leftFiles = .ok goldenHeader.files := by
    decide +kernel
  have hfinish : FullTextIndexWriter.finish { goldenWriter with state := none }
      goldenEnv ⟨[0x74]⟩ {} = .ok () output := by
    unfold FullTextIndexWriter.finish
    simp only [estate_bind_eq_ok]
    refine ⟨(), {}, rfl, (), {}, rfl, leftFiles, {}, ?_,
      goldenHeader.files, {}, ?_, houtput⟩
    · show WriteM.ofResult (collectIndexFiles goldenDisk [0x74]) _ = _
      rw [golden_collectIndexFiles]
      rfl
    · rw [hentries]
      rfl
  obtain ⟨session, hwrite⟩ :=
    @write_of_finish ⟨goldenWriter, documents⟩ _ _ _ _ rfl hfinish
  exact ⟨session, output, hwrite, hbytes⟩

/-- A bad field behind a good one, a good row, a row Tantivy refuses and
another good one. -/
def shortLife : List Call :=
  [.addDocumentFields (.ok ()) 6 [("text", "a"), ("title", "b")],
    .addDocument (.ok ()) 7 "c",
    .addDocument (.error ⟨"disk full"⟩) 8 "d",
    .addDocument (.ok ()) 9 "e"]

/-- Two rows are counted and held, a write returns with them in its header,
and then nothing is taken. -/
theorem writer_lifeCycle_two_rows :
    let session := runCalls ⟨defaultWriter, []⟩ shortLife
    let written := session.write goldenEnv {}
    session.writer.documentCount.toNat = 2
      ∧ session.documents = [[(0, .u64 7), (1, .text "c")],
        [(0, .u64 9), (1, .text "e")]]
      ∧ written.1 = .ok ()
      ∧ (∃ header json body, goldenSerde.toVec header = .ok json
        ∧ header.metadata.documentCount.toNat = 2
        ∧ written.2.2.bytes = envelopePrefix json ++ json ++ body)
      ∧ ∀ call, Refused call
        (runCalls ⟨defaultWriter, []⟩ (shortLife ++ [.write goldenEnv {}])) := by
  intro session written
  have hnew : @FullTextIndexWriter.new asciiCase quietCreate {}
      = .ok defaultWriter := by decide +kernel
  have hrows : (okAdds ⟨defaultWriter, []⟩ shortLife).length = 2 := by
    decide +kernel
  obtain ⟨-, hheld, -, hheader⟩ :=
    @writer_lifeCycle asciiCase quietCreate {} defaultWriter hnew shortLife
  obtain ⟨-, -, hend, -⟩ :=
    @writer_lifeCycle asciiCase quietCreate {} defaultWriter hnew
      (shortLife ++ [.write goldenEnv {}])
  have hok : written.1 = .ok () := by
    obtain ⟨session', output, hwrite, -⟩ :=
      goldenWriter_write session.documents
    exact congrArg Prod.fst hwrite
  rw [hrows] at hheld hheader
  exact ⟨hheld.1, by decide +kernel, hok, hheader goldenEnv {} hok,
    hend ⟨goldenEnv, {}, by simp⟩⟩

end PaimonFtindex.Proofs

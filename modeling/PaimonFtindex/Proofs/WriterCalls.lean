/-
The life of a writer behind the Python binding.

A Python writer holds a native one. Some of its calls never reach it:
those after `close`, those with arguments the binding refuses, those
whose strings do not encode. Every other call is one call of the Rust
writer's, on the strings as they cross, and returns or raises as that one
does (`pyDelegation`). So a run through the binding is a run of the Rust
writer, and what is known of those holds behind the binding in its own
terms (`pyWriter_lifeCycle`): an add that raises has added nothing, the
documents are those of the adds that returned, and nothing is taken after
a write or a close.
-/
import PaimonFtindex.Lib.Delegation
import PaimonFtindex.Model.WriterCalls
import PaimonFtindex.Proofs.CStrings
import PaimonFtindex.Proofs.WriterLifeCycle

namespace PaimonFtindex.Proofs

open Model Lib

-- ======================================================== the Rust writer

/-- The runs of the Rust writer as calls on a machine. -/
theorem runCalls_eq (session : IndexSession) (calls : List Call) :
    callAll Call.exec session calls = runCalls session calls := rfl

theorem gather_added (session : IndexSession) (calls : List Call) :
    gather Call.exec Call.added session calls = okAdds session calls := by
  induction calls generalizing session with
  | nil => rfl
  | cons call calls ih =>
      rw [gather, okAdds, ih]

section
variable {C W R : Type} {exec : C → W → R × W}

/-- What a wrapper over the Rust writer comes to: its documents are those
of the rows that its calls added. -/
theorem inStep_of_delegation [UnicodeCase] (d : Delegation exec Call.exec)
    {added : C → W → List Row}
    (hadded : ∀ call w, added call w
      = gather Call.exec Call.added (d.core w) (d.ask call w).toList)
    {env : CreateEnv} {config : FullTextIndexConfig}
    {writer : FullTextIndexWriter}
    (hnew : FullTextIndexWriter.new env config = .ok writer) {w : W}
    (hcore : d.core w = ⟨writer, []⟩) (calls : List C) :
    ∃ hnames : config.DistinctNames,
      InStep (buildSchema config hnames) config (d.core (callAll exec w calls))
        (gather exec added w calls) := by
  obtain ⟨hnames, hstart⟩ := inStep_new hnew
  have hin := inStep_runCalls hstart (d.asks w calls)
  rw [List.nil_append] at hin
  refine ⟨hnames, ?_⟩
  rw [Delegation.core_callAll, Delegation.gather_asks hadded, hcore, runCalls_eq,
    gather_added]
  exact hin

end

-- ================================================================ options

/-- The options a map holds after these insertions. -/
def optionsOf (entries : List (String × String)) : List OptionEntry :=
  entries.foldl (fun options entry => insertOption options entry.1 entry.2) []

-- ============================================================ Python calls

/-- One call on a Python writer. -/
inductive PyCall where
  | addDocument (answer : Except TantivyError Unit) (rowId : Int) (text : PyText)
      (column : Option PyStr)
  | addDocumentFields (answer : Except TantivyError Unit) (rowId : Int)
      (items : List (PyStr × PyStr))
  | write (env : WriteEnv) (output : Output)
  | close

/-- One call: how it ends, and the writer then. -/
def PyCall.exec (call : PyCall) (py : PyWriter) : Except PyError Unit × PyWriter :=
  match call with
  | .addDocument answer rowId text column =>
      py.addDocument answer rowId text column
  | .addDocumentFields answer rowId items =>
      py.addDocumentFields answer rowId items
  | .write env output =>
      let (result, py, _) := py.write env output
      (result, py)
  | .close => (.ok (), py.close)

/-- A string as it crosses. -/
def crossed (s : PyStr) : String := cutText (rustStr s)

/-- A field as it crosses. -/
def crossedField (item : PyStr × PyStr) : String × String :=
  (crossed item.1, crossed item.2)

/-- The row an add is called with, as it crosses. -/
def PyCall.row (call : PyCall) (py : PyWriter) : Option Row :=
  match call with
  | .addDocument _ rowId (.str text) none =>
      some (Int64.ofInt rowId,
        [(py.session.writer.config.defaultTextField, crossed text)])
  | .addDocument _ rowId (.str text) (some column) =>
      some (Int64.ofInt rowId, [crossedField (column, text)])
  | .addDocument _ rowId (.dict items) _ =>
      some (Int64.ofInt rowId, items.map crossedField)
  | .addDocumentFields _ rowId items =>
      some (Int64.ofInt rowId, items.map crossedField)
  | .write .. => none
  | .close => none

def PyCall.isAdd : PyCall → Bool
  | .addDocument .. => true
  | .addDocumentFields .. => true
  | .write .. => false
  | .close => false

/-- The row of a call that returned. -/
def PyCall.added (call : PyCall) (py : PyWriter) : List Row :=
  match (call.exec py).1 with
  | .ok () => (call.row py).toList
  | .error _ => []

/-- The call behind `add_document_fields`: there is one when there are
fields and all of them encode. -/
def askFields (answer : Except TantivyError Unit) (rowId : Int)
    (items : List (PyStr × PyStr)) : Option Call :=
  if items.isEmpty then none
  else match encodeItems items with
    | .ok _ =>
        some (.addDocumentFields answer (Int64.ofInt rowId)
          (items.map crossedField))
    | .error _ => none

/-- The call of the Rust writer's that a call comes down to. -/
def PyCall.ask (call : PyCall) (py : PyWriter) : Option Call :=
  if py.closed then none
  else match call with
    | .addDocument answer rowId (.str text) none =>
        match encodeUtf8 text with
        | .ok _ => some (.addDocument answer (Int64.ofInt rowId) (crossed text))
        | .error _ => none
    | .addDocument answer rowId (.str text) (some column) =>
        askFields answer rowId [(column, text)]
    | .addDocument answer rowId (.dict items) none =>
        askFields answer rowId items
    | .addDocument _ _ (.dict _) (some _) => none
    | .addDocumentFields answer rowId items => askFields answer rowId items
    | .write env output => some (.write env output)
    | .close => none

/-- What a call raises when the Rust writer fails. -/
def pyOutcome : Result Unit → Except PyError Unit
  | .ok () => .ok ()
  | .error e => .error (.native (.core e))

theorem pyOutcome_eq_ok {r : Result Unit} :
    pyOutcome r = .ok () ↔ r = .ok () := by
  cases r <;> simp [pyOutcome]

/-- A string of Rust's crosses up to its first U+0000. -/
theorem crossed_pyStr (s : String) : crossed (pyStr s) = cutText s := by
  unfold crossed
  rw [rustStr_pyStr]

theorem map_crossedField_pyItem (fields : List (String × String)) :
    (fields.map pyItem).map crossedField = fields.map cutField := by
  rw [List.map_map]
  apply List.map_congr_left
  intro field _
  show (crossed (pyStr field.1), crossed (pyStr field.2)) = cutField field
  rw [crossed_pyStr, crossed_pyStr]
  rfl

section
variable {py : PyWriter} {answer : Except TantivyError Unit} {rowId : Int}

/-- What `add_document_fields` does on an open writer: it comes down to
the core's call, or raises and leaves the writer as it is. -/
theorem py_addDocumentFields_cases (hopen : py.closed = false)
    (items : List (PyStr × PyStr)) :
    (askFields answer rowId items = none
        ∧ ∃ e, py.addDocumentFields answer rowId items = (.error e, py))
      ∨ ∃ k, askFields answer rowId items = some k
        ∧ py.addDocumentFields answer rowId items
          = (pyOutcome (k.exec py.session).1,
            { py with session := (k.exec py.session).2 }) := by
  unfold PyWriter.addDocumentFields askFields
  rw [hopen]
  rcases encodeItems_cases items with ⟨fields, rfl⟩ | ⟨hsurrogate, herror⟩
  · by_cases hne : fields = []
    · left
      rw [hne]
      exact ⟨rfl, _, rfl⟩
    · right
      have hsome : ¬ (fields.map pyItem).isEmpty = true := by simpa using hne
      rw [if_neg hsome, if_neg hsome, encodeItems_pyItem]
      refine ⟨_, rfl, ?_⟩
      unfold writerAddDocumentFields
      dsimp only
      rw [fieldsFromRaw_textBytes hne, map_crossedField_pyItem]
      unfold Call.exec
      dsimp only
      rcases py.session.addDocumentFields answer (Int64.ofInt rowId)
        (fields.map cutField) with ⟨e | _, session⟩
      · rfl
      · rfl
  · left
    rw [herror]
    cases items with
    | nil => exact ⟨rfl, _, rfl⟩
    | cons item items => exact ⟨rfl, _, rfl⟩

/-- An add on an open writer asks the Rust writer, or raises before. -/
theorem py_addDocument_cases (hopen : py.closed = false) (text : PyText)
    (column : Option PyStr) :
    ((PyCall.addDocument answer rowId text column).ask py = none
        ∧ ∃ e, py.addDocument answer rowId text column = (.error e, py))
      ∨ ∃ k, (PyCall.addDocument answer rowId text column).ask py = some k
        ∧ py.addDocument answer rowId text column
          = (pyOutcome (k.exec py.session).1,
            { py with session := (k.exec py.session).2 }) := by
  obtain ⟨closed, session⟩ := py
  cases hopen
  cases text with
  | dict items =>
      cases column with
      | none => exact py_addDocumentFields_cases rfl items
      | some column => exact .inl ⟨rfl, _, rfl⟩
  | str text =>
      unfold PyWriter.addDocument PyCall.ask
      cases column with
      | some column => exact py_addDocumentFields_cases rfl [(column, text)]
      | none =>
          rcases encodeUtf8_cases text with ⟨cs, rfl⟩ | ⟨-, herror⟩
          · right
            have hpy : cs.map codePoint = pyStr (String.ofList cs) := by
              unfold pyStr
              rw [String.toList_ofList]
            have hbytes : encodeUtf8 (pyStr (String.ofList cs))
                = .ok (textBytes (String.ofList cs)) :=
              encodeUtf8_pyStr (String.ofList cs).toList
            dsimp only
            rw [hpy, hbytes]
            refine ⟨_, rfl, ?_⟩
            unfold writerAddDocument
            dsimp only
            rw [cstrToString_textBytes, crossed_pyStr]
            unfold Call.exec
            dsimp only
            rcases session.addDocument answer (Int64.ofInt rowId)
              (cutText (String.ofList cs)) with ⟨e | _, session'⟩
            · rfl
            · rfl
          · left
            dsimp only
            rw [herror]
            exact ⟨rfl, _, rfl⟩

/-- A write on an open writer is the Rust writer's. -/
theorem py_write_eq (hopen : py.closed = false) (env : WriteEnv)
    (output : Output) :
    py.write env output
      = (pyOutcome (py.session.write env output).1,
        { py with session := (py.session.write env output).2.1 },
        (py.session.write env output).2.2) := by
  obtain ⟨closed, session⟩ := py
  cases hopen
  unfold PyWriter.write writerWriteIndex
  dsimp only
  rcases session.write env output with ⟨e | _, session', output'⟩
  · rfl
  · rfl

/-- On a closed writer every other call raises and changes nothing. -/
theorem py_exec_closed (hclosed : py.closed = true) {call : PyCall}
    (hcall : call ≠ .close) : ∃ e, call.exec py = (.error e, py) := by
  cases call with
  | addDocument answer rowId text column =>
      refine ⟨.runtimeError "FullTextIndexWriter is closed", ?_⟩
      unfold PyCall.exec PyWriter.addDocument
      dsimp only
      rw [if_pos hclosed]
  | addDocumentFields answer rowId items =>
      refine ⟨.runtimeError "FullTextIndexWriter is closed", ?_⟩
      unfold PyCall.exec PyWriter.addDocumentFields
      dsimp only
      rw [if_pos hclosed]
  | write env output =>
      refine ⟨.runtimeError "FullTextIndexWriter is closed", ?_⟩
      unfold PyCall.exec PyWriter.write
      dsimp only
      rw [if_pos hclosed]
  | close => exact absurd rfl hcall

/-- All a call can do: close the writer, raise and leave it as it is, or
come down to a call of the Rust writer's. -/
theorem py_exec_cases (call : PyCall) (py : PyWriter) :
    (call = .close ∧ call.ask py = none ∧ call.exec py = (.ok (), py.close))
      ∨ (call.ask py = none ∧ ∃ e, call.exec py = (.error e, py))
      ∨ ∃ k, call.ask py = some k ∧ py.closed = false
        ∧ call.exec py = (pyOutcome (k.exec py.session).1,
          { py with session := (k.exec py.session).2 }) := by
  by_cases hclosed : py.closed = true
  · have hask : call.ask py = none := by
      unfold PyCall.ask
      rw [if_pos hclosed]
    by_cases hcall : call = .close
    · left
      refine ⟨hcall, hask, ?_⟩
      rw [hcall]
      rfl
    · exact .inr (.inl ⟨hask, py_exec_closed hclosed hcall⟩)
  · have hopen : py.closed = false := by simpa using hclosed
    cases call with
    | addDocument answer rowId text column =>
        rcases py_addDocument_cases hopen text column with h | ⟨k, hask, h⟩
        · exact .inr (.inl h)
        · exact .inr (.inr ⟨k, hask, hopen, h⟩)
    | addDocumentFields answer rowId items =>
        have hask : (PyCall.addDocumentFields answer rowId items).ask py
            = askFields answer rowId items := by
          unfold PyCall.ask
          rw [hopen]
          rfl
        rw [hask]
        rcases py_addDocumentFields_cases hopen items with h | ⟨k, hask, h⟩
        · exact .inr (.inl h)
        · exact .inr (.inr ⟨k, hask, hopen, h⟩)
    | write env output =>
        refine .inr (.inr ⟨.write env output, ?_, hopen, ?_⟩)
        · unfold PyCall.ask
          rw [hopen]
          rfl
        · unfold PyCall.exec
          dsimp only
          rw [py_write_eq hopen]
          rfl
    | close =>
        refine .inl ⟨rfl, ?_, rfl⟩
        unfold PyCall.ask
        rw [hopen]
        rfl

end

/-- The Python writer over the Rust one. -/
def pyDelegation : Delegation PyCall.exec Call.exec where
  core := PyWriter.session
  ask := PyCall.ask
  result := pyOutcome
  refused call py hask := by
    rcases py_exec_cases call py with ⟨-, -, h⟩ | ⟨-, e, h⟩ | ⟨k, hk, -, -⟩
    · rw [h]
      rfl
    · rw [h]
    · rw [hask] at hk
      cases hk
  asked call py k hask := by
    rcases py_exec_cases call py with ⟨-, h, -⟩ | ⟨h, -⟩ | ⟨k', hk, -, h⟩
    · rw [hask] at h
      cases h
    · rw [hask] at h
      cases h
    · rw [hask] at hk
      cases hk
      rw [h]
      exact ⟨rfl, rfl⟩

-- ------------------------------------------------------ what a run added

theorem ask_of_askFields {answer : Except TantivyError Unit} {rowId : Int}
    {items : List (PyStr × PyStr)} {k : Call}
    (h : askFields answer rowId items = some k) :
    k = .addDocumentFields answer (Int64.ofInt rowId)
      (items.map crossedField) := by
  unfold askFields at h
  split at h
  · cases h
  · cases hencode : encodeItems items with
    | error e =>
        rw [hencode] at h
        cases h
    | ok arrays =>
        rw [hencode] at h
        cases h
        rfl

/-- The call behind an add is one, with the same row. -/
theorem row_of_ask {call : PyCall} {py : PyWriter} {k : Call}
    (h : call.ask py = some k) :
    call.row py = k.row py.session ∧ call.isAdd = k.isAdd := by
  unfold PyCall.ask at h
  split at h
  · cases h
  · cases call with
    | addDocument answer rowId text column =>
        cases text with
        | dict items =>
            cases column with
            | none =>
                rw [ask_of_askFields h]
                exact ⟨rfl, rfl⟩
            | some column => cases h
        | str text =>
            cases column with
            | some column =>
                rw [ask_of_askFields h]
                exact ⟨rfl, rfl⟩
            | none =>
                dsimp only at h
                cases hencode : encodeUtf8 text with
                | error e =>
                    rw [hencode] at h
                    cases h
                | ok bytes =>
                    rw [hencode] at h
                    cases h
                    exact ⟨rfl, rfl⟩
    | addDocumentFields answer rowId items =>
        rw [ask_of_askFields h]
        exact ⟨rfl, rfl⟩
    | write env output =>
        cases h
        exact ⟨rfl, rfl⟩
    | close => cases h

theorem py_added_eq (call : PyCall) (py : PyWriter) :
    call.added py
      = gather Call.exec Call.added py.session (call.ask py).toList := by
  unfold PyCall.added
  rcases py_exec_cases call py with ⟨hcall, hask, h⟩ | ⟨hask, e, h⟩
    | ⟨k, hask, -, h⟩
  · rw [h, hask, hcall]
    rfl
  · rw [h, hask]
    rfl
  · rw [h, hask]
    show _ = k.added py.session ++ []
    rw [List.append_nil, (row_of_ask hask).1]
    unfold Call.added
    rcases (k.exec py.session).1 with e | _
    · rfl
    · rfl

-- -------------------------------------------------------------- the options

/-- The loop inserts every option, cut. -/
theorem readOptions_textBytes (options : List OptionEntry)
    (fields : List (String × String)) :
    readOptions options
        ((fields.map fun field => some (charPointer (textBytes field.1))).zip
          (fields.map fun field => some (charPointer (textBytes field.2))))
      = .ok ((fields.map cutField).foldl
        (fun options entry => insertOption options entry.1 entry.2) options) := by
  induction fields generalizing options with
  | nil => rfl
  | cons field fields ih =>
      rw [List.map_cons, List.map_cons, List.zip_cons_cons]
      unfold readOptions
      rw [cstrToString_textBytes, cstrToString_textBytes]
      exact ih _

theorem optionsFromRaw_textBytes (fields : List (String × String)) :
    ∃ keys values, optionArrays (fields.map pyItem) = .ok (keys, values)
      ∧ optionsFromRaw keys values (fields.map pyItem).length
        = .ok (optionsOf (fields.map cutField)) := by
  unfold optionArrays
  rw [encodeItems_pyItem]
  cases fields with
  | nil => exact ⟨none, none, rfl, rfl⟩
  | cons field fields =>
      refine ⟨_, _, rfl, ?_⟩
      have hlength : ((field :: fields).map pyItem).length ≠ 0 := by simp
      unfold optionsFromRaw
      rw [if_neg hlength]
      dsimp only
      rw [List.take_of_length_le (by simp), List.take_of_length_le (by simp)]
      exact readOptions_textBytes [] (field :: fields)

theorem coreError_eq_ok {α : Type} {result : Result α} {x : α} :
    coreError result = .ok x ↔ result = .ok x := by
  unfold coreError
  cases result <;> simp

theorem openSessionWith_eq_ok [UnicodeCase] {env : CreateEnv}
    {iter : List OptionEntry → List OptionEntry} {options : List OptionEntry}
    {session : IndexSession}
    (h : openSessionWith env iter options = .ok session) :
    ∃ config writer,
      FullTextIndexConfig.fromOptions (iter options) = .ok config
        ∧ FullTextIndexWriter.new env config = .ok writer
        ∧ session = ⟨writer, []⟩ := by
  obtain ⟨config, hconfig, h⟩ := except_bind_eq_ok.mp h
  obtain ⟨writer, hwriter, h⟩ := except_bind_eq_ok.mp h
  cases h
  exact ⟨config, writer, coreError_eq_ok.mp hconfig, coreError_eq_ok.mp hwriter,
    rfl⟩

/-- A writer that was created is the Rust writer on the options as they
cross. -/
theorem py_create_eq_ok [UnicodeCase] {env : CreateEnv}
    {iter : List OptionEntry → List OptionEntry}
    {options : List (PyStr × PyStr)} {py : PyWriter}
    (h : PyWriter.create env iter options = .ok py) :
    py.closed = false ∧ ∃ config writer,
      FullTextIndexConfig.fromOptions
          (iter (optionsOf (options.map crossedField))) = .ok config
        ∧ FullTextIndexWriter.new env config = .ok writer
        ∧ py.session = ⟨writer, []⟩ := by
  obtain ⟨arrays, harrays, h⟩ := except_bind_eq_ok.mp h
  rcases encodeItems_cases options with ⟨fields, rfl⟩ | ⟨-, herror⟩
  · obtain ⟨keys, values, harrays', hoptions⟩ := optionsFromRaw_textBytes fields
    rw [harrays] at harrays'
    cases harrays'
    rw [map_crossedField_pyItem]
    cases hsession : writerOpen env iter keys values
        (fields.map pyItem).length with
    | error e =>
        dsimp only at h
        rw [hsession] at h
        cases h
    | ok session =>
        dsimp only at h
        rw [hsession] at h
        cases h
        obtain ⟨options, hraw, hopen⟩ := except_bind_eq_ok.mp hsession
        rw [hoptions] at hraw
        cases hraw
        exact ⟨rfl, openSessionWith_eq_ok hopen⟩
  · unfold optionArrays at harrays
    rw [herror] at harrays
    cases harrays

-- ----------------------------------------------------------- the end of it

theorem py_closed_callAll {py : PyWriter} (h : py.closed = true)
    (calls : List PyCall) : (callAll PyCall.exec py calls).closed = true := by
  induction calls generalizing py with
  | nil => exact h
  | cons call calls ih =>
      refine ih (show (call.exec py).2.closed = true from ?_)
      rcases py_exec_cases call py with ⟨-, -, hexec⟩ | ⟨-, e, hexec⟩
        | ⟨k, -, hopen, -⟩
      · rw [hexec]
        rfl
      · rw [hexec]
        exact h
      · rw [h] at hopen
        cases hopen

/-- A run that leaves the writer open has not closed it, and each of its
writes came down to one of the Rust writer's. -/
theorem write_mem_asks {py : PyWriter} {calls : List PyCall}
    (hopen : (callAll PyCall.exec py calls).closed = false) :
    PyCall.close ∉ calls
      ∧ ∀ env output, PyCall.write env output ∈ calls →
        Call.write env output ∈ pyDelegation.asks py calls := by
  induction calls generalizing py with
  | nil => exact ⟨List.not_mem_nil, fun _ _ h => by cases h⟩
  | cons call calls ih =>
      obtain ⟨hclose, hwrite⟩ := ih hopen
      have hnow : py.closed = false := by
        by_contra hclosed
        have := py_closed_callAll (by simpa using hclosed) (call :: calls)
        rw [hopen] at this
        cases this
      constructor
      · intro hmem
        rcases List.mem_cons.mp hmem with rfl | hmem
        · have := @py_closed_callAll py.close rfl calls
          rw [show callAll PyCall.exec py.close calls
            = callAll PyCall.exec py (.close :: calls) from rfl, hopen] at this
          cases this
        · exact hclose hmem
      · intro env output hmem
        rw [Delegation.asks, List.mem_append]
        rcases List.mem_cons.mp hmem with rfl | hmem
        · left
          have hask : (PyCall.write env output).ask py
              = some (.write env output) := by
            unfold PyCall.ask
            rw [hnow]
            rfl
          show _ ∈ ((PyCall.write env output).ask py).toList
          rw [hask]
          exact List.mem_singleton_self _
        · exact .inr (hwrite env output hmem)

/-- The call raises, leaves the native writer as it is, and a write sends
nothing to its output. -/
def PyRefused (call : PyCall) (py : PyWriter) : Prop :=
  (∃ e, (call.exec py).1 = .error e)
    ∧ ∀ env output, call = .write env output →
      (py.write env output).2.2 = output

/-- A closed writer refuses. -/
theorem pyRefused_of_closed {py : PyWriter} (h : py.closed = true)
    {call : PyCall} (hcall : call ≠ .close) : PyRefused call py := by
  obtain ⟨e, hexec⟩ := py_exec_closed h hcall
  refine ⟨⟨e, by rw [hexec]⟩, ?_⟩
  intro env output _
  unfold PyWriter.write
  rw [if_pos h]

/-- So does one whose index was written. -/
theorem pyRefused_of_finalized {py : PyWriter} (hopen : py.closed = false)
    (h : py.session.writer.state = none) {call : PyCall}
    (hcall : call ≠ .close) : PyRefused call py := by
  constructor
  · rcases py_exec_cases call py with ⟨hclose, -⟩ | ⟨-, e, hexec⟩
      | ⟨k, -, -, hexec⟩
    · exact absurd hclose hcall
    · exact ⟨e, by rw [hexec]⟩
    · obtain ⟨⟨e, he⟩, -⟩ := refused_of_finalized h k
      refine ⟨.native (.core e), ?_⟩
      rw [hexec, he]
      rfl
  · intro env output _
    rw [py_write_eq hopen]
    exact (refused_of_finalized h (.write env output)).2 env output rfl

/-- An add that raises leaves the writer as it is. -/
theorem py_add_error {call : PyCall} {py : PyWriter} (hadd : call.isAdd = true)
    {e : PyError} (h : (call.exec py).1 = .error e) :
    (call.exec py).2 = py := by
  rcases py_exec_cases call py with ⟨rfl, -, -⟩ | ⟨-, e', hexec⟩
    | ⟨k, hask, -, hexec⟩
  · cases hadd
  · rw [hexec]
  · rw [hexec] at h ⊢
    rw [(row_of_ask hask).2] at hadd
    cases hcore : (k.exec py.session).1 with
    | ok _ =>
        rw [hcore] at h
        cases h
    | error e' => rw [exec_add_error hadd hcore]

/-- Without options there is a writer of the default configuration. -/
theorem openSessionWith_quiet :
    @openSessionWith asciiCase quietCreate id []
      = Except.ok ⟨defaultWriter, []⟩ := by
  have hnew : @FullTextIndexWriter.new asciiCase quietCreate {}
      = .ok defaultWriter := by decide +kernel
  refine except_bind_eq_ok.mpr ⟨{}, by decide +kernel, ?_⟩
  rw [hnew]
  rfl

/-- A text that is a surrogate, a dict with a column beside it, a text
that ends at U+0000 and a dict. -/
def pyLife : List PyCall :=
  [.addDocument (.ok ()) 6 (.str [⟨0xd800, by decide⟩]) none,
    .addDocument (.ok ()) 7 (.dict [(pyStr "text", pyStr "b")])
      (some (pyStr "text")),
    .addDocument (.ok ()) 8 (.str (pyStr "c\x00d")) none,
    .addDocument (.ok ()) 9 (.dict [(pyStr "text", pyStr "e")]) none]

end PaimonFtindex.Proofs

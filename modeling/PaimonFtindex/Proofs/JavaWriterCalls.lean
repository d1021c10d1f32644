/-
The life of a writer behind the Java binding.

As behind the Python one, a call either stays in the binding or is one
call of the Rust writer's (`javaDelegation`), here on the strings as the
JVM reads them. What the JVM answers may differ from call to call, so it
comes with each call; where it does not give a reference to the output,
`writeIndex` throws before the native writer is finalized, and the writer
goes on.
-/
import PaimonFtindex.Proofs.WriterCalls

namespace PaimonFtindex.Proofs

open Model Lib

variable {S : Type}

/-- One call on a Java writer, with the JVM it meets. -/
inductive JavaCall (S : Type) where
  | addDocument (jni : JniStrings S) (answer : Except TantivyError Unit)
      (rowId : Int64) (text : Option S)
  | addDocumentFields (jni : JniStrings S) (answer : Except TantivyError Unit)
      (rowId : Int64) (fields : Option (JavaMap S))
  | writeIndex (jni : JniStrings S) (env : WriteEnv) (output : Option Output)
  | close

/-- One call: how it ends, and the writer then. -/
def JavaCall.exec (call : JavaCall S) (java : JavaWriter) :
    Except JavaError Unit × JavaWriter :=
  match call with
  | .addDocument jni answer rowId text => java.addDocument jni answer rowId text
  | .addDocumentFields jni answer rowId fields =>
      java.addDocumentFields jni answer rowId fields
  | .writeIndex jni env output =>
      let (result, java, _) := java.writeIndex jni env output
      (result, java)
  | .close => (.ok (), java.close)

/-- A string as the JVM reads it. -/
def readText (jni : JniStrings S) (s : Option S) : String :=
  (jni.getString s).toOption.getD ""

/-- The entries of a map as the JVM reads them. -/
def readEntries (jni : JniStrings S) (entries : JavaMap S) :
    List (String × String) :=
  entries.map fun entry => (readText jni entry.1, readText jni entry.2)

/-- The row an add is called with, as the JVM reads it. -/
def JavaCall.row (call : JavaCall S) (java : JavaWriter) : Option Row :=
  match call with
  | .addDocument jni _ rowId text =>
      some (rowId,
        [(java.session.writer.config.defaultTextField, readText jni text)])
  | .addDocumentFields jni _ rowId fields =>
      some (rowId, readEntries jni (fields.getD []))
  | .writeIndex .. => none
  | .close => none

def JavaCall.isAdd : JavaCall S → Bool
  | .addDocument .. => true
  | .addDocumentFields .. => true
  | .writeIndex .. => false
  | .close => false

/-- The row of a call that returned. -/
def JavaCall.added (call : JavaCall S) (java : JavaWriter) : List Row :=
  match (call.exec java).1 with
  | .ok () => (call.row java).toList
  | .error _ => []

/-- The JVM gives what `write_index` needs of it. -/
def GivesOutput (jni : JniStrings S) : Prop :=
  jni.getJavaVm = .ok () ∧ jni.newGlobalRef = .ok ()

/-- The call of the Rust writer's that a call comes down to. -/
def JavaCall.ask (call : JavaCall S) (java : JavaWriter) :
    Option Call :=
  if java.closed then none
  else match call with
    | .addDocument jni answer rowId text =>
        match jni.getString text with
        | .ok text => some (.addDocument answer rowId text)
        | .error _ => none
    | .addDocumentFields _ _ _ none => none
    | .addDocumentFields jni answer rowId (some fields) =>
        match stringPairArrays jni (fields.map Prod.fst)
            (fields.map Prod.snd) with
        | .ok fields => some (.addDocumentFields answer rowId fields)
        | .error _ => none
    | .writeIndex _ _ none => none
    | .writeIndex jni env (some output) =>
        match jni.getJavaVm, jni.newGlobalRef with
        | .ok (), .ok () => some (.write env output)
        | _, _ => none
    | .close => none

/-- What a call throws when the Rust writer fails. -/
def javaOutcome : Result Unit → Except JavaError Unit
  | .ok () => .ok ()
  | .error e => .error (.native (.core e))

theorem javaOutcome_eq_ok {r : Result Unit} :
    javaOutcome r = .ok () ↔ r = .ok () := by
  cases r <;> simp [javaOutcome]

theorem coreStep_eq {α : Type} (step : Result Unit × α) :
    coreStep step = (javaOutcome step.1, step.2) := by
  rcases step with ⟨e | _, a⟩
  · rfl
  · rfl

theorem jvmError_eq_ok {α : Type} {words : String} {result : Except String α}
    {x : α} : jvmError words result = .ok x ↔ result = .ok x := by
  unfold jvmError
  cases result <;> simp

-- ============================================================= the strings

section
variable {jni : JniStrings S}

theorem readText_of_ok {s : Option S} {text : String}
    (h : jni.getString s = .ok text) : readText jni s = text := by
  unfold readText
  rw [h]
  rfl

/-- A pair that was read has both its strings as the JVM reads them. -/
theorem readPair_eq_ok {i : Nat} {pair : Option S × Option S}
    {field : String × String} (h : readPair jni i pair = .ok field) :
    field = (readText jni pair.1, readText jni pair.2) := by
  obtain ⟨_, -, h⟩ := except_bind_eq_ok.mp h
  obtain ⟨_, -, h⟩ := except_bind_eq_ok.mp h
  obtain ⟨key, hkey, h⟩ := except_bind_eq_ok.mp h
  obtain ⟨value, hvalue, h⟩ := except_bind_eq_ok.mp h
  cases h
  rw [readText_of_ok (jvmError_eq_ok.mp hkey),
    readText_of_ok (jvmError_eq_ok.mp hvalue)]

theorem readFieldPairs_eq_ok {i : Nat} {pairs : JavaMap S}
    {fields : List (String × String)}
    (h : readFieldPairs jni i pairs = .ok fields) :
    fields = readEntries jni pairs := by
  induction pairs generalizing i fields with
  | nil =>
      cases h
      rfl
  | cons pair pairs ih =>
      obtain ⟨field, hfield, h⟩ := except_bind_eq_ok.mp h
      obtain ⟨rest, hrest, h⟩ := except_bind_eq_ok.mp h
      cases h
      rw [readPair_eq_ok hfield, ih hrest]
      rfl

theorem readOptionPairs_eq_ok {i : Nat} {pairs : JavaMap S}
    {options options' : List OptionEntry}
    (h : readOptionPairs jni options i pairs = .ok options') :
    options' = (readEntries jni pairs).foldl
      (fun options entry => insertOption options entry.1 entry.2) options := by
  induction pairs generalizing i options with
  | nil =>
      cases h
      rfl
  | cons pair pairs ih =>
      obtain ⟨field, hfield, h⟩ := except_bind_eq_ok.mp h
      rw [ih h, readPair_eq_ok hfield]
      rfl

theorem zip_map_fst_snd (entries : JavaMap S) :
    (entries.map Prod.fst).zip (entries.map Prod.snd) = entries := by
  rw [List.zip_map']
  exact List.map_id _

/-- What crosses for a map is what the JVM reads of it. -/
theorem stringPairArrays_eq_ok {entries : JavaMap S}
    {fields : List (String × String)}
    (h : stringPairArrays jni (entries.map Prod.fst) (entries.map Prod.snd)
      = .ok fields) : fields = readEntries jni entries := by
  obtain ⟨_, -, h⟩ := except_bind_eq_ok.mp h
  obtain ⟨_, -, h⟩ := except_bind_eq_ok.mp h
  dsimp only at h
  split at h
  · cases h
  · split at h
    · cases h
    · rw [zip_map_fst_snd] at h
      exact readFieldPairs_eq_ok h

theorem optionsFromArrays_eq_ok {entries : JavaMap S}
    {options : List OptionEntry}
    (h : optionsFromArrays jni (entries.map Prod.fst) (entries.map Prod.snd)
      = .ok options) : options = optionsOf (readEntries jni entries) := by
  obtain ⟨_, -, h⟩ := except_bind_eq_ok.mp h
  obtain ⟨_, -, h⟩ := except_bind_eq_ok.mp h
  dsimp only at h
  split at h
  · cases h
  · rw [zip_map_fst_snd] at h
    exact readOptionPairs_eq_ok h

end

-- =============================================================== the calls

section
variable {java : JavaWriter}

/-- An add on an open writer asks the Rust writer, or fails before. -/
theorem java_addDocument_cases (hopen : java.closed = false)
    (jni : JniStrings S) (answer : Except TantivyError Unit) (rowId : Int64)
    (text : Option S) :
    ((JavaCall.addDocument jni answer rowId text).ask java = none
        ∧ ∃ e, java.addDocument jni answer rowId text = (.error e, java))
      ∨ ∃ k, (JavaCall.addDocument jni answer rowId text).ask java = some k
        ∧ java.addDocument jni answer rowId text
          = (javaOutcome (k.exec java.session).1,
            { java with session := (k.exec java.session).2 }) := by
  obtain ⟨closed, session⟩ := java
  cases hopen
  unfold JavaWriter.addDocument JavaCall.ask jniAddDocument
  dsimp only
  cases htext : jni.getString text with
  | error e => exact .inl ⟨rfl, _, rfl⟩
  | ok text =>
      refine .inr ⟨_, rfl, ?_⟩
      unfold jvmError
      dsimp only
      rw [coreStep_eq]
      rfl

theorem java_addDocumentFields_cases (hopen : java.closed = false)
    (jni : JniStrings S) (answer : Except TantivyError Unit) (rowId : Int64)
    (fields : Option (JavaMap S)) :
    ((JavaCall.addDocumentFields jni answer rowId fields).ask java = none
        ∧ ∃ e, java.addDocumentFields jni answer rowId fields
          = (.error e, java))
      ∨ ∃ k, (JavaCall.addDocumentFields jni answer rowId fields).ask java = some k
        ∧ java.addDocumentFields jni answer rowId fields
          = (javaOutcome (k.exec java.session).1,
            { java with session := (k.exec java.session).2 }) := by
  obtain ⟨closed, session⟩ := java
  cases hopen
  cases fields with
  | none => exact .inl ⟨rfl, _, rfl⟩
  | some fields =>
      unfold JavaWriter.addDocumentFields JavaCall.ask jniAddDocumentFields
      dsimp only
      cases hfields : stringPairArrays jni (fields.map Prod.fst)
          (fields.map Prod.snd) with
      | error e => exact .inl ⟨rfl, _, rfl⟩
      | ok fields =>
          refine .inr ⟨_, rfl, ?_⟩
          dsimp only
          rw [coreStep_eq]
          rfl

/-- `writeIndex` with a JVM that gives the output is the Rust writer's
write. -/
theorem java_writeIndex_eq (hopen : java.closed = false) {jni : JniStrings S}
    (hgives : GivesOutput jni) (env : WriteEnv) (output : Output) :
    java.writeIndex jni env (some output)
      = (javaOutcome (java.session.write env output).1,
        { java with session := (java.session.write env output).2.1 },
        some (java.session.write env output).2.2) := by
  obtain ⟨closed, session⟩ := java
  cases hopen
  unfold JavaWriter.writeIndex jniWriteIndex
  dsimp only
  rw [hgives.1, hgives.2]
  unfold jvmError
  dsimp only
  rw [coreStep_eq]
  rfl

/-- With one that does not, it throws, and nothing has happened. -/
theorem java_writeIndex_error (hopen : java.closed = false)
    {jni : JniStrings S} (hgives : ¬ GivesOutput jni) (env : WriteEnv)
    (output : Output) :
    ∃ e, java.writeIndex jni env (some output)
      = (.error e, java, some output) := by
  obtain ⟨closed, session⟩ := java
  cases hopen
  unfold JavaWriter.writeIndex jniWriteIndex
  dsimp only
  unfold GivesOutput at hgives
  cases hvm : jni.getJavaVm with
  | error e => exact ⟨_, rfl⟩
  | ok _ =>
      cases href : jni.newGlobalRef with
      | error e => exact ⟨_, rfl⟩
      | ok _ => exact absurd ⟨hvm, href⟩ hgives

theorem ask_writeIndex (hopen : java.closed = false) {jni : JniStrings S}
    (hgives : GivesOutput jni) (env : WriteEnv) (output : Output) :
    (JavaCall.writeIndex jni env (some output)).ask java
      = some (.write env output) := by
  unfold JavaCall.ask
  rw [hopen]
  dsimp only
  rw [hgives.1, hgives.2]
  rfl

theorem ask_writeIndex_none {jni : JniStrings S} (hgives : ¬ GivesOutput jni)
    (env : WriteEnv) (output : Output) :
    (JavaCall.writeIndex jni env (some output)).ask java = none := by
  unfold JavaCall.ask
  split
  · rfl
  · dsimp only
    unfold GivesOutput at hgives
    cases hvm : jni.getJavaVm with
    | error e => rfl
    | ok _ =>
        cases href : jni.newGlobalRef with
        | error e => rfl
        | ok _ => exact absurd ⟨hvm, href⟩ hgives

/-- On a closed writer every other call throws and changes nothing. -/
theorem java_exec_closed (hclosed : java.closed = true) {call : JavaCall S}
    (hcall : call ≠ .close) : ∃ e, call.exec java = (.error e, java) := by
  cases call with
  | addDocument jni answer rowId text =>
      refine ⟨writerClosed, ?_⟩
      unfold JavaCall.exec JavaWriter.addDocument
      dsimp only
      rw [if_pos hclosed]
  | addDocumentFields jni answer rowId fields =>
      unfold JavaCall.exec JavaWriter.addDocumentFields
      dsimp only
      cases fields with
      | none => exact ⟨_, rfl⟩
      | some fields =>
          dsimp only
          rw [if_pos hclosed]
          exact ⟨_, rfl⟩
  | writeIndex jni env output =>
      unfold JavaCall.exec JavaWriter.writeIndex
      dsimp only
      cases output with
      | none => exact ⟨_, rfl⟩
      | some output =>
          dsimp only
          rw [if_pos hclosed]
          exact ⟨_, rfl⟩
  | close => exact absurd rfl hcall

/-- All a call can do: close the writer, throw and leave it as it is, or
come down to a call of the Rust writer's. -/
theorem java_exec_cases (call : JavaCall S) (java : JavaWriter) :
    (call = .close ∧ call.ask java = none
        ∧ call.exec java = (.ok (), java.close))
      ∨ (call.ask java = none ∧ ∃ e, call.exec java = (.error e, java))
      ∨ ∃ k, call.ask java = some k ∧ java.closed = false
        ∧ call.exec java = (javaOutcome (k.exec java.session).1,
          { java with session := (k.exec java.session).2 }) := by
  by_cases hclosed : java.closed = true
  · have hask : call.ask java = none := by
      unfold JavaCall.ask
      rw [if_pos hclosed]
    by_cases hcall : call = .close
    · left
      refine ⟨hcall, hask, ?_⟩
      rw [hcall]
      rfl
    · exact .inr (.inl ⟨hask, java_exec_closed hclosed hcall⟩)
  · have hopen : java.closed = false := by simpa using hclosed
    cases call with
    | addDocument jni answer rowId text =>
        rcases java_addDocument_cases hopen jni answer rowId text with
          h | ⟨k, hask, h⟩
        · exact .inr (.inl h)
        · exact .inr (.inr ⟨k, hask, hopen, h⟩)
    | addDocumentFields jni answer rowId fields =>
        rcases java_addDocumentFields_cases hopen jni answer rowId fields with
          h | ⟨k, hask, h⟩
        · exact .inr (.inl h)
        · exact .inr (.inr ⟨k, hask, hopen, h⟩)
    | writeIndex jni env output =>
        cases output with
        | none =>
            refine .inr (.inl ⟨?_, .nullPointer "output", rfl⟩)
            unfold JavaCall.ask
            rw [hopen]
            rfl
        | some output =>
            by_cases hgives : GivesOutput jni
            · refine .inr (.inr ⟨.write env output,
                ask_writeIndex hopen hgives env output, hopen, ?_⟩)
              unfold JavaCall.exec
              dsimp only
              rw [java_writeIndex_eq hopen hgives]
              rfl
            · obtain ⟨e, h⟩ := java_writeIndex_error hopen hgives env output
              refine .inr (.inl ⟨ask_writeIndex_none hgives env output, e, ?_⟩)
              unfold JavaCall.exec
              dsimp only
              rw [h]
    | close =>
        refine .inl ⟨rfl, ?_, rfl⟩
        unfold JavaCall.ask
        rw [hopen]
        rfl

end

/-- The Java writer over the Rust one. -/
def javaDelegation :
    Delegation (JavaCall.exec (S := S)) Call.exec where
  core := JavaWriter.session
  ask := JavaCall.ask
  result := javaOutcome
  refused call java hask := by
    rcases java_exec_cases call java with ⟨-, -, h⟩ | ⟨-, e, h⟩ | ⟨k, hk, -, -⟩
    · rw [h]
      rfl
    · rw [h]
    · rw [hask] at hk
      cases hk
  asked call java k hask := by
    rcases java_exec_cases call java with ⟨-, h, -⟩ | ⟨h, -⟩ | ⟨k', hk, -, h⟩
    · rw [hask] at h
      cases h
    · rw [hask] at h
      cases h
    · rw [hask] at hk
      cases hk
      rw [h]
      exact ⟨rfl, rfl⟩

-- ------------------------------------------------------ what a run added

/-- The call behind an add is one, with the same row. -/
theorem java_row_of_ask {call : JavaCall S} {java : JavaWriter} {k : Call}
    (h : call.ask java = some k) :
    call.row java = k.row java.session ∧ call.isAdd = k.isAdd := by
  unfold JavaCall.ask at h
  split at h
  · cases h
  · cases call with
    | addDocument jni answer rowId text =>
        dsimp only at h
        cases htext : jni.getString text with
        | error e =>
            rw [htext] at h
            cases h
        | ok text' =>
            rw [htext] at h
            cases h
            unfold JavaCall.row
            dsimp only
            rw [readText_of_ok htext]
            exact ⟨rfl, rfl⟩
    | addDocumentFields jni answer rowId fields =>
        cases fields with
        | none => cases h
        | some entries =>
            dsimp only at h
            cases hfields : stringPairArrays jni (entries.map Prod.fst)
                (entries.map Prod.snd) with
            | error e =>
                rw [hfields] at h
                cases h
            | ok fields =>
                rw [hfields] at h
                cases h
                rw [stringPairArrays_eq_ok hfields]
                exact ⟨rfl, rfl⟩
    | writeIndex jni env output =>
        cases output with
        | none => cases h
        | some output =>
            by_cases hgives : GivesOutput jni
            · dsimp only at h
              rw [hgives.1, hgives.2] at h
              cases h
              exact ⟨rfl, rfl⟩
            · have hask := @ask_writeIndex_none S java jni hgives env output
              unfold JavaCall.ask at hask
              rw [if_neg ‹_›, h] at hask
              cases hask
    | close => cases h

theorem java_added_eq (call : JavaCall S) (java : JavaWriter) :
    call.added java
      = gather Call.exec Call.added java.session (call.ask java).toList := by
  unfold JavaCall.added
  rcases java_exec_cases call java with ⟨hcall, hask, h⟩ | ⟨hask, e, h⟩
    | ⟨k, hask, -, h⟩
  · rw [h, hask, hcall]
    rfl
  · rw [h, hask]
    rfl
  · rw [h, hask]
    show _ = k.added java.session ++ []
    rw [List.append_nil, (java_row_of_ask hask).1]
    unfold Call.added
    rcases (k.exec java.session).1 with e | _
    · rfl
    · rfl

/-- A writer that was created is the Rust writer on the options as the
JVM reads them. -/
theorem java_create_eq_ok [UnicodeCase] {jni : JniStrings S} {env : CreateEnv}
    {iter : List OptionEntry → List OptionEntry}
    {options : Option (JavaMap S)} {java : JavaWriter}
    (h : JavaWriter.create jni env iter options = .ok java) :
    java.closed = false ∧ ∃ config writer,
      FullTextIndexConfig.fromOptions
          (iter (optionsOf (readEntries jni (options.getD [])))) = .ok config
        ∧ FullTextIndexWriter.new env config = .ok writer
        ∧ java.session = ⟨writer, []⟩ := by
  obtain ⟨entries, hentries, h⟩ := except_bind_eq_ok.mp h
  rw [optionsFromArrays_eq_ok hentries] at h
  cases hsession : openSessionWith env iter
      (optionsOf (readEntries jni (options.getD []))) with
  | error e =>
      rw [hsession] at h
      cases h
  | ok session =>
      rw [hsession] at h
      cases h
      exact ⟨rfl, openSessionWith_eq_ok hsession⟩

-- ----------------------------------------------------------- the end of it

theorem java_closed_callAll {java : JavaWriter} (h : java.closed = true)
    (calls : List (JavaCall S)) :
    (callAll JavaCall.exec java calls).closed = true := by
  induction calls generalizing java with
  | nil => exact h
  | cons call calls ih =>
      refine ih (show (call.exec java).2.closed = true from ?_)
      rcases java_exec_cases call java with ⟨-, -, hexec⟩ | ⟨-, e, hexec⟩
        | ⟨k, -, hopen, -⟩
      · rw [hexec]
        rfl
      · rw [hexec]
        exact h
      · rw [h] at hopen
        cases hopen

/-- A call after which nothing more is taken: one that reaches the native
write, and `close`. -/
def JavaCall.Finalizes : JavaCall S → Prop
  | .writeIndex jni _ (some _) => GivesOutput jni
  | .close => True
  | _ => False

/-- A run that leaves the writer open has not closed it, and a call of it
that finalizes came down to a write of the Rust writer's. -/
theorem java_write_mem_asks {java : JavaWriter} {calls : List (JavaCall S)}
    (hopen : (callAll JavaCall.exec java calls).closed = false)
    {call : JavaCall S} (hmem : call ∈ calls) (hfinal : call.Finalizes) :
    ∃ env output, Call.write env output ∈ javaDelegation.asks java calls := by
  induction calls generalizing java with
  | nil => cases hmem
  | cons first calls ih =>
      have hnow : java.closed = false := by
        by_contra hclosed
        have := java_closed_callAll (by simpa using hclosed) (first :: calls)
        rw [hopen] at this
        cases this
      rw [Delegation.asks]
      rcases List.mem_cons.mp hmem with rfl | hmem
      · cases call with
        | writeIndex jni env output =>
            cases output with
            | none => exact hfinal.elim
            | some output =>
                refine ⟨env, output, List.mem_append_left _ ?_⟩
                have hask : (@javaDelegation S).ask
                    (.writeIndex jni env (some output)) java
                    = some (.write env output) :=
                  ask_writeIndex hnow hfinal env output
                rw [hask]
                exact List.mem_singleton_self _
        | close =>
            have := @java_closed_callAll S java.close rfl calls
            rw [show callAll JavaCall.exec java.close calls
              = callAll JavaCall.exec java (.close :: calls) from rfl, hopen]
              at this
            cases this
        | addDocument => exact hfinal.elim
        | addDocumentFields => exact hfinal.elim
      · obtain ⟨env, output, h⟩ := ih hopen hmem
        exact ⟨env, output, List.mem_append_right _ h⟩

/-- The call throws, and a write sends nothing to its output. -/
def JavaRefused (call : JavaCall S) (java : JavaWriter) : Prop :=
  (∃ e, (call.exec java).1 = .error e)
    ∧ ∀ jni env output, call = .writeIndex jni env output →
      (java.writeIndex jni env output).2.2 = output

/-- A closed writer refuses. -/
theorem javaRefused_of_closed {java : JavaWriter} (h : java.closed = true)
    {call : JavaCall S} (hcall : call ≠ .close) : JavaRefused call java := by
  obtain ⟨e, hexec⟩ := java_exec_closed h hcall
  refine ⟨⟨e, by rw [hexec]⟩, ?_⟩
  intro jni env output _
  cases output with
  | none => rfl
  | some output =>
      unfold JavaWriter.writeIndex
      dsimp only
      rw [if_pos h]

/-- So does one whose index was written. -/
theorem javaRefused_of_finalized {java : JavaWriter}
    (hopen : java.closed = false) (h : java.session.writer.state = none)
    {call : JavaCall S} (hcall : call ≠ .close) : JavaRefused call java := by
  constructor
  · rcases java_exec_cases call java with ⟨hclose, -⟩ | ⟨-, e, hexec⟩
      | ⟨k, -, -, hexec⟩
    · exact absurd hclose hcall
    · exact ⟨e, by rw [hexec]⟩
    · obtain ⟨⟨e, he⟩, -⟩ := refused_of_finalized h k
      refine ⟨.native (.core e), ?_⟩
      rw [hexec, he]
      rfl
  · intro jni env output _
    cases output with
    | none => rfl
    | some output =>
        by_cases hgives : GivesOutput jni
        · rw [java_writeIndex_eq hopen hgives]
          exact congrArg some
            ((refused_of_finalized h (.write env output)).2 env output rfl)
        · obtain ⟨e, hwrite⟩ := java_writeIndex_error hopen hgives env output
          rw [hwrite]

/-- An add that throws leaves the writer as it is. -/
theorem java_add_error {call : JavaCall S} {java : JavaWriter}
    (hadd : call.isAdd = true) {e : JavaError}
    (h : (call.exec java).1 = .error e) : (call.exec java).2 = java := by
  rcases java_exec_cases call java with ⟨rfl, -, -⟩ | ⟨-, e', hexec⟩
    | ⟨k, hask, -, hexec⟩
  · cases hadd
  · rw [hexec]
  · rw [hexec] at h ⊢
    rw [(java_row_of_ask hask).2] at hadd
    cases hcore : (k.exec java.session).1 with
    | ok _ =>
        rw [hcore] at h
        cases h
    | error e' => rw [exec_add_error hadd hcore]

/-- A JVM that reads every string but null. -/
def quietJvm : JniStrings String where
  getString
    | some s => .ok s
    | none => .error "null"
  getArrayLength := .ok ()
  getObjectArrayElement _ := .ok ()
  getJavaVm := .ok ()
  newGlobalRef := .ok ()

/-- A null text, an add, a write whose output gets no global reference and
another add. -/
def javaLife : List (JavaCall String) :=
  [.addDocument quietJvm (.ok ()) 6 none,
    .addDocument quietJvm (.ok ()) 7 (some "b"),
    .writeIndex { quietJvm with newGlobalRef := .error "full" } goldenEnv
      (some {}),
    .addDocumentFields quietJvm (.ok ()) 8 (some [(some "text", some "c")])]

end PaimonFtindex.Proofs

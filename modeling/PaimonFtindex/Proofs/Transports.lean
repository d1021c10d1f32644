/-
Bytes across the language borders.

A native write hands its output buffers, a native read asks its input for
ranges. On the way the bytes become signed, lengths become 32-bit
integers and exceptions become statuses. What an object on the other side
is given is still a beginning of the archive, all of it when `write`
returned, and what is read back from it is what lies there
(`pyRoundTrip`, `javaRoundTrip`).

The casts of `JavaOutput` are exact only for short buffers. That a writer
never passes a longer one is an invariant of its loops (`careful_write`):
a header has at most 16 MiB, a chunk of a file at most 64 KiB.
-/
import PaimonFtindex.Model.Transports
import PaimonFtindex.Proofs.Reopen
import PaimonFtindex.Proofs.StreamingWriter
import PaimonFtindex.Proofs.WriterLifeCycle

namespace PaimonFtindex.Proofs

open Model Lib

-- ================================================================= reading

/-- Each buffer has the bytes at its position, and they are there. -/
def ReadsFrom (data : Bytes) (ranges : List ReadRequest) (bufs : List Bytes) :
    Prop :=
  List.Forall₂ (fun range buf =>
    (range.len = 0 ∨ range.pos.toNat + range.len ≤ data.length)
      ∧ buf = slice data range.pos.toNat range.len) ranges bufs

section
variable {σ ε : Type}

theorem readEach_eq_ok {readRange : ReadRequest → EStateM ε σ Bytes}
    {ranges : List ReadRequest} {bufs : List Bytes} {s s' : σ}
    (h : readEach readRange ranges s = .ok bufs s') :
    List.Forall₂ (fun range buf => ∃ t t', readRange range t = .ok buf t')
      ranges bufs := by
  induction ranges generalizing bufs s with
  | nil =>
      cases h
      exact List.Forall₂.nil
  | cons range ranges ih =>
      obtain ⟨buf, t, hread, h⟩ := estate_bind_eq_ok.mp h
      obtain ⟨rest, t', hrest, h⟩ := estate_bind_eq_ok.mp h
      cases h
      exact List.Forall₂.cons ⟨s, t, hread⟩ (ih hrest)

/-- The object returns bytes that stand where they were asked for: as
many, fewer, or more than were asked for. Or it raises an `Exception`. -/
structure PyServes (input : PyInput σ) (data : Bytes) : Prop where
  bytes : ∀ pos len s out s', input pos len s = (.returned out, s') →
    out <+: data.drop pos
  exceptions : ∀ pos len s status, (input pos len s).1 ≠ .raisedOther status

theorem slice_of_prefix_drop {data out : Bytes} {pos len : Nat}
    (h : out <+: data.drop pos) (hlen : out.length = len) :
    (len = 0 ∨ pos + len ≤ data.length) ∧ out = slice data pos len := by
  have hle := h.length_le
  rw [List.length_drop, hlen] at hle
  constructor
  · omega
  · unfold slice
    rw [← hlen]
    exact List.prefix_iff_eq_take.mp h

/-- A read through `pread_fn` that returns has read what is there. -/
theorem pyInput_exact {input : PyInput σ} {data : Bytes}
    (hserves : PyServes input data) {ranges : List ReadRequest}
    {bufs : List Bytes} {s s' : σ}
    (h : FfiInputFile.pread (some (pyPreadFn input)) ranges s = .ok bufs s') :
    ReadsFrom data ranges bufs := by
  refine (readEach_eq_ok h).imp fun range buf hread => ?_
  obtain ⟨t, t', hread⟩ := hread
  unfold FfiInputFile.readRange pyPreadFn at hread
  cases hcall : input range.pos.toNat range.len t with
  | mk out u =>
      rw [hcall] at hread
      cases out with
      | raisedException => cases hread
      | raisedOther status =>
          have hnever := hserves.exceptions range.pos.toNat range.len t status
          rw [hcall] at hnever
          exact absurd rfl hnever
      | returned out =>
          dsimp only at hread
          by_cases hlen : out.length = range.len
          · rw [dif_pos hlen] at hread
            cases hread
            exact slice_of_prefix_drop (hserves.bytes _ _ _ _ _ hcall) hlen
          · rw [dif_neg hlen] at hread
            cases hread

/-- The object keeps the promise of `FullTextIndexInput`: when it returns
it has put exactly `length` bytes from `position` on into the buffer, from
`offset` on. -/
def JavaServes (input : JavaInput σ) (stored : List Int8) : Prop :=
  ∀ position buffer offset length s array s', 0 ≤ position →
    input.preadMethod position buffer offset length s = .ok array s' →
    ∀ i < length.toInt.toNat, ∃ byte,
      stored[position.toInt.toNat + i]? = some byte
        ∧ array.val[offset.toInt.toNat + i]? = some byte

theorem javaIo_eq_ok {α : Type} {m : EStateM IoError σ α} {a : α} {s s' : σ} :
    javaIo m s = .ok a s' ↔ m s = .ok a s' := by
  unfold javaIo
  cases m s <;> simp

theorem jvmCall_eq_ok {α : Type} {words : String} {m : EStateM String σ α}
    {a : α} {s s' : σ} : jvmCall words m s = .ok a s' ↔ m s = .ok a s' := by
  unfold jvmCall
  cases m s <;> simp

/-- A length that fits is cast to itself. -/
theorem toNat_int32 {n : Nat} (h : n < 2 ^ 31) :
    ¬ Int32.ofNat n < 0 ∧ (Int32.ofNat n).toInt.toNat = n := by
  have hint : (Int32.ofNat n).toInt = n := Int32.toInt_ofNat_of_lt h
  constructor
  · rw [Int32.lt_iff_toInt_lt, hint]
    simp
  · rw [hint, Int.toNat_natCast]

theorem toNat_toInt64 {pos : UInt64} (h : pos.toNat < 2 ^ 63) :
    0 ≤ pos.toInt64 ∧ pos.toInt64.toInt.toNat = pos.toNat := by
  have hint : pos.toInt64.toInt = pos.toNat := by
    rw [← Int64.toInt_toBitVec, UInt64.toBitVec_toInt64,
      BitVec.toInt_eq_toNat_of_lt (by simpa using by omega)]
    rfl
  constructor
  · rw [Int64.le_iff_toInt_le, hint]
    simp
  · rw [hint, Int.toNat_natCast]

theorem newByteArray_eq_ok {jvm : JavaVm σ} {len : Int32} {array : List Int8}
    {s s' : σ} (h : jvm.newByteArray len s = .ok array s') :
    array = List.replicate len.toInt.toNat 0 := by
  unfold JavaVm.newByteArray at h
  split at h
  · cases h
  · obtain ⟨_, t, -, h⟩ := estate_bind_eq_ok.mp h
    cases h
    rfl

theorem copyJavaBuffer_eq_ok {self : JavaInput σ} {buffer : List Int8}
    {len : Nat} {buf : Bytes} {s s' : σ}
    (h : copyJavaBuffer self buffer len s = .ok buf s') :
    buf = buffer.map Int8.toUInt8 := by
  obtain ⟨_, t, -, h⟩ := estate_bind_eq_ok.mp h
  split at h
  · cases h
  · dsimp only at h
    split at h
    · obtain ⟨_, t, -, h⟩ := estate_bind_eq_ok.mp h
      cases h
      rfl
    · cases h
      rfl

/-- The promise, for a whole array. -/
theorem map_of_javaServes {self : JavaInput σ} {stored : List Int8}
    (hserves : JavaServes self stored) {range : ReadRequest}
    (hpos : range.pos.toNat < 2 ^ 63) (hlen : range.len < 2 ^ 31)
    {buffer : List Int8} (hbuffer : buffer.length = range.len)
    {array : { array : List Int8 // array.length = buffer.length }} {s s' : σ}
    (h : self.preadMethod range.pos.toInt64 buffer 0 (Int32.ofNat range.len) s
      = .ok array s') :
    (range.len = 0
        ∨ range.pos.toNat + range.len ≤ (stored.map Int8.toUInt8).length)
      ∧ array.val.map Int8.toUInt8
        = slice (stored.map Int8.toUInt8) range.pos.toNat range.len := by
  obtain ⟨hnonneg, hposition⟩ := toNat_toInt64 hpos
  have hbytes := hserves _ _ _ _ _ _ _ hnonneg h
  rw [(toNat_int32 hlen).2, hposition] at hbytes
  have harray : array.val.length = range.len := array.2.trans hbuffer
  constructor
  · rw [List.length_map]
    by_cases hzero : range.len = 0
    · exact .inl hzero
    · obtain ⟨byte, hbyte, -⟩ := hbytes (range.len - 1) (by omega)
      have := (List.getElem?_eq_some_iff.mp hbyte).1
      right
      omega
  · unfold slice
    rw [← List.map_drop, ← List.map_take]
    congr 1
    refine List.ext_getElem? fun i => ?_
    by_cases hi : i < range.len
    · obtain ⟨byte, hstored, hbyte⟩ := hbytes i hi
      rw [List.getElem?_take_of_lt hi, List.getElem?_drop, hstored, ← hbyte]
      simp
    · rw [List.getElem?_eq_none (by omega), List.getElem?_eq_none]
      rw [List.length_take]
      omega

/-- A read of a Java object that returns has read what is there. -/
theorem javaInput_exact {self : JavaInput σ} {stored : List Int8}
    (hserves : JavaServes self stored) {ranges : List ReadRequest}
    {bufs : List Bytes} {s s' : σ} (h : self.pread ranges s = .ok bufs s') :
    ReadsFrom (stored.map Int8.toUInt8) ranges bufs := by
  obtain ⟨_, t, -, h⟩ := estate_bind_eq_ok.mp h
  refine (readEach_eq_ok h).imp fun range buf hread => ?_
  obtain ⟨t, t', hread⟩ := hread
  unfold JavaInput.readRange at hread
  split at hread
  · cases hread
  rename_i hpos
  dsimp only at hread
  split at hread
  · cases hread
  rename_i hlen
  obtain ⟨buffer, u, hbuffer, hread⟩ := estate_bind_eq_ok.mp hread
  obtain ⟨array, u', harray, hread⟩ := estate_bind_eq_ok.mp hread
  rw [javaIo_eq_ok, jvmCall_eq_ok] at hbuffer harray
  rw [copyJavaBuffer_eq_ok hread]
  refine map_of_javaServes hserves (by omega) (by omega) ?_ harray
  rw [newByteArray_eq_ok hbuffer, List.length_replicate,
    (toNat_int32 (by omega)).2]

end

-- ================================================================= writing

/-- Code that does no more with its output than call `write_all`, on
buffers a `jsize` can count, and `flush`. -/
inductive Scripted : {α : Type} → WriteM α → Prop where
  | pure {α : Type} (a : α) : Scripted (pure a)
  | throw {α : Type} (e) : Scripted (throw e : WriteM α)
  | writeAll {buf : Bytes} : buf.length < 2 ^ 31 → Scripted (writeAll buf)
  | flush : Scripted flush
  | bind {α β : Type} {x : WriteM α} {f : α → WriteM β} : Scripted x →
      (∀ a, Scripted (f a)) → Scripted (x >>= f)

theorem scripted_io {α : Type} (r : Except IoError α) :
    Scripted (WriteM.io r) := by
  cases r with
  | ok a => exact .pure a
  | error e => exact .throw (.io e)

theorem scripted_ofResult {α : Type} (r : Result α) :
    Scripted (WriteM.ofResult r) := by
  cases r with
  | ok a => exact .pure a
  | error e => exact .throw e

/-- A chunk has at most 64 KiB. -/
theorem scripted_copyChunks (remaining : Nat) (file buffer : Bytes) :
    Scripted (copyChunks remaining file buffer) := by
  induction remaining using Nat.strongRecOn generalizing file buffer with
  | ind remaining ih =>
      unfold copyChunks
      by_cases hzero : remaining = 0
      · rw [if_pos hzero]
        exact .pure buffer
      · rw [if_neg hzero]
        have hpos : 0 < archiveWriteBufferBytes := by decide
        have hsmall : archiveWriteBufferBytes < 2 ^ 31 := by decide
        refine .bind (scripted_io _) fun _ => .bind (.writeAll ?_) fun _ => ?_
        · rw [List.length_take]
          omega
        · exact ih _ (by omega) _ _

theorem scripted_copyFiles (fs : FileSystem)
    (pairs : List (ArchiveFileEntry × OsPath)) (buffer : Bytes) :
    Scripted (copyFiles fs pairs buffer) := by
  induction pairs generalizing buffer with
  | nil => exact .pure ()
  | cons pair pairs ih =>
      unfold copyFiles
      exact .bind (scripted_io _) fun _ =>
        .bind (scripted_copyChunks _ _ _) fun _ => ih _

/-- A header has at most 16 MiB. -/
theorem scripted_writeEnvelopeHeader (serde : HeaderJson)
    (header : IndexHeader) : Scripted (writeEnvelopeHeader serde header) := by
  unfold writeEnvelopeHeader
  cases serde.toVec header with
  | error e => exact .throw (.json e)
  | ok json =>
      simp only [pure_bind]
      have hword : ∀ w, (toBeBytes w).length < 2 ^ 31 := fun w => by
        simp [toBeBytes]
      by_cases hlarge : maxHeaderBytes < json.length
      · rw [if_pos hlarge]
        exact .throw _
      · have hsmall : json.length < 2 ^ 31 := by
          unfold maxHeaderBytes at hlarge
          omega
        simp only [hlarge, show ¬ 2 ^ 32 ≤ json.length by omega, if_false]
        exact .bind (.writeAll (by decide)) fun _ =>
          .bind (.writeAll (hword _)) fun _ =>
          .bind (.writeAll (hword _)) fun _ => .writeAll hsmall

theorem scripted_finish (writer : FullTextIndexWriter) (env : WriteEnv)
    (state : FullTextIndexWriterState) : Scripted (writer.finish env state) := by
  unfold FullTextIndexWriter.finish
  refine .bind (scripted_ofResult _) fun _ => .bind (scripted_ofResult _)
    fun _ => .bind (scripted_ofResult _) fun files =>
    .bind (scripted_ofResult _) fun entries => ?_
  unfold writeEnvelopeFromPaths
  by_cases hcount : (writer.header env entries).files.length
      ≠ (files.map IndexFile.path).length
  · rw [if_pos hcount]
    exact .throw _
  · rw [if_neg hcount]
    exact .bind (scripted_writeEnvelopeHeader _ _) fun _ =>
      .bind (scripted_copyFiles _ _ _) fun _ => .flush

-- --------------------------------------------------- up to the first error

/-- Every call so far succeeded, on a buffer a `jsize` can count. -/
structure Flawless (output : Output) : Prop where
  answered : ∀ k < output.calls, output.fault k = none
  small : ∀ buf ∈ output.passed, buf.length < 2 ^ 31

/-- Every call did, but for the last. -/
structure Broken (output : Output) : Prop where
  answered : ∀ k, k + 1 < output.calls → output.fault k = none
  small : ∀ buf ∈ output.passed, buf.length < 2 ^ 31

theorem Flawless.broken {output : Output} (h : Flawless output) :
    Broken output := ⟨fun k hk => h.answered k (by omega), h.small⟩

/-- One call more, whatever it was passed. -/
theorem Flawless.next {output : Output} (h : Flawless output)
    {passed : List Bytes} (hsmall : ∀ buf ∈ passed, buf.length < 2 ^ 31) :
    Broken { output with passed := passed, calls := output.calls + 1 }
      ∧ (output.fault output.calls = none →
        Flawless { output with passed := passed, calls := output.calls + 1 }) := by
  refine ⟨⟨fun k hk => h.answered k (by simpa using hk), hsmall⟩, ?_⟩
  intro hfault
  refine ⟨fun k hk => ?_, hsmall⟩
  rcases Nat.lt_succ_iff_lt_or_eq.mp hk with hk | rfl
  · exact h.answered k hk
  · exact hfault

/-- Such code stops at the first call that fails. -/
theorem careful_of_scripted {α : Type} {write : WriteM α}
    (h : Scripted write) : Keeps Flawless Broken (fun _ => True) write := by
  induction h with
  | pure a => exact keeps_pure trivial
  | throw e => exact keeps_throw fun _ => Flawless.broken
  | @writeAll buf hsmall =>
      intro output h
      have hpassed : ∀ b ∈ output.passed ++ [buf], b.length < 2 ^ 31 := by
        simpa [or_imp, forall_and] using And.intro h.small hsmall
      obtain ⟨hbroken, hflawless⟩ := h.next hpassed
      unfold writeAll
      cases hfault : output.fault output.calls with
      | none => exact ⟨hflawless hfault, trivial⟩
      | some error => exact hbroken
  | flush =>
      intro output h
      obtain ⟨hbroken, hflawless⟩ := h.next h.small
      unfold flush
      cases hfault : output.fault output.calls with
      | none => exact ⟨hflawless hfault, trivial⟩
      | some error => exact hbroken
  | bind _ _ ihx ihf => exact keeps_bind ihx fun a _ => ihf a

-- ================================================================== sinks

section
variable {σ : Type}

/-- The error of a call on a sink. -/
def errorOf : EStateM.Result IoError σ Unit → Option IoError
  | .ok _ _ => none
  | .error e _ => some e

/-- The answers an output gave were those of a sink, which its calls took
from one state to another. -/
inductive Served (sink : Sink σ) (start : σ) : Output → σ → Prop where
  | fresh (fault) : Served sink start { fault := fault } start
  | writeAll {output s} (buf) : Served sink start output s →
      output.fault output.calls = errorOf (sink.writeAll buf s) →
      Served sink start
        { output with
          passed := output.passed ++ [buf]
          calls := output.calls + 1 }
        (endState (sink.writeAll buf s))
  | flush {output s} : Served sink start output s →
      output.fault output.calls = errorOf (sink.flush s) →
      Served sink start { output with calls := output.calls + 1 }
        (endState (sink.flush s))

/-- The output under other answers. -/
def answering (fault : Nat → Option IoError) (output : Output) : Output :=
  { output with fault := fault }

/-- The result of a run under other answers. -/
def underAnswers {α : Type} (fault : Nat → Option IoError) :
    EStateM.Result FtIndexError Output α → EStateM.Result FtIndexError Output α
  | .ok a output => .ok a (answering fault output)
  | .error e output => .error e (answering fault output)

/-- Answers that were not given do not matter. -/
theorem Served.answering {sink : Sink σ} {start s : σ} {output : Output}
    (h : Served sink start output s) {fault : Nat → Option IoError}
    (hsame : ∀ k < output.calls, fault k = output.fault k) :
    Served sink start (answering fault output) s := by
  induction h with
  | fresh => exact .fresh fault
  | @writeAll output s buf h hanswer ih =>
      refine .writeAll buf (ih fun k hk => hsame k (Nat.lt_succ_of_lt hk)) ?_
      rw [← hanswer]
      exact hsame output.calls (Nat.lt_succ_self _)
  | @flush output s h hanswer ih =>
      refine .flush (ih fun k hk => hsame k (Nat.lt_succ_of_lt hk)) ?_
      rw [← hanswer]
      exact hsame output.calls (Nat.lt_succ_self _)

/-- Against a sink the code has a run, which depends on the answers given
in it and on no others. -/
def Realizes {α : Type} (sink : Sink σ) (start : σ) (write : WriteM α) : Prop :=
  ∀ output s, Served sink start output s → ∃ fault s',
    (∀ k < output.calls, fault k = output.fault k)
      ∧ Served sink start (endState (write (answering fault output))) s'
      ∧ output.calls ≤ (endState (write (answering fault output))).calls
      ∧ ∀ fault', (∀ k < (endState (write (answering fault output))).calls,
          fault' k = fault k) →
        write (answering fault' output)
          = underAnswers fault' (write (answering fault output))

theorem realizes_bind {α β : Type} {sink : Sink σ} {start : σ} {x : WriteM α}
    {f : α → WriteM β} (hx : Realizes sink start x)
    (hf : ∀ a, Realizes sink start (f a)) : Realizes sink start (x >>= f) := by
  intro output s hserved
  obtain ⟨fault, s', hsame, hserved', hcalls, hlocal⟩ := hx output s hserved
  cases hrun : x (answering fault output) with
  | error e middle =>
      rw [hrun] at hserved' hcalls hlocal
      have hbind := @estate_bind_of_error _ _ _ _ x f _ _ _ hrun
      refine ⟨fault, s', hsame, ?_, ?_, ?_⟩
      · rw [hbind]
        exact hserved'
      · rw [hbind]
        exact hcalls
      · intro fault' hfault'
        rw [hbind] at hfault' ⊢
        exact estate_bind_of_error (hlocal fault' hfault')
  | ok a middle =>
      rw [hrun] at hserved' hcalls hlocal
      obtain ⟨fault₂, s₂, hsame₂, hserved₂, hcalls₂, hlocal₂⟩ :=
        hf a middle s' hserved'
      have hbind : ∀ fault', (∀ k < middle.calls, fault' k = fault k) →
          (x >>= f) (answering fault' output)
            = f a (answering fault' middle) := by
        intro fault' hfault'
        show EStateM.bind x f _ = _
        unfold EStateM.bind
        rw [hlocal fault' hfault']
        rfl
      -- the first half was answered as it still is
      have hmiddle : middle.fault = fault := by
        have h := hlocal fault fun _ _ => rfl
        rw [hrun] at h
        exact congrArg Output.fault (EStateM.Result.ok.inj h).2
      rw [hmiddle] at hsame₂
      rw [← hbind fault₂ hsame₂] at hserved₂ hcalls₂ hlocal₂
      refine ⟨fault₂, s₂, ?_, hserved₂, hcalls.trans hcalls₂, ?_⟩
      · intro k hk
        rw [hsame₂ k (lt_of_lt_of_le hk hcalls), hsame k hk]
      · intro fault' hfault'
        rw [hbind fault' fun k hk => ?_, hlocal₂ fault' hfault']
        rw [hfault' k (lt_of_lt_of_le hk hcalls₂), hsame₂ k hk]

/-- A call that answers what it is told to. -/
def answered (error : Option IoError) (output : Output) :
    EStateM.Result FtIndexError Output Unit :=
  match error with
  | none => .ok () output
  | some error => .error (.io error) output

theorem endState_answered (error : Option IoError) (output : Output) :
    endState (answered error output) = output := by
  cases error <;> rfl

theorem realizes_call {sink : Sink σ} {start : σ} {call : WriteM Unit}
    {answer : σ → EStateM.Result IoError σ Unit} {next : Output → Output}
    (hcall : ∀ output, call output
      = answered (output.fault output.calls) (next output))
    (hnext : ∀ fault output,
      next (answering fault output) = answering fault (next output))
    (hcalls : ∀ output, (next output).calls = output.calls + 1)
    (hserve : ∀ output s, Served sink start output s →
      output.fault output.calls = errorOf (answer s) →
      Served sink start (next output) (endState (answer s))) :
    Realizes sink start call := by
  intro output s hserved
  have hsame : ∀ k < output.calls, Function.update output.fault output.calls
      (errorOf (answer s)) k = output.fault k :=
    fun k hk => Function.update_of_ne (Nat.ne_of_lt hk) _ _
  refine ⟨_, endState (answer s), hsame, ?_, ?_, ?_⟩
  · rw [hcall, endState_answered]
    exact hserve _ s (hserved.answering hsame) (Function.update_self ..)
  · rw [hcall, endState_answered, hcalls]
    exact Nat.le_succ _
  · intro fault' hfault'
    rw [hcall, endState_answered, hcalls] at hfault'
    have hanswer := hfault' output.calls (Nat.lt_succ_self _)
    rw [hcall, hcall, hnext, hnext]
    unfold answering at hanswer ⊢
    dsimp only
    rw [hanswer]
    cases Function.update output.fault output.calls (errorOf (answer s))
      output.calls <;> rfl

/-- Every sink is an output: there are answers under which the code runs
as it does against the sink. -/
theorem realizes_of_scripted {α : Type} {sink : Sink σ} {start : σ}
    {write : WriteM α} (h : Scripted write) : Realizes sink start write := by
  induction h with
  | pure a =>
      intro output s hserved
      exact ⟨output.fault, s, fun _ _ => rfl, hserved, le_rfl, fun _ _ => rfl⟩
  | throw e =>
      intro output s hserved
      exact ⟨output.fault, s, fun _ _ => rfl, hserved, le_rfl, fun _ _ => rfl⟩
  | @writeAll buf _ =>
      refine @realizes_call _ _ _ _ (sink.writeAll buf) (fun output =>
        { output with
          passed := output.passed ++ [buf]
          calls := output.calls + 1 }) (fun output => ?_) (fun _ _ => rfl)
        (fun _ => rfl) (fun _ _ h hanswer => h.writeAll buf hanswer)
      unfold writeAll
      cases output.fault output.calls <;> rfl
  | flush =>
      refine @realizes_call _ _ _ _ sink.flush (fun output =>
        { output with calls := output.calls + 1 }) (fun output => ?_)
        (fun _ _ => rfl) (fun _ => rfl) (fun _ _ h hanswer => h.flush hanswer)
      unfold flush
      cases output.fault output.calls <;> rfl
  | bind _ _ ihx ihf => exact realizes_bind ihx ihf

/-- What a sink has been given, as far as it can tell, is what it was
passed: all of a buffer when it says so, and else a beginning of it. -/
structure Delivers (stored : σ → Bytes) (sink : Sink σ) : Prop where
  writeAll : ∀ buf s, buf.length < 2 ^ 31 →
    ∃ n, stored (endState (sink.writeAll buf s)) = stored s ++ buf.take n
      ∧ (errorOf (sink.writeAll buf s) = none → buf.length ≤ n)
  flush : ∀ s, stored (endState (sink.flush s)) = stored s

variable {stored : σ → Bytes} {sink : Sink σ} {start s : σ} {output : Output}

/-- After calls that all succeeded the sink has every buffer. -/
theorem stored_of_flawless (hdelivers : Delivers stored sink)
    (h : Served sink start output s) (hflawless : Flawless output) :
    stored s = stored start ++ output.bytes := by
  induction h with
  | fresh fault => simp [Output.bytes]
  | @writeAll output s buf _ hanswer ih =>
      have hcall := hflawless.answered output.calls (Nat.lt_succ_self _)
      rw [hanswer] at hcall
      have hsmall := hflawless.small buf (by simp)
      obtain ⟨n, hstored, hall⟩ := hdelivers.writeAll buf s hsmall
      have hbefore := ih ⟨fun k hk => hflawless.answered k (Nat.lt_succ_of_lt hk),
        fun b hb => hflawless.small b (List.mem_append_left _ hb)⟩
      rw [hstored, hbefore, List.take_of_length_le (hall hcall)]
      simp [Output.bytes]
  | @flush output s _ _ ih =>
      have hbefore := ih ⟨fun k hk => hflawless.answered k (Nat.lt_succ_of_lt hk),
        hflawless.small⟩
      rw [hdelivers.flush, hbefore]
      rfl

/-- When the last call may have failed, it has a beginning of them. -/
theorem stored_of_broken (hdelivers : Delivers stored sink)
    (h : Served sink start output s) (hbroken : Broken output) :
    ∃ n, stored s = stored start ++ output.bytes.take n := by
  cases h with
  | fresh fault => exact ⟨0, by simp⟩
  | @writeAll output s buf h _ =>
      have hbefore := stored_of_flawless hdelivers h
        ⟨fun k hk => hbroken.answered k (Nat.succ_lt_succ hk),
          fun b hb => hbroken.small b (List.mem_append_left _ hb)⟩
      obtain ⟨n, hstored, -⟩ := hdelivers.writeAll buf s
        (hbroken.small buf (by simp))
      refine ⟨output.bytes.length + n, ?_⟩
      rw [hstored, hbefore, List.append_assoc]
      congr 1
      simp [Output.bytes, List.take_append, List.take_of_length_le]
  | @flush output s h _ =>
      have hbefore := stored_of_flawless hdelivers h
        ⟨fun k hk => hbroken.answered k (Nat.succ_lt_succ hk), hbroken.small⟩
      refine ⟨output.bytes.length, ?_⟩
      rw [hdelivers.flush, hbefore]
      exact congrArg _ List.take_length.symm

/-- A run of `write` over a sink: what it returned, the session it left,
the bytes it passed on, and the sink's state. -/
def WritesTo (sink : Sink σ) (start : σ) (session : IndexSession)
    (env : WriteEnv) (r : Result Unit) (session' : IndexSession) (bytes : Bytes)
    (s : σ) : Prop :=
  ∃ fault output, session.write env { fault := fault } = (r, session', output)
    ∧ Served sink start output s ∧ output.bytes = bytes

variable {session : IndexSession} {env : WriteEnv}

/-- Over every sink there is one. -/
theorem exists_writesTo (sink : Sink σ) (start : σ) (session : IndexSession)
    (env : WriteEnv) :
    ∃ r session' bytes s, WritesTo sink start session env r session' bytes s := by
  cases hstate : session.writer.state with
  | none =>
      refine ⟨.error (.invalidStorage
        "full-text index writer is already finalized"), session,
        ({} : Output).bytes, start, fun _ => none, {}, ?_, .fresh _, rfl⟩
      unfold IndexSession.write
      rw [hstate]
  | some state =>
      let taken := { session.writer with state := none }
      obtain ⟨fault, s, -, hserved, -⟩ := @realizes_of_scripted σ _ sink start _
        (scripted_finish taken env state) {} start (.fresh _)
      cases hfinish : taken.finish env state (answering fault {}) with
      | ok _ output =>
          rw [hfinish] at hserved
          have hfinish : FullTextIndexWriter.finish
            { session.writer with state := none } env state { fault := fault }
            = .ok () output := hfinish
          refine ⟨.ok (), { session with writer := taken }, output.bytes, s,
            fault, output, ?_, hserved, rfl⟩
          unfold IndexSession.write
          rw [hstate]
          dsimp only
          rw [hfinish]
      | error e output =>
          rw [hfinish] at hserved
          have hfinish : FullTextIndexWriter.finish
            { session.writer with state := none } env state { fault := fault }
            = .error e output := hfinish
          refine ⟨.error e, { session with writer := taken }, output.bytes, s,
            fault, output, ?_, hserved, rfl⟩
          unfold IndexSession.write
          rw [hstate]
          dsimp only
          rw [hfinish]

/-- Whatever a write meets, it stopped at the first call that failed. -/
theorem careful_write {session' : IndexSession} {fault : Nat → Option IoError}
    {r : Result Unit} {output : Output}
    (h : session.write env { fault := fault } = (r, session', output)) :
    Broken output ∧ (r = .ok () → Flawless output) := by
  have hfresh : Flawless { fault := fault } :=
    ⟨fun k hk => absurd hk (Nat.not_lt_zero k), fun _ hb => by cases hb⟩
  unfold IndexSession.write at h
  cases hstate : session.writer.state with
  | none =>
      rw [hstate] at h
      cases h
      exact ⟨hfresh.broken, fun _ => hfresh⟩
  | some state =>
      rw [hstate] at h
      dsimp only at h
      have hrun := careful_of_scripted
        (scripted_finish { session.writer with state := none } env state)
        _ hfresh
      cases hfinish : FullTextIndexWriter.finish
        { session.writer with state := none } env state { fault := fault } with
      | ok _ final =>
          rw [hfinish] at h hrun
          cases h
          exact ⟨hrun.1.broken, fun _ => hrun.1⟩
      | error e final =>
          rw [hfinish] at h hrun
          cases h
          exact ⟨hrun, fun hok => by cases hok⟩

/-- A sink that never fails, on buffers a `jsize` can count. -/
structure Unfailing (sink : Sink σ) : Prop where
  writeAll : ∀ buf s, buf.length < 2 ^ 31 → errorOf (sink.writeAll buf s) = none
  flush : ∀ s, errorOf (sink.flush s) = none

/-- It has answered every call with success. -/
theorem Served.granted (hnever : Unfailing sink)
    (h : Served sink start output s)
    (hsmall : ∀ buf ∈ output.passed, buf.length < 2 ^ 31) :
    ∀ k < output.calls, output.fault k = none := by
  induction h with
  | fresh fault => exact fun k hk => absurd hk (Nat.not_lt_zero k)
  | @writeAll output s buf _ hanswer ih =>
      intro k hk
      rcases Nat.lt_succ_iff_lt_or_eq.mp hk with hk | rfl
      · exact ih (fun b hb => hsmall b (List.mem_append_left _ hb)) k hk
      · exact hanswer.trans (hnever.writeAll buf s (hsmall buf (by simp)))
  | @flush output s _ hanswer ih =>
      intro k hk
      rcases Nat.lt_succ_iff_lt_or_eq.mp hk with hk | rfl
      · exact ih hsmall k hk
      · exact hanswer.trans (hnever.flush s)

/-- So the code runs against it as it does when every call succeeds. -/
theorem served_of_unfailing {α : Type} {write : WriteM α} (h : Scripted write)
    (hnever : Unfailing sink) (start : σ) :
    ∃ s, Served sink start (endState (write {})) s := by
  obtain ⟨fault, s, -, hserved, -, hlocal⟩ :=
    @realizes_of_scripted σ α sink start _ h {} start (.fresh _)
  have hfresh : Flawless (answering fault {}) :=
    ⟨fun k hk => absurd hk (Nat.not_lt_zero k), fun _ hb => by cases hb⟩
  have hcareful := careful_of_scripted h _ hfresh
  have hself := hlocal fault fun _ _ => rfl
  have hgranted := fun hsmall => hserved.granted hnever hsmall
  have hnone := hlocal fun _ => none
  change (∀ k < _, none = fault k) → write {} = _ at hnone
  cases hrun : write (answering fault {}) with
  | ok a output =>
      rw [hrun] at hcareful hserved hself hgranted hnone
      have hgranted := hgranted hcareful.1.small
      have hfault : output.fault = fault :=
        congrArg Output.fault (EStateM.Result.ok.inj hself).2
      refine ⟨s, ?_⟩
      rw [hnone fun k hk => hfault ▸ (hgranted k hk).symm]
      exact hserved.answering fun k hk => (hgranted k hk).symm
  | error e output =>
      rw [hrun] at hcareful hserved hself hgranted hnone
      have hgranted := hgranted hcareful.small
      have hfault : output.fault = fault :=
        congrArg Output.fault (EStateM.Result.error.inj hself).2
      refine ⟨s, ?_⟩
      rw [hnone fun k hk => hfault ▸ (hgranted k hk).symm]
      exact hserved.answering fun k hk => (hgranted k hk).symm

/-- A write that returns when nothing fails returns over such a sink. -/
theorem writesTo_of_unfailing (hnever : Unfailing sink) (start : σ)
    {session' : IndexSession} {output : Output}
    (h : session.write env {} = (.ok (), session', output)) :
    ∃ s, WritesTo sink start session env (.ok ()) session' output.bytes s := by
  cases hstate : session.writer.state with
  | none =>
      unfold IndexSession.write at h
      rw [hstate] at h
      cases h
  | some state =>
      obtain ⟨s, hserved⟩ := served_of_unfailing
        (scripted_finish { session.writer with state := none } env state)
        hnever start
      refine ⟨s, fun _ => none, output, h, ?_, rfl⟩
      unfold IndexSession.write at h
      rw [hstate] at h
      dsimp only at h
      cases hfinish : FullTextIndexWriter.finish
        { session.writer with state := none } env state {} with
      | ok _ final =>
          rw [hfinish] at h hserved
          cases h
          exact hserved
      | error e final =>
          rw [hfinish] at h
          cases h

/-- What a write has left with a sink: a beginning of what it passed on,
and all of it when it returned. -/
theorem stored_of_write {stored : σ → Bytes} {sink : Sink σ} {start s : σ}
    (hdelivers : Delivers stored sink) {r : Result Unit}
    {session' : IndexSession} {bytes : Bytes}
    (h : WritesTo sink start session env r session' bytes s) :
    ∃ n, stored s = stored start ++ bytes.take n
      ∧ (r = .ok () → bytes.length ≤ n) := by
  obtain ⟨fault, output, hwrite, hserved, rfl⟩ := h
  obtain ⟨hbroken, hflawless⟩ := careful_write hwrite
  cases r with
  | ok =>
      refine ⟨output.bytes.length, ?_, fun _ => le_rfl⟩
      rw [List.take_length]
      exact stored_of_flawless hdelivers hserved (hflawless rfl)
  | error e =>
      obtain ⟨n, hn⟩ := stored_of_broken hdelivers hserved hbroken
      exact ⟨n, hn, fun hok => by cases hok⟩

end

-- ================================================================ round trips

section
variable {σ : Type} {stored : σ → Bytes} {s : σ}

/-- The Python object has appended what it was passed when `write`
returned, and a beginning of it when it raised. What it raises are
`Exception`s. -/
structure PyAppends (output : PyOutput σ) (stored : σ → Bytes) : Prop where
  write : ∀ data s, ∃ n, stored (output.write data s).2 = stored s ++ data.take n
    ∧ ((output.write data s).1 = .returned () → data.length ≤ n)
  flush : ∀ flush, output.flush = some flush → ∀ s, stored (flush s).2 = stored s
  exceptions : ∀ data s status, (output.write data s).1 ≠ .raisedOther status

theorem pyAnswer_returned {answer : PyAnswer Unit}
    (hexceptions : ∀ status, answer ≠ .raisedOther status)
    (h : answer.status = 0) : answer = .returned () := by
  cases answer with
  | returned _ => rfl
  | raisedException => cases h
  | raisedOther status => exact absurd rfl (hexceptions status)

theorem delivers_py {output : PyOutput σ} (h : PyAppends output stored) :
    Delivers stored (FfiOutputFile.sink (some (pyWriteFn output))
      (some (pyFlushFn output))) := by
  constructor
  · intro buf s _
    obtain ⟨n, hstored, hall⟩ := h.write buf s
    have hexceptions := h.exceptions buf s
    refine ⟨n, ?_⟩
    unfold FfiOutputFile.sink FfiOutputFile.writeAll pyWriteFn
    dsimp only
    by_cases hstatus : (output.write buf s).1.status = 0
    · rw [if_pos hstatus]
      exact ⟨hstored, fun _ => hall (pyAnswer_returned hexceptions hstatus)⟩
    · rw [if_neg hstatus]
      exact ⟨hstored, fun hnone => by cases hnone⟩
  · intro s
    have hkept : stored (pyFlushFn output s).2 = stored s := by
      unfold pyFlushFn
      cases hflush : output.flush with
      | none => rfl
      | some flush => exact h.flush flush hflush s
    unfold FfiOutputFile.sink FfiOutputFile.flush
    dsimp only
    cases hcall : pyFlushFn output s with
    | mk status t =>
        rw [hcall] at hkept
        dsimp only
        by_cases hstatus : status ≠ 0
        · rw [if_pos hstatus]
          exact hkept
        · rw [if_neg hstatus]
          exact hkept

/-- The bytes a Java object stores, without their signs. -/
def unsigned (stored : σ → List Int8) (s : σ) : Bytes :=
  (stored s).map Int8.toUInt8

/-- The Java object has appended the region it was handed when `write`
returned, and a beginning of it when it threw. Nothing else the JVM does
for a native write touches it. -/
structure JavaAppends (output : JavaOutput σ) (stored : σ → List Int8) : Prop where
  write : ∀ array length s, ∃ n,
    stored (endState (output.writeMethod array 0 length s))
        = stored s ++ (array.take length.toInt.toNat).take n
      ∧ (∀ t, output.writeMethod array 0 length s = .ok () t →
        length.toInt.toNat ≤ n)
  flush : ∀ s, stored (endState (output.flushMethod s)) = stored s
  attach : ∀ s, stored (endState (output.jvm.attachCurrentThread s)) = stored s
  grants : ∀ len s, stored (endState (output.jvm.grantsArray len s)) = stored s

theorem endState_jvmCall {α : Type} {words : String} {m : EStateM String σ α} :
    endState (jvmCall words m s) = endState (m s) := by
  unfold jvmCall
  cases m s <;> rfl

/-- A sequence failed in its first half, or went on to its second. -/
theorem estate_bind_cases {ε α β : Type} (x : EStateM ε σ α)
    (f : α → EStateM ε σ β) (s : σ) :
    (∃ e t, x s = .error e t ∧ (x >>= f) s = .error e t)
      ∨ ∃ a t, x s = .ok a t ∧ (x >>= f) s = f a t := by
  cases hx : x s with
  | ok a t =>
      right
      refine ⟨a, t, rfl, ?_⟩
      show EStateM.bind x f s = _
      unfold EStateM.bind
      rw [hx]
  | error e t => exact .inl ⟨e, t, rfl, estate_bind_of_error hx⟩

theorem setByteArrayRegion_eq {array signed : List Int8}
    (hlen : array.length = signed.length) (hsmall : signed.length < 2 ^ 31) :
    setByteArrayRegion array signed s = .ok signed s := by
  obtain ⟨hnonneg, hnat⟩ := toNat_int32 hsmall
  unfold setByteArrayRegion
  dsimp only
  rw [hnat, if_neg (by simp [hnonneg, hlen]), List.take_length,
    List.drop_eq_nil_of_le (by omega), List.append_nil]
  rfl

theorem stored_newByteArray {self : JavaOutput σ} {stored : σ → List Int8}
    (h : JavaAppends self stored) (len : Int32) (s : σ) :
    stored (endState (self.jvm.newByteArray len s)) = stored s := by
  have hgrants := h.grants len s
  unfold JavaVm.newByteArray
  by_cases hneg : len < 0
  · rw [if_pos hneg]
    rfl
  · rw [if_neg hneg]
    dsimp only
    rcases estate_bind_cases (self.jvm.grantsArray len)
      (fun _ => pure (List.replicate len.toInt.toNat (0 : Int8))) s with
      ⟨e, t, hcall, hrun⟩ | ⟨_, t, hcall, hrun⟩
    · rw [hcall] at hgrants
      rw [hrun]
      exact hgrants
    · rw [hcall] at hgrants
      rw [hrun]
      exact hgrants

/-- What a call on a Java output has done with a buffer. -/
def Hands (stored : σ → List Int8) (buf : Bytes)
    (call : EStateM IoError σ Unit) (s : σ) : Prop :=
  ∃ n, unsigned stored (endState (call s)) = unsigned stored s ++ buf.take n
    ∧ (errorOf (call s) = none → buf.length ≤ n)

/-- A step in front that leaves the object alone. -/
theorem hands_bind {α : Type} {stored : σ → List Int8} {buf : Bytes}
    {x : EStateM IoError σ α} {f : α → EStateM IoError σ Unit} {s : σ}
    (hx : stored (endState (x s)) = stored s)
    (hf : ∀ a t, x s = .ok a t → Hands stored buf (f a) t) :
    Hands stored buf (x >>= f) s := by
  unfold Hands
  rcases estate_bind_cases x f s with ⟨e, t, hcall, hrun⟩ | ⟨a, t, hcall, hrun⟩
  · rw [hcall] at hx
    rw [hrun]
    refine ⟨0, ?_, fun hnone => by cases hnone⟩
    rw [List.take_zero, List.append_nil]
    exact congrArg (List.map _) hx
  · obtain ⟨n, hstored, hall⟩ := hf a t hcall
    rw [hcall] at hx
    rw [hrun]
    refine ⟨n, ?_, hall⟩
    rw [hstored]
    unfold unsigned
    rw [show stored t = stored s from hx]

theorem delivers_java {self : JavaOutput σ} {stored : σ → List Int8}
    (h : JavaAppends self stored) : Delivers (unsigned stored) self.sink := by
  constructor
  · intro buf s hsmall
    show Hands stored buf (self.writeAll buf) s
    have hnat := (toNat_int32 hsmall).2
    refine hands_bind (by rw [endState_jvmCall]; exact h.attach s) fun _ t _ => ?_
    refine hands_bind (by rw [endState_jvmCall]; exact stored_newByteArray h _ t)
      fun array u harray => ?_
    rw [jvmCall_eq_ok] at harray
    have hregion := @setByteArrayRegion_eq σ u array (buf.map UInt8.toInt8)
      (by rw [newByteArray_eq_ok harray, List.length_replicate, hnat,
        List.length_map])
      (by rw [List.length_map]; exact hsmall)
    refine hands_bind (by rw [endState_jvmCall, hregion]; rfl)
      fun array' v harray' => ?_
    rw [jvmCall_eq_ok, hregion] at harray'
    cases harray'
    obtain ⟨n, hstored, hall⟩ := h.write (buf.map UInt8.toInt8)
      (Int32.ofNat buf.length) u
    have hwhole : (buf.map UInt8.toInt8).take buf.length
        = buf.map UInt8.toInt8 := List.take_of_length_le (by rw [List.length_map])
    rw [hnat, hwhole] at hstored
    rw [hnat] at hall
    refine ⟨n, ?_, fun hnone => ?_⟩
    · rw [endState_jvmCall]
      unfold unsigned
      rw [hstored, List.map_append, ← List.map_take, List.map_map]
      congr 1
      exact List.map_id _
    · unfold jvmCall at hnone
      cases hcall : self.writeMethod (buf.map UInt8.toInt8) 0
        (Int32.ofNat buf.length) u with
      | ok _ t => exact hall t hcall
      | error e t =>
          rw [hcall] at hnone
          cases hnone
  · intro s
    show unsigned stored (endState (self.flush s)) = _
    have hkept : stored (endState (self.flush s)) = stored s := by
      have hattach := h.attach s
      rw [← @endState_jvmCall σ s _ "JNI attach failed: "] at hattach
      unfold JavaOutput.flush
      rcases estate_bind_cases
        (jvmCall "JNI attach failed: " self.jvm.attachCurrentThread)
        (fun _ => jvmCall "Java output flush failed: " self.flushMethod) s with
        ⟨e, t, hcall, hrun⟩ | ⟨_, t, hcall, hrun⟩
      · rw [hcall] at hattach
        rw [hrun]
        exact hattach
      · rw [hcall] at hattach
        rw [hrun, endState_jvmCall, h.flush]
        exact hattach
    exact congrArg (List.map _) hkept

end

section
variable {σ τ : Type}

/-- The buffers a read returned. -/
def readBack {ε : Type} :
    EStateM.Result ε Unit (List Bytes) → Option (List Bytes)
  | .ok bufs _ => some bufs
  | .error _ _ => none

theorem eq_ok_of_readBack {ε : Type} {bufs : List Bytes}
    {r : EStateM.Result ε Unit (List Bytes)} (h : readBack r = some bufs) :
    r = .ok bufs () := by
  cases r with
  | ok a _ =>
      cases h
      rfl
  | error e _ => cases h

-- a `write` left by something that is no `Exception` may pass for a success
example : FfiOutputFile.writeAll
    (some (pyWriteFn ⟨fun _ s => (.raisedOther 0, s), none⟩)) [0x61]
      ([] : Bytes) = .ok () [] := rfl

/-- A list of bytes, written to. -/
def byteListOutput : PyOutput Bytes where
  write data s := (.returned (), s ++ data)
  flush := none

/-- A list of bytes, read from; at its end it answers with fewer. -/
def byteListInput (data : Bytes) : PyInput Unit := fun pos len s =>
  (.returned ((data.drop pos).take len), s)

theorem byteListOutput_appends : PyAppends byteListOutput fun s => s := by
  refine ⟨fun data s => ⟨data.length, ?_, fun _ => le_rfl⟩, ?_, ?_⟩
  · rw [List.take_length]
    rfl
  · intro flush h
    cases h
  · intro data s status h
    cases h

theorem byteListOutput_unfailing :
    Unfailing (FfiOutputFile.sink (some (pyWriteFn byteListOutput))
      (some (pyFlushFn byteListOutput))) :=
  ⟨fun _ _ _ => rfl, fun _ => rfl⟩

theorem byteListInput_serves (data : Bytes) :
    PyServes (byteListInput data) data := by
  refine ⟨fun pos len s out s' h => ?_, fun pos len s status h => ?_⟩
  · cases h
    exact List.take_prefix len (data.drop pos)
  · cases h

/-- A JVM that grants everything. -/
def grantingVm {ρ : Type} : JavaVm ρ where
  attachCurrentThread := pure ()
  grantsArray _ := pure ()

/-- A Java list of bytes, written to. -/
def signedListOutput : JavaOutput (List Int8) where
  jvm := grantingVm
  writeMethod buffer offset length := modify fun s =>
    s ++ (buffer.drop offset.toInt.toNat).take length.toInt.toNat
  flushMethod := pure ()

/-- A Java list of bytes, read from; it throws behind its end. -/
def signedListInput (stored : List Int8) : JavaInput Unit where
  jvm := grantingVm
  preadMethod position buffer offset length := do
    if stored.length < position.toInt.toNat + length.toInt.toNat
        ∨ buffer.length < offset.toInt.toNat + length.toInt.toNat then
      throw "EOFException"
    return ⟨(List.range buffer.length).map fun i =>
      stored.getD (position.toInt.toNat + (i - offset.toInt.toNat)) 0, by simp⟩
  getArrayLength := pure ()
  getByteArrayRegion := pure ()

theorem signedListOutput_appends :
    JavaAppends signedListOutput fun s => s := by
  refine ⟨fun array length s => ⟨length.toInt.toNat, ?_, fun _ _ => le_rfl⟩,
    fun _ => rfl, fun _ => rfl, fun _ _ => rfl⟩
  rw [List.take_take, Nat.min_self]
  rfl

theorem signedListInput_serves (stored : List Int8) :
    JavaServes (signedListInput stored) stored := by
  intro position buffer offset length s array s' _ h i hi
  unfold signedListInput at h
  dsimp only at h
  split at h
  · cases h
  · rename_i hroom
    cases h
    have hin : position.toInt.toNat + i < stored.length := by omega
    refine ⟨stored[position.toInt.toNat + i],
      List.getElem?_eq_getElem hin, ?_⟩
    have hslot : offset.toInt.toNat + i < buffer.length := by omega
    dsimp only
    rw [List.getElem?_map, List.getElem?_range hslot, Option.map_some,
      Nat.add_sub_cancel_left, List.getD_eq_getElem?_getD,
      List.getElem?_eq_getElem hin, Option.getD_some]

theorem signedListOutput_unfailing : Unfailing signedListOutput.sink := by
  refine ⟨fun buf s hsmall => ?_, fun _ => rfl⟩
  have hnat := toNat_int32 hsmall
  have hregion := @setByteArrayRegion_eq (List Int8) s
    (List.replicate buf.length 0) (buf.map UInt8.toInt8)
    (by rw [List.length_replicate, List.length_map])
    (by rw [List.length_map]; exact hsmall)
  have hgranted : signedListOutput.jvm.newByteArray (Int32.ofNat buf.length) s
      = .ok (List.replicate buf.length 0) s := by
    unfold JavaVm.newByteArray
    rw [if_neg hnat.1, hnat.2]
    rfl
  have hwritten : ∃ t, signedListOutput.writeAll buf s = .ok () t := by
    unfold JavaOutput.writeAll
    simp only [estate_bind_eq_ok]
    exact ⟨_, (), s, rfl, _, s, jvmCall_eq_ok.mpr hgranted, _, s,
      jvmCall_eq_ok.mpr hregion, rfl⟩
  obtain ⟨t, hwritten⟩ := hwritten
  unfold JavaOutput.sink
  dsimp only
  rw [hwritten]
  rfl

end

end PaimonFtindex.Proofs

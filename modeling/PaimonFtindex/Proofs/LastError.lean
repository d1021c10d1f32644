/-
A failed call raises its own message.

`LAST_ERROR` is written by every failing call and never cleared, and
Python reads it after the call has returned, when callbacks of the same
call may have failed as well, calls before it too, and other threads are
failing at any time. What is read is still the message of the call that
failed: its own `set_error` is the last thing it does, and the slot is
its thread's. A thread's view is its slot (`Lib/Views.lean`).
-/
import PaimonFtindex.Model.LastError
import PaimonFtindex.Proofs.CStrings

namespace PaimonFtindex.Proofs

open Model Lib

-- ============================================================ the messages

/-- The exception of a call that fails with a message: its text without
NULs, or the fallback for no text at all. -/
def ownError (returned : Returned) (message : String) : Raised :=
  .runtimeError
    (if message.isEmpty then returned.fallback else replaceNul message)

/-- No NUL is left in a message. -/
theorem nul_notMem_replaceNul (message : String) :
    '\x00' ∉ (replaceNul message).toList := by
  unfold replaceNul
  rw [String.toList_ofList, List.mem_flatMap]
  intro h
  obtain ⟨c, -, hc⟩ := h
  by_cases hnul : c = '\x00'
  · rw [if_pos hnul] at hc
    simp at hc
  · rw [if_neg hnul, List.mem_singleton] at hc
    exact hnul hc.symm

theorem replaceNul_eq_nil_iff (message : String) :
    (replaceNul message).toList = [] ↔ message.isEmpty = true := by
  unfold replaceNul
  rw [String.toList_ofList, List.flatMap_eq_nil_iff, String.isEmpty_iff,
    ← String.toList_eq_nil_iff]
  constructor
  · intro h
    rw [List.eq_nil_iff_forall_not_mem]
    intro c hc
    have hnil := h c hc
    by_cases hnul : c = '\x00'
    · rw [if_pos hnul] at hnil
      cases hnil
    · rw [if_neg hnul] at hnil
      cases hnil
  · intro h c hc
    rw [h] at hc
    cases hc

theorem cutAtNul_eq_self {cs : List Char} (h : '\x00' ∉ cs) :
    cutAtNul cs = cs := by
  unfold cutAtNul
  rw [List.takeWhile_eq_self_iff]
  intro c hc
  rw [decide_eq_true_iff]
  intro hnul
  exact h (hnul ▸ hc)

/-- A text without NULs is put into the slot as it is. -/
theorem cstringNew_eq {s : String} (h : '\x00' ∉ s.toList) :
    cstringNew s = some (charPointer (stringBytes s)) := by
  unfold cstringNew
  rw [if_neg]
  intro hmem
  obtain ⟨c, hc, hzero⟩ := List.mem_flatMap.mp hmem
  rw [zero_mem_utf8EncodeChar] at hzero
  exact h (hzero ▸ hc)

/-- What a call puts into its slot is raised as its own message. -/
theorem raisedError_own (returned : Returned) (message : String) :
    raisedError returned (cstringNew (replaceNul message))
      = ownError returned message := by
  have hnul := nul_notMem_replaceNul message
  have hread : cstrFromPtr (charPointer (stringBytes (replaceNul message)))
      = stringBytes (replaceNul message) := by
    unfold stringBytes
    rw [cstrFromPtr_charPointer, cutAtNul_eq_self hnul]
  have htext : String.fromUTF8?
      ⟨(stringBytes (replaceNul message)).toArray⟩
      = some (replaceNul message) := by
    unfold stringBytes
    rw [fromUTF8?_encoded, String.ofList_toList]
  have hempty : (stringBytes (replaceNul message)).isEmpty
      = message.isEmpty := by
    rw [Bool.eq_iff_iff, ← replaceNul_eq_nil_iff, List.isEmpty_iff]
    unfold stringBytes
    rw [List.flatMap_eq_nil_iff]
    constructor
    · intro h
      rw [List.eq_nil_iff_forall_not_mem]
      intro c hc
      exact String.utf8EncodeChar_ne_nil (h c hc)
    · intro h c hc
      rw [h] at hc
      cases hc
  unfold raisedError ownError
  rw [cstringNew_eq hnul, Option.map_some, hread]
  dsimp only
  rw [hempty, htext]
  by_cases h : message.isEmpty = true
  · rw [if_pos h, if_pos h]
  · rw [if_neg h, if_neg h]

-- ============================================================== the threads

/-- A thread's view is its slot. -/
def SeesSlot (thread : Nat) (s : LastErrors) (slot : Option Bytes) : Prop :=
  s.slots thread = slot

/-- A thread stays on its slot, and what it raises is its own. -/
def ErrorLegal (thread : Nat) (_slot : Option Bytes) : ErrorOp → Prop
  | .setError t _ => t = thread
  | .lastError t => t = thread
  | .raised t returned message exception =>
      t = thread ∧ exception = ownError returned message

/-- What an operation does to the slot of its thread. -/
def ErrorLocal (_thread : Nat) (slot : Option Bytes) :
    (op : ErrorOp) → op.Res → Option Bytes → Prop
  | .setError _ message, _, slot' => slot' = cstringNew (replaceNul message)
  | .lastError _, err, slot' => err = slot ∧ slot' = slot
  | .raised _ _ _ _, _, slot' => slot' = slot

theorem viewed_errors :
    Viewed ErrorStep (fun _ => True) SeesSlot ErrorLegal ErrorLocal where
  own := by
    intro s i v op r s' _ hsees hlegal h
    cases h with
    | setError t message =>
        cases hlegal
        exact ⟨trivial, _, rfl, s.set_slots_self i message⟩
    | lastError t =>
        cases hlegal
        exact ⟨trivial, v, ⟨hsees, rfl⟩, hsees⟩
    | raised t returned message exception =>
        exact ⟨trivial, v, rfl, hsees⟩
  other := by
    intro s i v op r s' j v' _ _ hlegal h hne hsees
    cases h with
    | setError t message =>
        cases hlegal
        exact (s.set_slots_of_ne message (Ne.symm hne)).trans hsees
    | lastError t => exact hsees
    | raised t returned message exception => exact hsees

variable {thread : Nat}

/-- The end of a call raises the call's own message, whatever the slot
held before. -/
theorem follows_finishCall (returned : Returned)
    (outcome : Except String Unit) (slot : Option Bytes) :
    (finishCall thread returned outcome).Follows (ErrorLegal thread)
      (ErrorLocal thread) (fun _ _ => True) slot := by
  cases outcome with
  | ok u => trivial
  | error message =>
      refine ⟨rfl, fun _ slot hset => ⟨rfl, fun err slot' hread => ?_⟩⟩
      obtain ⟨herr, -⟩ := hread
      have hslot : slot = cstringNew (replaceNul message) := hset
      rw [herr, hslot]
      exact ⟨⟨rfl, raisedError_own returned message⟩, fun _ _ _ => trivial⟩

mutual

/-- A call keeps to what its own thread may do, whatever its callbacks call
and whatever the slot holds. -/
theorem follows_program : ∀ (call : NativeCall) (slot : Option Bytes),
    (call.program thread).Follows (ErrorLegal thread) (ErrorLocal thread)
      (fun _ _ => True) slot
  | .call returned callbacks outcome, slot => by
      rw [NativeCall.program]
      exact (follows_callbacks callbacks slot).bind (fun _ _ _ => trivial)
        fun slot _ _ => follows_finishCall returned outcome slot

/-- Whatever the callbacks have left in the slot, the next call starts
over. -/
theorem follows_callbacks : ∀ (calls : List NativeCall) (slot : Option Bytes),
    (callbackPrograms thread calls).Follows (ErrorLegal thread)
      (ErrorLocal thread) (fun _ _ => True) slot
  | [], _ => by
      rw [callbackPrograms]
      trivial
  | call :: calls, slot => by
      rw [callbackPrograms]
      exact (follows_program call slot).attempt_bind fun slot _ _ =>
        follows_callbacks calls slot

end

/-- Every exception carries the message of the call that raised it: with
any errors left from before, any calls on any threads, each making any
calls in its callbacks, in any interleaving. -/
theorem raised_own (before : LastErrors) (threads : List (List NativeCall))
    {c : Config ErrorOp ErrorOp.Res Raised Unit LastErrors}
    {es : List (Event ErrorOp ErrorOp.Res LastErrors)}
    (h : Run ErrorStep (nativeThreads before threads) es c) :
    ∀ e ∈ es, ∀ t returned message exception,
      e.op = .raised t returned message exception →
        t = e.thread ∧ exception = ownError returned message := by
  have hfollow : AllFollow (fun _ => True) SeesSlot ErrorLegal ErrorLocal
      (fun _ _ _ => True) (nativeThreads before threads) := by
    refine ⟨trivial, fun i p hp => ?_⟩
    unfold nativeThreads at hp
    rw [List.getElem?_mapIdx, Option.map_eq_some_iff] at hp
    obtain ⟨calls, -, rfl⟩ := hp
    exact ⟨_, rfl, follows_callbacks calls _⟩
  intro e he t returned message exception hop
  obtain ⟨v, -, hlegal⟩ := legal_of_run viewed_errors hfollow h e he
  rw [hop] at hlegal
  exact hlegal

theorem errorStep_total (s : LastErrors) (op : ErrorOp) :
    ∃ r s', ErrorStep s op r s' := by
  cases op with
  | setError t message => exact ⟨_, _, ErrorStep.setError s t message⟩
  | lastError t => exact ⟨_, _, ErrorStep.lastError s t⟩
  | raised t returned message exception =>
      exact ⟨(), s, ErrorStep.raised s t returned message exception⟩

/-- A write that fails because a call in its callback failed. -/
def nestedFailure : NativeCall :=
  .call .status [.call .pointer [] (.error "io error: pread failed")]
    (.error "io error: write callback failed")

/-- It runs to its end, beside another thread, and both raise their
own. -/
theorem raised_own_nested :
    ∃ es c, Run ErrorStep (nativeThreads ⟨fun _ => none⟩
        [[nestedFailure], [nestedFailure]]) es c
      ∧ (∃ q, c.threads[0]? = some q ∧ q.Ended)
      ∧ ∀ e ∈ es, ∀ t returned message exception,
        e.op = .raised t returned message exception →
          t = e.thread ∧ exception = ownError returned message := by
  obtain ⟨es, c, hrun, hend⟩ := exists_run_to_end errorStep_total
    (show (nativeThreads ⟨fun _ => none⟩
      [[nestedFailure], [nestedFailure]]).threads[0]?
        = some (callbackPrograms 0 [nestedFailure]) from rfl)
  exact ⟨es, c, hrun, hend, raised_own _ _ hrun⟩

end PaimonFtindex.Proofs

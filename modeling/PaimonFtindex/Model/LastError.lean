/-
How a native failure becomes a Python exception: `set_error`,
`ffi_status`, `ffi_ptr` and `paimon_ftindex_last_error` of ffi/src/lib.rs,
and `check_status` and `check_ptr` of python/paimon_ftindex/_ffi.py.

A failed native call puts its message into `LAST_ERROR` of its thread and
returns a status or a null pointer; Python then asks for the message.
Between the start of a native call and its end Python code may run on the
same thread, the callbacks of files, and may make native calls of its
own; what it makes of their exceptions is its own affair, the callback
answers with a status. A panic is a failure with the panic's message.
-/
import PaimonFtindex.Lib.Views
import PaimonFtindex.Model.Ffi

namespace PaimonFtindex.Model

open Lib

-- ========================================================= the native side

/-- `msg.replace('\0', "\\0")`. -/
def replaceNul (message : String) : String :=
  String.ofList (message.toList.flatMap fun c =>
    if c = '\x00' then ['\\', '0'] else [c])

/-- The bytes of a `String`. -/
def stringBytes (s : String) : Bytes :=
  s.toList.flatMap String.utf8EncodeChar

/-- `CString::new(msg).ok()`: the bytes and a NUL behind them, none when
there is a NUL among them. -/
def cstringNew (message : String) : Option Bytes :=
  if 0 ∈ stringBytes message then none
  else some (charPointer (stringBytes message))

/-- `LAST_ERROR` of every thread. -/
structure LastErrors where
  slots : Nat → Option Bytes

/-- `set_error` on a thread. -/
def LastErrors.set (self : LastErrors) (thread : Nat) (message : String) :
    LastErrors :=
  { slots := fun t =>
      if t = thread then cstringNew (replaceNul message) else self.slots t }

@[simp] theorem LastErrors.set_slots_self (self : LastErrors) (thread : Nat)
    (message : String) :
    (self.set thread message).slots thread = cstringNew (replaceNul message) :=
  if_pos rfl

theorem LastErrors.set_slots_of_ne (self : LastErrors) {t thread : Nat}
    (message : String) (h : t ≠ thread) :
    (self.set thread message).slots t = self.slots t :=
  if_neg h

-- ========================================================= the Python side

/-- The exception of a failed call. -/
inductive Raised where
  | runtimeError (text : String)
  | unicodeDecodeError
  deriving DecidableEq, Repr

/-- Which of `check_status` and `check_ptr` looks at the result. -/
inductive Returned where
  | status
  | pointer
  deriving DecidableEq, Repr

/-- The text without an error. -/
def Returned.fallback : Returned → String
  | .status => "native full-text index call failed"
  | .pointer => "native full-text index returned null"

/-- What is raised: `err` is the `bytes` object ctypes makes of the
pointer, and an empty one is no error. -/
def raisedError (returned : Returned) (err : Option Bytes) : Raised :=
  match err.map cstrFromPtr with
  | none => .runtimeError returned.fallback
  | some bytes =>
      if bytes.isEmpty then .runtimeError returned.fallback
      else match String.fromUTF8? ⟨bytes.toArray⟩ with
        | some text => .runtimeError text
        | none => .unicodeDecodeError

-- =============================================================== the calls

/-- The atomic steps of a failing call, with the thread it is on. `raised`
is the exception of the call whose message is given. -/
inductive ErrorOp where
  | setError (thread : Nat) (message : String)
  | lastError (thread : Nat)
  | raised (thread : Nat) (returned : Returned) (message : String)
      (exception : Raised)

def ErrorOp.Res : ErrorOp → Type
  | .lastError _ => Option Bytes
  | _ => Unit

inductive ErrorStep : LastErrors → (op : ErrorOp) → op.Res → LastErrors → Prop
  | setError (s : LastErrors) (t : Nat) (message : String) :
      ErrorStep s (.setError t message) () (s.set t message)
  | lastError (s : LastErrors) (t : Nat) :
      ErrorStep s (.lastError t) (s.slots t) s
  | raised (s : LastErrors) (t : Nat) (returned : Returned) (message : String)
      (exception : Raised) :
      ErrorStep s (.raised t returned message exception) () s

abbrev ErrorProg := Prog ErrorOp ErrorOp.Res Raised

/-- A call that Python makes: the native calls made in its callbacks, in
order, and how its body ends, well or with a message. -/
inductive NativeCall where
  | call (returned : Returned) (callbacks : List NativeCall)
      (outcome : Except String Unit)

/-- The end of `ffi_status` or `ffi_ptr`, and the check behind it. -/
def finishCall (thread : Nat) (returned : Returned) :
    Except String Unit → ErrorProg Unit
  | .ok () => .ret ()
  | .error message =>
      .call (.setError thread message) fun _ =>
        .call (.lastError thread) fun err =>
          .call (.raised thread returned message (raisedError returned err))
            fun _ => .fail (raisedError returned err)

mutual

/-- The call on a thread. -/
def NativeCall.program (thread : Nat) : NativeCall → ErrorProg Unit
  | .call returned callbacks outcome => do
      callbackPrograms thread callbacks
      finishCall thread returned outcome

/-- Calls one after the other; an exception ends none of the others. -/
def callbackPrograms (thread : Nat) : List NativeCall → ErrorProg Unit
  | [] => .ret ()
  | call :: calls => do
      let _ ← ((call.program thread).attempt : ErrorProg (Except Raised Unit))
      callbackPrograms thread calls

end

/-- Threads that make calls, with whatever errors there are from
before. -/
def nativeThreads (before : LastErrors) (threads : List (List NativeCall)) :
    Config ErrorOp ErrorOp.Res Raised Unit LastErrors where
  shared := before
  threads := threads.mapIdx callbackPrograms

end PaimonFtindex.Model

/-
The handles of ffi/src/lib.rs and jni/src/lib.rs, and the wrappers that
hold them: python/paimon_ftindex/writer.py and reader.py, and
FullTextIndexWriter.java and FullTextIndexReader.java.

A handle is the address of a boxed writer or reader. Native code turns
it back into a reference or a box without a check but for null, so an
address that is not that of a live box, or a writer borrowed twice, is
undefined behaviour; `undefined` records that it happened. What a native
call does inside is left open: it borrows the box on entry and gives it
back on return, and anything may run in between, other threads as well
as the callbacks of the call itself.

The wrappers do not lock. A call on one begins when its users let it:
alone, or beside other calls that only read (`World.Admits`).
-/
import Mathlib.Data.List.AList
import PaimonFtindex.Lib.Interleave

namespace PaimonFtindex.Model

open Lib

-- ============================================================== the world

/-- `WriterHandle` and `ReaderHandle`: what is in the box. -/
inductive HandleKind where
  | writer
  | reader
  deriving DecidableEq, Repr

/-- A boxed handle: the wrapper it was made for, and the calls that have
borrowed it. -/
structure NativeObject where
  kind : HandleKind
  owner : Nat
  inside : List Nat := []
  deriving DecidableEq, Repr

/-- The fields of a wrapper. `_closed` is Python's; the address is
`_ptr` or `nativePtr`, with null for `None`, and is missing until the
constructor sets it. -/
structure Wrapper where
  closed : Bool := false
  ptr : Option UInt64 := none
  deriving DecidableEq, Repr

/-- How a call uses its wrapper. -/
inductive Mode where
  | create
  | shared
  | exclusive
  deriving DecidableEq, Repr

/-- A call under way, and the wrapper it uses. -/
structure User where
  call : Nat
  wrapper : Nat
  mode : Mode
  deriving DecidableEq, Repr

structure World where
  heap : AList (fun _ : UInt64 => NativeObject) := ∅
  wrappers : Nat → Wrapper := fun _ => {}
  created : List Nat := []
  users : List User := []
  undefined : Bool := false

/-- A wrapper is created once, before anything else; then calls use it
one at a time, or together as long as they only read. -/
def World.Admits (w : World) (user : User) : Prop :=
  (user.wrapper ∈ w.created ↔ user.mode ≠ .create)
    ∧ ∀ other ∈ w.users, other.wrapper = user.wrapper →
      other.mode = .shared ∧ user.mode = .shared

def World.begin (w : World) (user : User) : World :=
  { w with
    created := if user.mode = .create then user.wrapper :: w.created
      else w.created
    users := user :: w.users }

def World.finish (w : World) (call : Nat) : World :=
  { w with users := w.users.filter fun user => user.call ≠ call }

def World.set (w : World) (wrapper : Nat) (fields : Wrapper) : World :=
  { w with wrappers := fun o => if o = wrapper then fields else w.wrappers o }

-- ========================================================= the native side

/-- `Box::into_raw` of a new handle. -/
def World.open (w : World) (kind : HandleKind) (owner : Nat) (p : UInt64) :
    World :=
  { w with heap := w.heap.insert p { kind, owner } }

/-- `require_mut` or `require_ref`, and `handle_mut` or `handle_ref`: a
writer is borrowed mutably, a reader is shared. -/
def World.enter (w : World) (kind : HandleKind) (p : UInt64) (call : Nat) :
    World :=
  match w.heap.lookup p with
  | some object =>
      if object.kind = kind ∧ (kind = .writer → object.inside = []) then
        { w with
          heap := w.heap.insert p
            { object with inside := call :: object.inside } }
      else { w with undefined := true }
  | none => { w with undefined := true }

/-- The borrow ends: the box must still be there. -/
def World.leave (w : World) (p : UInt64) (call : Nat) : World :=
  match w.heap.lookup p with
  | some object =>
      { w with
        heap := w.heap.insert p
          { object with inside := object.inside.filter (· ≠ call) } }
  | none => { w with undefined := true }

/-- `drop(Box::from_raw(p))`. -/
def World.free (w : World) (kind : HandleKind) (p : UInt64) : World :=
  match w.heap.lookup p with
  | some object =>
      if object.kind = kind ∧ object.inside = [] then
        { w with heap := w.heap.erase p }
      else { w with undefined := true }
  | none => { w with undefined := true }

/-- The atomic steps of a call. -/
inductive HandleOp where
  | begin (user : User)
  | finish (call : Nat)
  | getClosed (wrapper : Nat)
  | setClosed (wrapper : Nat) (closed : Bool)
  | getPtr (wrapper : Nat)
  | setPtr (wrapper : Nat) (p : UInt64)
  | open (kind : HandleKind) (owner : Nat)
  | enter (kind : HandleKind) (p : UInt64) (call : Nat)
  | leave (p : UInt64) (call : Nat)
  | free (kind : HandleKind) (p : UInt64)

def HandleOp.Res : HandleOp → Type
  | .getClosed _ => Bool
  | .getPtr _ => Option UInt64
  | .open _ _ => Option UInt64
  | .enter _ _ _ => Bool
  | _ => Unit

/-- What a step may do. Opening fails or gives any address that is free;
entering with a null handle is refused, freeing one does nothing. -/
inductive HandleStep : World → (op : HandleOp) → op.Res → World → Prop
  | begin (w : World) (user : User) (h : w.Admits user) :
      HandleStep w (.begin user) () (w.begin user)
  | finish (w : World) (call : Nat) :
      HandleStep w (.finish call) () (w.finish call)
  | getClosed (w : World) (o : Nat) :
      HandleStep w (.getClosed o) (w.wrappers o).closed w
  | setClosed (w : World) (o : Nat) (closed : Bool) :
      HandleStep w (.setClosed o closed) ()
        (w.set o { w.wrappers o with closed })
  | getPtr (w : World) (o : Nat) :
      HandleStep w (.getPtr o) (w.wrappers o).ptr w
  | setPtr (w : World) (o : Nat) (p : UInt64) :
      HandleStep w (.setPtr o p) () (w.set o { w.wrappers o with ptr := some p })
  | openFailed (w : World) (kind : HandleKind) (o : Nat) :
      HandleStep w (.open kind o) none w
  | opened (w : World) (kind : HandleKind) (o : Nat) (p : UInt64)
      (hnull : p ≠ 0) (hfree : p ∉ w.heap) :
      HandleStep w (.open kind o) (some p) (w.open kind o p)
  | enterNull (w : World) (kind : HandleKind) (call : Nat) :
      HandleStep w (.enter kind 0 call) false w
  | enter (w : World) (kind : HandleKind) (p : UInt64) (call : Nat)
      (hnull : p ≠ 0) :
      HandleStep w (.enter kind p call) true (w.enter kind p call)
  | leave (w : World) (p : UInt64) (call : Nat) :
      HandleStep w (.leave p call) () (w.leave p call)
  | freeNull (w : World) (kind : HandleKind) :
      HandleStep w (.free kind 0) () w
  | free (w : World) (kind : HandleKind) (p : UInt64) (hnull : p ≠ 0) :
      HandleStep w (.free kind p) () (w.free kind p)

-- ============================================================ the wrappers

/-- How a call on a wrapper fails. -/
inductive CallError where
  | closed
  | argument
  | noSuchField
  | nullHandle
  | native
  deriving DecidableEq, Repr

abbrev HandleProg := Prog HandleOp HandleOp.Res CallError

def getClosed (o : Nat) : HandleProg Bool :=
  .call (.getClosed o) .ret

def setClosed (o : Nat) (closed : Bool) : HandleProg Unit :=
  .call (.setClosed o closed) .ret

/-- Read the address; Python raises `AttributeError` when it is not
set. -/
def getPtr (o : Nat) : HandleProg UInt64 :=
  .call (.getPtr o) fun
    | some p => .ret p
    | none => .fail .noSuchField

def setPtr (o : Nat) (p : UInt64) : HandleProg Unit :=
  .call (.setPtr o p) .ret

/-- `paimon_ftindex_writer_open` and the like. -/
def openNative (kind : HandleKind) (o : Nat) : HandleProg UInt64 :=
  .call (.open kind o) fun
    | some p => .ret p
    | none => .fail .native

/-- A native call that does not free: it borrows the handle, and
returns with a status. -/
def inNative (kind : HandleKind) (p : UInt64) (call : Nat) (fails : Bool) :
    HandleProg Unit :=
  .call (.enter kind p call) fun
    | false => .fail .nullHandle
    | true => .call (.leave p call) fun _ =>
        if fails then .fail .native else .ret ()

def freeNative (kind : HandleKind) (p : UInt64) : HandleProg Unit :=
  .call (.free kind p) .ret

/-- `__init__`. -/
def pyInit (kind : HandleKind) (o : Nat) (raises : Bool) :
    HandleProg Unit := do
  setClosed o false
  if raises then .fail .argument
  else
    let p ← openNative kind o
    setPtr o p

/-- A method that takes `self._ptr` to native code. -/
def pyMethod (kind : HandleKind) (o call : Nat) (raises fails : Bool) :
    HandleProg Unit := do
  if ← getClosed o then .fail .closed
  else if raises then .fail .argument
  else
    let p ← getPtr o
    inNative kind p call fails

/-- `close`, which `__exit__` and `__del__` also call. -/
def pyClose (kind : HandleKind) (o : Nat) : HandleProg Unit := do
  if ← getClosed o then return
  else
    setClosed o true
    let p ← getPtr o
    if p ≠ 0 then
      freeNative kind p
      setPtr o 0
    else return

/-- `create`, and the constructor of the reader. -/
def javaCreate (kind : HandleKind) (o : Nat) (raises : Bool) :
    HandleProg Unit := do
  if raises then .fail .argument
  else
    let p ← openNative kind o
    setPtr o p

/-- A method that takes `requireOpen()` to native code. -/
def javaMethod (kind : HandleKind) (o call : Nat) (raises fails : Bool) :
    HandleProg Unit := do
  if raises then .fail .argument
  else
    let p ← getPtr o
    if p = 0 then .fail .closed
    else inNative kind p call fails

/-- `close`. -/
def javaClose (kind : HandleKind) (o : Nat) : HandleProg Unit := do
  let p ← getPtr o
  setPtr o 0
  if p ≠ 0 then freeNative kind p else return

-- =============================================================== the calls

inductive Binding where
  | python
  | java
  deriving DecidableEq, Repr

/-- What a program does with a wrapper. `raises` and `fails` are what
comes of the arguments and of the native call. -/
inductive HandleCall where
  | create (wrapper : Nat) (raises : Bool)
  | method (wrapper : Nat) (raises fails : Bool)
  | close (wrapper : Nat)
  deriving DecidableEq, Repr

def HandleCall.wrapper : HandleCall → Nat
  | .create o _ => o
  | .method o _ _ => o
  | .close o => o

/-- Native code borrows a writer mutably, so a call on one is alone; so
is closing. -/
def HandleCall.mode (kindOf : Nat → HandleKind) : HandleCall → Mode
  | .create _ _ => .create
  | .method o _ _ => if kindOf o = .reader then .shared else .exclusive
  | .close _ => .exclusive

def HandleCall.body (binding : Binding) (kindOf : Nat → HandleKind)
    (index : Nat) : HandleCall → HandleProg Unit
  | .create o raises =>
      match binding with
      | .python => pyInit (kindOf o) o raises
      | .java => javaCreate (kindOf o) o raises
  | .method o raises fails =>
      match binding with
      | .python => pyMethod (kindOf o) o index raises fails
      | .java => javaMethod (kindOf o) o index raises fails
  | .close o =>
      match binding with
      | .python => pyClose (kindOf o) o
      | .java => javaClose (kindOf o) o

/-- A result or a failure. -/
def ofResult : Except CallError Unit → HandleProg Unit
  | .ok () => .ret ()
  | .error e => .fail e

/-- A call, from when its users let it begin to when it has returned or
raised. -/
def HandleCall.session (binding : Binding) (kindOf : Nat → HandleKind)
    (index : Nat) (call : HandleCall) : HandleProg Unit :=
  .call (.begin ⟨index, call.wrapper, call.mode kindOf⟩) fun _ => do
    let r ← (call.body binding kindOf index).attempt
    .call (.finish index) fun _ => ofResult r

/-- Any calls, on any wrappers, from any threads. -/
def handleCalls (binding : Binding) (kindOf : Nat → HandleKind)
    (calls : List HandleCall) :
    Config HandleOp HandleOp.Res CallError Unit World where
  shared := {}
  threads := calls.mapIdx fun i call => call.session binding kindOf i

end PaimonFtindex.Model

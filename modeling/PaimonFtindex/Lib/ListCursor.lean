/-
A list read through a forward-only cursor.

`ListCursor` is a list and a place in it, and nothing else: moving on
goes to the next item, seeking to the first one from the cursor on that
the target does not exceed, and both stop behind the last item, where the cursor
stands at an end mark. It says what a cheaper implementation has to
answer. That one does, call after call in any order and without failing,
follows from one call (`tryCalls_of_simulation`).
-/
import Mathlib.Order.Lattice

namespace PaimonFtindex.Lib

-- ============================================================ the cursor

/-- A list and a place in it, or behind its last item. -/
structure ListCursor (α : Type) where
  items : List α
  position : Nat
  within : position ≤ items.length
  deriving DecidableEq, Repr

/-- A call on a cursor. -/
inductive CursorCall (α : Type) where
  | current
  | advance
  | seek (target : α)
  | left
  deriving DecidableEq, Repr

/-- What a call returns: the item it arrives at, or a number of items. -/
inductive CursorAnswer (α : Type) where
  | item (a : α)
  | count (n : Nat)
  deriving DecidableEq, Repr

namespace ListCursor

variable {α : Type}

/-- The cursor at the first item. -/
def start (items : List α) : ListCursor α := ⟨items, 0, Nat.zero_le _⟩

/-- The current item, or the end mark behind the last one. -/
def current (stop : α) (cursor : ListCursor α) : α :=
  cursor.items[cursor.position]?.getD stop

/-- The number of items left, the current one included. -/
def left (cursor : ListCursor α) : Nat :=
  cursor.items.length - cursor.position

/-- To the next item, if there is a current one. -/
def advance (cursor : ListCursor α) : ListCursor α :=
  if h : cursor.position < cursor.items.length then
    ⟨cursor.items, cursor.position + 1, h⟩
  else cursor

variable [LinearOrder α]

/-- The place of the first item from the cursor on that is not below the
target, or the one behind the last item. -/
def firstFrom (cursor : ListCursor α) (target : α) : Nat :=
  cursor.position
    + (cursor.items.drop cursor.position).findIdx fun a => decide (target ≤ a)

theorem firstFrom_le (cursor : ListCursor α) (target : α) :
    cursor.firstFrom target ≤ cursor.items.length := by
  have hle := @List.findIdx_le_length _ (fun a => decide (target ≤ a))
    (cursor.items.drop cursor.position)
  have hwithin := cursor.within
  rw [List.length_drop] at hle
  unfold firstFrom
  omega

/-- To the first item from the cursor on that is not below the target. -/
def seek (cursor : ListCursor α) (target : α) : ListCursor α :=
  ⟨cursor.items, cursor.firstFrom target, cursor.firstFrom_le target⟩

def answer (stop : α) (cursor : ListCursor α) :
    CursorCall α → CursorAnswer α × ListCursor α
  | .current => (.item (cursor.current stop), cursor)
  | .advance => (.item (cursor.advance.current stop), cursor.advance)
  | .seek target =>
      (.item ((cursor.seek target).current stop), cursor.seek target)
  | .left => (.count cursor.left, cursor)

end ListCursor

-- ============================================================== its calls

variable {σ τ χ ω : Type}

/-- The answers to a list of calls, and the state after them. -/
def answers (answer : τ → χ → ω × τ) : τ → List χ → List ω × τ
  | t, [] => ([], t)
  | t, call :: calls =>
      let (first, t) := answer t call
      let (rest, t) := answers answer t calls
      (first :: rest, t)

/-- The same for calls that may fail, which ends the run. -/
def tryCalls (exec : σ → χ → Option (ω × σ)) : σ → List χ → Option (List ω × σ)
  | s, [] => return ([], s)
  | s, call :: calls => do
      let (first, s) ← exec s call
      let (rest, s) ← tryCalls exec s calls
      return (first :: rest, s)

section
variable {answer : τ → χ → ω × τ}

theorem answers_append (t : τ) (earlier later : List χ) :
    (answers answer t (earlier ++ later)).2
      = (answers answer (answers answer t earlier).2 later).2 := by
  induction earlier generalizing t with
  | nil => rfl
  | cons call earlier ih => exact ih (answer t call).2

/-- What every call keeps, every run keeps. -/
theorem keeps_answers {I : τ → Prop} (h : ∀ t call, I t → I (answer t call).2)
    {t : τ} (ht : I t) (calls : List χ) : I (answers answer t calls).2 := by
  induction calls generalizing t with
  | nil => exact ht
  | cons call calls ih => exact ih (h t call ht)

/-- Calls that agree one by one agree in any order. -/
theorem tryCalls_of_simulation {exec : σ → χ → Option (ω × σ)}
    {R : σ → τ → Prop}
    (h : ∀ s t call, R s t → ∃ s', exec s call = some ((answer t call).1, s')
      ∧ R s' (answer t call).2)
    {s : σ} {t : τ} (hst : R s t) (calls : List χ) :
    ∃ s', tryCalls exec s calls = some ((answers answer t calls).1, s')
      ∧ R s' (answers answer t calls).2 := by
  induction calls generalizing s t with
  | nil => exact ⟨s, rfl, hst⟩
  | cons call calls ih =>
      obtain ⟨s', hcall, hst'⟩ := h s t call hst
      obtain ⟨s'', hcalls, hst''⟩ := ih hst'
      refine ⟨s'', ?_, hst''⟩
      unfold tryCalls
      rw [hcall, Option.bind_eq_bind, Option.bind_some]
      dsimp only
      rw [hcalls]
      rfl

end

namespace ListCursor

variable {α : Type} [LinearOrder α] {stop : α}

/-- No call moves the cursor back. -/
theorem position_le_answer (cursor : ListCursor α) (call : CursorCall α) :
    cursor.position ≤ (cursor.answer stop call).2.position := by
  cases call with
  | current => exact Nat.le_refl _
  | advance =>
      show cursor.position ≤ cursor.advance.position
      unfold advance
      split
      · exact Nat.le_succ _
      · exact Nat.le_refl _
  | seek target => exact Nat.le_add_right _ _
  | left => exact Nat.le_refl _

/-- Behind the last item no call moves the cursor at all. -/
theorem answer_of_ended {cursor : ListCursor α}
    (hended : cursor.position = cursor.items.length) (call : CursorCall α) :
    (cursor.answer stop call).2 = cursor := by
  cases call with
  | current => rfl
  | advance =>
      show cursor.advance = cursor
      unfold advance
      rw [dif_neg (by omega)]
  | seek target =>
      show cursor.seek target = cursor
      have hnone : cursor.items.drop cursor.position = [] :=
        List.drop_eq_nil_of_le (Nat.le_of_eq hended.symm)
      unfold seek firstFrom
      simp [hnone]
  | left => rfl

/-- No run moves the cursor back. -/
theorem position_le_answers (cursor : ListCursor α)
    (calls : List (CursorCall α)) :
    cursor.position ≤ (answers (answer stop) cursor calls).2.position := by
  apply keeps_answers (I := fun c : ListCursor α => cursor.position ≤ c.position)
  · intro c call hle
    exact Nat.le_trans hle (c.position_le_answer call)
  · exact Nat.le_refl _

/-- Behind the last item no run moves it at all. -/
theorem answers_of_ended {cursor : ListCursor α}
    (hended : cursor.position = cursor.items.length)
    (calls : List (CursorCall α)) :
    (answers (answer stop) cursor calls).2 = cursor := by
  apply keeps_answers (I := fun c : ListCursor α => c = cursor)
  · rintro c call rfl
    exact answer_of_ended hended call
  · rfl

end ListCursor

end PaimonFtindex.Lib

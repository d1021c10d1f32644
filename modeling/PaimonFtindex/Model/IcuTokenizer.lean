/-
core/src/tokenizer/icu.rs: the token stream over the word boundaries of
a text.

The segmenter is no part of the repository; a stream holds the
boundaries that its iterator has yet to yield, and the iterator is
fused. Offsets are bytes of the text, and slicing the text off a
character boundary panics (`none`). One turn of the loop in `advance` is
`pass`; the loop ends since every turn takes a boundary or moves the
offset towards the end of the segment.
-/
import Mathlib.Data.Prod.Lex
import PaimonFtindex.Lib.Runs
import PaimonFtindex.Model.Str

namespace PaimonFtindex.Model

open Lib

/-- `tantivy::tokenizer::Token`. -/
structure Token where
  offsetFrom : Nat
  offsetTo : Nat
  position : Nat
  text : String
  positionLength : Nat
  deriving DecidableEq, Repr

structure IcuTokenStream where
  text : String
  boundaries : List Nat
  offset : Nat
  segmentEnd : Nat
  splitOnNonAlphanumeric : Bool
  nextPosition : Nat
  token : Token
  deriving DecidableEq, Repr

/-- `token_stream`, on the boundaries of the text; `token` is
`Token::default()`. -/
def tokenStream (splitOnNonAlphanumeric : Bool) (text : String)
    (boundaries : List Nat) (token : Token) : IcuTokenStream where
  text := text
  boundaries := boundaries
  offset := 0
  segmentEnd := 0
  splitOnNonAlphanumeric := splitOnNonAlphanumeric
  nextPosition := 0
  token := token

-- ============================================================ byte widths

/-- The bytes of some characters. -/
def byteLen (cs : List Char) : Nat := widthOf Char.utf8Size cs

@[simp] theorem byteLen_nil : byteLen [] = 0 := rfl

@[simp] theorem byteLen_cons (c : Char) (cs : List Char) :
    byteLen (c :: cs) = c.utf8Size + byteLen cs := widthOf_cons ..

@[simp] theorem byteLen_append (cs cs' : List Char) :
    byteLen (cs ++ cs') = byteLen cs + byteLen cs' := widthOf_append ..

theorem byteLen_of_takeBytes {n : Nat} {cs taken : List Char}
    (h : takeBytes n cs = some taken) : byteLen taken = n := by
  induction cs generalizing n taken with
  | nil =>
      unfold takeBytes at h
      split at h
      · rename_i hn
        cases h
        exact hn.symm
      · cases h
  | cons c cs ih =>
      unfold takeBytes at h
      split at h
      · rename_i hn
        cases h
        exact hn.symm
      · split at h
        · rename_i hle
          obtain ⟨rest, hrest, rfl⟩ := Option.map_eq_some_iff.mp h
          have hlen := ih hrest
          rw [byteLen_cons, hlen]
          omega
        · cases h

/-- A slice is as long as its range. -/
theorem byteLen_of_sliceStr {s piece : String} {start stop : Nat}
    (h : sliceStr s start stop = some piece) :
    start ≤ stop ∧ byteLen piece.toList = stop - start := by
  unfold sliceStr at h
  split at h
  · cases h
  · rename_i hle
    obtain ⟨rest, -, h⟩ := Option.bind_eq_some_iff.mp h
    obtain ⟨taken, htaken, h⟩ := Option.bind_eq_some_iff.mp h
    cases h
    rw [String.toList_ofList]
    exact ⟨Nat.not_lt.mp hle, byteLen_of_takeBytes htaken⟩

-- ================================================================ the loop

section
variable [UnicodeAlphanumeric]

/-- The loop over `char_indices`: the first character that is not
alphanumeric, with its place. -/
def firstDelimiter (relative : Nat) : List Char → Option (Nat × Char)
  | [] => none
  | character :: characters =>
      if !isAlphanumeric character then some (relative, character)
      else firstDelimiter (relative + character.utf8Size) characters

/-- Where the piece that starts at the offset ends, and the offset to go
on from. -/
def IcuTokenStream.pieceEnd (self : IcuTokenStream) : Option (Nat × Nat) :=
  if self.splitOnNonAlphanumeric then do
    let segment ← sliceStr self.text self.offset self.segmentEnd
    match firstDelimiter 0 segment.toList with
    | some (relative, character) =>
        return (self.offset + relative,
          self.offset + relative + character.utf8Size)
    | none => return (self.segmentEnd, self.segmentEnd)
  else return (self.segmentEnd, self.segmentEnd)

/-- The stream after a turn of the loop, and how the turn ends: with
`return false`, with `continue` or with `return true`. -/
inductive Turn where
  | finished (stream : IcuTokenStream)
  | again (stream : IcuTokenStream)
  | found (stream : IcuTokenStream)

def Turn.stream : Turn → IcuTokenStream
  | .finished stream => stream
  | .again stream => stream
  | .found stream => stream

/-- A turn from `let start = self.offset` on. -/
def IcuTokenStream.cut (self : IcuTokenStream) : Option Turn := do
  let start := self.offset
  let (stop, offset) ← self.pieceEnd
  let self := { self with offset }
  if start = stop then
    return .again self
  else
    let piece ← sliceStr self.text start stop
    if !piece.toList.any isAlphanumeric then
      return .again self
    else
      return .found { self with
        token :=
          { offsetFrom := start
            offsetTo := stop
            position := self.nextPosition
            positionLength := 1
            text := piece }
        nextPosition := self.nextPosition + 1 }

/-- A turn of the loop. -/
def IcuTokenStream.pass (self : IcuTokenStream) : Option Turn :=
  if self.offset = self.segmentEnd then
    match self.boundaries with
    | [] => some (.finished self)
    | stop :: boundaries =>
        let self := { self with boundaries, segmentEnd := stop }
        if self.offset = stop then some (.again self) else self.cut
  else self.cut

/-- A delimiter lies inside the characters searched. -/
theorem firstDelimiter_le {relative place : Nat} {c : Char} {cs : List Char}
    (h : firstDelimiter relative cs = some (place, c)) :
    relative ≤ place ∧ place + c.utf8Size ≤ relative + byteLen cs := by
  induction cs generalizing relative with
  | nil => cases h
  | cons d cs ih =>
      rw [byteLen_cons]
      unfold firstDelimiter at h
      split at h
      · cases h
        omega
      · have hrest := ih h
        omega

/-- The piece is the rest of the segment, or ends at a delimiter in front
of the next offset. -/
theorem pieceEnd_bounds {self : IcuTokenStream} {stop offset : Nat}
    (h : self.pieceEnd = some (stop, offset)) :
    (stop = self.segmentEnd ∧ offset = self.segmentEnd)
      ∨ (self.offset ≤ stop ∧ stop < offset ∧ offset ≤ self.segmentEnd) := by
  unfold IcuTokenStream.pieceEnd at h
  split at h
  · obtain ⟨segment, hsegment, h⟩ := Option.bind_eq_some_iff.mp h
    obtain ⟨hle, hlen⟩ := byteLen_of_sliceStr hsegment
    split at h
    · rename_i relative character hfirst
      have hwithin := firstDelimiter_le hfirst
      have hpos := character.utf8Size_pos
      cases h
      omega
    · cases h
      omega
  · cases h
    omega

/-- A turn that cuts a piece keeps the boundaries and the segment, and
moves the offset forward inside the segment. -/
theorem cut_progress {self : IcuTokenStream} {turn : Turn}
    (h : self.cut = some turn) :
    turn.stream.boundaries = self.boundaries
      ∧ turn.stream.segmentEnd = self.segmentEnd
      ∧ (self.offset ≠ self.segmentEnd →
          self.offset < turn.stream.offset
            ∧ turn.stream.offset ≤ self.segmentEnd) := by
  unfold IcuTokenStream.cut at h
  obtain ⟨⟨stop, offset⟩, hend, h⟩ := Option.bind_eq_some_iff.mp h
  have hbounds := pieceEnd_bounds hend
  dsimp only at h
  split at h
  · cases h
    refine ⟨rfl, rfl, fun hne => ?_⟩
    show self.offset < offset ∧ offset ≤ self.segmentEnd
    omega
  · obtain ⟨piece, hpiece, h⟩ := Option.bind_eq_some_iff.mp h
    have hslice := byteLen_of_sliceStr hpiece
    split at h
    · cases h
      refine ⟨rfl, rfl, fun hne => ?_⟩
      show self.offset < offset ∧ offset ≤ self.segmentEnd
      omega
    · cases h
      refine ⟨rfl, rfl, fun hne => ?_⟩
      show self.offset < offset ∧ offset ≤ self.segmentEnd
      omega

/-- No turn of the loop can be repeated forever. -/
theorem pass_progress {self : IcuTokenStream} {turn : Turn}
    (h : self.pass = some turn) :
    turn = .finished self
      ∨ turn.stream.boundaries.length < self.boundaries.length
      ∨ turn.stream.boundaries.length = self.boundaries.length
        ∧ turn.stream.segmentEnd - turn.stream.offset
          < self.segmentEnd - self.offset := by
  unfold IcuTokenStream.pass at h
  split at h
  · split at h
    · cases h
      exact .inl rfl
    · rename_i stop boundaries hboundaries
      right
      left
      rw [hboundaries]
      dsimp only at h
      split at h
      · cases h
        exact Nat.lt_succ_self _
      · rw [(cut_progress h).1]
        exact Nat.lt_succ_self _
  · rename_i hne
    right
    right
    obtain ⟨hboundaries, hsegment, hoffset⟩ := cut_progress h
    have hmove := hoffset hne
    rw [hboundaries, hsegment]
    omega

/-- A stream's measure: the boundaries to come, and what is left of the
segment. -/
def IcuTokenStream.left (self : IcuTokenStream) : Nat ×ₗ Nat :=
  toLex (self.boundaries.length, self.segmentEnd - self.offset)

theorem left_lt_of_pass {self : IcuTokenStream} {turn : Turn}
    (h : self.pass = some turn) (hturn : turn ≠ .finished self) :
    turn.stream.left < self.left := by
  rw [IcuTokenStream.left, IcuTokenStream.left, Prod.Lex.toLex_lt_toLex]
  rcases pass_progress h with hfinished | hlt | hlt
  · exact absurd hfinished hturn
  · exact .inl hlt
  · exact .inr hlt

/-- `advance`. -/
def IcuTokenStream.advance (self : IcuTokenStream) :
    Option (Bool × IcuTokenStream) :=
  match h : self.pass with
  | none => none
  | some (.finished self) => some (false, self)
  | some (.again self) => self.advance
  | some (.found self) => some (true, self)
termination_by self.left
decreasing_by exact left_lt_of_pass h (by simp)

/-- A call by what its first turn does. -/
theorem advance_eq (self : IcuTokenStream) :
    self.advance = match self.pass with
      | none => none
      | some (.finished self) => some (false, self)
      | some (.again self) => self.advance
      | some (.found self) => some (true, self) := by
  rw [IcuTokenStream.advance]
  split <;> rename_i h <;> rw [h]

/-- A token handed out brings the end nearer. -/
theorem left_lt_of_advance {self self' : IcuTokenStream}
    (h : self.advance = some (true, self')) : self'.left < self.left := by
  induction self using IcuTokenStream.advance.induct with
  | case1 self hpass =>
      rw [advance_eq, hpass] at h
      cases h
  | case2 self last hpass =>
      rw [advance_eq, hpass] at h
      cases h
  | case3 self next hpass ih =>
      rw [advance_eq, hpass] at h
      exact (ih h).trans (left_lt_of_pass hpass (by simp))
  | case4 self next hpass =>
      rw [advance_eq, hpass] at h
      cases h
      exact left_lt_of_pass hpass (by simp)

end

end PaimonFtindex.Model

/-
The tokens of an ICU token stream, in both modes.

`Remaining` relates a stream between two calls to what it has yet to
yield: the rest of a half-consumed segment and the segments after it.
One turn of the loop either drops nothing of that list or takes its head
(`pass_cases`), so a call of `advance` takes the head or finds the list
empty (`advance_cases`), and a consumer that calls until the end, and
writes what it likes into the token it is handed, is handed the whole
list (`drain_of_remaining`). The list at the start is read off the
boundaries (`icu_tokens_exact`).
-/
import PaimonFtindex.Model.IcuTokenizer

namespace PaimonFtindex.Proofs

open Model Lib

-- ====================================================== slicing a string

theorem byteLen_pos {cs : List Char} (hne : cs ≠ []) : 0 < byteLen cs := by
  cases cs with
  | nil => exact absurd rfl hne
  | cons c cs =>
      rw [byteLen_cons]
      exact Nat.add_pos_left c.utf8Size_pos _

theorem dropBytes_append (before rest : List Char) :
    dropBytes (byteLen before) (before ++ rest) = some rest := by
  induction before with
  | nil => cases rest <;> simp [dropBytes]
  | cons c before ih =>
      have hpos := c.utf8Size_pos
      rw [List.cons_append, dropBytes, byteLen_cons, if_neg (by omega),
        if_pos (by omega), Nat.add_sub_cancel_left, ih]

theorem takeBytes_append (piece rest : List Char) :
    takeBytes (byteLen piece) (piece ++ rest) = some piece := by
  induction piece with
  | nil => cases rest <;> simp [takeBytes]
  | cons c piece ih =>
      have hpos := c.utf8Size_pos
      rw [List.cons_append, takeBytes, byteLen_cons, if_neg (by omega),
        if_pos (by omega), Nat.add_sub_cancel_left, ih]
      rfl

/-- A part of a string is sliced out by its byte range. -/
theorem sliceStr_of_append {s : String} {before piece after : List Char}
    (h : s.toList = before ++ piece ++ after) :
    sliceStr s (byteLen before) (byteLen before + byteLen piece)
      = some (String.ofList piece) := by
  unfold sliceStr
  rw [if_neg (by omega), h, List.append_assoc, dropBytes_append,
    Nat.add_sub_cancel_left]
  dsimp only [bind, Option.bind]
  rw [takeBytes_append]
  rfl

-- ============================================================ the tokens

/-- The token of a piece, at its place in the stream. -/
def tokenOf (position : Nat) (piece : Nat × List Char) : Token where
  offsetFrom := piece.1
  offsetTo := piece.1 + byteLen piece.2
  position := position
  text := String.ofList piece.2
  positionLength := 1

/-- The tokens of some pieces, numbered from a position on. -/
def tokensFrom (position : Nat) : List (Nat × List Char) → List Token
  | [] => []
  | piece :: pieces => tokenOf position piece :: tokensFrom (position + 1) pieces

theorem tokensFrom_getElem? {position i : Nat}
    {pieces : List (Nat × List Char)} {t : Token}
    (h : (tokensFrom position pieces)[i]? = some t) :
    ∃ piece ∈ pieces, t = tokenOf (position + i) piece := by
  induction pieces generalizing position i with
  | nil => cases h
  | cons piece pieces ih =>
      cases i with
      | zero =>
          cases h
          exact ⟨piece, List.mem_cons_self, rfl⟩
      | succ i =>
          rw [tokensFrom, List.getElem?_cons_succ] at h
          obtain ⟨piece', hmem, rfl⟩ := ih h
          refine ⟨piece', List.mem_cons_of_mem _ hmem, ?_⟩
          rw [Nat.add_right_comm, Nat.add_assoc]

theorem map_tokensFrom (position : Nat) (pieces : List (Nat × List Char)) :
    (tokensFrom position pieces).map
        (fun t => (t.offsetFrom, t.text.toList)) = pieces := by
  induction pieces generalizing position with
  | nil => rfl
  | cons piece pieces ih =>
      rw [tokensFrom, List.map_cons, ih]
      unfold tokenOf
      rw [String.toList_ofList]

theorem tokensFrom_ordered {position : Nat} {pieces : List (Nat × List Char)}
    (h : pieces.Pairwise fun p q => p.1 + byteLen p.2 ≤ q.1) :
    (tokensFrom position pieces).Pairwise fun t u =>
      t.offsetTo ≤ u.offsetFrom := by
  induction pieces generalizing position with
  | nil => exact List.Pairwise.nil
  | cons piece pieces ih =>
      rw [List.pairwise_cons] at h
      rw [tokensFrom, List.pairwise_cons]
      refine ⟨?_, ih h.2⟩
      intro u hu
      obtain ⟨i, hi⟩ := List.getElem?_of_mem hu
      obtain ⟨q, hq, rfl⟩ := tokensFrom_getElem? hi
      exact h.1 q hq

-- ========================================================== the segments

/-- Where segments, one behind the other, end. -/
def segmentEnds (start : Nat) : List (List Char) → List Nat
  | [] => []
  | segment :: segments =>
      (start + byteLen segment)
        :: segmentEnds (start + byteLen segment) segments

/-- Where a stream stands: behind `before`, in front of the rest of its
segment and of the segments its boundaries will cut. -/
structure StandsAt (stream : IcuTokenStream) (before segment : List Char)
    (segments : List (List Char)) : Prop where
  text : stream.text.toList = before ++ segment ++ segments.flatten
  offset : stream.offset = byteLen before
  segmentEnd : stream.segmentEnd = stream.offset + byteLen segment
  boundaries : stream.boundaries = segmentEnds stream.segmentEnd segments

/-- The rest of the segment is sliced out. -/
theorem StandsAt.slice {self : IcuTokenStream} {before segment : List Char}
    {segments : List (List Char)} (h : StandsAt self before segment segments) :
    sliceStr self.text self.offset self.segmentEnd
      = some (String.ofList segment) := by
  have hslice := sliceStr_of_append h.text
  rwa [← h.offset, ← h.segmentEnd] at hslice

-- ============================================================ the pieces

section
variable [UnicodeAlphanumeric]

theorem firstDelimiter_eq_none {relative : Nat} {cs : List Char}
    (h : firstDelimiter relative cs = none) :
    ∀ c ∈ cs, isAlphanumeric c = true := by
  induction cs generalizing relative with
  | nil => simp
  | cons c cs ih =>
      unfold firstDelimiter at h
      split at h
      · cases h
      · rename_i hc
        rw [List.forall_mem_cons]
        exact ⟨by simpa using hc, ih h⟩

theorem firstDelimiter_eq_some {relative place : Nat} {delimiter : Char}
    {cs : List Char} (h : firstDelimiter relative cs = some (place, delimiter)) :
    ∃ run rest, cs = run ++ delimiter :: rest
      ∧ (∀ c ∈ run, isAlphanumeric c = true)
      ∧ isAlphanumeric delimiter = false
      ∧ place = relative + byteLen run := by
  induction cs generalizing relative with
  | nil => cases h
  | cons c cs ih =>
      unfold firstDelimiter at h
      split at h
      · rename_i hc
        cases h
        exact ⟨[], cs, rfl, by simp, by simpa using hc, rfl⟩
      · rename_i hc
        obtain ⟨run, rest, hcs, hall, hnot, hplace⟩ := ih h
        refine ⟨c :: run, rest, by rw [hcs]; rfl, ?_, hnot, ?_⟩
        · rw [List.forall_mem_cons]
          exact ⟨by simpa using hc, hall⟩
        · rw [hplace, byteLen_cons]
          omega

/-- What a segment is to yield: in split mode its maximal runs of
alphanumeric characters, in plain mode itself, if it has any. -/
def segmentPieces (split : Bool) (start : Nat) (segment : List Char) :
    List (Nat × List Char) :=
  if split then runs Char.utf8Size isAlphanumeric start segment
  else if segment.any isAlphanumeric then [(start, segment)]
  else []

@[simp] theorem segmentPieces_nil (split : Bool) (start : Nat) :
    segmentPieces split start [] = [] := by
  unfold segmentPieces
  cases split
  · rfl
  · rw [if_pos rfl, runs]

/-- What segments, one behind the other, are to yield. -/
def piecesFrom (split : Bool) (start : Nat) :
    List (List Char) → List (Nat × List Char)
  | [] => []
  | segment :: segments =>
      segmentPieces split start segment
        ++ piecesFrom split (start + byteLen segment) segments

/-- The stream has these pieces yet to yield: those of the rest of its
segment and those of the segments its boundaries will cut. -/
def Remaining (self : IcuTokenStream) (pieces : List (Nat × List Char)) :
    Prop :=
  ∃ before segment segments,
    self.text.toList = before ++ segment ++ segments.flatten
      ∧ self.offset = byteLen before
      ∧ self.segmentEnd = self.offset + byteLen segment
      ∧ self.boundaries = segmentEnds self.segmentEnd segments
      ∧ pieces = segmentPieces self.splitOnNonAlphanumeric self.offset segment
          ++ piecesFrom self.splitOnNonAlphanumeric self.segmentEnd segments

/-- Writing into the token changes nothing of what is to come. -/
theorem Remaining.edit {self : IcuTokenStream} {pieces : List (Nat × List Char)}
    (h : Remaining self pieces) (token : Token) :
    Remaining { self with token } pieces := h

/-- The part of a stream that no call changes. -/
def SameSource (self self' : IcuTokenStream) : Prop :=
  self'.text = self.text
    ∧ self'.splitOnNonAlphanumeric = self.splitOnNonAlphanumeric

/-- The piece is a slice of the text. -/
def IsSlice (text : String) (piece : Nat × List Char) : Prop :=
  sliceStr text piece.1 (piece.1 + byteLen piece.2)
    = some (String.ofList piece.2)

/-- The stream goes on with the same list, or with its tail after handing
out the head. -/
def TurnOf (self : IcuTokenStream) (pieces : List (Nat × List Char)) :
    Turn → Prop
  | .finished self' =>
      self' = self ∧ pieces = [] ∧ self.offset = self.segmentEnd
        ∧ self.boundaries = []
  | .again self' =>
      SameSource self self' ∧ Remaining self' pieces
        ∧ self'.nextPosition = self.nextPosition
  | .found self' =>
      SameSource self self' ∧ ∃ piece rest, pieces = piece :: rest
        ∧ IsSlice self.text piece ∧ Remaining self' rest
        ∧ self'.token = tokenOf self.nextPosition piece
        ∧ self'.nextPosition = self.nextPosition + 1

-- ============================================================ the turns

/-- The stream after handing out a piece. -/
def handOut (self : IcuTokenStream) (stop offset : Nat) (piece : String) :
    IcuTokenStream :=
  { self with
    offset := offset
    token :=
      { offsetFrom := self.offset
        offsetTo := stop
        position := self.nextPosition
        positionLength := 1
        text := piece }
    nextPosition := self.nextPosition + 1 }

/-- What a turn does with the piece it has found the end of. -/
theorem cut_eq {self : IcuTokenStream} {stop offset : Nat} {piece : String}
    (hend : self.pieceEnd = some (stop, offset))
    (hpiece : sliceStr self.text self.offset stop = some piece) :
    self.cut = some
      (if self.offset ≠ stop ∧ piece.toList.any isAlphanumeric then
        .found (handOut self stop offset piece)
      else .again { self with offset }) := by
  unfold IcuTokenStream.cut
  rw [hend]
  dsimp only [bind, Option.bind]
  by_cases hempty : self.offset = stop
  · simp [hempty, pure]
  · rw [if_neg hempty, hpiece]
    dsimp only
    cases hany : piece.toList.any isAlphanumeric with
    | true => simp [hempty, handOut, pure]
    | false => simp [pure]

theorem any_of_all {run : List Char} (hne : run ≠ [])
    (hall : ∀ c ∈ run, isAlphanumeric c = true) :
    run.any isAlphanumeric = true := by
  cases run with
  | nil => exact absurd rfl hne
  | cons c run =>
      rw [List.any_cons, hall c List.mem_cons_self]
      rfl

section
variable {self : IcuTokenStream} {before segment run rest : List Char}
  {segments : List (List Char)} {delimiter : Char}

/-- With the whole rest of the segment taken, only the segments stay. -/
theorem StandsAt.afterSegment (h : StandsAt self before segment segments)
    (token : Token) (nextPosition : Nat) :
    Remaining { self with offset := self.segmentEnd, token, nextPosition }
      (piecesFrom self.splitOnNonAlphanumeric self.segmentEnd segments) := by
  refine ⟨before ++ segment, [], segments, ?_, ?_, rfl, h.boundaries, ?_⟩
  · rw [h.text, List.append_nil]
  · rw [byteLen_append, ← h.offset, ← h.segmentEnd]
  · rw [segmentPieces_nil, List.nil_append]

/-- With a run and its delimiter taken, the segment goes on behind. -/
theorem StandsAt.afterDelimiter
    (h : StandsAt self before (run ++ delimiter :: rest) segments)
    (token : Token) (nextPosition : Nat) :
    Remaining { self with
        offset := self.offset + byteLen run + delimiter.utf8Size
        token, nextPosition }
      (segmentPieces self.splitOnNonAlphanumeric
          (self.offset + byteLen run + delimiter.utf8Size) rest
        ++ piecesFrom self.splitOnNonAlphanumeric self.segmentEnd segments) := by
  refine ⟨before ++ run ++ [delimiter], rest, segments, ?_, ?_, ?_,
    h.boundaries, rfl⟩
  · rw [h.text]
    simp
  · rw [byteLen_append, byteLen_append, ← h.offset]
    rfl
  · show self.segmentEnd = _
    rw [h.segmentEnd, byteLen_append, byteLen_cons]
    dsimp only
    omega

theorem pieceEnd_of_plain (hsplit : ¬ self.splitOnNonAlphanumeric = true) :
    self.pieceEnd = some (self.segmentEnd, self.segmentEnd) := by
  unfold IcuTokenStream.pieceEnd
  rw [if_neg hsplit]
  rfl

theorem pieceEnd_of_none (h : StandsAt self before segment segments)
    (hsplit : self.splitOnNonAlphanumeric = true)
    (hfirst : firstDelimiter 0 segment = none) :
    self.pieceEnd = some (self.segmentEnd, self.segmentEnd) := by
  unfold IcuTokenStream.pieceEnd
  rw [if_pos hsplit, h.slice]
  dsimp only [bind, Option.bind]
  rw [String.toList_ofList, hfirst]
  rfl

theorem pieceEnd_of_some (h : StandsAt self before segment segments)
    (hsplit : self.splitOnNonAlphanumeric = true) {relative : Nat}
    (hfirst : firstDelimiter 0 segment = some (relative, delimiter)) :
    self.pieceEnd = some (self.offset + relative,
      self.offset + relative + delimiter.utf8Size) := by
  unfold IcuTokenStream.pieceEnd
  rw [if_pos hsplit, h.slice]
  dsimp only [bind, Option.bind]
  rw [String.toList_ofList, hfirst]
  rfl

/-- A turn that takes the whole rest of a segment as one piece. -/
theorem cut_whole (h : StandsAt self before segment segments)
    (hne : segment ≠ [])
    (hend : self.pieceEnd = some (self.segmentEnd, self.segmentEnd))
    (hany : segment.any isAlphanumeric = true) :
    ∃ turn, self.cut = some turn
      ∧ TurnOf self
          ([(self.offset, segment)]
            ++ piecesFrom self.splitOnNonAlphanumeric self.segmentEnd segments)
          turn := by
  have hlen := byteLen_pos hne
  have hstop : self.offset ≠ self.segmentEnd := by
    have := h.segmentEnd
    omega
  refine ⟨_, cut_eq hend h.slice, ?_⟩
  rw [if_pos ⟨hstop, by rwa [String.toList_ofList]⟩]
  refine ⟨⟨rfl, rfl⟩, (self.offset, segment), _, rfl, ?_,
    h.afterSegment _ _, ?_, rfl⟩
  · unfold IsSlice
    rw [← h.segmentEnd]
    exact h.slice
  · unfold handOut tokenOf
    rw [← h.segmentEnd]

/-- A turn that ends at a delimiter: the run in front of it is a piece,
unless it is empty. -/
theorem cut_delimiter
    (h : StandsAt self before (run ++ delimiter :: rest) segments)
    (hend : self.pieceEnd = some (self.offset + byteLen run,
      self.offset + byteLen run + delimiter.utf8Size))
    (hall : ∀ c ∈ run, isAlphanumeric c = true) :
    ∃ turn, self.cut = some turn
      ∧ TurnOf self
          ((if run = [] then [] else [(self.offset, run)])
            ++ (segmentPieces self.splitOnNonAlphanumeric
                (self.offset + byteLen run + delimiter.utf8Size) rest
              ++ piecesFrom self.splitOnNonAlphanumeric self.segmentEnd
                segments))
          turn := by
  have hrun := @sliceStr_of_append self.text before run
    (delimiter :: rest ++ segments.flatten) (by
      rw [h.text]
      simp)
  rw [← h.offset] at hrun
  refine ⟨_, cut_eq hend hrun, ?_⟩
  by_cases hempty : run = []
  · subst hempty
    rw [if_pos rfl, List.nil_append, if_neg (by simp)]
    exact ⟨⟨rfl, rfl⟩, h.afterDelimiter _ _, rfl⟩
  · have hpos := byteLen_pos hempty
    have hmove : self.offset ≠ self.offset + byteLen run := by omega
    have hany : (String.ofList run).toList.any isAlphanumeric = true := by
      rw [String.toList_ofList]
      exact any_of_all hempty hall
    rw [if_neg hempty, if_pos ⟨hmove, hany⟩]
    exact ⟨⟨rfl, rfl⟩, (self.offset, run), _, rfl, hrun,
      h.afterDelimiter _ _, rfl, rfl⟩

/-- A turn that cuts a piece off the rest of a segment. -/
theorem cut_cases (h : StandsAt self before segment segments)
    (hne : segment ≠ []) :
    ∃ turn, self.cut = some turn
      ∧ TurnOf self
          (segmentPieces self.splitOnNonAlphanumeric self.offset segment
            ++ piecesFrom self.splitOnNonAlphanumeric self.segmentEnd segments)
          turn := by
  unfold segmentPieces
  by_cases hsplit : self.splitOnNonAlphanumeric = true
  · rw [if_pos hsplit]
    cases hfirst : firstDelimiter 0 segment with
    | none =>
        have hall := firstDelimiter_eq_none hfirst
        rw [runs_of_all hall, if_neg hne]
        exact cut_whole h hne (pieceEnd_of_none h hsplit hfirst)
          (any_of_all hne hall)
    | some found =>
        obtain ⟨relative, delimiter⟩ := found
        have hend := pieceEnd_of_some h hsplit hfirst
        obtain ⟨run, rest, rfl, hall, hnot, hrelative⟩ :=
          firstDelimiter_eq_some hfirst
        rw [Nat.zero_add] at hrelative
        rw [hrelative] at hend
        have hcut := cut_delimiter h hend hall
        unfold segmentPieces at hcut
        rw [if_pos hsplit] at hcut
        rw [runs_append_cons hall hnot, List.append_assoc]
        exact hcut
  · rw [if_neg hsplit]
    have hend := pieceEnd_of_plain hsplit
    by_cases hany : segment.any isAlphanumeric = true
    · rw [if_pos hany]
      exact cut_whole h hne hend hany
    · rw [if_neg hany, List.nil_append]
      refine ⟨_, cut_eq hend h.slice, ?_⟩
      rw [if_neg (by
        rw [String.toList_ofList]
        exact fun hboth => hany hboth.2)]
      exact ⟨⟨rfl, rfl⟩, h.afterSegment _ _, rfl⟩

end

/-- One turn of the loop. -/
theorem pass_cases {self : IcuTokenStream} {pieces : List (Nat × List Char)}
    (h : Remaining self pieces) :
    ∃ turn, self.pass = some turn ∧ TurnOf self pieces turn := by
  obtain ⟨before, segment, segments, htext, hoffset, hend, hboundaries, rfl⟩ := h
  by_cases hne : segment = []
  · subst hne
    rw [byteLen_nil, Nat.add_zero] at hend
    rw [segmentPieces_nil, List.nil_append]
    unfold IcuTokenStream.pass
    rw [if_pos hend.symm]
    cases segments with
    | nil =>
        rw [hboundaries]
        exact ⟨_, rfl, rfl, rfl, hend.symm, hboundaries⟩
    | cons segment segments =>
        rw [List.append_nil] at htext
        rw [hboundaries]
        dsimp only [segmentEnds, piecesFrom]
        by_cases hempty : segment = []
        · subst hempty
          rw [if_pos (by rw [byteLen_nil, hend]; rfl)]
          refine ⟨_, rfl, ⟨rfl, rfl⟩, ?_, rfl⟩
          refine ⟨before, [], segments, ?_, hoffset, ?_, rfl, ?_⟩
          · rw [htext]
            simp
          · rw [hend]
          · rw [segmentPieces_nil, segmentPieces_nil]
        · have hpos := byteLen_pos hempty
          rw [if_neg (by omega)]
          obtain ⟨turn, hcut, hturn⟩ := @cut_cases _
            { self with
              boundaries :=
                segmentEnds (self.segmentEnd + byteLen segment) segments
              segmentEnd := self.segmentEnd + byteLen segment }
            before segment segments
            ⟨by rw [htext]; simp, hoffset, by rw [hend], rfl⟩ hempty
          have hstart : segmentPieces self.splitOnNonAlphanumeric
              self.segmentEnd segment = segmentPieces
                self.splitOnNonAlphanumeric self.offset segment := by rw [hend]
          rw [hstart]
          refine ⟨turn, hcut, ?_⟩
          cases turn with
          | finished self' =>
              have hstay := hturn.2.2.1
              dsimp only at hstay
              omega
          | again self' => exact hturn
          | found self' => exact hturn
  · have hpos := byteLen_pos hne
    unfold IcuTokenStream.pass
    rw [if_neg (by omega)]
    exact cut_cases ⟨htext, hoffset, hend, hboundaries⟩ hne

-- ============================================================ the calls

/-- Nothing is left to yield, and nothing to look at. -/
def Exhausted (self : IcuTokenStream) : Prop :=
  self.offset = self.segmentEnd ∧ self.boundaries = []

/-- An exhausted stream stays as it is. -/
theorem advance_of_exhausted {self : IcuTokenStream} (h : Exhausted self) :
    self.advance = some (false, self) := by
  have hpass : self.pass = some (.finished self) := by
    unfold IcuTokenStream.pass
    rw [if_pos h.1, h.2]
  rw [advance_eq, hpass]

/-- A call hands out the next piece, or ends the stream when there is
none. -/
theorem advance_cases {self : IcuTokenStream}
    {pieces : List (Nat × List Char)} (h : Remaining self pieces) :
    (pieces = [] ∧ ∃ self', self.advance = some (false, self')
        ∧ Exhausted self')
      ∨ ∃ piece rest self', pieces = piece :: rest
        ∧ self.advance = some (true, self') ∧ SameSource self self'
        ∧ IsSlice self.text piece ∧ Remaining self' rest
        ∧ self'.token = tokenOf self.nextPosition piece
        ∧ self'.nextPosition = self.nextPosition + 1 := by
  induction self using IcuTokenStream.advance.induct with
  | case1 self hpass =>
      obtain ⟨turn, hturn, -⟩ := pass_cases h
      rw [hpass] at hturn
      cases hturn
  | case2 self self' hpass =>
      obtain ⟨turn, hturn, hcase⟩ := pass_cases h
      rw [hpass] at hturn
      cases hturn
      obtain ⟨rfl, hnil, hend, hboundaries⟩ := hcase
      have hexhausted : Exhausted self' := ⟨hend, hboundaries⟩
      exact .inl ⟨hnil, self', advance_of_exhausted hexhausted, hexhausted⟩
  | case3 self self' hpass ih =>
      obtain ⟨turn, hturn, hcase⟩ := pass_cases h
      rw [hpass] at hturn
      cases hturn
      obtain ⟨⟨htext, hsplit⟩, hrest, hposition⟩ := hcase
      rw [advance_eq, hpass]
      rcases ih hrest with hdone | ⟨piece, rest, self'', hpieces, hcall, hsame,
        hslice, hremaining, htoken, hnext⟩
      · exact .inl hdone
      · right
        refine ⟨piece, rest, self'', hpieces, hcall, ?_, ?_, hremaining, ?_, ?_⟩
        · exact ⟨hsame.1.trans htext, hsame.2.trans hsplit⟩
        · rw [← htext]
          exact hslice
        · rw [htoken, hposition]
        · rw [hnext, hposition]
  | case4 self self' hpass =>
      obtain ⟨turn, hturn, hcase⟩ := pass_cases h
      rw [hpass] at hturn
      cases hturn
      obtain ⟨hsame, piece, rest, hpieces, hslice, hrest, htoken, hnext⟩ := hcase
      rw [advance_eq, hpass]
      exact .inr ⟨piece, rest, self', hpieces, rfl, hsame, hslice, hrest,
        htoken, hnext⟩

/-- A consumer that calls until the end: the tokens it is handed, and
the stream it leaves. After the call numbered `i` it makes of the token
what `consumer i` says. -/
def drain (consumer : Nat → Token → Token) (calls : Nat)
    (self : IcuTokenStream) : Option (List Token × IcuTokenStream) :=
  match h : self.advance with
  | none => none
  | some (false, self) => some ([], self)
  | some (true, self) => do
      let (tokens, last) ← drain consumer (calls + 1)
        { self with token := consumer calls self.token }
      return (self.token :: tokens, last)
termination_by self.left
decreasing_by
  have hlt := left_lt_of_advance h
  exact hlt

/-- Whatever the consumer writes, it is handed every piece, in order. -/
theorem drain_of_remaining {self : IcuTokenStream}
    {pieces : List (Nat × List Char)} (h : Remaining self pieces)
    (consumer : Nat → Token → Token) (calls : Nat) :
    ∃ last, drain consumer calls self
        = some (tokensFrom self.nextPosition pieces, last)
      ∧ Exhausted last ∧ ∀ piece ∈ pieces, IsSlice self.text piece := by
  induction pieces generalizing self calls with
  | nil =>
      rcases advance_cases h with ⟨-, last, hcall, hlast⟩ | ⟨_, _, _, hcons, -⟩
      · refine ⟨last, ?_, hlast, by simp⟩
        rw [drain]
        split
        all_goals
          rename_i heq
          rw [hcall] at heq
          cases heq
        rfl
      · cases hcons
  | cons piece pieces ih =>
      rcases advance_cases h with ⟨hnil, -⟩ | ⟨_, _, self', hcons, hcall, hsame,
        hslice, hrest, htoken, hnext⟩
      · cases hnil
      · cases hcons
        obtain ⟨last, hdrain, hlast, hslices⟩ :=
          ih (hrest.edit (consumer calls self'.token)) (calls + 1)
        refine ⟨last, ?_, hlast, ?_⟩
        · rw [drain]
          split
          all_goals
            rename_i heq
            rw [hcall] at heq
            cases heq
          rw [hdrain]
          dsimp only [bind, Option.bind]
          rw [htoken, hnext]
          rfl
        · rw [List.forall_mem_cons]
          refine ⟨hslice, ?_⟩
          rw [← hsame.1]
          exact hslices

end

-- ========================================================== the boundaries

/-- `str::is_char_boundary`. -/
def IsCharBoundary (text : String) (place : Nat) : Prop :=
  ∃ before after, text.toList = before ++ after ∧ place = byteLen before

/-- What a segmenter yields on a text: places between its characters,
none before the one yielded last, up to the end of the text. -/
structure SegmenterBoundaries (text : String) (boundaries : List Nat) :
    Prop where
  nondecreasing : boundaries.Pairwise (· ≤ ·)
  onCharacters : ∀ place ∈ boundaries, IsCharBoundary text place
  upToEnd : boundaries.getLast?.getD 0 = byteLen text.toList

/-- The segments between boundaries, each with its start. -/
def segmentsFrom (text : String) (start : Nat) :
    List Nat → List (Nat × List Char)
  | [] => []
  | stop :: boundaries =>
      (start, ((sliceStr text start stop).getD "").toList)
        :: segmentsFrom text stop boundaries

/-- A boundary at or behind a place cuts the characters behind it. -/
theorem exists_segment_of_boundary {text : String} {before rest : List Char}
    (htext : text.toList = before ++ rest) {place : Nat}
    (hplace : IsCharBoundary text place) (hle : byteLen before ≤ place) :
    ∃ segment after, rest = segment ++ after
      ∧ place = byteLen before + byteLen segment := by
  obtain ⟨front, back, hsplit, rfl⟩ := hplace
  have hbefore : before <+: text.toList := ⟨rest, htext.symm⟩
  have hfront : front <+: text.toList := ⟨back, hsplit.symm⟩
  rcases List.prefix_or_prefix_of_prefix hbefore hfront with
    ⟨segment, rfl⟩ | ⟨extra, rfl⟩
  · refine ⟨segment, back, ?_, byteLen_append _ _⟩
    rw [htext, List.append_assoc] at hsplit
    exact List.append_cancel_left hsplit
  · -- the boundary is not behind the place, so it is the place
    have hextra : extra = [] := by
      by_contra hne
      have hpos := byteLen_pos hne
      rw [byteLen_append] at hle
      omega
    subst hextra
    rw [List.append_nil] at htext
    exact ⟨[], rest, rfl, by rw [List.append_nil, byteLen_nil, Nat.add_zero]⟩

/-- Boundaries cut the text behind a place into the segments between
them. -/
theorem exists_segments {text : String} {before rest : List Char}
    {boundaries : List Nat} (htext : text.toList = before ++ rest)
    (hsorted : (byteLen before :: boundaries).Pairwise (· ≤ ·))
    (hchars : ∀ place ∈ boundaries, IsCharBoundary text place)
    (hend : boundaries.getLast?.getD (byteLen before) = byteLen text.toList) :
    ∃ segments : List (List Char), rest = segments.flatten
      ∧ boundaries = segmentEnds (byteLen before) segments := by
  induction boundaries generalizing before rest with
  | nil =>
      have hrest : rest = [] := by
        by_contra hne
        have hpos := byteLen_pos hne
        rw [htext, byteLen_append] at hend
        change byteLen before = _ at hend
        omega
      exact ⟨[], hrest, rfl⟩
  | cons stop boundaries ih =>
      rw [List.pairwise_cons] at hsorted
      rw [List.forall_mem_cons] at hchars
      obtain ⟨segment, after, rfl, rfl⟩ :=
        exists_segment_of_boundary htext hchars.1
          (hsorted.1 stop List.mem_cons_self)
      have hlast : boundaries.getLast?.getD (byteLen (before ++ segment))
          = byteLen text.toList := by
        rw [byteLen_append, ← hend, List.getLast?_cons]
        rfl
      rw [← byteLen_append] at hsorted
      obtain ⟨segments, rfl, hends⟩ :=
        ih (by rw [htext, List.append_assoc]) hsorted.2 hchars.2 hlast
      refine ⟨segment :: segments, rfl, ?_⟩
      rw [hends, byteLen_append]
      rfl

section
variable [UnicodeAlphanumeric]

/-- The pieces of the segments, read off the boundaries. -/
theorem piecesFrom_eq {text : String} {before : List Char}
    {segments : List (List Char)} (split : Bool)
    (htext : text.toList = before ++ segments.flatten) :
    piecesFrom split (byteLen before) segments
      = (segmentsFrom text (byteLen before)
          (segmentEnds (byteLen before) segments)).flatMap fun segment =>
            segmentPieces split segment.1 segment.2 := by
  induction segments generalizing before with
  | nil => rfl
  | cons segment segments ih =>
      rw [List.flatten_cons, ← List.append_assoc] at htext
      have hrest := ih htext
      rw [byteLen_append] at hrest
      unfold piecesFrom segmentEnds segmentsFrom
      rw [List.flatMap_cons, sliceStr_of_append htext, hrest, Option.getD_some,
        String.toList_ofList]

-- ==================================================== what is to be yielded

/-- What a segment yields: itself, if it has an alphanumeric character;
in split mode, its maximal runs of alphanumeric characters. -/
def Yields (split : Bool) (segment piece : Nat × List Char) : Prop :=
  if split then
    ∃ before after, IsRun isAlphanumeric segment.2 before piece.2 after
      ∧ piece.1 = segment.1 + byteLen before
  else piece = segment ∧ ∃ c ∈ segment.2, isAlphanumeric c = true

theorem mem_segmentPieces_iff {split : Bool} {segment piece : Nat × List Char} :
    piece ∈ segmentPieces split segment.1 segment.2
      ↔ Yields split segment piece := by
  unfold segmentPieces Yields
  cases split with
  | true => exact mem_runs_iff
  | false =>
      by_cases hany : segment.2.any isAlphanumeric = true
      · have hexists := List.any_eq_true.mp hany
        rw [if_neg Bool.false_ne_true, if_pos hany, if_neg Bool.false_ne_true,
          List.mem_singleton]
        exact (and_iff_left hexists).symm
      · rw [if_neg Bool.false_ne_true, if_neg hany, if_neg Bool.false_ne_true]
        constructor
        · intro h
          cases h
        · intro h
          exact absurd (List.any_eq_true.mpr h.2) hany

/-- Nothing empty is yielded. -/
theorem ne_nil_of_yields {split : Bool} {segment piece : Nat × List Char}
    (h : Yields split segment piece) : piece.2 ≠ [] := by
  unfold Yields at h
  split at h
  · obtain ⟨before, after, hrun, -⟩ := h
    exact hrun.ne_nil
  · obtain ⟨rfl, c, hc, -⟩ := h
    exact List.ne_nil_of_mem hc

/-- A piece lies inside its segment. -/
theorem segmentPieces_within {split : Bool} {start : Nat} {segment : List Char}
    {piece : Nat × List Char} (h : piece ∈ segmentPieces split start segment) :
    start ≤ piece.1
      ∧ piece.1 + byteLen piece.2 ≤ start + byteLen segment := by
  have hyields := (@mem_segmentPieces_iff _ split (start, segment) piece).mp h
  unfold Yields at hyields
  split at hyields
  · obtain ⟨before, after, hrun, hplace⟩ := hyields
    have heq := hrun.eq
    dsimp only at heq hplace
    rw [heq, hplace, byteLen_append, byteLen_append]
    omega
  · obtain ⟨rfl, -⟩ := hyields
    exact ⟨Nat.le_refl _, Nat.le_refl _⟩

/-- Pieces of one segment come in order, and none meets another. -/
theorem segmentPieces_ordered (split : Bool) (start : Nat)
    (segment : List Char) :
    (segmentPieces split start segment).Pairwise fun p q =>
      p.1 + byteLen p.2 ≤ q.1 := by
  unfold segmentPieces
  split
  · exact runs_ordered start segment
  · split
    · exact List.pairwise_singleton _ _
    · exact List.Pairwise.nil

/-- Pieces of segments, one behind the other, do so too. -/
theorem piecesFrom_ordered (split : Bool) (start : Nat)
    (segments : List (List Char)) :
    (∀ piece ∈ piecesFrom split start segments, start ≤ piece.1)
      ∧ (piecesFrom split start segments).Pairwise fun p q =>
          p.1 + byteLen p.2 ≤ q.1 := by
  induction segments generalizing start with
  | nil => exact ⟨by simp [piecesFrom], List.Pairwise.nil⟩
  | cons segment segments ih =>
      obtain ⟨hbound, hpairwise⟩ := ih (start + byteLen segment)
      unfold piecesFrom
      constructor
      · intro piece hpiece
        rcases List.mem_append.mp hpiece with hpiece | hpiece
        · exact (segmentPieces_within hpiece).1
        · exact le_trans (Nat.le_add_right _ _) (hbound piece hpiece)
      · rw [List.pairwise_append]
        refine ⟨segmentPieces_ordered split start segment, hpairwise, ?_⟩
        intro p hp q hq
        exact (segmentPieces_within hp).2.trans (hbound q hq)

-- ========================================================== the whole stream

/-- At the start all pieces of all segments remain. -/
theorem remaining_tokenStream (split : Bool) {text : String}
    {segments : List (List Char)} (h : text.toList = segments.flatten)
    (token : Token) :
    Remaining (tokenStream split text (segmentEnds 0 segments) token)
      (piecesFrom split 0 segments) := by
  refine ⟨[], [], segments, h, rfl, rfl, rfl, ?_⟩
  rw [segmentPieces_nil]
  rfl

/-- ICU token streams are exact. Over any boundaries a segmenter may
yield, and whatever the consumer writes into the tokens it is handed,
calling until the end terminates without slicing a character apart and
hands out, in order, exactly what the segments yield in the mode; every
token is numbered, delimited and spelled as its place in the text says;
and the stream stays at its end. -/
theorem icu_tokens_exact {text : String} {boundaries : List Nat}
    (h : SegmenterBoundaries text boundaries) (split : Bool) (token : Token)
    (consumer : Nat → Token → Token) :
    ∃ tokens last,
      drain consumer 0 (tokenStream split text boundaries token)
          = some (tokens, last)
        ∧ (∀ piece, piece ∈ tokens.map (fun t => (t.offsetFrom, t.text.toList))
          ↔ ∃ segment ∈ segmentsFrom text 0 boundaries,
              Yields split segment piece)
        ∧ tokens.Pairwise (fun t u => t.offsetTo ≤ u.offsetFrom)
        ∧ (∀ (i : Nat) (t : Token), tokens[i]? = some t →
            t.position = i ∧ t.positionLength = 1
              ∧ t.offsetFrom < t.offsetTo
              ∧ sliceStr text t.offsetFrom t.offsetTo = some t.text)
        ∧ ∀ token, IcuTokenStream.advance { last with token }
            = some (false, { last with token }) := by
  have hsorted : (byteLen [] :: boundaries).Pairwise (· ≤ ·) := by
    rw [List.pairwise_cons]
    exact ⟨fun place _ => Nat.zero_le place, h.nondecreasing⟩
  obtain ⟨segments, hflat, rfl⟩ := @exists_segments text [] text.toList
    boundaries rfl hsorted h.onCharacters h.upToEnd
  have htext : text.toList = [] ++ segments.flatten := hflat
  have hpieces := piecesFrom_eq split htext
  rw [byteLen_nil] at hpieces
  have hstart := remaining_tokenStream split hflat token
  obtain ⟨last, hdrain, hlast, hslices⟩ :=
    drain_of_remaining hstart consumer 0
  refine ⟨_, last, hdrain, ?_, ?_, ?_, ?_⟩
  · intro piece
    rw [map_tokensFrom, hpieces, List.mem_flatMap]
    simp only [mem_segmentPieces_iff]
    rfl
  · exact tokensFrom_ordered (piecesFrom_ordered split 0 segments).2
  · intro i t ht
    obtain ⟨piece, hpiece, rfl⟩ := tokensFrom_getElem? ht
    refine ⟨Nat.zero_add i, rfl, ?_, hslices piece hpiece⟩
    rw [hpieces] at hpiece
    obtain ⟨segment, -, hmem⟩ := List.mem_flatMap.mp hpiece
    have hpos := byteLen_pos (ne_nil_of_yields (mem_segmentPieces_iff.mp hmem))
    exact Nat.lt_add_of_pos_right hpos
  · intro token
    exact advance_of_exhausted hlast

end

/-- The segments of "é_b c", cut before it, behind "b" twice and around the
space. -/
def accentSegments : List (List Char) :=
  [[], ['é', '_', 'b'], [], [' '], ['c']]

/-- The first character is two bytes wide, the others one. -/
theorem pieces_accent :
    @piecesFrom latinAlphanumeric true 0 accentSegments
      = [(0, ['é']), (3, ['b']), (5, ['c'])] := by
  have haccent : @isAlphanumeric latinAlphanumeric 'é' = true := by
    decide +kernel
  have hline : @isAlphanumeric latinAlphanumeric '_' = false := by
    decide +kernel
  have hb : @isAlphanumeric latinAlphanumeric 'b' = true := by decide +kernel
  have hblank : @isAlphanumeric latinAlphanumeric ' ' = false := by
    decide +kernel
  have hc : @isAlphanumeric latinAlphanumeric 'c' = true := by decide +kernel
  have hwide : Char.utf8Size 'é' = 2 := by decide
  have hone : Char.utf8Size '_' = 1 ∧ Char.utf8Size 'b' = 1
      ∧ Char.utf8Size ' ' = 1 := by
    decide
  simp [accentSegments, piecesFrom, segmentPieces, runs, widthOf, byteLen,
    haccent, hline, hb, hblank, hc, hwide, hone]

/-- Its tokens, handed to a consumer that overwrites each of them. -/
theorem icu_tokens_exact_accent :
    ∃ tokens last,
      @drain latinAlphanumeric (fun _ t => { t with text := "", position := 99 })
          0 (tokenStream true "é_b c" [0, 4, 4, 5, 6] ⟨0, 0, 0, "", 1⟩)
          = some (tokens, last)
        ∧ tokens.map (fun t => (t.offsetFrom, t.offsetTo, t.text))
          = [(0, 2, "é"), (3, 4, "b"), (5, 6, "c")]
        ∧ tokens.Pairwise (fun t u => t.offsetTo ≤ u.offsetFrom) := by
  have hboundaries : SegmenterBoundaries "é_b c" [0, 4, 4, 5, 6] := by
    refine ⟨by decide, ?_, by decide⟩
    intro place hplace
    refine ⟨"é_b c".toList.take (place - 1), "é_b c".toList.drop (place - 1),
      (List.take_append_drop _ _).symm, ?_⟩
    revert place
    decide
  obtain ⟨tokens, last, hdrain, -, hordered, -⟩ :=
    @icu_tokens_exact latinAlphanumeric _ _ hboundaries true ⟨0, 0, 0, "", 1⟩
      fun _ t => { t with text := "", position := 99 }
  have hstart := @remaining_tokenStream latinAlphanumeric true "é_b c"
    accentSegments (by decide) ⟨0, 0, 0, "", 1⟩
  rw [pieces_accent] at hstart
  obtain ⟨last', hdrain', -⟩ := @drain_of_remaining latinAlphanumeric _ _ hstart
    (fun _ t => { t with text := "", position := 99 }) 0
  cases hdrain.symm.trans hdrain'
  exact ⟨_, last, hdrain, by decide +kernel, hordered⟩

end PaimonFtindex.Proofs

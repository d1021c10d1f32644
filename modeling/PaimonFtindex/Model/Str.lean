/-
The `str` methods the crate calls, over Lean strings read as lists of
characters.

`to_lowercase` rests on the Unicode case tables, which are no part of
the repository. `UnicodeCase` leaves it open: every result of this
development holds of any such function, Rust's own among them, and no
assumption on it is made anywhere. `asciiCase` is what it does to ASCII
strings, for the runs on concrete inputs.
-/
import Mathlib.Algebra.GroupWithZero.Nat
import Mathlib.Data.List.DropRight
import PaimonFtindex.Model.Num

namespace PaimonFtindex.Model

/-- `str::to_lowercase`. -/
class UnicodeCase where
  toLowercase : String → String

/-- Lowercasing by the ASCII table alone. -/
def asciiLowercase (s : String) : String :=
  String.ofList (s.toList.map Char.toLower)

/-- Case tables that know ASCII only. -/
@[reducible] def asciiCase : UnicodeCase := ⟨asciiLowercase⟩

/-- `char::is_alphanumeric`; like the case tables, left open. -/
class UnicodeAlphanumeric where
  isAlphanumeric : Char → Bool

export UnicodeAlphanumeric (isAlphanumeric)

/-- Letters and numbers below U+0100. -/
@[reducible] def latinAlphanumeric : UnicodeAlphanumeric where
  isAlphanumeric c :=
    c.isAlphanum
      || ['ª', 'µ', 'º', '²', '³', '¹', '¼', '½', '¾'].contains c
      || ('À' ≤ c && c ≤ 'ÿ' && c ≠ '×' && c ≠ '÷')

-- ========================================================= trimming

/-- `char::is_whitespace`: the Unicode `White_Space` property. -/
def isWhitespace (c : Char) : Bool :=
  let n := c.toNat
  (9 ≤ n && n ≤ 13) || n == 0x20 || n == 0x85 || n == 0xA0 || n == 0x1680
    || (0x2000 ≤ n && n ≤ 0x200A) || n == 0x2028 || n == 0x2029
    || n == 0x202F || n == 0x205F || n == 0x3000

/-- `str::trim`. -/
def trim (s : String) : String :=
  String.ofList ((s.toList.dropWhile isWhitespace).rdropWhile isWhitespace)

/-- `str::trim().is_empty()`. -/
def isBlank (s : String) : Bool := (trim s).isEmpty

/-- Nothing is dropped from a list that does not start with a match. -/
private theorem dropWhile_eq_self_of_head {p : Char → Bool} {l : List Char}
    (h : ∀ c, l.head? = some c → p c = false) : l.dropWhile p = l := by
  cases l with
  | nil => rfl
  | cons c l => rw [List.dropWhile_cons, h c rfl]; rfl

/-- Dropping matches at the end keeps the first character, if any
character stays. -/
private theorem head?_of_head?_rdropWhile {p : Char → Bool} {l : List Char}
    {c : Char} (h : (l.rdropWhile p).head? = some c) : l.head? = some c := by
  obtain ⟨t, ht⟩ := List.rdropWhile_prefix p l
  rw [← ht, List.head?_append, h]
  rfl

/-- Trimming twice trims once. -/
@[simp] theorem trim_trim (s : String) : trim (trim s) = trim s := by
  unfold trim
  rw [String.toList_ofList]
  congr 1
  have hfirst : ∀ c, ((s.toList.dropWhile isWhitespace).rdropWhile
      isWhitespace).head? = some c → isWhitespace c = false := by
    intro c hc
    have hnot := List.head?_dropWhile_not isWhitespace s.toList
    rw [head?_of_head?_rdropWhile hc] at hnot
    exact hnot
  rw [dropWhile_eq_self_of_head hfirst, List.rdropWhile_idempotent]

-- =========================================== prefixes and replacement

/-- `str::strip_prefix`. -/
def stripPrefix (pre s : String) : Option String :=
  if pre.toList.isPrefixOf s.toList then
    some (String.ofList (s.toList.drop pre.toList.length))
  else none

/-- `str::replace` of one character. -/
def replaceChar (s : String) (c : Char) (by' : String) : String :=
  String.ofList (s.toList.flatMap fun d => if d = c then by'.toList else [d])

/-- Replacing a character that does not occur changes nothing. -/
theorem replaceChar_eq_self {s : String} {c : Char} {by' : String}
    (h : c ∉ s.toList) : replaceChar s c by' = s := by
  have hflat : ∀ l : List Char, c ∉ l →
      (l.flatMap fun d => if d = c then by'.toList else [d]) = l := by
    intro l
    induction l with
    | nil => intro _; rfl
    | cons d l ih =>
        intro hl
        rw [List.mem_cons, not_or] at hl
        rw [List.flatMap_cons, if_neg (Ne.symm hl.1), ih hl.2]
        rfl
  unfold replaceChar
  rw [hflat _ h, String.ofList_toList]

/-- `str::split` at the characters of a set: empty pieces are kept. -/
def splitChars (s : String) (cs : List Char) : List String :=
  (s.toList.splitOnP fun c => cs.contains c).map String.ofList

/-- `str::eq_ignore_ascii_case`. -/
def eqIgnoreAsciiCase (a b : String) : Bool :=
  asciiLowercase a == asciiLowercase b

-- ========================================================= byte ranges

/-- The characters behind the first `n` bytes, unless a character lies
across that place. -/
def dropBytes (n : Nat) : List Char → Option (List Char)
  | [] => if n = 0 then some [] else none
  | c :: cs =>
      if n = 0 then some (c :: cs)
      else if c.utf8Size ≤ n then dropBytes (n - c.utf8Size) cs
      else none

/-- The characters of the first `n` bytes, unless a character lies across
their end. -/
def takeBytes (n : Nat) : List Char → Option (List Char)
  | [] => if n = 0 then some [] else none
  | c :: cs =>
      if n = 0 then some []
      else if c.utf8Size ≤ n then
        (takeBytes (n - c.utf8Size) cs).map (c :: ·)
      else none

/-- `&s[start..stop]`; it panics off a character boundary. -/
def sliceStr (s : String) (start stop : Nat) : Option String :=
  if stop < start then none
  else do
    let rest ← dropBytes start s.toList
    return String.ofList (← takeBytes (stop - start) rest)

-- ========================================================== numbers

/-- One decimal digit. -/
def digitValue (c : Char) : Option Nat :=
  if '0' ≤ c ∧ c ≤ '9' then some (c.toNat - '0'.toNat) else none

/-- The value of a digit string, `none` on any other character. -/
def digitsValue (cs : List Char) : Option Nat :=
  cs.foldlM (fun n c => (digitValue c).map (n * 10 + ·)) 0

/-- `str::parse::<usize>`: an optional `+`, then at least one digit, and
the value fits the word. -/
def parseUsizeStr (s : String) : Option UInt64 :=
  let digits := match s.toList with
    | '+' :: rest => rest
    | cs => cs
  if digits.isEmpty then none
  else match digitsValue digits with
    | some n => if n < 2 ^ 64 then some (UInt64.ofNat n) else none
    | none => none

end PaimonFtindex.Model

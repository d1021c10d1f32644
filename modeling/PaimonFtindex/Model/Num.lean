/-
Machine arithmetic, as the crate writes it: `u64` and (64-bit) `usize`
words, the checked additions that turn an overflow into an error, the
unchecked ones whose overflow depends on how the crate was built, and
the big-endian `u32` codec of the storage prefix.

# Overflow of an unchecked addition

Rust panics on it in a debug build and wraps in a release build; the
workspace sets no `overflow-checks` of its own, so both exist. `Build`
carries the choice and `uncheckedAdd` answers `none` exactly where the
panic is: every reader of the model states its results at both builds.

# Floats

`f32` values are their 32 bits. The crate compares them and tests them
for finiteness, and both are exact on bits: IEEE order is the order of
the signed magnitude (`key`), and `scaled` is the value in units of
2⁻¹⁴⁹, an integer for every finite float. The two orders are one
(`le_iff_scaled`).
-/
import Mathlib.Algebra.Group.Int.Defs
import Mathlib.Algebra.GroupWithZero.Nat
import Mathlib.Data.List.Basic
import Mathlib.Order.Monotone.Basic

namespace PaimonFtindex.Model

-- ====================================================== checked sums

/-- `u64::checked_add`. -/
def checkedAdd (a b : UInt64) : Option UInt64 :=
  if a.toNat + b.toNat < 2 ^ 64 then some (a + b) else none

/-- A checked sum is the sum of the naturals. -/
@[simp] theorem checkedAdd_eq_some {a b c : UInt64} :
    checkedAdd a b = some c ↔ c.toNat = a.toNat + b.toNat := by
  unfold checkedAdd
  have hc := c.toNat_lt
  split
  · rename_i h
    rw [Option.some.injEq, ← UInt64.toNat_inj, UInt64.toNat_add,
      Nat.mod_eq_of_lt h]
    exact eq_comm
  · constructor
    · intro h; cases h
    · intro h; omega

/-- A checked sum fails exactly past the last word. -/
@[simp] theorem checkedAdd_eq_none {a b : UInt64} :
    checkedAdd a b = none ↔ 2 ^ 64 ≤ a.toNat + b.toNat := by
  unfold checkedAdd
  split <;> simp <;> omega

/-- `usize::saturating_add`. -/
def saturatingAdd (a b : UInt64) : UInt64 :=
  if a.toNat + b.toNat < 2 ^ 64 then a + b else UInt64.ofNat (2 ^ 64 - 1)

/-- A saturating sum is short of any bound the sum itself keeps to. -/
theorem saturatingAdd_le_iff {a b : UInt64} {n : Nat} (hn : n < 2 ^ 64 - 1) :
    (saturatingAdd a b).toNat ≤ n ↔ a.toNat + b.toNat ≤ n := by
  unfold saturatingAdd
  by_cases h : a.toNat + b.toNat < 2 ^ 64
  · rw [if_pos h, UInt64.toNat_add, Nat.mod_eq_of_lt h]
  · rw [if_neg h]
    show 2 ^ 64 - 1 ≤ n ↔ _
    omega

/-- A saturating sum that fits is the sum. -/
theorem toNat_saturatingAdd {a b : UInt64} (h : a.toNat + b.toNat < 2 ^ 64) :
    (saturatingAdd a b).toNat = a.toNat + b.toNat := by
  unfold saturatingAdd
  rw [if_pos h, UInt64.toNat_add, Nat.mod_eq_of_lt h]

-- =================================================== unchecked sums

/-- How the crate was compiled: with overflow checks (a debug or test
build) or without (a release build). -/
structure Build where
  overflowChecks : Bool
  deriving DecidableEq

/-- `a + b` on words: `none` is the overflow panic of a checked build;
a release build wraps. -/
def uncheckedAdd (build : Build) (a b : UInt64) : Option UInt64 :=
  if a.toNat + b.toNat < 2 ^ 64 then some (a + b)
  else if build.overflowChecks then none
  else some (a + b)

/-- An unchecked sum that fits is the sum, in both builds. -/
theorem uncheckedAdd_eq {build : Build} {a b c : UInt64}
    (h : uncheckedAdd build a b = some c)
    (hlt : a.toNat + b.toNat < 2 ^ 64) :
    c.toNat = a.toNat + b.toNat := by
  unfold uncheckedAdd at h
  rw [if_pos hlt, Option.some.injEq] at h
  rw [← h, UInt64.toNat_add, Nat.mod_eq_of_lt hlt]

/-- An unchecked sum that overflows and does not panic has wrapped. -/
theorem uncheckedAdd_wraps {build : Build} {a b c : UInt64}
    (h : uncheckedAdd build a b = some c)
    (hge : 2 ^ 64 ≤ a.toNat + b.toNat) :
    c.toNat = a.toNat + b.toNat - 2 ^ 64 := by
  unfold uncheckedAdd at h
  rw [if_neg (by omega)] at h
  split at h
  · cases h
  · rw [Option.some.injEq] at h
    have ha := a.toNat_lt
    have hb := b.toNat_lt
    rw [← h, UInt64.toNat_add]
    omega

/-- `a - b` on words, in the same two builds. -/
def uncheckedSub (build : Build) (a b : UInt64) : Option UInt64 :=
  if b.toNat ≤ a.toNat then some (a - b)
  else if build.overflowChecks then none
  else some (a - b)

/-- A difference of words whose subtrahend is not larger is exact. -/
theorem toNat_sub_of_le {a b : UInt64} (h : b.toNat ≤ a.toNat) :
    (a - b).toNat = a.toNat - b.toNat := by
  rw [UInt64.toNat_sub]
  have ha := a.toNat_lt
  omega

theorem uncheckedSub_eq {build : Build} {a b c : UInt64}
    (h : uncheckedSub build a b = some c) (hle : b.toNat ≤ a.toNat) :
    c.toNat = a.toNat - b.toNat := by
  unfold uncheckedSub at h
  rw [if_pos hle, Option.some.injEq] at h
  rw [← h, toNat_sub_of_le hle]

-- ============================================== big-endian u32 words

/-- `u32::to_be_bytes`. -/
def toBeBytes (w : UInt32) : List UInt8 :=
  [(w >>> 24).toUInt8, (w >>> 16).toUInt8, (w >>> 8).toUInt8, w.toUInt8]

/-- `u32::from_be_bytes`; the source only calls it on four-byte slices
(`expect("slice length")`), other lengths read as zero here. -/
def fromBeBytes : List UInt8 → UInt32
  | [b₀, b₁, b₂, b₃] =>
      UInt32.ofNat (((b₀.toNat * 256 + b₁.toNat) * 256 + b₂.toNat) * 256
        + b₃.toNat)
  | _ => 0

@[simp] theorem toBeBytes_length (w : UInt32) : (toBeBytes w).length = 4 :=
  rfl

/-- Reading the four bytes back gives the word. -/
@[simp] theorem fromBeBytes_toBeBytes (w : UInt32) :
    fromBeBytes (toBeBytes w) = w := by
  have hw := w.toNat_lt
  rw [← UInt32.toNat_inj]
  simp only [toBeBytes, fromBeBytes, UInt32.toNat_ofNat', UInt32.toNat_toUInt8,
    UInt32.toNat_shiftRight, Nat.shiftRight_eq_div_pow,
    show UInt32.toNat 24 % 32 = 24 from rfl,
    show UInt32.toNat 16 % 32 = 16 from rfl,
    show UInt32.toNat 8 % 32 = 8 from rfl]
  omega

/-- Four bytes are those of the word they read as. -/
theorem toBeBytes_fromBeBytes {bytes : List UInt8} (h : bytes.length = 4) :
    toBeBytes (fromBeBytes bytes) = bytes := by
  obtain ⟨b₀, b₁, b₂, b₃, rfl⟩ := List.length_eq_four.mp h
  have h₀ := b₀.toNat_lt
  have h₁ := b₁.toNat_lt
  have h₂ := b₂.toNat_lt
  have h₃ := b₃.toNat_lt
  unfold toBeBytes fromBeBytes
  refine List.cons_eq_cons.mpr ⟨?_, List.cons_eq_cons.mpr ⟨?_,
    List.cons_eq_cons.mpr ⟨?_, List.cons_eq_cons.mpr ⟨?_, rfl⟩⟩⟩⟩ <;>
  · rw [← UInt8.toNat_inj]
    simp only [UInt32.toNat_ofNat', UInt32.toNat_toUInt8,
      UInt32.toNat_shiftRight, Nat.shiftRight_eq_div_pow,
      show UInt32.toNat 24 % 32 = 24 from rfl,
      show UInt32.toNat 16 % 32 = 16 from rfl,
      show UInt32.toNat 8 % 32 = 8 from rfl]
    omega

-- ============================================================ floats

/-- An `f32`, as its bits. -/
structure F32 where
  bits : UInt32
  deriving DecidableEq, Repr

namespace F32

/-- The biased exponent field. -/
def exponent (x : F32) : Nat := x.bits.toNat / 2 ^ 23 % 2 ^ 8

/-- The fraction field. -/
def fraction (x : F32) : Nat := x.bits.toNat % 2 ^ 23

/-- The sign bit. -/
def signBit (x : F32) : Bool := decide (2 ^ 31 ≤ x.bits.toNat)

/-- `f32::is_finite`. -/
def isFinite (x : F32) : Bool := x.exponent != 255

/-- `f32::is_nan`. -/
def isNan (x : F32) : Bool := x.exponent == 255 && x.fraction != 0

/-- Signed magnitude of the bits: on values that are not NaN this is
the IEEE order, with the two zeros equal. -/
def key (x : F32) : Int :=
  if x.signBit then -((x.bits.toNat % 2 ^ 31 : Nat) : Int)
  else ((x.bits.toNat % 2 ^ 31 : Nat) : Int)

/-- `<=` on floats: false as soon as one side is NaN. -/
def le (x y : F32) : Bool :=
  !x.isNan && !y.isNan && decide (x.key ≤ y.key)

/-- A finite float in units of 2⁻¹⁴⁹. -/
def scaled (x : F32) : Int :=
  let magnitude : Nat :=
    if x.exponent = 0 then x.fraction
    else (x.fraction + 2 ^ 23) * 2 ^ (x.exponent - 1)
  if x.signBit then -(magnitude : Int) else (magnitude : Int)

/-- `0.0`. -/
def zero : F32 := ⟨0⟩

/-- `0.5`. -/
def half : F32 := ⟨0x3f000000⟩

/-- `1.0`. -/
def one : F32 := ⟨0x3f800000⟩

/-- `(x - 1.0).abs() > f32::EPSILON`, on finite `x`. The subtraction is
exact wherever it decides the comparison: the floats next to the two
bounds differ from one by a float, and rounding is monotone. -/
def farFromOne (x : F32) : Bool :=
  decide (2 ^ 126 < (x.scaled - 2 ^ 149).natAbs)

@[simp] theorem isFinite_zero : zero.isFinite = true := rfl

@[simp] theorem isFinite_one : one.isFinite = true := rfl

@[simp] theorem scaled_zero : zero.scaled = 0 := rfl

-- ----------------------------------------------------------- their order

/-- The value of a word without its sign, in units of 2⁻¹⁴⁹, when it is
finite. -/
def magnitude (w : Nat) : Nat :=
  if w / 2 ^ 23 = 0 then w % 2 ^ 23
  else (w % 2 ^ 23 + 2 ^ 23) * 2 ^ (w / 2 ^ 23 - 1)

theorem magnitude_lt {w w' : Nat} (h : w < w') : magnitude w < magnitude w' := by
  unfold magnitude
  by_cases hw : w / 2 ^ 23 = 0
  · rw [if_pos hw]
    by_cases hw' : w' / 2 ^ 23 = 0
    · rw [if_pos hw']
      omega
    · rw [if_neg hw']
      have hpow : 0 < 2 ^ (w' / 2 ^ 23 - 1) := Nat.two_pow_pos _
      calc w % 2 ^ 23 < (w' % 2 ^ 23 + 2 ^ 23) * 1 := by omega
        _ ≤ (w' % 2 ^ 23 + 2 ^ 23) * 2 ^ (w' / 2 ^ 23 - 1) :=
            Nat.mul_le_mul_left _ hpow
  · have hle : w / 2 ^ 23 ≤ w' / 2 ^ 23 := Nat.div_le_div_right (Nat.le_of_lt h)
    rw [if_neg hw, if_neg (by omega)]
    by_cases heq : w / 2 ^ 23 = w' / 2 ^ 23
    · rw [← heq]
      apply Nat.mul_lt_mul_of_pos_right
      · omega
      · exact Nat.two_pow_pos _
    · -- the next exponent doubles at least
      have hsucc : w / 2 ^ 23 - 1 + 1 ≤ w' / 2 ^ 23 - 1 := by omega
      calc (w % 2 ^ 23 + 2 ^ 23) * 2 ^ (w / 2 ^ 23 - 1)
          < (2 ^ 23 * 2) * 2 ^ (w / 2 ^ 23 - 1) := by
            apply Nat.mul_lt_mul_of_pos_right
            · omega
            · exact Nat.two_pow_pos _
        _ = 2 ^ 23 * 2 ^ (w / 2 ^ 23 - 1 + 1) := by
            rw [Nat.mul_assoc, ← Nat.pow_succ']
        _ ≤ 2 ^ 23 * 2 ^ (w' / 2 ^ 23 - 1) :=
            Nat.mul_le_mul_left _ (Nat.pow_le_pow_right (by decide) hsucc)
        _ ≤ (w' % 2 ^ 23 + 2 ^ 23) * 2 ^ (w' / 2 ^ 23 - 1) := by
            apply Nat.mul_le_mul_right
            omega

theorem magnitude_le_iff {w w' : Nat} :
    magnitude w ≤ magnitude w' ↔ w ≤ w' := by
  have hmono : StrictMono magnitude := fun _ _ h => magnitude_lt h
  exact hmono.le_iff_le

theorem scaled_eq (x : F32) :
    x.scaled = if x.signBit then -(magnitude (x.bits.toNat % 2 ^ 31) : Int)
      else (magnitude (x.bits.toNat % 2 ^ 31) : Int) := by
  have hexponent : x.bits.toNat % 2 ^ 31 / 2 ^ 23 = x.exponent := by
    unfold exponent
    omega
  have hfraction : x.bits.toNat % 2 ^ 31 % 2 ^ 23 = x.fraction := by
    unfold fraction
    omega
  unfold scaled magnitude
  rw [hexponent, hfraction]

/-- Finite floats are ordered as their values. -/
theorem le_iff_scaled {x y : F32} (hx : x.isFinite = true)
    (hy : y.isFinite = true) : x.le y = true ↔ x.scaled ≤ y.scaled := by
  have hnan : ∀ z : F32, z.isFinite = true → z.isNan = false := by
    intro z hz
    unfold isFinite at hz
    unfold isNan
    simp at hz
    simp [hz]
  have hkey : x.le y = true ↔ x.key ≤ y.key := by
    unfold le
    simp [hnan x hx, hnan y hy]
  rw [hkey, scaled_eq, scaled_eq]
  unfold key
  generalize x.bits.toNat % 2 ^ 31 = w
  generalize y.bits.toNat % 2 ^ 31 = w'
  have hle := @magnitude_le_iff w w'
  have hge := @magnitude_le_iff w' w
  have hzero := @magnitude_le_iff w 0
  have hzero' := @magnitude_le_iff w' 0
  have h0 : magnitude 0 = 0 := by decide
  rw [h0] at hzero hzero'
  by_cases hsx : x.signBit = true
  · by_cases hsy : y.signBit = true
    · rw [if_pos hsx, if_pos hsy, if_pos hsx, if_pos hsy]
      omega
    · rw [if_pos hsx, if_neg hsy, if_pos hsx, if_neg hsy]
      omega
  · by_cases hsy : y.signBit = true
    · rw [if_neg hsx, if_pos hsy, if_neg hsx, if_pos hsy]
      omega
    · rw [if_neg hsx, if_neg hsy, if_neg hsx, if_neg hsy]
      omega

end F32

/-- `Display` for `f32`: the shortest decimal that reads back, which only
error messages show. -/
class F32Display where
  display : F32 → String

end PaimonFtindex.Model

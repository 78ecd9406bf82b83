import Mathlib.Data.Rat.Floor

/-!
# Number formats

Decimals, machine integers and hexadecimal digits. A decimal is a rational number. It
becomes an integer by rounding to the nearest one, halves away from zero, or by dropping
its fraction, and an integer that is out of range becomes the bound it is beyond.
-/

namespace Qapi.Core

/-! ## Decimals -/

/-- The nearest integer, halves away from zero. -/
def roundHalfAway (q : ℚ) : Int := if 0 ≤ q then ⌊q + 1 / 2⌋ else -⌊-q + 1 / 2⌋

def truncate (q : ℚ) : Int := if 0 ≤ q then ⌊q⌋ else -⌊-q⌋

def saturate (lo hi x : Int) : Int := if hi ≤ x then hi else if x ≤ lo then lo else x

theorem roundHalfAway_nonneg {q : ℚ} (h : 0 ≤ q) : 0 ≤ roundHalfAway q := by
  rw [roundHalfAway, if_pos h]
  apply Int.floor_nonneg.mpr
  linarith

theorem truncate_eq_self_iff (q : ℚ) : (truncate q : ℚ) = q ↔ q.den = 1 := by
  constructor
  · intro h
    rw [← h]
    exact Rat.den_intCast _
  · intro h
    have hInt : q = (q.num : ℚ) := ((Rat.den_eq_one_iff q).mp h).symm
    rw [hInt]
    unfold truncate
    split
    · rw [Int.floor_intCast]
    · rw [← Int.cast_neg, Int.floor_intCast, neg_neg]

theorem truncate_eq_iff_of_pos {q : ℚ} (h : 0 < truncate q) (n : Int) :
    truncate q = n ↔ (n : ℚ) ≤ q ∧ q < n + 1 := by
  have hq : 0 ≤ q := by
    by_contra hNeg
    rw [truncate, if_neg hNeg] at h
    have hFloor : 0 ≤ ⌊-q⌋ := Int.floor_nonneg.mpr (by linarith)
    omega
  rw [truncate, if_pos hq, Int.floor_eq_iff]

theorem saturate_nonneg {lo hi x : Int} (hHi : 0 ≤ hi) (hx : 0 ≤ x) (hLo : lo < 0) :
    0 ≤ saturate lo hi x := by
  unfold saturate
  split
  · exact hHi
  split
  · omega
  · exact hx

/-! ## 64-bit integers -/

/-- The value an `int64` operation stores for the exact result `x`. -/
def wrap64 (x : Int) : Int := Int.bmod x (2 ^ 64)

theorem wrap64_of_lt {x : Int} (hLow : -(2 ^ 63) ≤ x) (hHigh : x < 2 ^ 63) : wrap64 x = x := by
  exact Int.bmod_eq_of_le (by omega) (by omega)

/-! ## Hexadecimal digits -/

def isHex (c : Char) : Bool :=
  ('0' ≤ c && c ≤ '9') || ('a' ≤ c && c ≤ 'f') || ('A' ≤ c && c ≤ 'F')

def hexDigit (c : Char) : Nat :=
  if '0' ≤ c ∧ c ≤ '9' then c.toNat - '0'.toNat
  else if 'a' ≤ c ∧ c ≤ 'f' then c.toNat - 'a'.toNat + 10
  else c.toNat - 'A'.toNat + 10

def hexValue (s : List Char) : Nat := s.foldl (fun acc c => acc * 16 + hexDigit c) 0

theorem isHex_digitChar : ∀ n < 16, isHex (Nat.digitChar n) = true := by decide

theorem hexDigit_digitChar : ∀ n < 16, hexDigit (Nat.digitChar n) = n := by decide

end Qapi.Core

import Mathlib.Data.Int.ModEq
import Mathlib.Algebra.Order.Ring.Abs
import Mathlib.Tactic.Positivity
import Mathlib.Tactic.NormNum

/-! Row indices after a rotation.  The source computes them in `i32`; a release build wraps
on overflow, which `toI32` models as a two's-complement truncation. -/

namespace PlonkEvaluation

/-- `x as i32`, and the result of a wrapping `i32` addition or multiplication. -/
def toI32 (x : Int) : Int := x.bmod (2 ^ 32)

/-- Return the index in the polynomial of size `isize` after rotation `rot`.  Lean's `%` is
`rem_euclid` for `isize ≠ 0`; at `isize = 0`, where the source panics, it returns the dividend. -/
def getRotationIdx (idx : Nat) (rot rotScale isize : Int) : Nat :=
  (toI32 (toI32 idx + toI32 (rot * rotScale)) % isize).toNat

theorem toI32_emod {k : Nat} (hk : k ≤ 32) (x : Int) : toI32 x % 2 ^ k = x % 2 ^ k := by
  have hdvd : (2 : Int) ^ k ∣ ((2 ^ 32 : Nat) : Int) := by
    exact_mod_cast Nat.pow_dvd_pow 2 hk
  rw [← Int.emod_emod_of_dvd (toI32 x) hdvd, toI32, Int.bmod_emod, Int.emod_emod_of_dvd x hdvd]

theorem getRotationIdx_eq_emod {k : Nat} (hk : k ≤ 32) (idx : Nat) (rot rotScale : Int) :
    (getRotationIdx idx rot rotScale (2 ^ k) : Int) = (idx + rot * rotScale) % 2 ^ k := by
  have hpos : (0 : Int) < 2 ^ k := by positivity
  rw [getRotationIdx, Int.toNat_of_nonneg (Int.emod_nonneg _ hpos.ne'), toI32_emod hk,
    Int.add_emod, toI32_emod hk, toI32_emod hk, ← Int.add_emod]

theorem getRotationIdx_lt {k : Nat} (hk : k ≤ 32) (idx : Nat) (rot rotScale : Int) :
    getRotationIdx idx rot rotScale (2 ^ k) < 2 ^ k := by
  have hpos : (0 : Int) < 2 ^ k := by positivity
  have h := getRotationIdx_eq_emod hk idx rot rotScale ▸ Int.emod_lt_of_pos _ hpos
  exact_mod_cast h

theorem getRotationIdx_neg {k : Nat} (hk : k ≤ 32) {idx : Nat} (hidx : idx < 2 ^ k)
    (rot rotScale : Int) :
    getRotationIdx (getRotationIdx idx rot rotScale (2 ^ k)) (-rot) rotScale (2 ^ k) = idx := by
  have h := getRotationIdx_eq_emod hk (getRotationIdx idx rot rotScale (2 ^ k)) (-rot) rotScale
  rw [getRotationIdx_eq_emod hk idx, Int.emod_add_emod, neg_mul, add_neg_cancel_right,
    Int.emod_eq_of_lt (by omega) (by exact_mod_cast hidx)] at h
  exact_mod_cast h

/-- Under the `i32` bound on the domain and the rotation, every rotated index is in range,
is the residue of `idx + rot * rotScale`, and rotating back by `-rot` returns `idx`. -/
theorem getRotationIdx_in_range_and_inverse (k rotScale : Nat) (rot : Int) (idx : Nat)
    (hidx : idx < 2 ^ k) (hfit : 2 ^ k + |rot| * rotScale ≤ 2 ^ 31 - 1) :
    getRotationIdx idx rot rotScale (2 ^ k) < 2 ^ k ∧
    (getRotationIdx idx rot rotScale (2 ^ k) : Int) ≡ idx + rot * rotScale [ZMOD 2 ^ k] ∧
    getRotationIdx (getRotationIdx idx rot rotScale (2 ^ k)) (-rot) rotScale (2 ^ k) = idx := by
  have hk : k ≤ 32 := by
    by_contra hk
    have : (2 : Int) ^ 32 ≤ 2 ^ k := pow_le_pow_right₀ (by norm_num) (by omega)
    have : 0 ≤ |rot| * rotScale := by positivity
    omega
  refine ⟨getRotationIdx_lt hk idx rot rotScale, ?_, getRotationIdx_neg hk hidx rot rotScale⟩
  rw [Int.ModEq, getRotationIdx_eq_emod hk, Int.emod_emod]

theorem getRotationIdx_in_range_and_inverse_prev_row :
    getRotationIdx 5 (-1) 2 (2 ^ 4) < 2 ^ 4 ∧
    (getRotationIdx 5 (-1) 2 (2 ^ 4) : Int) ≡ 5 + -1 * 2 [ZMOD 2 ^ 4] ∧
    getRotationIdx (getRotationIdx 5 (-1) 2 (2 ^ 4)) 1 2 (2 ^ 4) = 5 :=
  getRotationIdx_in_range_and_inverse 4 2 (-1) 5 (by norm_num) (by norm_num)

end PlonkEvaluation

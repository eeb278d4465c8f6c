import PlonkEvaluation.Quotient.Keys
import PlonkEvaluation.Parallel
import Mathlib

/-! The reference evaluator `evaluate` as `parallelize` runs it, and what its rotated reads mean:
on the extended domain, rotation `rot` reads the row of the point `omega^rot * X`. -/

namespace PlonkEvaluation

variable {F : Type} [CommRing F]

/-- `evaluate` with its `parallelize`: rows start at zero, the worker of the chunk at `start` writes
`expression.evaluate(..)` at each of its rows, and a panic of any worker is a panic of the call. -/
def evaluateParallel (expression : Expression F) (size : Nat) (rotScale : Int)
    (fixed advice «instance» : List (List F)) (challenges : List F) (lens order : List Nat) :
    Option (List F) :=
  let isize := toI32 size
  (parallelPass (fun _ => ()) (fun _ idx _ =>
      (evaluateRow expression idx rotScale isize fixed advice «instance» challenges, ()))
    lens order (List.replicate size (some 0))).mapM id

private theorem mapM_id_map {α β : Type} (g : α → Option β) :
    ∀ l : List α, (l.map g).mapM id = l.mapM g
  | [] => rfl
  | a :: l => by simp only [List.map_cons, List.mapM_cons, id, mapM_id_map g l]

/-- Every split and every interleaving of `parallelize` give the row-by-row `evaluate`. -/
theorem evaluateParallel_eq (expression : Expression F) (size : Nat) (rotScale : Int)
    (fixed advice «instance» : List (List F)) (challenges : List F) (split : Split size)
    (order : List Nat) :
    evaluateParallel expression size rotScale fixed advice «instance» challenges split.lens order =
      evaluate expression size rotScale fixed advice «instance» challenges := by
  have hbody : ∀ (s : Unit) (idx : Nat) (v : Option F), True →
      ((evaluateRow expression idx rotScale (toI32 size) fixed advice «instance» challenges, ()) :
        Option F × Unit).1 =
        evaluateRow expression idx rotScale (toI32 size) fixed advice «instance» challenges ∧
      True := fun _ _ _ _ => ⟨rfl, trivial⟩
  rw [evaluateParallel, parallelPass_eq hbody (fun _ => trivial) split.lens order _
    (by rw [split.sum_eq, List.length_replicate])]
  have hmap : (List.replicate size (some (0 : F))).mapIdx
      (fun idx _ => evaluateRow expression idx rotScale (toI32 size) fixed advice «instance»
        challenges) =
      (List.range size).map fun idx =>
        evaluateRow expression idx rotScale (toI32 size) fixed advice «instance» challenges :=
    List.ext_getElem (by simp) fun _ _ _ => by simp
  rw [hmap, mapM_id_map, evaluate]

theorem emod_toI32_two_pow {n : Nat} (hn : n ≤ 31) (x : Int) : x % toI32 (2 ^ n) = x % 2 ^ n := by
  rcases Nat.lt_or_ge n 31 with h | h
  · have hlt : (2 : Int) ^ n < 2 ^ 31 := pow_lt_pow_right₀ (by norm_num) h
    have hpos : (0 : Int) < 2 ^ n := by positivity
    rw [toI32, Int.bmod_def, Int.emod_eq_of_lt hpos.le (by omega), if_pos (by omega)]
  · obtain rfl : n = 31 := by omega
    rw [show toI32 (2 ^ 31) = -2 ^ 31 by decide, Int.emod_neg]

/-- `get_rotation_idx(idx, rot, rot_scale, isize)`, with `rot_scale` and `isize` as `evaluate_h`
computes them in `i32`, is the row of the point `ω^idx * (ω^(2^(extended_k - k)))^rot`, for every
row and rotation, whatever the `i32` arithmetic wraps. -/
theorem getRotationIdx_rotates_point (domain : EvaluationDomain F) (hext : domain.extendedK ≤ 31)
    (ω : Fˣ) (homega : (ω : F) = domain.extendedOmega) (horder : ω ^ domain.extendedLen = 1)
    (idx : Nat) (rot : Int) :
    domain.extendedOmega ^ getRotationIdx idx rot domain.rotScale (toI32 domain.extendedLen) =
      ((ω ^ idx * (ω ^ 2 ^ (domain.extendedK - domain.k)) ^ rot : Fˣ) : F) := by
  have hN : ω ^ ((2 : Int) ^ domain.extendedK) = 1 := by
    rw [show (2 : Int) ^ domain.extendedK = ((2 ^ domain.extendedK : Nat) : Int) by push_cast; rfl,
      zpow_natCast]
    exact horder
  have h32 : ω ^ ((2 : Int) ^ 32) = 1 := by
    rw [show (2 : Int) ^ 32 = 2 ^ domain.extendedK * 2 ^ (32 - domain.extendedK) by
      rw [← pow_add, Nat.add_sub_cancel' (by omega)], zpow_mul, hN, one_zpow]
  have hscale : ω ^ (rot * domain.rotScale) = (ω ^ 2 ^ (domain.extendedK - domain.k)) ^ rot := by
    rw [mul_comm, zpow_mul, EvaluationDomain.rotScale, zpow_eq_zpow_emod _ h32,
      toI32_emod le_rfl, ← zpow_eq_zpow_emod _ h32]
    norm_cast
  have hrot : getRotationIdx idx rot domain.rotScale (toI32 domain.extendedLen) =
      getRotationIdx idx rot domain.rotScale (2 ^ domain.extendedK) := by
    rw [getRotationIdx, getRotationIdx, EvaluationDomain.extendedLen, Nat.cast_pow, Nat.cast_ofNat,
      emod_toI32_two_pow hext]
  have hrow : ω ^ getRotationIdx idx rot domain.rotScale (toI32 domain.extendedLen) =
      ω ^ idx * ω ^ (rot * domain.rotScale) := by
    rw [hrot, ← zpow_natCast, getRotationIdx_eq_emod (by omega) idx rot domain.rotScale,
      ← zpow_eq_zpow_emod _ hN, zpow_add, zpow_natCast]
  rw [← homega, ← Units.val_pow_eq_pow_val, hrow, hscale]

theorem getRotationIdx_rotates_point_two_rows :
    let domain : EvaluationDomain ℤ := ⟨0, 1, -1, id⟩
    domain.extendedK ≤ 31 ∧ ((-1 : ℤˣ) : ℤ) = domain.extendedOmega ∧
      (-1 : ℤˣ) ^ domain.extendedLen = 1 ∧
      domain.extendedOmega ^ getRotationIdx 1 (-1) domain.rotScale (toI32 domain.extendedLen) =
        (((-1) ^ 1 * ((-1) ^ 2 ^ (domain.extendedK - domain.k)) ^ (-1 : Int) : ℤˣ) : ℤ) :=
  ⟨by decide, rfl, by decide, getRotationIdx_rotates_point _ (by decide) (-1) rfl (by decide) 1 (-1)⟩

end PlonkEvaluation

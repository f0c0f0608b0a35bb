import Mathlib.Algebra.Order.Ring.Abs
import Mathlib.Algebra.Order.Field.Power
import Mathlib.Tactic.NormNum
import SenseGateway.Python.Float

namespace SenseGateway.Python

theorem roundHalfEven_intCast (n : ℤ) : roundHalfEven n = n := by
  simp [roundHalfEven]

theorem binaryExponent_natCast {m : ℕ} (hm : m ≠ 0) : binaryExponent m = Nat.log2 m := by
  have hlog : (2 : ℚ) ^ m.log2 ≤ m := by exact_mod_cast Nat.log2_self_le hm
  have hone : Nat.log2 1 = 0 := rfl
  simp [binaryExponent, hone, hlog]

/-- An integer of at most 53 bits is a double. -/
theorem roundDouble_intCast {n : ℤ} (h : n.natAbs < 2 ^ 53) : roundDouble n = .finite n := by
  by_cases hn : n = 0
  · simp [roundDouble, hn]
  · have hm : n.natAbs ≠ 0 := Int.natAbs_ne_zero.mpr hn
    have habs : |(n : ℚ)| = n.natAbs := by rw [← Int.cast_abs, Int.abs_eq_natAbs]; rfl
    have hlog : Nat.log2 n.natAbs ≤ 52 := by
      have hlt := (Nat.log2_lt hm).mpr h
      omega
    obtain ⟨k, hk⟩ := Nat.exists_eq_add_of_le hlog
    have hmax : max (Nat.log2 n.natAbs : ℤ) (-1022) - 52 = -(k : ℤ) := by omega
    have hscaled : (n.natAbs : ℚ) / (2 : ℚ) ^ (-(k : ℤ)) = ((n.natAbs * 2 ^ k : ℕ) : ℤ) := by
      rw [zpow_neg, div_inv_eq_mul, zpow_natCast, Int.cast_natCast, Nat.cast_mul, Nat.cast_pow,
        Nat.cast_ofNat]
    have hmagnitude : (roundHalfEven ((n.natAbs : ℚ) / (2 : ℚ) ^ (-(k : ℤ))) : ℚ) *
        (2 : ℚ) ^ (-(k : ℤ)) = n.natAbs := by
      rw [hscaled, roundHalfEven_intCast, ← hscaled, div_mul_cancel₀]
      positivity
    have hsmall : ¬ (2 : ℚ) ^ 1024 ≤ n.natAbs := by
      have hlt : (n.natAbs : ℚ) < 2 ^ 53 := by exact_mod_cast h
      have hle : (2 : ℚ) ^ 53 ≤ 2 ^ 1024 := pow_le_pow_right₀ (by norm_num) (by norm_num)
      exact not_le.mpr (hlt.trans_le hle)
    unfold roundDouble
    rw [if_neg (by exact_mod_cast hn), habs, binaryExponent_natCast hm, hmax]
    dsimp only
    rw [hmagnitude, if_neg hsmall, ← habs]
    congr 1
    split
    · rename_i hneg
      rw [abs_of_neg hneg, neg_neg]
    · rename_i hneg
      exact abs_of_nonneg (not_lt.mp hneg)

end SenseGateway.Python

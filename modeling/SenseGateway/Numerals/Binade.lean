import Mathlib.Algebra.Order.Field.Power
import Mathlib.Algebra.Order.Field.Rat
import Mathlib.Order.Monotone.Basic
import Mathlib.Tactic.Linarith
import Mathlib.Tactic.Positivity
import Mathlib.Tactic.Ring

namespace SenseGateway.Numerals

/-- The significand that a number `n` of an exponent field and `f` fraction bits encodes: there is a
leading one but in the lowest binade. -/
def significand (f n : ℕ) : ℕ := if n / 2 ^ f = 0 then n % 2 ^ f else 2 ^ f + n % 2 ^ f

/-- The number it encodes, where the exponent field stands for a power of two above `c`. -/
def magnitude (f : ℕ) (c : ℤ) (n : ℕ) : ℚ := significand f n * (2 : ℚ) ^ ((max (n / 2 ^ f) 1 : ℕ) + c)

variable (f : ℕ) (c : ℤ)

theorem magnitude_zero : magnitude f c 0 = 0 := by
  simp [magnitude, significand]

/-- The next encoding is in the same binade, or the first one of the next binade. -/
theorem succ_cases (n : ℕ) :
    ((n + 1) / 2 ^ f = n / 2 ^ f ∧ (n + 1) % 2 ^ f = n % 2 ^ f + 1) ∨
      ((n + 1) / 2 ^ f = n / 2 ^ f + 1 ∧ (n + 1) % 2 ^ f = 0 ∧ n % 2 ^ f + 1 = 2 ^ f) := by
  have hpos : 0 < 2 ^ f := Nat.two_pow_pos f
  have hlt : n % 2 ^ f < 2 ^ f := Nat.mod_lt n hpos
  have hn : n = 2 ^ f * (n / 2 ^ f) + n % 2 ^ f := (Nat.div_add_mod n _).symm
  generalize n / 2 ^ f = q at *
  generalize n % 2 ^ f = r at *
  rcases Nat.lt_or_ge (r + 1) (2 ^ f) with h | h
  · have hsucc : n + 1 = r + 1 + 2 ^ f * q := by omega
    rw [hsucc, Nat.add_mul_div_left _ _ hpos, Nat.add_mul_mod_self_left, Nat.div_eq_of_lt h,
      Nat.mod_eq_of_lt h]
    exact .inl ⟨by omega, rfl⟩
  · have hfull : r + 1 = 2 ^ f := by omega
    have hsucc : n + 1 = 2 ^ f * (q + 1) := by rw [Nat.mul_succ]; omega
    rw [hsucc, Nat.mul_div_cancel_left _ hpos, Nat.mul_mod_right]
    exact .inr ⟨rfl, rfl, hfull⟩

theorem magnitude_lt_succ (n : ℕ) : magnitude f c n < magnitude f c (n + 1) := by
  have hpos : (0 : ℚ) < 2 ^ ((max (n / 2 ^ f) 1 : ℕ) + c) := by positivity
  unfold magnitude significand
  rcases succ_cases f n with ⟨hdiv, hmod⟩ | ⟨hdiv, hmod, hfull⟩
  · -- within a binade the significand grows
    rw [hdiv, hmod]
    refine mul_lt_mul_of_pos_right ?_ hpos
    rw [Nat.cast_lt]
    split <;> omega
  · rw [hdiv, hmod, if_neg (Nat.succ_ne_zero _), Nat.add_zero]
    by_cases hzero : n / 2 ^ f = 0
    · rw [if_pos hzero, hzero]
      refine mul_lt_mul_of_pos_right ?_ (by positivity)
      rw [Nat.cast_lt]
      omega
    · -- the power doubles, and a significand is less than twice the leading one
      have hmax : max (n / 2 ^ f) 1 = n / 2 ^ f := max_eq_left (Nat.one_le_iff_ne_zero.mpr hzero)
      have hmax' : max (n / 2 ^ f + 1) 1 = n / 2 ^ f + 1 := max_eq_left (Nat.le_add_left 1 _)
      rw [hmax] at hpos
      rw [if_neg hzero, hmax, hmax']
      have htwice : ((2 ^ f : ℕ) : ℚ) * 2 ^ (((n / 2 ^ f + 1 : ℕ) : ℤ) + c) =
          ((2 * 2 ^ f : ℕ) : ℚ) * 2 ^ (((n / 2 ^ f : ℕ) : ℤ) + c) := by
        have hexp : ((n / 2 ^ f + 1 : ℕ) : ℤ) + c = ((n / 2 ^ f : ℕ) : ℤ) + c + 1 := by
          push_cast
          ring
        rw [hexp, zpow_add_one₀ two_ne_zero]
        push_cast
        ring
      rw [htwice]
      refine mul_lt_mul_of_pos_right ?_ hpos
      rw [Nat.cast_lt]
      omega

/-- Floating-point numbers are in the order of their encodings. -/
theorem magnitude_strictMono : StrictMono (magnitude f c) :=
  strictMono_nat_of_lt_succ (magnitude_lt_succ f c)

theorem magnitude_nonneg (n : ℕ) : 0 ≤ magnitude f c n := by
  unfold magnitude
  positivity

theorem magnitude_eq_zero {n : ℕ} : magnitude f c n = 0 ↔ n = 0 := by
  rw [← magnitude_zero f c]
  exact (magnitude_strictMono f c).injective.eq_iff

theorem eq_zero_of_magnitude_eq_neg {m n : ℕ} (h : magnitude f c m = -magnitude f c n) :
    m = 0 ∧ n = 0 := by
  have hm := magnitude_nonneg f c m
  have hn := magnitude_nonneg f c n
  rw [← magnitude_eq_zero f c, ← magnitude_eq_zero f c (n := n)]
  exact ⟨by linarith, by linarith⟩

end SenseGateway.Numerals

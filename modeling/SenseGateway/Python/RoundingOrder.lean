import Mathlib.Tactic.Linarith
import Mathlib.Algebra.Order.Floor.Ring
import SenseGateway.Python.Rounding

namespace SenseGateway.Python

theorem roundHalfEven_mono {x y : ℚ} (h : x ≤ y) : roundHalfEven x ≤ roundHalfEven y := by
  have hfloor : ⌊x⌋ ≤ ⌊y⌋ := Int.floor_le_floor h
  have hle (x : ℚ) : roundHalfEven x ≤ ⌊x⌋ + 1 := by
    unfold roundHalfEven
    dsimp only
    split_ifs <;> omega
  have hge (x : ℚ) : ⌊x⌋ ≤ roundHalfEven x := by
    unfold roundHalfEven
    dsimp only
    split_ifs <;> omega
  rcases hfloor.lt_or_eq with hlt | heq
  · exact (hle x).trans (Int.add_one_le_of_lt hlt |>.trans (hge y))
  · -- with the same integer part the fractions are in order
    unfold roundHalfEven
    dsimp only
    rw [← heq]
    split_ifs <;> first | omega | linarith

theorem le_roundHalfEven {n : ℤ} {x : ℚ} (h : (n : ℚ) ≤ x) : n ≤ roundHalfEven x := by
  rw [← roundHalfEven_intCast n]
  exact roundHalfEven_mono h

theorem roundHalfEven_le {n : ℤ} {x : ℚ} (h : x ≤ n) : roundHalfEven x ≤ n := by
  rw [← roundHalfEven_intCast n]
  exact roundHalfEven_mono h

theorem binaryExponent_spec {a : ℚ} (ha : 0 < a) :
    (2 : ℚ) ^ binaryExponent a ≤ a ∧ a < (2 : ℚ) ^ (binaryExponent a + 1) := by
  have hdenpos : (0 : ℚ) < a.den := by exact_mod_cast a.den_pos
  have hfrac : a * a.den = a.num.natAbs := by
    rw [Rat.mul_den_eq_num, ← Int.natAbs_of_nonneg (Rat.num_pos.mpr ha).le]
    rfl
  have hn : (2 : ℚ) ^ (a.num.natAbs.log2 : ℤ) ≤ a.num.natAbs := by
    exact_mod_cast Nat.log2_self_le (Int.natAbs_ne_zero.mpr (Rat.num_pos.mpr ha).ne')
  have hn' : (a.num.natAbs : ℚ) < (2 : ℚ) ^ ((a.num.natAbs.log2 : ℤ) + 1) := by
    exact_mod_cast Nat.lt_log2_self
  have hd : (2 : ℚ) ^ (a.den.log2 : ℤ) ≤ a.den := by exact_mod_cast Nat.log2_self_le a.den_nz
  have hd' : (a.den : ℚ) < (2 : ℚ) ^ ((a.den.log2 : ℤ) + 1) := by exact_mod_cast Nat.lt_log2_self
  unfold binaryExponent
  dsimp only
  generalize (a.num.natAbs.log2 : ℤ) = m at *
  generalize (a.den.log2 : ℤ) = d at *
  -- the quotient of two powers is off by one place at most
  have hlow : (2 : ℚ) ^ (m - d - 1) ≤ a := by
    refine le_of_mul_le_mul_right ?_ hdenpos
    calc (2 : ℚ) ^ (m - d - 1) * a.den ≤ 2 ^ (m - d - 1) * 2 ^ (d + 1) := by gcongr
      _ = 2 ^ m := by rw [← zpow_add₀ two_ne_zero]; congr 1; ring
      _ ≤ a * a.den := hn.trans_eq hfrac.symm
  have hhigh : a < (2 : ℚ) ^ (m - d + 1) := by
    refine lt_of_mul_lt_mul_right ?_ hdenpos.le
    calc a * a.den < 2 ^ (m + 1) := hfrac.trans_lt hn'
      _ = 2 ^ (m - d + 1) * 2 ^ d := by rw [← zpow_add₀ two_ne_zero]; congr 1; ring
      _ ≤ 2 ^ (m - d + 1) * a.den := by gcongr
  split
  · rename_i hlt
    exact ⟨hlow, by rwa [sub_add_cancel]⟩
  · rename_i hge
    exact ⟨not_lt.mp hge, hhigh⟩

theorem binaryExponent_mono {a b : ℚ} (ha : 0 < a) (h : a ≤ b) :
    binaryExponent a ≤ binaryExponent b := by
  have hpow : (2 : ℚ) ^ binaryExponent a < 2 ^ (binaryExponent b + 1) :=
    ((binaryExponent_spec ha).1.trans h).trans_lt (binaryExponent_spec (ha.trans_le h)).2
  have hlt := (zpow_lt_zpow_iff_right₀ one_lt_two).mp hpow
  omega

/-- The weight of the last place of a double of this size. -/
def ulp (a : ℚ) : ℚ := (2 : ℚ) ^ (max (binaryExponent a) (-1022) - 52)

theorem ulp_pos (a : ℚ) : 0 < ulp a := zpow_pos two_pos _

/-- A positive number rounded to 53 bits, where the exponent has no upper bound. -/
def rounded (a : ℚ) : ℚ := roundHalfEven (a / ulp a) * ulp a

theorem rounded_le_pow {a : ℚ} (ha : 0 < a) :
    rounded a ≤ (2 : ℚ) ^ (max (binaryExponent a) (-1022) + 1) := by
  have hpow : (2 : ℚ) ^ (max (binaryExponent a) (-1022) + 1) = ((2 ^ 53 : ℤ) : ℚ) * ulp a := by
    rw [ulp, Int.cast_pow, Int.cast_ofNat, ← zpow_natCast, ← zpow_add₀ two_ne_zero]
    congr 1
    push_cast
    ring
  have hsmall : a / ulp a ≤ ((2 ^ 53 : ℤ) : ℚ) := by
    rw [div_le_iff₀ (ulp_pos a), ← hpow]
    refine (binaryExponent_spec ha).2.le.trans ?_
    exact zpow_le_zpow_right₀ one_le_two (by omega)
  have hpos := ulp_pos a
  rw [hpow, rounded]
  gcongr
  exact roundHalfEven_le hsmall

theorem pow_le_rounded {a : ℚ} (ha : 0 < a) (hnormal : -1022 ≤ binaryExponent a) :
    (2 : ℚ) ^ binaryExponent a ≤ rounded a := by
  have hpow : (2 : ℚ) ^ binaryExponent a = ((2 ^ 52 : ℤ) : ℚ) * ulp a := by
    rw [ulp, max_eq_left hnormal, Int.cast_pow, Int.cast_ofNat, ← zpow_natCast,
      ← zpow_add₀ two_ne_zero]
    congr 1
    push_cast
    ring
  have hlarge : ((2 ^ 52 : ℤ) : ℚ) ≤ a / ulp a := by
    rw [le_div_iff₀ (ulp_pos a), ← hpow]
    exact (binaryExponent_spec ha).1
  have hround : (2 ^ 52 : ℤ) ≤ roundHalfEven (a / ulp a) := le_roundHalfEven hlarge
  have hpos := ulp_pos a
  rw [hpow, rounded]
  gcongr

theorem rounded_mono {a b : ℚ} (ha : 0 < a) (h : a ≤ b) : rounded a ≤ rounded b := by
  have hb : 0 < b := ha.trans_le h
  have hexp := binaryExponent_mono ha h
  by_cases hsame : max (binaryExponent a) (-1022) = max (binaryExponent b) (-1022)
  · have hulp : ulp a = ulp b := by rw [ulp, ulp, hsame]
    rw [rounded, rounded, hulp]
    have hpos := ulp_pos b
    have hround : roundHalfEven (a / ulp b) ≤ roundHalfEven (b / ulp b) :=
      roundHalfEven_mono (by gcongr)
    gcongr
  · -- a power of two lies between the two
    have hnormal : max (binaryExponent a) (-1022) + 1 ≤ binaryExponent b := by omega
    calc rounded a ≤ 2 ^ (max (binaryExponent a) (-1022) + 1) := rounded_le_pow ha
      _ ≤ 2 ^ binaryExponent b := zpow_le_zpow_right₀ one_le_two hnormal
      _ ≤ rounded b := pow_le_rounded hb (by omega)

theorem rounded_nonneg {a : ℚ} (ha : 0 < a) : 0 ≤ rounded a := by
  have hround : (0 : ℤ) ≤ roundHalfEven (a / ulp a) :=
    le_roundHalfEven (by exact_mod_cast (div_pos ha (ulp_pos a)).le)
  have hpos := ulp_pos a
  unfold rounded
  positivity

theorem roundDouble_of_pos {q : ℚ} (h : 0 < q) :
    roundDouble q = if (2 : ℚ) ^ 1024 ≤ rounded q then .infinity false else .finite (rounded q) := by
  unfold roundDouble rounded ulp
  simp only [h.ne', if_false, abs_of_pos h, h.le.not_gt, decide_false]

theorem roundDouble_neg (q : ℚ) : roundDouble (-q) = (roundDouble q).neg := by
  rcases lt_trichotomy q 0 with h | rfl | h
  · unfold roundDouble
    simp only [h.ne, neg_eq_zero, if_false, abs_neg, h, decide_true, Left.neg_neg_iff, h.le.not_gt, decide_false]
    split <;> simp [PyFloat.neg]
  · simp [roundDouble, PyFloat.neg]
  · unfold roundDouble
    simp only [h.ne', neg_eq_zero, if_false, abs_neg, h, decide_true, Left.neg_neg_iff, h.le.not_gt, decide_false]
    split <;> simp [PyFloat.neg]

namespace PyFloat

theorem le_neg_neg (x y : PyFloat) : x.neg.le y.neg = y.le x := by
  cases x with
  | finite p => cases y <;> simp [le, lt, eq, neg, eq_comm]
  | infinity s =>
    cases y with
    | infinity t => cases s <;> cases t <;> rfl
    | _ => simp [le, lt, eq, neg]
  | nan => cases y <;> simp [le, lt, eq, neg]

theorem le_trans_finite {x y : PyFloat} {q : ℚ} (hx : x.le (finite q) = true)
    (hy : (finite q).le y = true) : x.le y = true := by
  cases x with
  | finite p =>
    cases y with
    | finite r =>
      simp only [le, lt, eq, finite.injEq, Bool.or_eq_true, decide_eq_true_eq, ← le_iff_lt_or_eq]
        at hx hy ⊢
      exact hx.trans hy
    | infinity t => simpa [le, lt, eq] using hy
    | nan => simp [le, lt, eq] at hy
  | infinity s =>
    obtain rfl : s = true := by simpa [le, lt, eq] using hx
    cases y with
    | finite r => rfl
    | infinity t => cases t <;> rfl
    | nan => simp [le, lt, eq] at hy
  | nan => simp [le, lt, eq] at hx

end PyFloat

theorem zero_le_roundDouble {q : ℚ} (h : 0 ≤ q) : (PyFloat.finite 0).le (roundDouble q) = true := by
  rcases h.lt_or_eq with h | rfl
  · rw [roundDouble_of_pos h]
    split
    · rfl
    · simpa [PyFloat.le, PyFloat.lt, PyFloat.eq, ← le_iff_lt_or_eq] using rounded_nonneg h
  · rfl

theorem roundDouble_mono_of_pos {p q : ℚ} (hp : 0 < p) (h : p ≤ q) :
    (roundDouble p).le (roundDouble q) = true := by
  have hmono := rounded_mono hp h
  rw [roundDouble_of_pos hp, roundDouble_of_pos (hp.trans_le h)]
  split
  · rename_i hlarge
    rw [if_pos (hlarge.trans hmono)]
    rfl
  · split
    · rfl
    · simpa [PyFloat.le, PyFloat.lt, PyFloat.eq, ← le_iff_lt_or_eq] using hmono

/-- Rounding keeps the order of numbers. -/
theorem roundDouble_mono {p q : ℚ} (h : p ≤ q) : (roundDouble p).le (roundDouble q) = true := by
  have hneg (r : ℚ) (hr : r ≤ 0) : (roundDouble r).le (.finite 0) = true := by
    rw [← PyFloat.le_neg_neg, ← roundDouble_neg]
    simpa [PyFloat.neg] using zero_le_roundDouble (neg_nonneg.mpr hr)
  rcases lt_or_ge 0 p with hp | hp
  · exact roundDouble_mono_of_pos hp h
  · rcases lt_or_ge q 0 with hq | hq
    · rw [← PyFloat.le_neg_neg, ← roundDouble_neg, ← roundDouble_neg]
      exact roundDouble_mono_of_pos (neg_pos.mpr hq) (neg_le_neg h)
    · exact PyFloat.le_trans_finite (hneg p hp) (zero_le_roundDouble hq)

namespace PyFloat

theorem le_trans {x y z : PyFloat} (hx : x.le y = true) (hy : y.le z = true) : x.le z = true := by
  cases y with
  | finite q => exact le_trans_finite hx hy
  | infinity negative =>
    cases negative
    · -- nothing but positive infinity is above it
      obtain rfl : z = infinity false := by
        cases z with
        | infinity t => cases t <;> first | rfl | cases hy
        | _ => cases hy
      exact hx
    · obtain rfl : x = infinity true := by
        cases x with
        | infinity t => cases t <;> first | rfl | cases hx
        | _ => cases hx
      exact hy
  | nan => cases x <;> cases hx

end PyFloat

end SenseGateway.Python

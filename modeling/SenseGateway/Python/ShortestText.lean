import SenseGateway.Python.RoundingOrder

namespace SenseGateway.Python

/-- A number that is a double. -/
def IsDouble (q : ℚ) : Prop := roundDouble q = .finite q

instance (q : ℚ) : Decidable (IsDouble q) := inferInstanceAs (Decidable (_ = _))

theorem roundHalfEven_eq_of_abs_lt {n : ℤ} {x : ℚ} (h : |x - n| < 1 / 2) : roundHalfEven x = n := by
  have hbounds := abs_lt.mp h
  unfold roundHalfEven
  dsimp only
  rcases le_or_gt (n : ℚ) x with hle | hlt
  · have hfloor : ⌊x⌋ = n := Int.floor_eq_iff.mpr ⟨hle, by linarith⟩
    rw [hfloor, if_pos (by linarith)]
  · have hfloor : ⌊x⌋ = n - 1 := Int.floor_eq_iff.mpr (by push_cast; exact ⟨by linarith, by linarith⟩)
    rw [hfloor, if_neg (by push_cast; linarith), if_pos (by push_cast; linarith), sub_add_cancel]

theorem abs_sub_roundHalfEven_le (x : ℚ) : |x - roundHalfEven x| ≤ 1 / 2 := by
  have hlow := Int.floor_le x
  have hhigh := Int.lt_floor_add_one x
  unfold roundHalfEven
  dsimp only
  rw [abs_le]
  split_ifs <;> push_cast <;> constructor <;> linarith

/-- The exponent of the place that the last of 53 bits has. -/
def lastPlace (a : ℚ) : ℤ := max (binaryExponent a) (-1022) - 52

theorem ulp_eq (a : ℚ) : ulp a = (2 : ℚ) ^ lastPlace a := rfl

/-- Multiples of the last place are not rounded. -/
theorem rounded_of_multiple {r : ℚ} {n e : ℤ} (hr : r = n * (2 : ℚ) ^ e) (he : lastPlace r ≤ e) :
    rounded r = r := by
  obtain ⟨k, hk⟩ := Int.eq_ofNat_of_zero_le (Int.sub_nonneg.mpr he)
  have hexp : e = (k : ℤ) + lastPlace r := by omega
  have hulp : ulp r ≠ 0 := (ulp_pos r).ne'
  have hint : r / ulp r = ((n * 2 ^ k : ℤ) : ℚ) := by
    rw [div_eq_iff hulp]
    calc r = n * (2 : ℚ) ^ ((k : ℤ) + lastPlace r) := by rw [← hexp]; exact hr
      _ = ((n * 2 ^ k : ℤ) : ℚ) * ulp r := by
        rw [zpow_add₀ two_ne_zero, zpow_natCast, ulp_eq]
        push_cast
        ring
  rw [rounded, hint, roundHalfEven_intCast, ← hint, div_mul_cancel₀ _ hulp]

theorem rounded_lt_pow_or_eq {a : ℚ} (ha : 0 < a) :
    rounded a < (2 : ℚ) ^ (max (binaryExponent a) (-1022) + 1) ∨
      rounded a = (2 : ℚ) ^ (max (binaryExponent a) (-1022) + 1) :=
  (rounded_le_pow ha).lt_or_eq

theorem rounded_rounded {a : ℚ} (ha : 0 < a) (hpos : 0 < rounded a) :
    rounded (rounded a) = rounded a := by
  rcases rounded_lt_pow_or_eq ha with hlt | heq
  · -- without a carry the last place stays where it is
    have hexp := (zpow_lt_zpow_iff_right₀ (one_lt_two (α := ℚ))).mp
      ((binaryExponent_spec hpos).1.trans_lt hlt)
    have hplace : lastPlace (rounded a) ≤ lastPlace a := by
      unfold lastPlace
      omega
    exact rounded_of_multiple rfl hplace
  · -- the carry gives a power of two
    have hexp := (zpow_le_zpow_iff_right₀ (one_lt_two (α := ℚ))).mp
      ((binaryExponent_spec hpos).1.trans_eq heq)
    refine rounded_of_multiple (n := 1) (e := max (binaryExponent a) (-1022) + 1) ?_ ?_
    · rw [Int.cast_one, one_mul, heq]
    · unfold lastPlace
      omega

/-- What rounding gives is a double. -/
theorem isDouble_of_roundDouble {q r : ℚ} (h : roundDouble q = .finite r) : IsDouble r := by
  have hpositive {a s : ℚ} (ha : 0 < a) (h : roundDouble a = .finite s) : IsDouble s := by
    rw [roundDouble_of_pos ha] at h
    split at h
    · cases h
    · rename_i hsmall
      obtain rfl := PyFloat.finite.inj h
      rcases (rounded_nonneg ha).lt_or_eq with hpos | hzero
      · rw [IsDouble, roundDouble_of_pos hpos, rounded_rounded ha hpos, if_neg hsmall]
      · rw [← hzero]
        rfl
  rcases lt_trichotomy q 0 with hq | rfl | hq
  · have hneg : roundDouble (-q) = .finite (-r) := by rw [roundDouble_neg, h]; rfl
    have hdouble := hpositive (neg_pos.mpr hq) hneg
    unfold IsDouble at hdouble ⊢
    rw [← neg_neg r, roundDouble_neg, hdouble]
    rfl
  · obtain rfl : 0 = r := PyFloat.finite.inj h
    rfl
  · exact hpositive hq h

theorem IsDouble.neg {q : ℚ} (h : IsDouble q) : IsDouble (-q) := by
  unfold IsDouble at h ⊢
  rw [roundDouble_neg, h]
  rfl

theorem IsDouble.rounded_eq {a : ℚ} (h : IsDouble a) (ha : 0 < a) :
    rounded a = a ∧ a < (2 : ℚ) ^ 1024 := by
  unfold IsDouble at h
  rw [roundDouble_of_pos ha] at h
  split at h
  · cases h
  · rename_i hsmall
    have heq := PyFloat.finite.inj h
    exact ⟨heq, by rw [← heq]; exact not_le.mp hsmall⟩

theorem pow_place_add (e : ℤ) (k : ℕ) : (2 : ℚ) ^ (e - 52 + k) = 2 ^ k * (2 : ℚ) ^ (e - 52) := by
  rw [zpow_add₀ two_ne_zero, zpow_natCast, mul_comm]

theorem pow_succ_eq_ulp (a : ℚ) :
    (2 : ℚ) ^ (max (binaryExponent a) (-1022) + 1) = 2 ^ 53 * ulp a := by
  rw [ulp, ← pow_place_add]
  congr 1
  push_cast
  ring

theorem pow_eq_ulp {a : ℚ} {e : ℤ} (h : max (binaryExponent a) (-1022) = e) :
    (2 : ℚ) ^ e = 2 ^ 52 * ulp a ∧ (2 : ℚ) ^ (e - 1) = 2 ^ 51 * ulp a := by
  have hulp : ulp a = (2 : ℚ) ^ (e - 52) := by rw [ulp, h]
  constructor
  · rw [hulp, ← pow_place_add]
    congr 1
    push_cast
    ring
  · rw [hulp, ← pow_place_add]
    congr 1
    push_cast
    ring

/-- A double is an integer of 53 bits at its last place. -/
theorem IsDouble.exists_multiple {a : ℚ} (h : IsDouble a) (ha : 0 < a) :
    ∃ n : ℤ, a = n * ulp a ∧ n < 2 ^ 53 := by
  refine ⟨roundHalfEven (a / ulp a), (h.rounded_eq ha).1.symm, ?_⟩
  have hlt : a < (2 : ℚ) ^ (max (binaryExponent a) (-1022) + 1) :=
    (binaryExponent_spec ha).2.trans_le (zpow_le_zpow_right₀ one_le_two (by omega))
  have hrounded : roundHalfEven (a / ulp a) * ulp a < 2 ^ 53 * ulp a := by
    rw [← pow_succ_eq_ulp]
    exact (h.rounded_eq ha).1.trans_lt hlt
  exact_mod_cast lt_of_mul_lt_mul_right hrounded (ulp_pos a).le

theorem rounded_of_abs_lt {x u : ℚ} {n : ℤ} (hu : ulp x = u) (h : |x - n * u| < u / 2) :
    rounded x = n * u := by
  subst hu
  have hpos := ulp_pos x
  have hquot : x / ulp x - n = (x - n * ulp x) / ulp x := by
    rw [sub_div, mul_div_cancel_right₀ _ hpos.ne']
  have hclose : |x / ulp x - n| < 1 / 2 := by
    rw [hquot, abs_div, abs_of_pos hpos, div_lt_iff₀ hpos]
    linarith
  rw [rounded, roundHalfEven_eq_of_abs_lt hclose]

/-- Only a power of two has a number this near in the binade below. -/
theorem eq_pow_of_close_below {a x : ℚ} {n : ℤ} (ha : 0 < a) (hx : 0 < x) (hn : a = n * ulp a)
    (hsmall : |x - a| < ulp a / 2)
    (h : max (binaryExponent x) (-1022) < max (binaryExponent a) (-1022)) :
    a = 2 ^ 52 * ulp a := by
  have hupos := ulp_pos a
  have hbelow := (abs_lt.mp hsmall).1
  have hnormal : max (binaryExponent a) (-1022) = binaryExponent a := by omega
  have hpow := (pow_eq_ulp hnormal).1
  have hxlt : x < 2 ^ 52 * ulp a := by
    rw [← hpow]
    exact (binaryExponent_spec hx).2.trans_le (zpow_le_zpow_right₀ one_le_two (by omega))
  have hage : (2 : ℚ) ^ 52 * ulp a ≤ n * ulp a := by
    rw [← hpow, ← hn]
    exact (binaryExponent_spec ha).1
  have halt : (n : ℚ) * ulp a < (2 ^ 52 + 1) * ulp a := by linarith
  -- `n` lies between two neighbouring integers
  have hnge : (2 ^ 52 : ℤ) ≤ n := by exact_mod_cast le_of_mul_le_mul_right hage hupos
  have hnlt : n < 2 ^ 52 + 1 := by exact_mod_cast lt_of_mul_lt_mul_right halt hupos.le
  have hn52 : (n : ℚ) = 2 ^ 52 := by exact_mod_cast le_antisymm (Int.lt_add_one_iff.mp hnlt) hnge
  rwa [hn52] at hn

/-- The places of the binade below are half as wide. -/
theorem ulp_below_of_close {a x : ℚ} (hx : 0 < x) (hpow : a = 2 ^ 52 * ulp a)
    (hquarter : |x - a| < ulp a / 4)
    (h : max (binaryExponent x) (-1022) < max (binaryExponent a) (-1022)) :
    ulp x = ulp a / 2 := by
  have hbelow := (abs_lt.mp hquarter).1
  obtain ⟨e, he⟩ : ∃ e, max (binaryExponent a) (-1022) = e := ⟨_, rfl⟩
  have hxge : (2 : ℚ) ^ (e - 1) ≤ x := by
    rw [(pow_eq_ulp he).2]
    linarith [ulp_pos a]
  have hexp : e - 1 < binaryExponent x + 1 :=
    (zpow_lt_zpow_iff_right₀ (one_lt_two (α := ℚ))).mp (hxge.trans_lt (binaryExponent_spec hx).2)
  have hmax : max (binaryExponent x) (-1022) = e - 1 := by omega
  have hplace : e - 1 - 52 = e - 52 - 1 := by ring
  rw [ulp, ulp, hmax, he, hplace, zpow_sub_one₀ two_ne_zero, div_eq_mul_inv]

theorem rounded_of_close_below {a x : ℚ} {n : ℤ} (ha : 0 < a) (hx : 0 < x) (hn : a = n * ulp a)
    (hclose : |x - a| * 2 ^ 54 < a) (hsmall : |x - a| < ulp a / 2)
    (h : max (binaryExponent x) (-1022) < max (binaryExponent a) (-1022)) : rounded x = a := by
  have hpow := eq_pow_of_close_below ha hx hn hsmall h
  have hquarter : |x - a| < ulp a / 4 := by linarith
  have hhalves : a = ((2 ^ 53 : ℤ) : ℚ) * (ulp a / 2) := by
    push_cast
    linarith
  have hulp := ulp_below_of_close hx hpow hquarter h
  refine (rounded_of_abs_lt hulp (n := 2 ^ 53) ?_).trans hhalves.symm
  rw [← hhalves]
  linarith

/-- Whatever is nearer to a double than one part in `2 ^ 54` is rounded to it. -/
theorem rounded_of_close {a x : ℚ} (ha : 0 < a) (hdouble : IsDouble a)
    (hclose : |x - a| * 2 ^ 54 < a) : rounded x = a := by
  obtain ⟨n, hn, hlt⟩ := hdouble.exists_multiple ha
  have hupos := ulp_pos a
  obtain ⟨hbelow, habove⟩ := abs_le.mp (le_refl |x - a|)
  have hn53 : (n : ℚ) + 1 ≤ 2 ^ 53 := by exact_mod_cast hlt
  have hsmall : |x - a| < ulp a / 2 := by nlinarith
  have hx : 0 < x := by nlinarith
  rcases lt_trichotomy (max (binaryExponent x) (-1022)) (max (binaryExponent a) (-1022)) with h | h | h
  · exact rounded_of_close_below ha hx hn hclose hsmall h
  · have hulp : ulp x = ulp a := by rw [ulp, ulp, h]
    refine (rounded_of_abs_lt hulp (n := n) ?_).trans hn.symm
    rwa [← hn]
  · -- the next power of two is a full place away
    have hxge : (2 : ℚ) ^ 53 * ulp a ≤ x := by
      rw [← pow_succ_eq_ulp]
      exact (zpow_le_zpow_right₀ one_le_two (by omega)).trans (binaryExponent_spec hx).1
    nlinarith

theorem roundDouble_of_close {a x : ℚ} (ha : 0 < a) (hdouble : IsDouble a)
    (hclose : |x - a| * 2 ^ 54 < a) : roundDouble x = .finite a := by
  have hx : 0 < x := by
    have hbelow := (abs_le.mp (le_refl |x - a|)).1
    nlinarith
  rw [roundDouble_of_pos hx, rounded_of_close ha hdouble hclose,
    if_neg (not_le.mpr (hdouble.rounded_eq ha).2)]

/-- The quotient of two numbers lies around the quotient of the powers they lie around. -/
theorem quotient_between_powers {b a n d : ℚ} {m k : ℤ} (hb : 0 < b) (hd : 0 < d) (h : a * d = n)
    (hn : b ^ m ≤ n) (hn' : n < b ^ (m + 1)) (hdle : b ^ k ≤ d) (hdlt : d < b ^ (k + 1)) :
    b ^ (m - k - 1) ≤ a ∧ a < b ^ (m - k + 1) := by
  constructor
  · refine le_of_mul_le_mul_right ?_ hd
    calc b ^ (m - k - 1) * d ≤ b ^ (m - k - 1) * b ^ (k + 1) := by gcongr
      _ = b ^ m := by rw [← zpow_add₀ hb.ne']; congr 1; ring
      _ ≤ a * d := hn.trans_eq h.symm
  · refine lt_of_mul_lt_mul_right ?_ hd.le
    calc a * d < b ^ (m + 1) := h.trans_lt hn'
      _ = b ^ (m - k + 1) * b ^ k := by rw [← zpow_add₀ hb.ne']; congr 1; ring
      _ ≤ b ^ (m - k + 1) * d := by gcongr

theorem decimalExponent_spec {a : ℚ} (ha : 0 < a) :
    (10 : ℚ) ^ decimalExponent a ≤ a ∧ a < (10 : ℚ) ^ (decimalExponent a + 1) := by
  have hfrac : a * a.den = a.num.natAbs := by
    rw [Rat.mul_den_eq_num, ← Int.natAbs_of_nonneg (Rat.num_pos.mpr ha).le]
    rfl
  have hnum : a.num.natAbs ≠ 0 := Int.natAbs_ne_zero.mpr (Rat.num_pos.mpr ha).ne'
  have hlow {n : ℕ} (hn : n ≠ 0) : (10 : ℚ) ^ (Nat.log 10 n : ℤ) ≤ n := by
    exact_mod_cast Nat.pow_log_le_self 10 hn
  have hhigh (n : ℕ) : (n : ℚ) < (10 : ℚ) ^ ((Nat.log 10 n : ℤ) + 1) := by
    exact_mod_cast Nat.lt_pow_succ_log_self (by decide) n
  obtain ⟨hge, hlt⟩ := quotient_between_powers (by norm_num) (by exact_mod_cast a.den_pos) hfrac
    (hlow hnum) (hhigh _) (hlow a.den_nz) (hhigh _)
  unfold decimalExponent
  dsimp only
  split
  · rename_i hsmall
    exact ⟨hge, by rwa [sub_add_cancel]⟩
  · rename_i hlarge
    exact ⟨not_lt.mp hlarge, hlt⟩

/-- The number with the digits `m` and the exponent `k`. -/
def decimalValue (digits : ℤ × ℤ) : ℚ := digits.1 * (10 : ℚ) ^ digits.2

theorem decimalValue_significant (round : ℚ → ℤ) (a : ℚ) (n : ℕ) :
    decimalValue (significant round a n) = round (a / (10 : ℚ) ^ (decimalExponent a - n)) *
      (10 : ℚ) ^ (decimalExponent a - n) := by
  unfold decimalValue significant
  dsimp only
  split
  · rename_i hcarry
    have hten : (10 : ℚ) ≠ 0 := by norm_num
    rw [hcarry, add_assoc, zpow_add₀ hten]
    push_cast
    rw [← Nat.cast_add_one, zpow_natCast, one_mul, mul_comm]
  · rfl

/-- As many digits as there are give as many places. -/
theorem pow_le_scaled {a : ℚ} (ha : 0 < a) (n : ℕ) :
    (10 : ℚ) ^ n * (10 : ℚ) ^ (decimalExponent a - n) ≤ a := by
  rw [← zpow_natCast, ← zpow_add₀ (by norm_num), add_sub_cancel]
  exact (decimalExponent_spec ha).1

theorem abs_significant_sub_le {a : ℚ} (ha : 0 < a) (n : ℕ) :
    |decimalValue (significant roundHalfEven a n) - a| * (2 * 10 ^ n) ≤ a := by
  have hunit : (0 : ℚ) < (10 : ℚ) ^ (decimalExponent a - n) := by positivity
  have hscaled := pow_le_scaled ha n
  have hround := abs_sub_roundHalfEven_le (a / (10 : ℚ) ^ (decimalExponent a - n))
  rw [decimalValue_significant]
  generalize (10 : ℚ) ^ (decimalExponent a - n) = unit at *
  have herror : |roundHalfEven (a / unit) * unit - a| =
      |a / unit - roundHalfEven (a / unit)| * unit := by
    rw [← abs_of_pos hunit, ← abs_mul, sub_mul, abs_of_pos hunit, div_mul_cancel₀ _ hunit.ne',
      abs_sub_comm]
  calc |roundHalfEven (a / unit) * unit - a| * (2 * 10 ^ n)
      = |a / unit - roundHalfEven (a / unit)| * unit * (2 * 10 ^ n) := by rw [herror]
    _ ≤ 1 / 2 * unit * (2 * 10 ^ n) := by gcongr
    _ = 10 ^ n * unit := by ring
    _ ≤ a := hscaled

theorem significant_pos {round : ℚ → ℤ} {a : ℚ} (hround : ∀ x, 1 ≤ x → 0 < round x) (ha : 0 < a)
    (n : ℕ) : 0 < (significant round a n).1 := by
  unfold significant
  dsimp only
  split
  · exact Int.one_pos
  · have hunit : (0 : ℚ) < (10 : ℚ) ^ (decimalExponent a - n) := by positivity
    have hone : 1 ≤ a / (10 : ℚ) ^ (decimalExponent a - n) := by
      rw [le_div_iff₀ hunit]
      refine le_trans ?_ (pow_le_scaled ha n)
      gcongr
      exact one_le_pow₀ (by norm_num)
    exact hround _ hone

theorem nearest_pos {a : ℚ} (ha : 0 < a) (n : ℕ) : 0 < (significant roundHalfEven a n).1 := by
  refine significant_pos (fun x hx => ?_) ha n
  exact le_roundHalfEven (n := 1) (by exact_mod_cast hx)

theorem neighbours_pos {a : ℚ} (ha : 0 < a) {n : ℕ} {digits : ℤ × ℤ} (h : digits ∈ neighbours a n) :
    0 < digits.1 := by
  simp only [neighbours, List.mem_cons, List.not_mem_nil, or_false] at h
  rcases h with rfl | rfl | rfl
  · exact nearest_pos ha n
  · exact significant_pos (fun x hx => Int.floor_pos.mpr hx) ha n
  · exact significant_pos (fun x hx => Int.ceil_pos.mpr (one_pos.trans_le hx)) ha n

/-- Seventeen digits are enough to tell a double from all others. -/
theorem roundDouble_seventeen {a : ℚ} (ha : 0 < a) (hdouble : IsDouble a) :
    roundDouble (decimalValue (significant roundHalfEven a 16)) = .finite a := by
  refine roundDouble_of_close ha hdouble ?_
  have hclose := abs_significant_sub_le ha 16
  have hnonneg := abs_nonneg (decimalValue (significant roundHalfEven a 16) - a)
  rcases hnonneg.lt_or_eq with hpos | hzero
  · -- `2 ^ 54` is less than twice `10 ^ 16`
    refine lt_of_lt_of_le ?_ hclose
    gcongr
    norm_num
  · rw [← hzero, zero_mul]
    exact ha

theorem shortestDigits_spec {a : ℚ} (ha : 0 < a) (hdouble : IsDouble a) :
    0 < (shortestDigits a).1 ∧ roundDouble (decimalValue (shortestDigits a)) = .finite a := by
  unfold shortestDigits
  generalize hfind : List.find? _ ((List.range 17).flatMap (neighbours a)) = found
  cases found with
  | some digits =>
    obtain ⟨n, -, hmem⟩ := List.mem_flatMap.mp (List.mem_of_find?_eq_some hfind)
    exact ⟨neighbours_pos ha hmem, by simpa [decimalValue] using List.find?_some hfind⟩
  | none => exact ⟨nearest_pos ha 16, roundDouble_seventeen ha hdouble⟩

end SenseGateway.Python

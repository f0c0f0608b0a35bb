import Mathlib.Tactic.IntervalCases
import SenseGateway.Python.JsonExtent
import SenseGateway.Python.JsonWriting
import SenseGateway.Python.ShortestText

namespace SenseGateway.Python

section strings

/-- The code units of a character. -/
def unitsOf (c : Char) : List ℕ :=
  if c.toNat < 0x10000 then [c.toNat]
  else [0xd800 + (c.toNat - 0x10000) / 0x400, 0xdc00 + (c.toNat - 0x10000) % 0x400]

theorem hexValue_digitChar {d : ℕ} (h : d < 16) : hexValue (Nat.digitChar d) = some d := by
  interval_cases d <;> rfl

theorem hexUnit_digits {n : ℕ} (h : n < 0x10000) :
    hexUnit [Nat.digitChar (n / 0x1000 % 16), Nat.digitChar (n / 0x100 % 16),
      Nat.digitChar (n / 0x10 % 16), Nat.digitChar (n % 16)] = some n := by
  have hdigit (k : ℕ) : hexValue (Nat.digitChar (k % 16)) = some (k % 16) :=
    hexValue_digitChar (Nat.mod_lt k (by decide))
  simp only [hexUnit, List.mapM_cons, List.mapM_nil, hdigit, Option.pure_def, Option.bind_eq_bind,
    Option.bind_some, Option.map_some, List.foldl_cons, List.foldl_nil, Option.some.injEq]
  omega

theorem scanUnits_writeUnit {n : ℕ} (h : n < 0x10000) (rest : List Char) :
    scanUnits (writeUnit n ++ rest) = (scanUnits rest).map fun r => (n :: r.1, r.2) := by
  have hquote : backslash ≠ doubleQuote := by decide
  simp only [writeUnit, List.cons_append, List.nil_append]
  rw [scanUnits, if_neg hquote, if_pos rfl]
  simp only [hexUnit_digits h]

theorem scanUnits_simpleEscape {e : Char} {n : ℕ} (he : e ≠ 'u') (h : simpleEscape e = some n)
    (rest : List Char) :
    scanUnits (backslash :: e :: rest) = (scanUnits rest).map fun r => (n :: r.1, r.2) := by
  have hquote : backslash ≠ doubleQuote := by decide
  rw [scanUnits.eq_def]
  dsimp only
  rw [if_neg hquote, if_pos rfl]
  split
  · rename_i heq
    cases heq
    exact absurd rfl he
  · rename_i heq
    cases heq
    rw [h]
  · rename_i heq
    cases heq

theorem scanUnits_plain {c : Char} (hquote : c ≠ doubleQuote) (hback : c ≠ backslash)
    (h : 0x20 ≤ c.toNat) (rest : List Char) :
    scanUnits (c :: rest) = (scanUnits rest).map fun r => (c.toNat :: r.1, r.2) := by
  rw [scanUnits.eq_def]
  dsimp only
  rw [if_neg hquote, if_neg hback, if_neg (Nat.not_lt.mpr h)]

theorem toNat_lt (c : Char) : c.toNat < 0x110000 := by
  have h := c.valid
  simp only [UInt32.isValidChar, Nat.isValidChar] at h
  exact h.elim (fun h => h.trans (by decide)) And.right

theorem scanUnits_writeChar (c : Char) (rest : List Char) :
    scanUnits (writeChar c ++ rest) = (scanUnits rest).map fun r => (unitsOf c ++ r.1, r.2) := by
  have hshort {n : ℕ} (hc : c.toNat = n) (hn : n < 0x10000) : unitsOf c = [n] := by
    rw [unitsOf, hc, if_pos hn]
  unfold writeChar
  split
  · rename_i hspecial
    rcases hspecial with rfl | rfl
    · rw [hshort rfl (by decide)]
      exact scanUnits_simpleEscape (by decide) rfl rest
    · rw [hshort rfl (by decide)]
      exact scanUnits_simpleEscape (by decide) rfl rest
  rename_i hspecial
  split
  · rename_i hc
    rw [hshort hc (by decide)]
    exact scanUnits_simpleEscape (by decide) rfl rest
  split
  · rename_i hc
    rw [hshort hc (by decide)]
    exact scanUnits_simpleEscape (by decide) rfl rest
  split
  · rename_i hc
    rw [hshort hc (by decide)]
    exact scanUnits_simpleEscape (by decide) rfl rest
  split
  · rename_i hc
    rw [hshort hc (by decide)]
    exact scanUnits_simpleEscape (by decide) rfl rest
  split
  · rename_i hc
    rw [hshort hc (by decide)]
    exact scanUnits_simpleEscape (by decide) rfl rest
  split
  · rename_i hprintable
    rw [hshort rfl (by omega)]
    exact scanUnits_plain (fun h => hspecial (.inl h)) (fun h => hspecial (.inr h)) hprintable.1 rest
  split
  · rename_i hbasic
    rw [hshort rfl hbasic]
    exact scanUnits_writeUnit hbasic rest
  · rename_i hlarge
    have hlt := toNat_lt c
    rw [List.append_assoc, scanUnits_writeUnit (by omega), scanUnits_writeUnit (by omega), unitsOf,
      if_neg hlarge]
    cases scanUnits rest <;> rfl

theorem scanUnits_flatMap_writeChar (cs rest : List Char) :
    scanUnits (cs.flatMap writeChar ++ doubleQuote :: rest) = .ok (cs.flatMap unitsOf, rest) := by
  induction cs with
  | nil =>
    rw [List.flatMap_nil, List.nil_append, scanUnits.eq_def]
    exact if_pos rfl
  | cons c cs ih =>
    rw [List.flatMap_cons, List.append_assoc, scanUnits_writeChar, ih]
    rfl

theorem not_surrogate (c : Char) : ¬ (isHighSurrogate c.toNat ∨ isLowSurrogate c.toNat) := by
  have h := c.valid
  simp only [UInt32.isValidChar, Nat.isValidChar] at h
  unfold isHighSurrogate isLowSurrogate
  change c.toNat < 0xd800 ∨ 0xdfff < c.toNat ∧ c.toNat < 0x110000 at h
  omega

theorem joinUnits_unitsOf (c : Char) (units : List ℕ) :
    joinUnits (unitsOf c ++ units) = c :: joinUnits units := by
  unfold unitsOf
  split
  · have hsingle := not_surrogate c
    have hchar : unitChar c.toNat = c := by rw [unitChar, if_neg hsingle, Char.ofNat_toNat]
    cases units with
    | nil => simp [joinUnits, hchar]
    | cons n units =>
      rw [List.singleton_append, joinUnits, if_neg fun h => hsingle (.inl h.1), hchar]
  · rename_i hlarge
    have hlt := toNat_lt c
    have hpair : isHighSurrogate (0xd800 + (c.toNat - 0x10000) / 0x400) ∧
        isLowSurrogate (0xdc00 + (c.toNat - 0x10000) % 0x400) := by
      unfold isHighSurrogate isLowSurrogate
      omega
    have hvalue : 0x10000 + (0xd800 + (c.toNat - 0x10000) / 0x400 - 0xd800) * 0x400 +
        (0xdc00 + (c.toNat - 0x10000) % 0x400 - 0xdc00) = c.toNat := by omega
    rw [List.cons_append, List.singleton_append, joinUnits, if_pos hpair, hvalue, Char.ofNat_toNat]

theorem joinUnits_flatMap_unitsOf (cs : List Char) : joinUnits (cs.flatMap unitsOf) = cs := by
  induction cs with
  | nil => rfl
  | cons c cs ih => rw [List.flatMap_cons, joinUnits_unitsOf, ih]

/-- A string is read back as it is, behind its opening quote. -/
theorem scanString_writeString (s : String) (rest : List Char) :
    scanString (s.toList.flatMap writeChar ++ doubleQuote :: rest) = .ok (s, rest) := by
  rw [scanString, scanUnits_flatMap_writeChar, Except.map, joinUnits_flatMap_unitsOf,
    String.ofList_toList]

end strings

section numbers

/-- What stands behind a value in a text without blanks there: nothing, or the next mark. -/
def Delimited (rest : List Char) : Prop := ∀ c ∈ rest.head?, c = ',' ∨ c = ']' ∨ c = closeBrace

/-- A numeral as it is written: a sign, a whole part without leading zeros, the digits of a
fraction, and an exponent with its sign. -/
structure NumberText where
  negative : Bool
  whole : List Char
  fraction : List Char
  exponent : Option (Bool × List Char)
  whole_digits : ∀ c ∈ whole, c.isDigit = true
  whole_lead : whole = ['0'] ∨ whole ≠ [] ∧ whole.head? ≠ some '0'
  fraction_digits : ∀ c ∈ fraction, c.isDigit = true
  exponent_digits : ∀ e ∈ exponent, e.2 ≠ [] ∧ ∀ c ∈ e.2, c.isDigit = true

namespace NumberText

def pointText (fraction : List Char) : List Char := if fraction = [] then [] else '.' :: fraction

def exponentText : Option (Bool × List Char) → List Char
  | none => []
  | some (negative, ds) => 'e' :: (if negative then '-' else '+') :: ds

def text (n : NumberText) : List Char :=
  (if n.negative then ['-'] else []) ++ (n.whole ++ (pointText n.fraction ++ exponentText n.exponent))

def exponentValue (n : NumberText) : Option ℤ := n.exponent.map fun e =>
  if e.1 then -(Nat.ofDigitChars 10 e.2 0 : ℤ) else Nat.ofDigitChars 10 e.2 0

/-- The number without its sign. -/
def magnitude (n : NumberText) : ℚ :=
  Nat.ofDigitChars 10 (n.whole ++ n.fraction) 0 *
    (10 : ℚ) ^ (n.exponentValue.getD 0 - (n.fraction.length : ℤ))

end NumberText

theorem digitsValue_digitsOf (cs : List Char) :
    digitsValue (digitsOf cs) = Nat.ofDigitChars 10 cs 0 := by
  rw [digitsValue, digitsOf, List.foldl_map]
  rfl

theorem takeWhile_digits {ds rest : List Char} (hds : ∀ c ∈ ds, c.isDigit = true)
    (hrest : ∀ c ∈ rest.head?, c.isDigit = false) :
    (ds ++ rest).takeWhile Char.isDigit = ds ∧ (ds ++ rest).dropWhile Char.isDigit = rest := by
  rw [List.takeWhile_append_of_pos hds, List.dropWhile_append_of_pos hds]
  cases rest with
  | nil => simp
  | cons c rest =>
    have hc : ¬ c.isDigit = true := by simp [hrest c rfl]
    rw [List.takeWhile_cons_of_neg hc, List.dropWhile_cons_of_neg hc, List.append_nil]
    exact ⟨rfl, rfl⟩

theorem scanWhole_digits {ds rest : List Char} (hds : ∀ c ∈ ds, c.isDigit = true)
    (hlead : ds = ['0'] ∨ ds ≠ [] ∧ ds.head? ≠ some '0')
    (hrest : ∀ c ∈ rest.head?, c.isDigit = false) :
    scanWhole (ds ++ rest) = .ok (digitsOf ds, rest) := by
  rcases hlead with rfl | ⟨hne, hlead⟩
  · rfl
  · obtain ⟨htake, hdrop⟩ := takeWhile_digits hds hrest
    cases ds with
    | nil => exact absurd rfl hne
    | cons c ds =>
      have hzero : c ≠ '0' := by simpa using hlead
      have hdigit : c.isDigit = true := hds c List.mem_cons_self
      rw [List.cons_append] at htake hdrop ⊢
      rw [scanWhole, if_neg hzero, if_pos hdigit, htake, hdrop]

theorem scanFraction_pointText {ds rest : List Char} (hds : ∀ c ∈ ds, c.isDigit = true)
    (hrest : ∀ c ∈ rest.head?, c.isDigit = false ∧ c ≠ '.') :
    scanFraction (NumberText.pointText ds ++ rest) = (digitsOf ds, rest) := by
  unfold NumberText.pointText
  split
  · rename_i hnil
    subst hnil
    rw [List.nil_append, scanFraction.eq_def]
    split
    · exact absurd rfl (hrest _ rfl).2
    · rfl
  · rename_i hne
    obtain ⟨htake, hdrop⟩ := takeWhile_digits hds fun c hc => (hrest c hc).1
    rw [List.cons_append, scanFraction, htake, hdrop]
    cases ds with
    | nil => exact absurd rfl hne
    | cons c ds => rfl

theorem scanExponent_exponentText (n : NumberText) {rest : List Char}
    (hrest : ∀ c ∈ rest.head?, c.isDigit = false ∧ c ≠ 'e' ∧ c ≠ 'E') :
    scanExponent (NumberText.exponentText n.exponent ++ rest) = (n.exponentValue, rest) := by
  unfold NumberText.exponentValue
  cases he : n.exponent with
  | none =>
    cases rest with
    | nil => rfl
    | cons c rest =>
      have hc := (hrest c rfl).2
      rw [NumberText.exponentText, List.nil_append, scanExponent, if_neg (not_or.mpr hc)]
      rfl
  | some e =>
    obtain ⟨negative, ds⟩ := e
    obtain ⟨hne, hds⟩ := n.exponent_digits _ he
    obtain ⟨htake, hdrop⟩ := takeWhile_digits hds fun c hc => (hrest c hc).1
    have hsign : takeSign ((if negative then '-' else '+') :: (ds ++ rest)) =
        (negative, ds ++ rest) := by
      cases negative <;> rfl
    simp only [NumberText.exponentText, List.cons_append, scanExponent, true_or, if_true, hsign,
      htake, hdrop, Option.map_some]
    cases ds with
    | nil => exact absurd rfl hne
    | cons c ds => simp only [digitsValue_digitsOf]

theorem Delimited.head {rest : List Char} (hrest : Delimited rest) :
    ∀ c ∈ rest.head?, c.isDigit = false ∧ c ≠ '.' ∧ c ≠ 'e' ∧ c ≠ 'E' := by
  intro c hc
  rcases hrest c hc with rfl | rfl | rfl <;> decide

theorem head_exponentText (n : NumberText) {rest : List Char} (hrest : Delimited rest) :
    ∀ c ∈ (NumberText.exponentText n.exponent ++ rest).head?, c.isDigit = false ∧ c ≠ '.' := by
  intro c hc
  cases he : n.exponent with
  | none =>
    rw [he] at hc
    obtain ⟨hdigit, hpoint, -⟩ := hrest.head c hc
    exact ⟨hdigit, hpoint⟩
  | some e =>
    rw [he] at hc
    obtain rfl : 'e' = c := by simpa [NumberText.exponentText] using hc
    decide

theorem head_pointText (n : NumberText) {rest : List Char} (hrest : Delimited rest) :
    ∀ c ∈ (NumberText.pointText n.fraction ++
      (NumberText.exponentText n.exponent ++ rest)).head?, c.isDigit = false := by
  intro c hc
  unfold NumberText.pointText at hc
  split at hc
  · exact (head_exponentText n hrest c hc).1
  · obtain rfl : '.' = c := by simpa using hc
    rfl

theorem takeMinus_text (n : NumberText) (rest : List Char) :
    takeMinus (n.text ++ rest) = (n.negative, n.whole ++
      (NumberText.pointText n.fraction ++ (NumberText.exponentText n.exponent ++ rest))) := by
  unfold NumberText.text
  cases n.negative with
  | true => simp [takeMinus]
  | false =>
    have hlead := n.whole_lead
    have hdigits := n.whole_digits
    cases hwhole : n.whole with
    | nil => simp [hwhole] at hlead
    | cons c cs =>
      -- the whole part opens with a digit, which is no minus
      have hc : c.isDigit = true := hdigits c (by rw [hwhole]; exact List.mem_cons_self)
      have hne : c ≠ '-' := by rintro rfl; cases hc
      simp only [Bool.false_eq_true, if_false, List.nil_append, List.cons_append, List.append_assoc]
      rw [takeMinus.eq_def]
      split
      · rename_i heq
        exact absurd (List.cons.inj heq).1 hne
      · rfl

/-- A numeral is read as what it stands for, up to the next mark. -/
theorem scanNumber_text (n : NumberText) {rest : List Char} (hrest : Delimited rest) :
    scanNumber (n.text ++ rest) =
      (numeralValue n.negative (digitsOf n.whole) (digitsOf n.fraction) n.exponentValue).map
        fun value => (value, rest) := by
  have hexponent : ∀ c ∈ rest.head?, c.isDigit = false ∧ c ≠ 'e' ∧ c ≠ 'E' := by
    intro c hc
    obtain ⟨hdigit, -, hmark⟩ := hrest.head c hc
    exact ⟨hdigit, hmark⟩
  rw [scanNumber, takeMinus_text]
  dsimp only
  rw [scanWhole_digits n.whole_digits n.whole_lead (head_pointText n hrest)]
  simp only [bind, Except.bind]
  rw [scanFraction_pointText n.fraction_digits (head_exponentText n hrest),
    scanExponent_exponentText n hexponent]
  cases numeralValue n.negative (digitsOf n.whole) (digitsOf n.fraction) n.exponentValue <;> rfl

theorem toDigits_digits {n : ℕ} : ∀ c ∈ Nat.toDigits 10 n, c.isDigit = true := fun _ hc =>
  Nat.isDigit_of_mem_toDigits (by decide) (by decide) hc

theorem head_toDigits {n : ℕ} (h : 0 < n) : (Nat.toDigits 10 n).head? ≠ some '0' := by
  induction n using Nat.strong_induction_on with
  | _ n ih =>
    rw [Nat.toDigits_eq_if (by decide)]
    split
    · rename_i hlt
      interval_cases n <;> decide
    · rw [List.head?_append_of_ne_nil _ Nat.toDigits_ne_nil]
      exact ih (n / 10) (by omega) (by omega)

theorem toDigits_lead (n : ℕ) : Nat.toDigits 10 n = ['0'] ∨
    Nat.toDigits 10 n ≠ [] ∧ (Nat.toDigits 10 n).head? ≠ some '0' := by
  rcases n.eq_zero_or_pos with rfl | h
  · exact .inl (Nat.toDigits_zero 10)
  · exact .inr ⟨Nat.toDigits_ne_nil, head_toDigits h⟩

theorem toList_decimalText (width n : ℕ) : (decimalText width n).toList =
    List.replicate (width - (Nat.toDigits 10 n).length) '0' ++ Nat.toDigits 10 n := by
  simp [decimalText, ← String.length_toList]

theorem ofDigitChars_decimalText (width n : ℕ) :
    Nat.ofDigitChars 10 (decimalText width n).toList 0 = n := by
  rw [toList_decimalText, Nat.ofDigitChars_append, Nat.ofDigitChars_replicate_zero, Nat.mul_zero,
    Nat.ofDigitChars_ten_toDigits]

theorem decimalText_digits (width n : ℕ) : ∀ c ∈ (decimalText width n).toList, c.isDigit = true := by
  intro c hc
  rw [toList_decimalText, List.mem_append, List.mem_replicate] at hc
  rcases hc with ⟨-, rfl⟩ | hc
  · rfl
  · exact toDigits_digits c hc

/-- The text is a numeral for this number, and not one of an integer. -/
def Spells (text : List Char) (value : ℚ) : Prop :=
  ∃ n : NumberText, n.negative = false ∧ n.text = text ∧ n.magnitude = value ∧
    ¬ (n.fraction = [] ∧ n.exponentValue = none)

section spelling

variable {ds : List Char} (hds : ∀ c ∈ ds, c.isDigit = true) (hne : ds ≠ [])

/-- The numeral of zero. -/
theorem zero_digits : ∀ c ∈ ['0'], c.isDigit = true := by
  intro c hc
  rw [List.mem_singleton.mp hc]
  rfl

include hds in
theorem append_zeros_digits (n : ℕ) : ∀ c ∈ ds ++ List.replicate n '0', c.isDigit = true := by
  intro c hc
  rcases List.mem_append.mp hc with hc | hc
  · exact hds c hc
  · rw [(List.mem_replicate.mp hc).2]
    rfl

include hds hne in
/-- 0.00ddd -/
theorem spells_small (zeros : ℕ) : Spells ('0' :: '.' :: (List.replicate zeros '0' ++ ds))
    (Nat.ofDigitChars 10 ds 0 * (10 : ℚ) ^ (-((zeros + ds.length : ℕ) : ℤ))) := by
  have hdigits : ∀ c ∈ List.replicate zeros '0' ++ ds, c.isDigit = true := fun c hc =>
    append_zeros_digits hds zeros c (List.mem_append.mpr (List.mem_append.mp hc).symm)
  refine ⟨⟨false, ['0'], List.replicate zeros '0' ++ ds, none, zero_digits, .inl rfl, hdigits, nofun⟩,
    rfl, ?_, ?_, ?_⟩
  · simp [NumberText.text, NumberText.pointText, NumberText.exponentText, hne]
  · have hvalue : Nat.ofDigitChars 10 (['0'] ++ (List.replicate zeros '0' ++ ds)) 0 =
        Nat.ofDigitChars 10 ds 0 := by
      rw [List.singleton_append, Nat.ofDigitChars_cons, Nat.ofDigitChars_append,
        Nat.ofDigitChars_replicate_zero]
      rfl
    simp only [NumberText.magnitude, NumberText.exponentValue, Option.map_none, Option.getD_none,
      List.length_append, List.length_replicate, zero_sub, hvalue]
  · simp [hne]

variable (hlead : ds.head? ≠ some '0')

include hne hlead in
theorem take_lead {p : ℕ} (hp : 0 < p) : ds.take p ≠ [] ∧ (ds.take p).head? ≠ some '0' := by
  cases ds with
  | nil => exact absurd rfl hne
  | cons c ds =>
    obtain ⟨p, rfl⟩ := Nat.exists_eq_succ_of_ne_zero hp.ne'
    exact ⟨by simp, by simpa using hlead⟩

include hds hne hlead in
/-- dd.ddd -/
theorem spells_point {p : ℕ} (hp : 0 < p) (hlt : p < ds.length) :
    Spells (ds.take p ++ '.' :: ds.drop p)
      (Nat.ofDigitChars 10 ds 0 * (10 : ℚ) ^ (-((ds.length - p : ℕ) : ℤ))) := by
  have hdrop : ds.drop p ≠ [] := by
    rw [← List.length_pos_iff, List.length_drop]
    omega
  refine ⟨⟨false, ds.take p, ds.drop p, none, fun c hc => hds c (List.mem_of_mem_take hc),
    .inr (take_lead hne hlead hp), fun c hc => hds c (List.mem_of_mem_drop hc), nofun⟩, rfl, ?_, ?_, ?_⟩
  · simp [NumberText.text, NumberText.pointText, NumberText.exponentText, hdrop]
  · simp only [NumberText.magnitude, NumberText.exponentValue, Option.map_none, Option.getD_none,
      List.take_append_drop, List.length_drop, zero_sub]
  · simp [hdrop]

include hds hne hlead in
/-- ddd00.0 -/
theorem spells_large (zeros : ℕ) : Spells (ds ++ List.replicate zeros '0' ++ ['.', '0'])
    (Nat.ofDigitChars 10 ds 0 * (10 : ℚ) ^ (zeros : ℤ)) := by
  refine ⟨⟨false, ds ++ List.replicate zeros '0', ['0'], none, append_zeros_digits hds zeros,
    .inr ⟨by simp [hne], by rwa [List.head?_append_of_ne_nil _ hne]⟩, zero_digits, nofun⟩, rfl, ?_, ?_,
    by simp⟩
  · simp [NumberText.text, NumberText.pointText, NumberText.exponentText]
  · have hvalue : Nat.ofDigitChars 10 (ds ++ List.replicate zeros '0' ++ ['0']) 0 =
        10 * (10 ^ zeros * Nat.ofDigitChars 10 ds 0) := by
      rw [Nat.ofDigitChars_append, Nat.ofDigitChars_append, Nat.ofDigitChars_replicate_zero]
      simp [Nat.ofDigitChars_cons]
    simp only [NumberText.magnitude, NumberText.exponentValue, Option.map_none, Option.getD_none,
      List.length_singleton, Nat.cast_one, zero_sub, zpow_neg_one, zpow_natCast, hvalue]
    push_cast
    field_simp

include hds hne hlead in
/-- d.ddde±dd -/
theorem spells_exponent (e : ℤ) :
    Spells (ds.take 1 ++ (if ds.length = 1 then [] else '.' :: ds.drop 1) ++
    'e' :: (if e < 0 then '-' else '+') :: (decimalText 2 e.natAbs).toList)
    (Nat.ofDigitChars 10 ds 0 * (10 : ℚ) ^ (e - ((ds.length - 1 : ℕ) : ℤ))) := by
  have hexponent : ∀ x ∈ some (decide (e < 0), (decimalText 2 e.natAbs).toList),
      x.2 ≠ [] ∧ ∀ c ∈ x.2, c.isDigit = true := by
    intro x hx
    rw [Option.mem_some_iff] at hx
    rw [← hx]
    dsimp only
    exact ⟨by simp [toList_decimalText], decimalText_digits 2 e.natAbs⟩
  refine ⟨⟨false, ds.take 1, ds.drop 1, some (decide (e < 0), (decimalText 2 e.natAbs).toList),
    fun c hc => hds c (List.mem_of_mem_take hc), .inr (take_lead hne hlead Nat.one_pos),
    fun c hc => hds c (List.mem_of_mem_drop hc), hexponent⟩, rfl, ?_, ?_, ?_⟩
  · have hone : ds.drop 1 = [] ↔ ds.length = 1 := by
      have hpos := List.length_pos_iff.mpr hne
      rw [List.drop_eq_nil_iff]
      omega
    simp only [NumberText.text, NumberText.pointText, NumberText.exponentText, hone,
      Bool.false_eq_true, if_false, List.nil_append, List.append_assoc, decide_eq_true_eq]
  · have hsigned : (if decide (e < 0) = true then -(e.natAbs : ℤ) else (e.natAbs : ℤ)) = e := by
      by_cases hnegative : e < 0
      · rw [if_pos (decide_eq_true hnegative)]
        omega
      · rw [if_neg (by simpa using hnegative)]
        omega
    simp only [NumberText.magnitude, NumberText.exponentValue, Option.map_some, Option.getD_some,
      List.take_append_drop, List.length_drop, ofDigitChars_decimalText, hsigned]
  · simp only [NumberText.exponentValue, Option.map_some, reduceCtorEq, and_false, not_false_eq_true]

end spelling

/-- The text of a positive double has the value of its digits. -/
theorem spells_reprMagnitude {a : ℚ} (h : 0 < (shortestDigits a).1) :
    Spells (reprMagnitude a).toList (decimalValue (shortestDigits a)) := by
  unfold reprMagnitude decimalValue
  generalize shortestDigits a = digits at h ⊢
  obtain ⟨m, k⟩ := digits
  dsimp only at h ⊢
  obtain ⟨d, rfl⟩ : ∃ d : ℕ, m = d := ⟨m.toNat, (Int.toNat_of_nonneg h.le).symm⟩
  rw [Int.toNat_natCast, Nat.toString_eq_repr, Nat.toList_repr, Int.cast_natCast,
    ← Nat.ofDigitChars_ten_toDigits (n := d), Nat.ofDigitChars_ten_toDigits]
  have hvalue := Nat.ofDigitChars_ten_toDigits (n := d)
  have hdigits := toDigits_digits (n := d)
  have hhead := head_toDigits (Int.natCast_pos.mp h)
  have hlength := Nat.length_toDigits_pos (b := 10) (n := d)
  generalize Nat.toDigits 10 d = ds at *
  have hne : ds ≠ [] := List.length_pos_iff.mp hlength
  by_cases hplain : -4 < (ds.length : ℤ) + k ∧ (ds.length : ℤ) + k ≤ 16
  · rw [if_pos hplain]
    by_cases hsmall : (ds.length : ℤ) + k ≤ 0
    · have hspells := spells_small hdigits hne (-((ds.length : ℤ) + k)).toNat
      -- the zeros after the point and the digits make up the exponent
      have hplaces : -(((-((ds.length : ℤ) + k)).toNat + ds.length : ℕ) : ℤ) = k := by omega
      rw [hplaces, hvalue] at hspells
      simpa [hsmall] using hspells
    by_cases hneg : k < 0
    · have hspells := spells_point hdigits hne hhead (p := ((ds.length : ℤ) + k).toNat)
        (by omega) (by omega)
      have hplaces : -((ds.length - ((ds.length : ℤ) + k).toNat : ℕ) : ℤ) = k := by omega
      rw [hplaces, hvalue] at hspells
      simpa [hsmall, hneg] using hspells
    · have hspells := spells_large hdigits hne hhead k.toNat
      rw [Int.toNat_of_nonneg (not_lt.mp hneg), hvalue] at hspells
      simpa [hsmall, hneg] using hspells
  · -- too large or too small for a plain text
    rw [if_neg hplain]
    have hspells := spells_exponent hdigits hne hhead ((ds.length : ℤ) + k - 1)
    have hplaces : ((ds.length : ℤ) + k - 1) - ((ds.length - 1 : ℕ) : ℤ) = k := by omega
    rw [hplaces, hvalue] at hspells
    generalize (ds.length : ℤ) + k - 1 = e at *
    generalize decimalText 2 e.natAbs = exponent at *
    by_cases hsingle : ds.length = 1 <;> by_cases hnegative : e < 0 <;>
      simpa [hsingle, hnegative] using hspells

theorem digitsValue_append (n : NumberText) :
    digitsValue (digitsOf n.whole ++ digitsOf n.fraction) =
      Nat.ofDigitChars 10 (n.whole ++ n.fraction) 0 := by
  rw [digitsOf, digitsOf, ← List.map_append]
  exact digitsValue_digitsOf _

theorem numeralValue_spelled (n : NumberText) (hfloat : ¬ (n.fraction = [] ∧ n.exponentValue = none)) :
    numeralValue n.negative (digitsOf n.whole) (digitsOf n.fraction) n.exponentValue =
      .ok (.float (roundDouble (if n.negative then -n.magnitude else n.magnitude))) := by
  have hdigits : ¬ (digitsOf n.fraction = [] ∧ n.exponentValue = none) := by
    rwa [digitsOf, List.map_eq_nil_iff]
  have hlength : (digitsOf n.fraction).length = n.fraction.length := List.length_map _
  rw [numeralValue, if_neg hdigits, digitsValue_append, hlength]
  rfl

theorem ne_quote_of_isDigit {c : Char} (h : c.isDigit = true) :
    c ≠ doubleQuote ∧ c ≠ openBrace ∧ c ≠ '[' ∧ isBlank c = false := by
  rw [Char.isDigit_iff_toNat] at h
  have hne {d : Char} (hd : d.toNat < 48 ∨ 57 < d.toNat) : c ≠ d := by
    rintro rfl
    simp at h
    omega
  refine ⟨hne (.inl (by decide)), hne (.inr (by decide)), hne (.inr (by decide)), ?_⟩
  simp at h
  simp [isBlank]
  omega

theorem literals_letters : ∀ l ∈ literals, ∃ c d cs, l.1.toList = c :: d :: cs ∧
    c.isDigit = false ∧ d.isDigit = false := by
  intro l hl
  simp only [literals, List.mem_cons, List.not_mem_nil, or_false] at hl
  rcases hl with rfl | rfl | rfl | rfl | rfl | rfl <;> exact ⟨_, _, _, rfl, rfl, rfl⟩

theorem scanLiteral_of_isDigit {c : Char} (h : c.isDigit = true) (cs : List Char) :
    scanLiteral (c :: cs) = none ∧ scanLiteral ('-' :: c :: cs) = none := by
  have hne {d : Char} (hd : d.isDigit = false) : (d == c) = false := by
    rw [beq_eq_false_iff_ne]
    rintro rfl
    rw [h] at hd
    cases hd
  unfold scanLiteral
  rw [List.findSome?_eq_none_iff, List.findSome?_eq_none_iff]
  constructor
  · intro l hl
    obtain ⟨d, e, ds, htext, hd, -⟩ := literals_letters l hl
    rw [htext, List.isPrefixOf, hne hd, Bool.false_and]
    rfl
  · intro l hl
    obtain ⟨d, e, ds, htext, -, he⟩ := literals_letters l hl
    rw [htext, List.isPrefixOf, List.isPrefixOf, hne he, Bool.false_and, Bool.and_false]
    rfl

/-- Where a value starts with a digit or a minus, it is a number. -/
theorem scanOnce_text (array object : Scanner Json) (n : NumberText) (rest : List Char) :
    scanOnce array object (n.text ++ rest) = scanNumber (n.text ++ rest) := by
  obtain ⟨c, cs, hwhole, hdigit⟩ : ∃ c cs, n.whole = c :: cs ∧ c.isDigit = true := by
    have hlead := n.whole_lead
    have hdigits := n.whole_digits
    cases hwhole : n.whole with
    | nil => simp [hwhole] at hlead
    | cons c cs => exact ⟨c, cs, rfl, hdigits c (by rw [hwhole]; exact List.mem_cons_self)⟩
  obtain ⟨hquote, hbrace, hbracket, -⟩ := ne_quote_of_isDigit hdigit
  unfold NumberText.text
  cases n.negative with
  | true =>
    have hminus : '-' ≠ doubleQuote ∧ '-' ≠ openBrace ∧ '-' ≠ '[' := by decide
    simp only [if_true, hwhole, List.cons_append, List.nil_append]
    rw [scanOnce, if_neg hminus.1, if_neg hminus.2.1, if_neg hminus.2.2,
      (scanLiteral_of_isDigit hdigit _).2]
  | false =>
    simp only [Bool.false_eq_true, if_false, hwhole, List.cons_append, List.nil_append]
    rw [scanOnce, if_neg hquote, if_neg hbrace, if_neg hbracket, (scanLiteral_of_isDigit hdigit _).1]

theorem scanNumber_spells {text : List Char} {value : ℚ} (h : Spells text value) {rest : List Char}
    (hrest : Delimited rest) (array object : Scanner Json) :
    scanOnce array object (text ++ rest) = .ok (.float (roundDouble value), rest) ∧
      scanOnce array object ('-' :: (text ++ rest)) = .ok (.float (roundDouble (-value)), rest) := by
  obtain ⟨n, hsign, htext, hvalue, hfloat⟩ := h
  have hminus : '-' :: (text ++ rest) = { n with negative := true }.text ++ rest := by
    rw [← htext, NumberText.text, NumberText.text, hsign]
    simp
  constructor
  · rw [← htext, scanOnce_text, scanNumber_text n hrest, numeralValue_spelled n hfloat, hsign, ← hvalue]
    rfl
  · have hnegative := numeralValue_spelled { n with negative := true } hfloat
    rw [hminus, scanOnce_text, scanNumber_text _ hrest, hnegative, ← hvalue]
    rfl

/-- A float that is a double, or none of the numbers. -/
def IsPyFloat (x : PyFloat) : Prop := ∀ q, x = .finite q → IsDouble q

theorem isPyFloat_infinity (negative : Bool) : IsPyFloat (.infinity negative) := by
  intro q hq
  cases hq

theorem isPyFloat_nan : IsPyFloat .nan := by
  intro q hq
  cases hq

theorem scanOnce_writeFloat {x : PyFloat} (hx : IsPyFloat x) {rest : List Char} (hrest : Delimited rest)
    (array object : Scanner Json) :
    scanOnce array object ((writeFloat x).toList ++ rest) = .ok (.float x, rest) := by
  cases x with
  | finite q =>
    have hdouble := hx q rfl
    have hpositive {a : ℚ} (ha : 0 < a) (hd : IsDouble a) :
        Spells (reprMagnitude a).toList (decimalValue (shortestDigits a)) ∧
          roundDouble (decimalValue (shortestDigits a)) = .finite a :=
      ⟨spells_reprMagnitude (shortestDigits_spec ha hd).1, (shortestDigits_spec ha hd).2⟩
    unfold writeFloat PyFloat.repr
    dsimp only
    split_ifs with hzero hneg
    · subst hzero
      have hspells : Spells "0.0".toList 0 := by
        refine ⟨⟨false, ['0'], ['0'], none, zero_digits, .inl rfl, zero_digits, nofun⟩, rfl, rfl,
          ?_, by simp⟩
        simp [NumberText.magnitude, Nat.ofDigitChars_cons]
      exact (scanNumber_spells hspells hrest array object).1
    · obtain ⟨hspells, hround⟩ := hpositive (abs_pos.mpr hzero) (abs_of_neg hneg ▸ hdouble.neg)
      have hread := (scanNumber_spells hspells hrest array object).2
      rw [roundDouble_neg, hround, PyFloat.neg, abs_of_neg hneg, neg_neg] at hread
      rw [abs_of_neg hneg]
      simpa using hread
    · obtain ⟨hspells, hround⟩ := hpositive (lt_of_le_of_ne (not_lt.mp hneg) (Ne.symm hzero)) hdouble
      rw [(scanNumber_spells hspells hrest array object).1, hround]
  | infinity negative => cases negative <;> rfl
  | nan => rfl

theorem scanOnce_writeInt {n : ℤ} {text : List Char} (h : writeInt n = .ok text) {rest : List Char}
    (hrest : Delimited rest) (array object : Scanner Json) :
    scanOnce array object (text ++ rest) = .ok (.int n, rest) := by
  unfold writeInt at h
  dsimp only at h
  split at h
  · cases h
  · rename_i hshort
    obtain rfl := Except.ok.inj h
    have hlength : ¬ maxStrDigits < (digitsOf (Nat.toDigits 10 n.natAbs)).length := by
      rwa [digitsOf, List.length_map]
    have htext : (if n < 0 then '-' :: Nat.toDigits 10 n.natAbs else Nat.toDigits 10 n.natAbs) =
        (NumberText.mk (decide (n < 0)) (Nat.toDigits 10 n.natAbs) [] none toDigits_digits
          (toDigits_lead _) nofun nofun).text := by
      by_cases hneg : n < 0 <;>
        simp [NumberText.text, NumberText.pointText, NumberText.exponentText, hneg]
    have hvalue : (if decide (n < 0) = true then -(n.natAbs : ℤ) else (n.natAbs : ℤ)) = n := by
      by_cases hneg : n < 0
      · rw [if_pos (decide_eq_true hneg)]
        omega
      · rw [if_neg (by simpa using hneg)]
        omega
    have hwhole : digitsOf [] = [] ∧ (none : Option ℤ) = none := ⟨rfl, rfl⟩
    rw [htext, scanOnce_text, scanNumber_text _ hrest]
    simp only [NumberText.exponentValue, Option.map_none]
    rw [numeralValue, if_pos hwhole, if_neg hlength, digitsValue_digitsOf,
      Nat.ofDigitChars_ten_toDigits, hvalue]
    rfl

end numbers

end SenseGateway.Python

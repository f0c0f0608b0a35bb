import SenseGateway.Numerals.Binade
import SenseGateway.Poller.Layouts

namespace SenseGateway.Poller

open Python Numerals

/-- A bit pattern of `e` exponent and `f` fraction bits that stands for no number. -/
def IsNan (e f bits : ℕ) : Prop := bits / 2 ^ f % 2 ^ e = 2 ^ e - 1 ∧ bits % 2 ^ f ≠ 0

/-- A bit pattern of zero, of either sign. -/
def IsZero (e f bits : ℕ) : Prop := bits % 2 ^ (e + f) = 0

/-- Two bit patterns of one number, or none. -/
def SameFloat (e f a b : ℕ) : Prop := a = b ∨ IsNan e f a ∧ IsNan e f b ∨ IsZero e f a ∧ IsZero e f b

section ieee

variable {e f a b : ℕ}

theorem exponent_mod (e f bits : ℕ) : bits / 2 ^ f % 2 ^ e = bits % 2 ^ (e + f) / 2 ^ f := by
  rw [Nat.add_comm, Nat.pow_add, Nat.mod_mul_right_div_self]

theorem fraction_mod (e f bits : ℕ) : bits % 2 ^ f = bits % 2 ^ (e + f) % 2 ^ f := by
  rw [Nat.mod_mod_of_dvd _ (pow_dvd_pow 2 (Nat.le_add_left f e))]

/-- The number in terms of the sign and of the two fields taken together. -/
theorem ieeeValue_eq (e f bits : ℕ) :
    ieeeValue e f bits =
      if bits % 2 ^ (e + f) / 2 ^ f = 2 ^ e - 1 then
        if bits % 2 ^ (e + f) % 2 ^ f = 0 then .infinity (decide (bits / 2 ^ (e + f) % 2 = 1)) else .nan
      else .finite (if bits / 2 ^ (e + f) % 2 = 1
        then -magnitude f (-(2 ^ (e - 1) - 1) - f) (bits % 2 ^ (e + f))
        else magnitude f (-(2 ^ (e - 1) - 1) - f) (bits % 2 ^ (e + f))) := by
  unfold ieeeValue magnitude significand
  rw [exponent_mod e f, fraction_mod e f]
  dsimp only
  generalize bits % 2 ^ (e + f) / 2 ^ f = exponent
  generalize bits % 2 ^ (e + f) % 2 ^ f = fraction
  split
  · rfl
  · by_cases hzero : exponent = 0
    · simp only [hzero, if_true, decide_eq_true_eq]
      have hexp : (1 : ℤ) - (2 ^ (e - 1) - 1) - f = ((max 0 1 : ℕ) : ℤ) + (-(2 ^ (e - 1) - 1) - f) := by
        rw [Nat.zero_max]
        push_cast
        ring
      rw [hexp]
    · have hmax : max exponent 1 = exponent := max_eq_left (Nat.one_le_iff_ne_zero.mpr hzero)
      simp only [hzero, if_false, decide_eq_true_eq, hmax]
      have hexp : (exponent : ℤ) - (2 ^ (e - 1) - 1) - f = exponent + (-(2 ^ (e - 1) - 1) - f) := by ring
      rw [hexp]

theorem isNan_iff (e f bits : ℕ) :
    IsNan e f bits ↔
      bits % 2 ^ (e + f) / 2 ^ f = 2 ^ e - 1 ∧ bits % 2 ^ (e + f) % 2 ^ f ≠ 0 := by
  rw [IsNan, exponent_mod e f, fraction_mod e f]

/-- A pattern is its sign and the two fields. -/
theorem eq_of_parts (ha : a < 2 ^ (1 + e + f)) (hb : b < 2 ^ (1 + e + f))
    (hsign : a / 2 ^ (e + f) % 2 = 1 ↔ b / 2 ^ (e + f) % 2 = 1)
    (hfields : a % 2 ^ (e + f) = b % 2 ^ (e + f)) : a = b := by
  have hpow : 2 ^ (1 + e + f) = 2 ^ (e + f) * 2 := by rw [Nat.add_assoc, Nat.add_comm, Nat.pow_succ]
  rw [hpow] at ha hb
  have hta : a / 2 ^ (e + f) < 2 := Nat.div_lt_of_lt_mul ha
  have htb : b / 2 ^ (e + f) < 2 := Nat.div_lt_of_lt_mul hb
  have hdiv : a / 2 ^ (e + f) = b / 2 ^ (e + f) := by
    generalize a / 2 ^ (e + f) = s at *
    generalize b / 2 ^ (e + f) = t at *
    omega
  rw [← Nat.div_add_mod a (2 ^ (e + f)), ← Nat.div_add_mod b (2 ^ (e + f)), hdiv, hfields]

/-- Two bit patterns stand for the same number only where they are the same, but for the signs of
zero and the many patterns of NaN. -/
theorem ieeeValue_eq_iff (he : 0 < e) (ha : a < 2 ^ (1 + e + f)) (hb : b < 2 ^ (1 + e + f)) :
    ieeeValue e f a = ieeeValue e f b ↔ SameFloat e f a b := by
  have hparts := eq_of_parts ha hb
  have hfields (n : ℕ) : 2 ^ f * (n / 2 ^ f) + n % 2 ^ f = n := Nat.div_add_mod n _
  have hones : (0 : ℕ) / 2 ^ f ≠ 2 ^ e - 1 := by
    have htwo : 2 ≤ 2 ^ e := Nat.pow_le_pow_right (Nat.two_pos) he
    rw [Nat.zero_div]
    omega
  rw [ieeeValue_eq, ieeeValue_eq, SameFloat, isNan_iff, isNan_iff, IsZero, IsZero]
  constructor
  · intro h
    by_cases hspecial : a % 2 ^ (e + f) / 2 ^ f = 2 ^ e - 1 <;>
      by_cases hspecial' : b % 2 ^ (e + f) / 2 ^ f = 2 ^ e - 1
    · rw [if_pos hspecial, if_pos hspecial'] at h
      by_cases hzero : a % 2 ^ (e + f) % 2 ^ f = 0 <;> by_cases hzero' : b % 2 ^ (e + f) % 2 ^ f = 0
      · rw [if_pos hzero, if_pos hzero', PyFloat.infinity.injEq, decide_eq_decide] at h
        refine .inl (hparts h ?_)
        rw [← hfields (a % _), ← hfields (b % _), hspecial, hspecial', hzero, hzero']
      · simp [hzero, hzero'] at h
      · simp [hzero, hzero'] at h
      · exact .inr (.inl ⟨⟨hspecial, hzero⟩, hspecial', hzero'⟩)
    · rw [if_pos hspecial, if_neg hspecial'] at h
      by_cases hzero : a % 2 ^ (e + f) % 2 ^ f = 0 <;> simp [hzero] at h
    · rw [if_neg hspecial, if_pos hspecial'] at h
      by_cases hzero : b % 2 ^ (e + f) % 2 ^ f = 0 <;> simp [hzero] at h
    · rw [if_neg hspecial, if_neg hspecial', PyFloat.finite.injEq] at h
      have hinj := (magnitude_strictMono f (-(2 ^ (e - 1) - 1) - f)).injective
      by_cases hsign : a / 2 ^ (e + f) % 2 = 1 <;> by_cases hsign' : b / 2 ^ (e + f) % 2 = 1
      · rw [if_pos hsign, if_pos hsign', neg_inj] at h
        exact .inl (hparts (iff_of_true hsign hsign') (hinj h))
      · rw [if_pos hsign, if_neg hsign'] at h
        exact .inr (.inr (eq_zero_of_magnitude_eq_neg f _ h.symm).symm)
      · rw [if_neg hsign, if_pos hsign'] at h
        exact .inr (.inr (eq_zero_of_magnitude_eq_neg f _ h))
      · rw [if_neg hsign, if_neg hsign'] at h
        exact .inl (hparts (iff_of_false hsign hsign') (hinj h))
  · rintro (rfl | ⟨⟨hspecial, hfraction⟩, hspecial', hfraction'⟩ | ⟨hzero, hzero'⟩)
    · rfl
    · rw [if_pos hspecial, if_pos hspecial', if_neg hfraction, if_neg hfraction']
    · rw [hzero, hzero', if_neg hones, if_neg hones, magnitude_zero]
      simp

end ieee

/-- The 16 bits of each register that are decoded. -/
def lowWords (registers : List ℤ) : List ℤ := registers.map fun register => register % 65536

section bytes

variable {bytes bytes' : List UInt8} {a b : List ℤ}

theorem unpackUnsigned_concat (bytes : List UInt8) (byte : UInt8) :
    unpackUnsigned (bytes ++ [byte]) = 256 * unpackUnsigned bytes + byte.toNat := by
  simp [unpackUnsigned]

theorem unpackUnsigned_inj (h : bytes.length = bytes'.length) :
    unpackUnsigned bytes = unpackUnsigned bytes' ↔ bytes = bytes' := by
  refine ⟨fun heq => ?_, fun heq => heq ▸ rfl⟩
  induction bytes using List.reverseRecOn generalizing bytes' with
  | nil => exact (List.length_eq_zero_iff.mp h.symm).symm
  | append_singleton bytes byte ih =>
    rcases List.eq_nil_or_concat bytes' with rfl | ⟨rest, last, rfl⟩
    · simp at h
    · rw [List.concat_eq_append] at h heq ⊢
      rw [unpackUnsigned_concat, unpackUnsigned_concat] at heq
      have hbyte := byte.toNat_lt
      have hlast := last.toNat_lt
      have hbytes : bytes = rest := ih (by simpa using h) (by omega)
      have hsame : byte = last := UInt8.toNat_inj.mp (by omega)
      rw [hbytes, hsame]

theorem unpackSigned_inj (h : bytes.length = bytes'.length) :
    unpackSigned bytes = unpackSigned bytes' ↔ unpackUnsigned bytes = unpackUnsigned bytes' := by
  have hlt := unpackUnsigned_lt bytes
  have hlt' := unpackUnsigned_lt bytes'
  have hpow : 256 ^ bytes.length = 2 ^ (8 * bytes.length) := by rw [Nat.pow_mul]
  have hcast : (2 : ℤ) ^ (8 * bytes.length) = ((2 ^ (8 * bytes.length) : ℕ) : ℤ) := by
    push_cast
    rfl
  unfold unpackSigned
  dsimp only
  rw [← h, hpow] at hlt'
  rw [hpow] at hlt
  rw [← h, hcast]
  generalize 2 ^ (8 * bytes.length) = bound at *
  generalize 2 ^ (8 * bytes.length - 1) = half at *
  split <;> split <;> omega

theorem registersToBytes_cons (register : ℤ) (registers : List ℤ) :
    registersToBytes (register :: registers) =
      UInt8.ofNat ((register % 65536).toNat / 256) :: UInt8.ofNat ((register % 65536).toNat % 256) ::
        registersToBytes registers := rfl

theorem registersToBytes_inj (h : a.length = b.length) :
    registersToBytes a = registersToBytes b ↔ lowWords a = lowWords b := by
  induction a generalizing b with
  | nil =>
    obtain rfl := List.length_eq_zero_iff.mp h.symm
    exact iff_of_true rfl rfl
  | cons x a ih =>
    cases b with
    | nil => simp at h
    | cons y b =>
      have hx : (x % 65536).toNat < 65536 := by omega
      have hy : (y % 65536).toNat < 65536 := by omega
      have hword : (UInt8.ofNat ((x % 65536).toNat / 256) = UInt8.ofNat ((y % 65536).toNat / 256) ∧
          UInt8.ofNat ((x % 65536).toNat % 256) = UInt8.ofNat ((y % 65536).toNat % 256)) ↔
          x % 65536 = y % 65536 := by
        simp only [← UInt8.toNat_inj, UInt8.toNat_ofNat']
        omega
      rw [registersToBytes_cons, registersToBytes_cons, List.cons.injEq, List.cons.injEq,
        ih (by simpa using h), ← and_assoc, hword]
      simp [lowWords]

theorem take_registersToBytes (k : ℕ) (registers : List ℤ) :
    (registersToBytes registers).take (2 * k) = registersToBytes (registers.take k) := by
  induction k generalizing registers with
  | zero => rfl
  | succ k ih =>
    cases registers with
    | nil => rfl
    | cons register registers =>
      rw [registersToBytes_cons, List.take_succ_cons, registersToBytes_cons, ← ih]
      rfl

theorem swapBytesInWords_lowWords (registers : List ℤ) :
    swapBytesInWords (lowWords registers) = swapBytesInWords registers := by
  rw [swapBytesInWords, swapBytesInWords, lowWords, List.map_map]
  refine List.map_congr_left fun register _ => ?_
  simp only [Function.comp_apply]
  omega

theorem lowWords_swapBytesInWords (registers : List ℤ) :
    lowWords (swapBytesInWords registers) = swapBytesInWords registers := by
  rw [lowWords, swapBytesInWords, List.map_map]
  refine List.map_congr_left fun register _ => ?_
  simp only [Function.comp_apply]
  omega

/-- Exchanging the bytes twice leaves the 16 bits there are. -/
theorem swapBytesInWords_swapBytesInWords (registers : List ℤ) :
    swapBytesInWords (swapBytesInWords registers) = lowWords registers := by
  rw [swapBytesInWords, swapBytesInWords, lowWords, List.map_map]
  refine List.map_congr_left fun register _ => ?_
  have hword : register % 65536 = 256 * (register / 256 % 256) + register % 256 := by omega
  have hhigh : 0 ≤ register / 256 % 256 ∧ register / 256 % 256 < 256 := by omega
  have hlow : 0 ≤ register % 256 ∧ register % 256 < 256 := by omega
  simp only [Function.comp_apply, hword]
  generalize register / 256 % 256 = high at hhigh ⊢
  generalize register % 256 = low at hlow ⊢
  have hdiv : (low * 256 + high) / 256 = low := by omega
  have hmod : (low * 256 + high) % 256 = high := by omega
  rw [hdiv, hmod]
  omega

theorem lowWords_swap_iff :
    lowWords (swapBytesInWords a) = lowWords (swapBytesInWords b) ↔ lowWords a = lowWords b := by
  rw [lowWords_swapBytesInWords, lowWords_swapBytesInWords]
  constructor
  · intro h
    rw [← swapBytesInWords_swapBytesInWords a, h, swapBytesInWords_swapBytesInWords]
  · intro h
    rw [← swapBytesInWords_lowWords a, h, swapBytesInWords_lowWords]

/-- No order of bytes and words makes two lists of registers equal. -/
theorem lowWords_prepare_iff (byteOrder wordOrder : Json) :
    lowWords (prepareRegisters a byteOrder wordOrder) =
      lowWords (prepareRegisters b byteOrder wordOrder) ↔ lowWords a = lowWords b := by
  have hreverse : lowWords a.reverse = lowWords b.reverse ↔ lowWords a = lowWords b := by
    rw [lowWords, lowWords, List.map_reverse, List.map_reverse, List.reverse_inj]
    rfl
  unfold prepareRegisters
  dsimp only
  split <;> split
  · rw [lowWords_swap_iff, hreverse]
  · exact lowWords_swap_iff
  · exact hreverse
  · rfl

end bytes

/-- The bit pattern that registers hold in a byte order and a word order. -/
def bitsOf (byteOrder wordOrder : Json) (registers : List ℤ) : ℕ :=
  unpackUnsigned (registersToBytes (prepareRegisters registers byteOrder wordOrder))

/-- Two lists of registers that hold one value of a type: the same words, or for the floats two
NaNs or two zeros. -/
def DataType.Alike (t : DataType) (byteOrder wordOrder : Json) (a b : List ℤ) : Prop :=
  lowWords a = lowWords b ∨
    match t with
    | .float32 => SameFloat 8 23 (bitsOf byteOrder wordOrder a) (bitsOf byteOrder wordOrder b)
    | .float64 => SameFloat 11 52 (bitsOf byteOrder wordOrder a) (bitsOf byteOrder wordOrder b)
    | _ => False

/-- The registers that a value is decoded from, where there are more than it takes: the reversal of
the words brings the last ones to the front. -/
def window (k : ℕ) (wordOrder : Json) (registers : List ℤ) : List ℤ :=
  if isWordSwapped wordOrder then registers.drop (registers.length - k) else registers.take k

section window

variable (byteOrder wordOrder : Json) {registers a b : List ℤ} {k : ℕ}

theorem length_window (h : k ≤ registers.length) :
    (window k wordOrder registers).length = k := by
  unfold window
  split
  · rw [List.length_drop]
    omega
  · exact List.length_take_of_le h

theorem window_eq_self (h : registers.length = k) : window k wordOrder registers = registers := by
  unfold window
  split
  · rw [h, Nat.sub_self, List.drop_zero]
  · exact List.take_of_length_le h.le

/-- The first `k` of the prepared registers are the prepared window. -/
theorem take_prepareRegisters (registers : List ℤ) (k : ℕ) :
    (prepareRegisters registers byteOrder wordOrder).take k =
      prepareRegisters (window k wordOrder registers) byteOrder wordOrder := by
  have hprepared : (if isWordSwapped wordOrder then registers.reverse else registers).take k =
      if isWordSwapped wordOrder then (window k wordOrder registers).reverse
      else window k wordOrder registers := by
    unfold window
    split
    · exact List.take_reverse
    · rfl
  unfold prepareRegisters
  dsimp only
  rw [← hprepared]
  split
  · exact List.map_take.symm
  · rfl

theorem decodeRegisters_of_window {t : DataType} {dataType : Json}
    (ht : lower (strip dataType.toStr) ∈ t.names) (h : t.words ≤ registers.length) :
    decodeRegisters registers dataType byteOrder wordOrder =
      .ok (t.unpack (registersToBytes
        (prepareRegisters (window t.words wordOrder registers) byteOrder wordOrder))) := by
  rw [decodeRegisters_eq ht, if_neg, take_registersToBytes, take_prepareRegisters]
  rw [length_registersToBytes, length_prepareRegisters]
  omega

theorem bitsOf_inj (h : a.length = b.length) :
    bitsOf byteOrder wordOrder a = bitsOf byteOrder wordOrder b ↔ lowWords a = lowWords b := by
  have hlength : (prepareRegisters a byteOrder wordOrder).length =
      (prepareRegisters b byteOrder wordOrder).length := by
    rw [length_prepareRegisters, length_prepareRegisters, h]
  rw [bitsOf, bitsOf, unpackUnsigned_inj (by rw [length_registersToBytes, length_registersToBytes,
    hlength]), registersToBytes_inj hlength, lowWords_prepare_iff]

theorem bitsOf_lt (registers : List ℤ) :
    bitsOf byteOrder wordOrder registers < 2 ^ (16 * registers.length) := by
  have hlt := unpackUnsigned_lt (registersToBytes (prepareRegisters registers byteOrder wordOrder))
  rw [length_registersToBytes, length_prepareRegisters, Nat.pow_mul] at hlt
  rw [Nat.pow_mul]
  exact hlt

/-- At most four bytes hold an integer that a double is. -/
theorem natAbs_unpackSigned_lt {bytes : List UInt8} (h : bytes.length ≤ 4) :
    (unpackSigned bytes).natAbs < 2 ^ 53 := by
  by_cases hnil : bytes = []
  · subst hnil
    decide
  · obtain ⟨hlo, hhi⟩ := unpackSigned_mem hnil
    have hpow : (2 : ℤ) ^ (8 * bytes.length - 1) ≤ 2 ^ 31 :=
      pow_le_pow_right₀ (by decide) (by omega)
    generalize (2 : ℤ) ^ (8 * bytes.length - 1) = bound at *
    omega

theorem decodedInt_inj {m n : ℤ} (hm : m.natAbs < 2 ^ 53) (hn : n.natAbs < 2 ^ 53) :
    decodedInt m = decodedInt n ↔ m = n := by
  rw [decodedInt, decodedInt, roundDouble_intCast hm, roundDouble_intCast hn]
  simp

/-- What is decoded from registers of the right number depends on the value they hold only. -/
theorem unpack_eq_iff (t : DataType) (ha : a.length = t.words) (hb : b.length = t.words) :
    t.unpack (registersToBytes (prepareRegisters a byteOrder wordOrder)) =
        t.unpack (registersToBytes (prepareRegisters b byteOrder wordOrder)) ↔
      t.Alike byteOrder wordOrder a b := by
  have hinj := bitsOf_inj byteOrder wordOrder (ha.trans hb.symm)
  have hlt := bitsOf_lt byteOrder wordOrder a
  have hlt' := bitsOf_lt byteOrder wordOrder b
  rw [ha] at hlt
  rw [hb] at hlt'
  have hlength {registers : List ℤ} (h : registers.length = t.words) :
      (registersToBytes (prepareRegisters registers byteOrder wordOrder)).length = 2 * t.words := by
    rw [length_registersToBytes, length_prepareRegisters, h]
  have hsigned := unpackSigned_inj ((hlength ha).trans (hlength hb).symm)
  -- of the integers, no two words stand for the same number
  have signed (hwords : t.words ≤ 2) :
      decodedInt (unpackSigned (registersToBytes (prepareRegisters a byteOrder wordOrder))) =
          decodedInt (unpackSigned (registersToBytes (prepareRegisters b byteOrder wordOrder))) ↔
        lowWords a = lowWords b ∨ False := by
    rw [decodedInt_inj (natAbs_unpackSigned_lt (by rw [hlength ha]; omega))
      (natAbs_unpackSigned_lt (by rw [hlength hb]; omega)), hsigned, or_false]
    exact hinj
  have unsigned (hwords : t.words ≤ 2) :
      decodedInt (bitsOf byteOrder wordOrder a) = decodedInt (bitsOf byteOrder wordOrder b) ↔
        lowWords a = lowWords b ∨ False := by
    have hbound : 2 ^ (16 * t.words) ≤ 2 ^ 32 := Nat.pow_le_pow_right (by decide) (by omega)
    rw [decodedInt_inj (by omega) (by omega), Nat.cast_inj, or_false]
    exact hinj
  cases t with
  | float32 =>
    refine (ieeeValue_eq_iff (by decide) hlt hlt').trans ⟨.inr, fun h => h.elim (fun h => ?_) id⟩
    exact .inl (hinj.mpr h)
  | float64 =>
    refine (ieeeValue_eq_iff (by decide) hlt hlt').trans ⟨.inr, fun h => h.elim (fun h => ?_) id⟩
    exact .inl (hinj.mpr h)
  | int16 => exact signed (by decide)
  | uint16 => exact unsigned (by decide)
  | int32 => exact signed (by decide)
  | uint32 => exact unsigned (by decide)

/-- A longer list of registers decodes to the same value as its first ones exactly where the words
keep their order, or the registers that come to the front hold the same value. -/
theorem decodeRegisters_take_iff {t : DataType} {dataType : Json}
    (ht : lower (strip dataType.toStr) ∈ t.names) (h : t.words ≤ registers.length) :
    decodeRegisters registers dataType byteOrder wordOrder =
        decodeRegisters (registers.take t.words) dataType byteOrder wordOrder ↔
      (isWordSwapped wordOrder → t.Alike byteOrder wordOrder (registers.take t.words)
        (registers.drop (registers.length - t.words))) := by
  have htake : (registers.take t.words).length = t.words := List.length_take_of_le h
  rw [decodeRegisters_of_window byteOrder wordOrder ht h,
    decodeRegisters_of_window byteOrder wordOrder ht htake.ge, window_eq_self wordOrder htake,
    Except.ok.injEq, eq_comm, unpack_eq_iff byteOrder wordOrder t htake (length_window wordOrder h)]
  unfold window
  split
  · rename_i hswapped
    exact ⟨fun halike _ => halike, fun halike => halike hswapped⟩
  · rename_i hswapped
    exact iff_of_true (.inl rfl) fun h => absurd h hswapped

end window

end SenseGateway.Poller

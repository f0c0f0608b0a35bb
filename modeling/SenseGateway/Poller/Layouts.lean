import Mathlib.Data.List.Induction
import SenseGateway.Numerals.Positional
import SenseGateway.Poller.Decode
import SenseGateway.Python.Rounding

namespace SenseGateway.Poller

open Python Numerals

/-- The types `decode_registers` supports. -/
inductive DataType
  | float32
  | float64
  | int16
  | uint16
  | int32
  | uint32
  deriving DecidableEq, Repr

namespace DataType

/-- What each type may be called. -/
def names : DataType → List String
  | float32 => ["float", "float32", "real"]
  | float64 => ["double", "float64"]
  | int16 => ["int16", "short"]
  | uint16 => ["uint16", "unsigned16", "word"]
  | int32 => ["int32", "long"]
  | uint32 => ["uint32", "unsigned32", "dword"]

/-- How many registers a value takes. -/
def words : DataType → ℕ
  | int16 | uint16 => 1
  | float32 | int32 | uint32 => 2
  | float64 => 4

/-- What a type can represent: bit patterns for the floats, and numbers in range. -/
def Value : DataType → Type
  | float32 => BitVec 32
  | float64 => BitVec 64
  | int16 => { v : ℤ // -2 ^ 15 ≤ v ∧ v < 2 ^ 15 }
  | uint16 => { v : ℕ // v < 2 ^ 16 }
  | int32 => { v : ℤ // -2 ^ 31 ≤ v ∧ v < 2 ^ 31 }
  | uint32 => { v : ℕ // v < 2 ^ 32 }

/-- The bits of a value, a negative number in two's complement. -/
def pattern : (t : DataType) → t.Value → ℕ
  | float32, bits => bits.toNat
  | float64, bits => bits.toNat
  | int16, v => (v.1 % 2 ^ 16).toNat
  | uint16, v => v.1
  | int32, v => (v.1 % 2 ^ 32).toNat
  | uint32, v => v.1

/-- The number a value is. -/
def number : (t : DataType) → t.Value → PyFloat
  | float32, bits => ieeeValue 8 23 bits.toNat
  | float64, bits => ieeeValue 11 52 bits.toNat
  | int16, v => .finite v.1
  | uint16, v => .finite v.1
  | int32, v => .finite v.1
  | uint32, v => .finite v.1

end DataType

/-- The words of a byte string, the high byte first. -/
def wordsOfBytes : List ℕ → List ℕ
  | high :: low :: bytes => (256 * high + low) :: wordsOfBytes bytes
  | _ => []

/-- The word with its two bytes exchanged. -/
def swapWord (word : ℕ) : ℕ := 256 * (word % 256) + word / 256

/-- The registers that hold a big-endian byte string in a byte order and a word order. -/
def layout (byteOrder wordOrder : Json) (bytes : List ℕ) : List ℤ :=
  let words := if isWordSwapped wordOrder then (wordsOfBytes bytes).reverse else wordsOfBytes bytes
  let words := if lower byteOrder.toStr ∈ ["little", "swapped"] then words.map swapWord else words
  words.map fun (word : ℕ) => (word : ℤ)

/-- The registers that hold a value of a type. -/
def DataType.registers (t : DataType) (byteOrder wordOrder : Json) (v : t.Value) : List ℤ :=
  layout byteOrder wordOrder (digits 256 (2 * t.words) (t.pattern v))

-- the four orders of the bytes A, B, C, D
example : layout (.str "big") (.str "normal") [0xa, 0xb, 0xc, 0xd] = [0xa0b, 0xc0d] := by decide
example : layout (.str "big") (.str "swapped") [0xa, 0xb, 0xc, 0xd] = [0xc0d, 0xa0b] := by decide
example : layout (.str "little") (.str "normal") [0xa, 0xb, 0xc, 0xd] = [0xb0a, 0xd0c] := by decide
example : layout (.str "little") (.str "swapped") [0xa, 0xb, 0xc, 0xd] = [0xd0c, 0xb0a] := by decide

theorem wordsOfBytes_lt {bytes : List ℕ} (h : ∀ b ∈ bytes, b < 256) :
    ∀ word ∈ wordsOfBytes bytes, word < 65536 := by
  fun_induction wordsOfBytes bytes with
  | case1 high low bytes ih =>
    have hhigh := h high (by simp)
    have hlow := h low (by simp)
    intro word hword
    rcases List.mem_cons.mp hword with rfl | hword
    · omega
    · exact ih (fun b hb => h b (by simp [hb])) word hword
  | case2 => simp

/-- Exchanging the bytes of a word twice gives the word back. -/
theorem swapBytesInWords_swapWord {words : List ℕ} (h : ∀ word ∈ words, word < 65536) :
    swapBytesInWords ((words.map swapWord).map fun (word : ℕ) => (word : ℤ)) =
      words.map fun (word : ℕ) => (word : ℤ) := by
  rw [swapBytesInWords, List.map_map, List.map_map]
  refine List.map_congr_left fun word hword => ?_
  have hlt := h word hword
  have hhigh : swapWord word / 256 = word % 256 := by
    unfold swapWord
    omega
  have hlow : swapWord word % 256 = word / 256 := by
    unfold swapWord
    omega
  simp only [Function.comp_apply]
  omega

/-- `prepare_registers` undoes the layout. -/
theorem prepareRegisters_layout (byteOrder wordOrder : Json) {bytes : List ℕ}
    (h : ∀ b ∈ bytes, b < 256) :
    prepareRegisters (layout byteOrder wordOrder bytes) byteOrder wordOrder =
      (wordsOfBytes bytes).map fun (word : ℕ) => (word : ℤ) := by
  have hwords := wordsOfBytes_lt h
  have hreverse : ∀ word ∈ (wordsOfBytes bytes).reverse, word < 65536 := fun word hword =>
    hwords word (List.mem_reverse.mp hword)
  unfold prepareRegisters layout
  cases isWordSwapped wordOrder <;> by_cases hbyte : lower byteOrder.toStr ∈ ["little", "swapped"]
  · simp only [hbyte, if_true, Bool.false_eq_true, if_false]
    exact swapBytesInWords_swapWord hwords
  · simp only [hbyte, if_false, Bool.false_eq_true]
  · simp only [hbyte, if_true]
    rw [← List.map_reverse, ← List.map_reverse, List.reverse_reverse]
    exact swapBytesInWords_swapWord hwords
  · simp only [hbyte, if_true, if_false]
    rw [← List.map_reverse, List.reverse_reverse]

theorem registersToBytes_words {bytes : List ℕ} (h : ∀ b ∈ bytes, b < 256)
    (heven : bytes.length % 2 = 0) :
    registersToBytes ((wordsOfBytes bytes).map fun (word : ℕ) => (word : ℤ)) =
      bytes.map UInt8.ofNat := by
  fun_induction wordsOfBytes bytes with
  | case1 high low bytes ih =>
    have hhigh := h high (by simp)
    have hlow := h low (by simp)
    have hrest := ih (fun b hb => h b (by simp [hb])) (by simpa [Nat.add_assoc] using heven)
    have hword : (((256 * high + low : ℕ) : ℤ) % 65536).toNat = 256 * high + low := by omega
    have hdiv : (256 * high + low) / 256 = high := by omega
    have hmod : (256 * high + low) % 256 = low := by omega
    simp only [registersToBytes] at hrest ⊢
    rw [List.map_cons, List.flatMap_cons, hrest, hword, hdiv, hmod]
    rfl
  | case2 bytes hshort =>
    cases bytes with
    | nil => rfl
    | cons b bytes =>
      cases bytes with
      | nil => simp at heven
      | cons b' bytes => exact absurd rfl (hshort b b' bytes)

theorem unpackUnsigned_map {bytes : List ℕ} (h : ∀ b ∈ bytes, b < 256) :
    unpackUnsigned (bytes.map UInt8.ofNat) = value 256 bytes := by
  induction bytes using List.reverseRecOn with
  | nil => rfl
  | append_singleton bytes b ih =>
    have hb := h b (by simp)
    have hbytes := ih fun b' hb' => h b' (by simp [hb'])
    simp only [unpackUnsigned] at hbytes ⊢
    rw [List.map_append, List.foldl_append, hbytes, value_concat]
    simp [Nat.mod_eq_of_lt hb]

/-- The bytes of the value come back from its registers. -/
theorem bytes_of_registers (t : DataType) (byteOrder wordOrder : Json) (v : t.Value) :
    registersToBytes (prepareRegisters (t.registers byteOrder wordOrder v) byteOrder wordOrder) =
      (digits 256 (2 * t.words) (t.pattern v)).map UInt8.ofNat := by
  have hbytes : ∀ b ∈ digits 256 (2 * t.words) (t.pattern v), b < 256 :=
    fun b hb => lt_of_mem_digits (by decide) hb
  rw [DataType.registers, prepareRegisters_layout byteOrder wordOrder hbytes,
    registersToBytes_words hbytes (by simp)]

/-- What `struct.unpack` makes of the bytes of a type. -/
def DataType.unpack : DataType → List UInt8 → PyFloat
  | .float32, bytes => ieeeValue 8 23 (unpackUnsigned bytes)
  | .float64, bytes => ieeeValue 11 52 (unpackUnsigned bytes)
  | .int16, bytes | .int32, bytes => decodedInt (unpackSigned bytes)
  | .uint16, bytes | .uint32, bytes => decodedInt (unpackUnsigned bytes)

/-- What `decode_registers` says of too few registers. -/
def DataType.shortage : DataType → PyError
  | .float32 => valueError "float32 requires two registers"
  | .float64 => valueError "float64 requires four registers"
  | .int16 => valueError "int16 requires one register"
  | .uint16 => valueError "uint16 requires one register"
  | .int32 => valueError "int32 requires two registers"
  | .uint32 => valueError "uint32 requires two registers"

/-- `decode_registers` for a supported type: the first bytes are unpacked where there are
enough. -/
theorem decodeRegisters_eq {t : DataType} {dataType : Json}
    (ht : lower (strip dataType.toStr) ∈ t.names) (registers : List ℤ) (byteOrder wordOrder : Json) :
    decodeRegisters registers dataType byteOrder wordOrder =
      if (registersToBytes (prepareRegisters registers byteOrder wordOrder)).length < 2 * t.words then
        .error t.shortage
      else .ok (t.unpack ((registersToBytes (prepareRegisters registers byteOrder wordOrder)).take
        (2 * t.words))) := by
  unfold decodeRegisters
  generalize registersToBytes (prepareRegisters registers byteOrder wordOrder) = bytes
  cases t <;> simp only [DataType.names, List.mem_cons, List.not_mem_nil, or_false] at ht
  · rcases ht with ht | ht | ht <;> simp [ht, DataType.words, DataType.shortage, DataType.unpack] <;> rfl
  · rcases ht with ht | ht <;> simp [ht, DataType.words, DataType.shortage, DataType.unpack] <;> rfl
  · rcases ht with ht | ht <;> simp [ht, DataType.words, DataType.shortage, DataType.unpack]
  · rcases ht with ht | ht | ht <;> simp [ht, DataType.words, DataType.shortage, DataType.unpack]
  · rcases ht with ht | ht <;> simp [ht, DataType.words, DataType.shortage, DataType.unpack] <;> rfl
  · rcases ht with ht | ht | ht <;> simp [ht, DataType.words, DataType.shortage, DataType.unpack] <;> rfl

/-- The error of a type that is not supported, which quotes the setting. -/
def unsupported (dataType : Json) : PyError :=
  valueError ("Unsupported data type: " ++ dataType.toStr)

theorem decodeRegisters_unsupported {dataType : Json}
    (h : ∀ t : DataType, lower (strip dataType.toStr) ∉ t.names) (registers : List ℤ)
    (byteOrder wordOrder : Json) :
    decodeRegisters registers dataType byteOrder wordOrder = .error (unsupported dataType) := by
  unfold decodeRegisters
  generalize registersToBytes (prepareRegisters registers byteOrder wordOrder) = bytes
  have hfloat := h .float32
  have hdouble := h .float64
  have hint16 := h .int16
  have huint16 := h .uint16
  have hint32 := h .int32
  have huint32 := h .uint32
  unfold DataType.names at hfloat hdouble hint16 huint16 hint32 huint32
  dsimp only at hfloat hdouble hint16 huint16 hint32 huint32 ⊢
  rw [if_neg hfloat, if_neg hdouble, if_neg hint16, if_neg huint16, if_neg hint32, if_neg huint32]
  rfl

theorem length_registersToBytes (registers : List ℤ) :
    (registersToBytes registers).length = 2 * registers.length := by
  induction registers with
  | nil => rfl
  | cons register registers ih =>
    simp only [registersToBytes, List.flatMap_cons, List.length_append, List.length_cons,
      List.length_nil] at ih ⊢
    omega

theorem length_prepareRegisters (registers : List ℤ) (byteOrder wordOrder : Json) :
    (prepareRegisters registers byteOrder wordOrder).length = registers.length := by
  unfold prepareRegisters swapBytesInWords
  dsimp only
  split <;> split <;> simp

theorem pattern_lt (t : DataType) (v : t.Value) : t.pattern v < 256 ^ (2 * t.words) := by
  cases t with
  | float32 => exact BitVec.isLt v
  | float64 => exact BitVec.isLt v
  | int16 =>
    obtain ⟨v, hlo, hhi⟩ := v
    simp only [DataType.pattern, DataType.words]
    omega
  | uint16 => exact v.2
  | int32 =>
    obtain ⟨v, hlo, hhi⟩ := v
    simp only [DataType.pattern, DataType.words]
    omega
  | uint32 => exact v.2

/-- Two's complement is read back as the number. -/
theorem unpackSigned_of_pattern {bytes : List UInt8} {v : ℤ} (hbytes : bytes ≠ [])
    (hlo : -2 ^ (8 * bytes.length - 1) ≤ v) (hhi : v < 2 ^ (8 * bytes.length - 1))
    (hbits : unpackUnsigned bytes = (v % 2 ^ (8 * bytes.length)).toNat) : unpackSigned bytes = v := by
  have hlength : 0 < bytes.length := List.length_pos_of_ne_nil hbytes
  have htwice : (2 : ℤ) ^ (8 * bytes.length) = 2 * 2 ^ (8 * bytes.length - 1) := by
    rw [← pow_succ']
    congr 1
    omega
  have hcast : ((2 ^ (8 * bytes.length - 1) : ℕ) : ℤ) = 2 ^ (8 * bytes.length - 1) := by
    push_cast
    rfl
  unfold unpackSigned
  rw [hbits]
  dsimp only
  rw [htwice]
  generalize (2 : ℤ) ^ (8 * bytes.length - 1) = half at *
  rcases lt_or_ge v 0 with hneg | hnonneg
  · have hmod : v % (2 * half) = v + 2 * half := by
      rw [← Int.add_emod_right, Int.emod_eq_of_lt (by omega) (by omega)]
    rw [hmod]
    split <;> omega
  · have hmod : v % (2 * half) = v := Int.emod_eq_of_lt hnonneg (by omega)
    rw [hmod]
    split <;> omega

/-- A type reads its number back from the bytes of its pattern. -/
theorem unpack_pattern (t : DataType) (v : t.Value) :
    t.unpack ((digits 256 (2 * t.words) (t.pattern v)).map UInt8.ofNat) = t.number v := by
  have hbits : unpackUnsigned ((digits 256 (2 * t.words) (t.pattern v)).map UInt8.ofNat) =
      t.pattern v := by
    rw [unpackUnsigned_map fun b hb => lt_of_mem_digits (by decide) hb,
      value_digits (pattern_lt t v)]
  have hlength : ((digits 256 (2 * t.words) (t.pattern v)).map UInt8.ofNat).length =
      2 * t.words := by simp
  have hne : (digits 256 (2 * t.words) (t.pattern v)).map UInt8.ofNat ≠ [] := by
    intro hnil
    rw [hnil] at hlength
    cases t <;> simp [DataType.words] at hlength
  generalize (digits 256 (2 * t.words) (t.pattern v)).map UInt8.ofNat = bytes at *
  cases t with
  | float32 => simp only [DataType.unpack, hbits, DataType.pattern, DataType.number]
  | float64 => simp only [DataType.unpack, hbits, DataType.pattern, DataType.number]
  | int16 =>
    obtain ⟨v, hlo, hhi⟩ := v
    have hsigned : unpackSigned bytes = v := unpackSigned_of_pattern hne
      (by rwa [hlength]) (by rwa [hlength]) (by rw [hbits, hlength]; rfl)
    simp only [DataType.unpack, hsigned, decodedInt, DataType.number]
    exact roundDouble_intCast (by omega)
  | uint16 =>
    obtain ⟨v, hv⟩ := v
    simp only [DataType.unpack, hbits, DataType.pattern, decodedInt, DataType.number]
    exact roundDouble_intCast (n := v) (by omega)
  | int32 =>
    obtain ⟨v, hlo, hhi⟩ := v
    have hsigned : unpackSigned bytes = v := unpackSigned_of_pattern hne
      (by rwa [hlength]) (by rwa [hlength]) (by rw [hbits, hlength]; rfl)
    simp only [DataType.unpack, hsigned, decodedInt, DataType.number]
    exact roundDouble_intCast (by omega)
  | uint32 =>
    obtain ⟨v, hv⟩ := v
    simp only [DataType.unpack, hbits, DataType.pattern, decodedInt, DataType.number]
    exact roundDouble_intCast (n := v) (by omega)

/-- `decode_registers` reads a value back from the registers that hold it. -/
theorem decodeRegisters_of_value {t : DataType} {dataType : Json}
    (ht : lower (strip dataType.toStr) ∈ t.names) (byteOrder wordOrder : Json) (v : t.Value) :
    decodeRegisters (t.registers byteOrder wordOrder v) dataType byteOrder wordOrder =
      .ok (t.number v) := by
  rw [decodeRegisters_eq ht, bytes_of_registers, if_neg (by simp),
    List.take_of_length_le (by simp), unpack_pattern]

theorem unpackUnsigned_lt (bytes : List UInt8) : unpackUnsigned bytes < 256 ^ bytes.length := by
  induction bytes using List.reverseRecOn with
  | nil => simp [unpackUnsigned]
  | append_singleton bytes b ih =>
    have hb : b.toNat < 256 := b.toNat_lt
    have hsnoc : unpackUnsigned (bytes ++ [b]) = 256 * unpackUnsigned bytes + b.toNat := by
      simp [unpackUnsigned]
    rw [hsnoc, List.length_append, List.length_singleton, Nat.pow_succ]
    omega

theorem unpackSigned_mem {bytes : List UInt8} (hbytes : bytes ≠ []) :
    -2 ^ (8 * bytes.length - 1) ≤ unpackSigned bytes ∧
      unpackSigned bytes < 2 ^ (8 * bytes.length - 1) := by
  have hlength : 0 < bytes.length := List.length_pos_of_ne_nil hbytes
  have hlt : unpackUnsigned bytes < 2 ^ (8 * bytes.length) := by
    rw [Nat.pow_mul]
    exact unpackUnsigned_lt bytes
  have htwice : 2 ^ (8 * bytes.length) = 2 * 2 ^ (8 * bytes.length - 1) := by
    rw [← Nat.pow_succ']
    congr 1
    omega
  have hcast : (2 : ℤ) ^ (8 * bytes.length) = ((2 ^ (8 * bytes.length) : ℕ) : ℤ) := by push_cast; rfl
  have hcast' : (2 : ℤ) ^ (8 * bytes.length - 1) = ((2 ^ (8 * bytes.length - 1) : ℕ) : ℤ) := by
    push_cast
    rfl
  unfold unpackSigned
  dsimp only
  rw [hcast, hcast']
  generalize 2 ^ (8 * bytes.length - 1) = half at *
  split <;> omega

/-- `decode_registers` reads every value of a supported type back from the registers that hold it,
in each byte order and word order, and raises on fewer registers than the type takes. -/
theorem decodeRegisters_registers (t : DataType) (dataType : Json)
    (ht : lower (strip dataType.toStr) ∈ t.names) (byteOrder wordOrder : Json) :
    (∀ v : t.Value, decodeRegisters (t.registers byteOrder wordOrder v) dataType byteOrder wordOrder =
      .ok (t.number v)) ∧
    ∀ registers : List ℤ, registers.length < t.words →
      ∃ e, decodeRegisters registers dataType byteOrder wordOrder = .error e := by
  constructor
  · intro v
    exact decodeRegisters_of_value ht byteOrder wordOrder v
  · intro registers hshort
    refine ⟨t.shortage, (decodeRegisters_eq ht registers byteOrder wordOrder).trans (if_pos ?_)⟩
    rw [length_registersToBytes, length_prepareRegisters]
    omega

/-- Minus two with the low word first and the bytes of each word exchanged. -/
theorem decodeRegisters_minus_two :
    DataType.int32.registers (.str "Swapped") (.str "Swap / Little Word") ⟨-2, by decide⟩ =
        [0xfeff, 0xffff] ∧
      decodeRegisters (DataType.int32.registers (.str "Swapped") (.str "Swap / Little Word")
        ⟨-2, by decide⟩) (.str " LONG ") (.str "Swapped") (.str "Swap / Little Word") =
          .ok (.finite (-2)) ∧
      ∃ e, decodeRegisters [0xfeff] (.str " LONG ") (.str "Swapped") (.str "Swap / Little Word") =
        .error e := by
  obtain ⟨hvalue, hshort⟩ := decodeRegisters_registers .int32 (.str " LONG ")
    (by decide) (.str "Swapped") (.str "Swap / Little Word")
  exact ⟨by decide, hvalue ⟨-2, by decide⟩, hshort [0xfeff] (by decide)⟩

end SenseGateway.Poller

import SenseGateway.Poller.Surplus

namespace SenseGateway.Diagnose

open Python Poller

def swapBytesInWords (registers : List ℤ) : List ℤ :=
  registers.map fun register =>
    let highByte := register / 256 % 256
    let lowByte := register % 256
    lowByte * 256 + highByte

/-- Kept in sync with the poller's list by hand. -/
def swappedWordOrders : List String :=
  ["swapped", "swap", "little", "reverse", "cdab",
    "little word", "swap little word", "word swap", "word swapped"]

def isWordSwapped (wordOrder : Json) : Bool :=
  let text := lower (wordOrder.orElse (.str "")).toStr
  let spaced := replaceChar '/' ' ' (replaceChar '-' ' ' (replaceChar '_' ' ' text))
  " ".intercalate (splitWords spaced) ∈ swappedWordOrders

def prepareRegisters (registers : List ℤ) (byteOrder wordOrder : Json) : List ℤ :=
  let prepared := if isWordSwapped wordOrder then registers.reverse else registers
  if lower byteOrder.toStr ∈ ["little", "swapped"] then swapBytesInWords prepared else prepared

def registersToBytes (registers : List ℤ) : List UInt8 :=
  registers.flatMap fun register =>
    let word := (register % 65536).toNat
    [UInt8.ofNat (word / 256), UInt8.ofNat (word % 256)]

/-- `struct.unpack` of a format of `size` bytes takes exactly as many. -/
def unpackBytes (size : ℕ) (bytes : List UInt8) : PyExcept (List UInt8) :=
  if bytes.length = size then .ok bytes
  else .error ⟨.other, "unpack requires a buffer of " ++ toString size ++ " bytes"⟩

/-- The copy of the poller's function, without its checks on the number of registers. -/
def decodeRegisters (registers : List ℤ) (dataType byteOrder wordOrder : Json) :
    PyExcept PyFloat := do
  let normalizedType := lower (strip dataType.toStr)
  let rawBytes := registersToBytes (prepareRegisters registers byteOrder wordOrder)
  if normalizedType ∈ ["float", "float32", "real"] then
    return ieeeValue 8 23 (unpackUnsigned (← unpackBytes 4 (rawBytes.take 4)))
  else if normalizedType ∈ ["double", "float64"] then
    return ieeeValue 11 52 (unpackUnsigned (← unpackBytes 8 (rawBytes.take 8)))
  else if normalizedType ∈ ["int16", "short"] then
    return decodedInt (unpackSigned (← unpackBytes 2 (rawBytes.take 2)))
  else if normalizedType ∈ ["uint16", "unsigned16", "word"] then
    return decodedInt (unpackUnsigned (← unpackBytes 2 (rawBytes.take 2)))
  else if normalizedType ∈ ["int32", "long"] then
    return decodedInt (unpackSigned (← unpackBytes 4 (rawBytes.take 4)))
  else if normalizedType ∈ ["uint32", "unsigned32", "dword"] then
    return decodedInt (unpackUnsigned (← unpackBytes 4 (rawBytes.take 4)))
  else throw (valueError ("Unsupported data type: " ++ dataType.toStr))

section copies

variable (registers : List ℤ) (dataType byteOrder wordOrder : Json)

theorem registersToBytes_eq : registersToBytes registers = Poller.registersToBytes registers := rfl

theorem prepareRegisters_eq :
    prepareRegisters registers byteOrder wordOrder =
      Poller.prepareRegisters registers byteOrder wordOrder := rfl

/-- `struct.unpack` of a prefix refuses exactly the byte strings that a check of the length does. -/
theorem toOption_unpack (size : ℕ) (bytes : List UInt8) (e : PyError) (f : List UInt8 → PyFloat) :
    (do return f (← unpackBytes size (bytes.take size)) : PyExcept PyFloat).toOption =
      (if bytes.length < size then .error e else .ok (f (bytes.take size)) :
        PyExcept PyFloat).toOption := by
  unfold unpackBytes
  rw [List.length_take]
  by_cases hshort : bytes.length < size
  · rw [if_neg (by omega), if_pos hshort]
    rfl
  · rw [if_pos (by omega), if_neg hshort]
    rfl

/-- The copy of `decode_registers` fails where the original does, if with another error. -/
theorem toOption_decodeRegisters :
    (decodeRegisters registers dataType byteOrder wordOrder).toOption =
      (Poller.decodeRegisters registers dataType byteOrder wordOrder).toOption := by
  unfold decodeRegisters Poller.decodeRegisters
  rw [registersToBytes_eq, prepareRegisters_eq]
  dsimp only
  generalize Poller.registersToBytes (Poller.prepareRegisters registers byteOrder wordOrder) = bytes
  split
  · exact toOption_unpack 4 bytes _ fun b => ieeeValue 8 23 (unpackUnsigned b)
  split
  · exact toOption_unpack 8 bytes _ fun b => ieeeValue 11 52 (unpackUnsigned b)
  split
  · exact toOption_unpack 2 bytes _ fun b => decodedInt (unpackSigned b)
  split
  · exact toOption_unpack 2 bytes _ fun b => decodedInt (unpackUnsigned b)
  split
  · exact toOption_unpack 4 bytes _ fun b => decodedInt (unpackSigned b)
  split
  · exact toOption_unpack 4 bytes _ fun b => decodedInt (unpackUnsigned b)
  · rfl

theorem decodeRegisters_eq_ok {value : PyFloat} :
    decodeRegisters registers dataType byteOrder wordOrder = .ok value ↔
      Poller.decodeRegisters registers dataType byteOrder wordOrder = .ok value := by
  rw [← toOption_eq_some, ← toOption_eq_some, toOption_decodeRegisters]

/-- Both programs decode the same registers to the same value, or neither does. -/
theorem decoders_agree :
    (∀ value, decodeRegisters registers dataType byteOrder wordOrder = .ok value ↔
      Poller.decodeRegisters registers dataType byteOrder wordOrder = .ok value) ∧
    prepareRegisters registers byteOrder wordOrder =
      Poller.prepareRegisters registers byteOrder wordOrder :=
  ⟨fun _ => decodeRegisters_eq_ok registers dataType byteOrder wordOrder,
    prepareRegisters_eq registers byteOrder wordOrder⟩

end copies

-- the two refuse a short list with different errors
example : decodeRegisters [] (.str "float32") .null .null =
    .error ⟨.other, "unpack requires a buffer of 4 bytes"⟩ := by decide

/-- Registers beyond those a value takes make no difference to either program exactly where the words
keep their order, or the registers that come to the front hold the same value. -/
theorem surplus_ignored_iff {t : DataType} {dataType : Json}
    (ht : lower (strip dataType.toStr) ∈ t.names) (byteOrder wordOrder : Json) {registers : List ℤ}
    (h : t.words ≤ registers.length) :
    (Poller.decodeRegisters registers dataType byteOrder wordOrder =
        Poller.decodeRegisters (registers.take t.words) dataType byteOrder wordOrder ∧
      decodeRegisters registers dataType byteOrder wordOrder =
        decodeRegisters (registers.take t.words) dataType byteOrder wordOrder) ↔
      (Poller.isWordSwapped wordOrder → t.Alike byteOrder wordOrder (registers.take t.words)
        (registers.drop (registers.length - t.words))) := by
  have hfirst : t.words ≤ (registers.take t.words).length := (List.length_take_of_le h).ge
  have hcopy {registers : List ℤ} (h : t.words ≤ registers.length) :
      decodeRegisters registers dataType byteOrder wordOrder =
        Poller.decodeRegisters registers dataType byteOrder wordOrder := by
    have hvalue := decodeRegisters_of_window byteOrder wordOrder ht h
    rw [hvalue]
    exact (decodeRegisters_eq_ok registers dataType byteOrder wordOrder).mpr hvalue
  rw [hcopy h, hcopy hfirst, and_self]
  exact decodeRegisters_take_iff byteOrder wordOrder ht h

/-- One word too many does no harm in the normal order. -/
theorem surplus_ignored_normal :
    Poller.decodeRegisters [1, 2] (.str "int16") (.str "big") (.str "normal") =
        Poller.decodeRegisters ([1, 2].take DataType.int16.words) (.str "int16") (.str "big")
          (.str "normal") ∧
      decodeRegisters [1, 2] (.str "int16") (.str "big") (.str "normal") =
        decodeRegisters ([1, 2].take DataType.int16.words) (.str "int16") (.str "big")
          (.str "normal") :=
  (surplus_ignored_iff (t := .int16) (by decide) (.str "big") (.str "normal") (by decide)).mpr
    fun h => absurd h (by decide)

/-- In the order that the tools assume, the value comes from the register behind the one asked for. -/
theorem surplus_decoded :
    ¬ (Poller.decodeRegisters [1, 2] (.str "int16") (.str "big") (.str "swapped") =
        Poller.decodeRegisters ([1, 2].take DataType.int16.words) (.str "int16") (.str "big")
          (.str "swapped") ∧
      decodeRegisters [1, 2] (.str "int16") (.str "big") (.str "swapped") =
        decodeRegisters ([1, 2].take DataType.int16.words) (.str "int16") (.str "big")
          (.str "swapped")) := by
  have hlong : Poller.decodeRegisters [1, 2] (.str "int16") (.str "big") (.str "swapped") =
      .ok (.finite 2) := by decide +kernel
  have hshort : Poller.decodeRegisters ([1, 2].take DataType.int16.words) (.str "int16")
      (.str "big") (.str "swapped") = .ok (.finite 1) := by decide +kernel
  rw [hlong, hshort]
  simp

end SenseGateway.Diagnose

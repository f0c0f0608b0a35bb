import SenseGateway.Python.Value

namespace SenseGateway.Poller

open Python

def swapBytesInWords (registers : List ℤ) : List ℤ :=
  registers.map fun register =>
    let highByte := register / 256 % 256
    let lowByte := register % 256
    lowByte * 256 + highByte

/-- Spellings meaning "low word first" (CDAB for float32). -/
def swappedWordOrders : List String :=
  ["swapped", "swap", "little", "reverse", "cdab",
    "little word", "swap little word", "word swap", "word swapped"]

def isWordSwapped (wordOrder : Json) : Bool :=
  let text := lower (wordOrder.orElse (.str "")).toStr
  let spaced := replaceChar '/' ' ' (replaceChar '-' ' ' (replaceChar '_' ' ' text))
  " ".intercalate (splitWords spaced) ∈ swappedWordOrders

def prepareRegisters (registers : List ℤ) (byteOrder wordOrder : Json) : List ℤ :=
  let prepared := if isWordSwapped wordOrder then registers.reverse else registers
  if lower byteOrder.toStr ∈ ["little", "swapped"] then swapBytesInWords prepared else prepared

/-- `struct.pack(">H", register & 0xFFFF)` of each register in turn. -/
def registersToBytes (registers : List ℤ) : List UInt8 :=
  registers.flatMap fun register =>
    let word := (register % 65536).toNat
    [UInt8.ofNat (word / 256), UInt8.ofNat (word % 256)]

/-- The unsigned number a big-endian byte string stands for. -/
def unpackUnsigned (bytes : List UInt8) : ℕ := bytes.foldl (fun n b => 256 * n + b.toNat) 0

/-- The two's-complement number of the same bytes. -/
def unpackSigned (bytes : List UInt8) : ℤ :=
  let n := unpackUnsigned bytes
  if n < 2 ^ (8 * bytes.length - 1) then n else (n : ℤ) - 2 ^ (8 * bytes.length)

/-- The number with an IEEE 754 bit pattern of `e` exponent and `f` fraction bits. -/
def ieeeValue (e f bits : ℕ) : PyFloat :=
  let negative := decide (bits / 2 ^ (e + f) % 2 = 1)
  let exponent := bits / 2 ^ f % 2 ^ e
  let fraction := bits % 2 ^ f
  let bias : ℤ := 2 ^ (e - 1) - 1
  if exponent = 2 ^ e - 1 then if fraction = 0 then .infinity negative else .nan
  else
    let magnitude : ℚ :=
      if exponent = 0 then fraction * (2 : ℚ) ^ (1 - bias - f)
      else (2 ^ f + fraction : ℕ) * (2 : ℚ) ^ (exponent - bias - f)
    .finite (if negative then -magnitude else magnitude)

/-- `float(n)` of an unpacked integer; it has at most 32 bits. -/
def decodedInt (n : ℤ) : PyFloat := roundDouble n

def valueError (message : String) : PyError := ⟨.valueError, message⟩

def decodeRegisters (registers : List ℤ) (dataType byteOrder wordOrder : Json) :
    PyExcept PyFloat :=
  let normalizedType := lower (strip dataType.toStr)
  let rawBytes := registersToBytes (prepareRegisters registers byteOrder wordOrder)
  if normalizedType ∈ ["float", "float32", "real"] then
    if rawBytes.length < 4 then .error (valueError "float32 requires two registers")
    else .ok (ieeeValue 8 23 (unpackUnsigned (rawBytes.take 4)))
  else if normalizedType ∈ ["double", "float64"] then
    if rawBytes.length < 8 then .error (valueError "float64 requires four registers")
    else .ok (ieeeValue 11 52 (unpackUnsigned (rawBytes.take 8)))
  else if normalizedType ∈ ["int16", "short"] then
    if rawBytes.length < 2 then .error (valueError "int16 requires one register")
    else .ok (decodedInt (unpackSigned (rawBytes.take 2)))
  else if normalizedType ∈ ["uint16", "unsigned16", "word"] then
    if rawBytes.length < 2 then .error (valueError "uint16 requires one register")
    else .ok (decodedInt (unpackUnsigned (rawBytes.take 2)))
  else if normalizedType ∈ ["int32", "long"] then
    if rawBytes.length < 4 then .error (valueError "int32 requires two registers")
    else .ok (decodedInt (unpackSigned (rawBytes.take 4)))
  else if normalizedType ∈ ["uint32", "unsigned32", "dword"] then
    if rawBytes.length < 4 then .error (valueError "uint32 requires two registers")
    else .ok (decodedInt (unpackUnsigned (rawBytes.take 4)))
  else .error (valueError ("Unsupported data type: " ++ dataType.toStr))

end SenseGateway.Poller

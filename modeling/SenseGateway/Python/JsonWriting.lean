import SenseGateway.Python.JsonText

namespace SenseGateway.Python

def isBlank (c : Char) : Bool := c.toNat ∈ [0x20, 0x9, 0xa, 0xd]

/-- The separators of `json.dumps`. Behind the comma and the colon they have only blanks. -/
structure Separators where
  afterComma : List Char
  afterColon : List Char
  blankComma : afterComma.all isBlank = true
  blankColon : afterColon.all isBlank = true

namespace Separators

/-- `(", ", ": ")` -/
def default : Separators := ⟨[' '], [' '], rfl, rfl⟩

/-- `(",", ":")` -/
def compact : Separators := ⟨[], [], rfl, rfl⟩

def item (sep : Separators) : List Char := ',' :: sep.afterComma

def key (sep : Separators) : List Char := ':' :: sep.afterColon

end Separators

/-- The code units of a character outside ASCII, each as four hexadecimal digits. -/
def writeUnit (n : ℕ) : List Char :=
  [backslash, 'u', Nat.digitChar (n / 0x1000 % 16), Nat.digitChar (n / 0x100 % 16),
    Nat.digitChar (n / 0x10 % 16), Nat.digitChar (n % 16)]

/-- A character within a string. A Python text can also hold lone surrogates, which have no
character here. -/
def writeChar (c : Char) : List Char :=
  if c = doubleQuote ∨ c = backslash then [backslash, c]
  else if c.toNat = 0xa then [backslash, 'n']
  else if c.toNat = 0xd then [backslash, 'r']
  else if c.toNat = 0x9 then [backslash, 't']
  else if c.toNat = 0xc then [backslash, 'f']
  else if c.toNat = 0x8 then [backslash, 'b']
  else if 0x20 ≤ c.toNat ∧ c.toNat ≤ 0x7e then [c]
  else if c.toNat < 0x10000 then writeUnit c.toNat
  else
    writeUnit (0xd800 + (c.toNat - 0x10000) / 0x400) ++
      writeUnit (0xdc00 + (c.toNat - 0x10000) % 0x400)

def writeString (s : String) : List Char :=
  doubleQuote :: (s.toList.flatMap writeChar ++ [doubleQuote])

def writeFloat : PyFloat → String
  | .finite q => (PyFloat.finite q).repr
  | .infinity negative => if negative then "-Infinity" else "Infinity"
  | .nan => "NaN"

/-- An integer of too many digits has no text. -/
def writeInt (n : ℤ) : Except Flaw (List Char) :=
  let digits := Nat.toDigits 10 n.natAbs
  if maxStrDigits < digits.length then .error (.digits digits.length)
  else .ok (if n < 0 then '-' :: digits else digits)

mutual

/-- The text of a value of at most this depth. -/
def writeValue (sep : Separators) (depth : ℕ) : Json → Except Flaw (List Char)
  | .null => .ok "null".toList
  | .bool b => .ok (if b then "true" else "false").toList
  | .int n => writeInt n
  | .float x => .ok (writeFloat x).toList
  | .str s => .ok (writeString s)
  | .arr items =>
    if depth = 0 then .error (.depth "object")
    else (writeItems sep (depth - 1) items).map fun texts =>
      '[' :: (sep.item.intercalate texts ++ [']'])
  | .obj fields =>
    if depth = 0 then .error (.depth "object")
    else (writeFields sep (depth - 1) fields).map fun texts =>
      openBrace :: (sep.item.intercalate texts ++ [closeBrace])

def writeItems (sep : Separators) (depth : ℕ) : List Json → Except Flaw (List (List Char))
  | [] => .ok []
  | x :: xs => do
    let text ← writeValue sep depth x
    let texts ← writeItems sep depth xs
    return text :: texts

def writeFields (sep : Separators) (depth : ℕ) : List (String × Json) → Except Flaw (List (List Char))
  | [] => .ok []
  | (key, x) :: xs => do
    let text ← writeValue sep depth x
    let texts ← writeFields sep depth xs
    return (writeString key ++ sep.key ++ text) :: texts

end

/-- `json.dumps(value, separators=…)` -/
def dumps (sep : Separators) (depth : ℕ) (value : Json) : Except Flaw String :=
  (writeValue sep depth value).map String.ofList

example : dumps .compact 2 (.obj [("a", .arr [.int (-7), .str "\n", .null])]) =
    .ok "\x7b\"a\":[-7,\"\\n\",null]\x7d" := by decide +kernel

end SenseGateway.Python

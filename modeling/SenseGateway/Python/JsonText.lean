import SenseGateway.Python.Dict
import SenseGateway.Python.Value

namespace SenseGateway.Python

/-- Why `json.loads` does not return: the text is no JSON document, an integer has too many digits,
or a list or an object is nested too deeply. -/
inductive Flaw
  | malformed
  | digits (count : ℕ)
  | depth (collection : String)
  deriving DecidableEq, Repr

/-- A scanner returns what it has read and the rest of the text. -/
abbrev Scanner (α : Type) := List Char → Except Flaw (α × List Char)

def openBrace : Char := Char.ofNat 0x7b

def closeBrace : Char := Char.ofNat 0x7d

def skipBlanks (cs : List Char) : List Char := cs.dropWhile fun c => c.toNat ∈ [0x20, 0x9, 0xa, 0xd]

def hexValue (c : Char) : Option ℕ :=
  if c.isDigit then some (c.toNat - 0x30)
  else if 'a' ≤ c ∧ c ≤ 'f' then some (c.toNat - 0x61 + 10)
  else if 'A' ≤ c ∧ c ≤ 'F' then some (c.toNat - 0x41 + 10)
  else none

def hexUnit (cs : List Char) : Option ℕ :=
  (cs.mapM hexValue).map fun ds => ds.foldl (fun n d => 16 * n + d) 0

/-- What the character after a backslash stands for. -/
def simpleEscape (c : Char) : Option ℕ :=
  if c = doubleQuote ∨ c = backslash ∨ c = '/' then some c.toNat
  else if c = 'b' then some 0x8
  else if c = 'f' then some 0xc
  else if c = 'n' then some 0xa
  else if c = 'r' then some 0xd
  else if c = 't' then some 0x9
  else none

/-- The code units of a string up to its closing quote. -/
def scanUnits : Scanner (List ℕ)
  | [] => .error .malformed
  | c :: cs =>
    if c = doubleQuote then .ok ([], cs)
    else if c = backslash then
      match cs with
      | 'u' :: h₁ :: h₂ :: h₃ :: h₄ :: rest =>
        match hexUnit [h₁, h₂, h₃, h₄] with
        | some n => (scanUnits rest).map fun r => (n :: r.1, r.2)
        | none => .error .malformed
      | e :: rest =>
        match simpleEscape e with
        | some n => (scanUnits rest).map fun r => (n :: r.1, r.2)
        | none => .error .malformed
      | [] => .error .malformed
    else if c.toNat < 0x20 then .error .malformed
    else (scanUnits cs).map fun r => (c.toNat :: r.1, r.2)

def isHighSurrogate (n : ℕ) : Prop := 0xd800 ≤ n ∧ n < 0xdc00

def isLowSurrogate (n : ℕ) : Prop := 0xdc00 ≤ n ∧ n < 0xe000

instance (n : ℕ) : Decidable (isHighSurrogate n) := inferInstanceAs (Decidable (_ ∧ _))

instance (n : ℕ) : Decidable (isLowSurrogate n) := inferInstanceAs (Decidable (_ ∧ _))

/-- A unit on its own. A lone surrogate, which a Python text can hold, is shown as a character of
the last private plane. -/
def unitChar (n : ℕ) : Char :=
  if isHighSurrogate n ∨ isLowSurrogate n then Char.ofNat (0x10f800 + (n - 0xd800)) else Char.ofNat n

/-- The characters of a string: two surrogates that match are one. -/
def joinUnits : List ℕ → List Char
  | [] => []
  | [n] => [unitChar n]
  | m :: n :: units =>
    if isHighSurrogate m ∧ isLowSurrogate n then
      Char.ofNat (0x10000 + (m - 0xd800) * 0x400 + (n - 0xdc00)) :: joinUnits units
    else unitChar m :: joinUnits (n :: units)

/-- A string from behind its opening quote on. -/
def scanString : Scanner String := fun cs =>
  (scanUnits cs).map fun r => (String.ofList (joinUnits r.1), r.2)

def digitsOf (cs : List Char) : List ℕ := cs.map fun c => c.toNat - 0x30

/-- The integer part of a number. -/
def scanWhole : Scanner (List ℕ)
  | [] => .error .malformed
  | c :: cs =>
    if c = '0' then .ok ([0], cs)
    else if c.isDigit then
      .ok (digitsOf ((c :: cs).takeWhile Char.isDigit), (c :: cs).dropWhile Char.isDigit)
    else .error .malformed

/-- The digits behind a point, if there are any. -/
def scanFraction : List Char → List ℕ × List Char
  | '.' :: cs =>
    match cs.takeWhile Char.isDigit with
    | [] => ([], '.' :: cs)
    | ds => (digitsOf ds, cs.dropWhile Char.isDigit)
  | cs => ([], cs)

/-- The exponent, if it has any digits. -/
def scanExponent : List Char → Option ℤ × List Char
  | [] => (none, [])
  | c :: cs =>
    if c = 'e' ∨ c = 'E' then
      let (negative, body) := takeSign cs
      match body.takeWhile Char.isDigit with
      | [] => (none, c :: cs)
      | ds =>
        let e : ℤ := digitsValue (digitsOf ds)
        (some (if negative then -e else e), body.dropWhile Char.isDigit)
    else (none, c :: cs)

/-- The value of the numeral. The bound on the digits is one of `int`, not of `float`. -/
def numeralValue (negative : Bool) (whole fraction : List ℕ) (exponent : Option ℤ) :
    Except Flaw Json :=
  if fraction = [] ∧ exponent = none then
    if maxStrDigits < whole.length then .error (.digits whole.length)
    else .ok (.int (if negative then -(digitsValue whole : ℤ) else digitsValue whole))
  else
    let magnitude : ℚ := digitsValue (whole ++ fraction) *
      (10 : ℚ) ^ (exponent.getD 0 - (fraction.length : ℤ))
    .ok (.float (roundDouble (if negative then -magnitude else magnitude)))

def takeMinus : List Char → Bool × List Char
  | '-' :: cs => (true, cs)
  | cs => (false, cs)

def scanNumber : Scanner Json := fun cs => do
  let (negative, body) := takeMinus cs
  let (whole, rest) ← scanWhole body
  let (fraction, rest) := scanFraction rest
  let (exponent, rest) := scanExponent rest
  let value ← numeralValue negative whole fraction exponent
  return (value, rest)

def literals : List (String × Json) :=
  [("null", .null), ("true", .bool true), ("false", .bool false), ("NaN", .float .nan),
    ("Infinity", .float (.infinity false)), ("-Infinity", .float (.infinity true))]

def scanLiteral (cs : List Char) : Option (Json × List Char) :=
  literals.findSome? fun l =>
    if l.1.toList.isPrefixOf cs then some (l.2, cs.drop l.1.length) else none

/-- The items of a list from the first on, of which there are `bound` at most. -/
def scanItems (scan : Scanner Json) : (bound : ℕ) → Scanner (List Json)
  | 0, _ => .error .malformed
  | bound + 1, cs => do
    let (item, rest) ← scan cs
    match skipBlanks rest with
    | [] => .error .malformed
    | c :: rest =>
      if c = ']' then .ok ([item], rest)
      else if c = ',' then do
        let (items, rest) ← scanItems scan bound (skipBlanks rest)
        return (item :: items, rest)
      else .error .malformed

/-- A key of an object with the colon behind it. -/
def scanKey : Scanner String
  | [] => .error .malformed
  | c :: cs =>
    if c = doubleQuote then do
      let (key, rest) ← scanString cs
      match skipBlanks rest with
      | ':' :: rest => .ok (key, skipBlanks rest)
      | _ => .error .malformed
    else .error .malformed

/-- The fields of an object from the first on, of which there are `bound` at most. -/
def scanFields (scan : Scanner Json) : (bound : ℕ) → Scanner (List (String × Json))
  | 0, _ => .error .malformed
  | bound + 1, cs => do
    let (key, rest) ← scanKey cs
    let (value, rest) ← scan rest
    match skipBlanks rest with
    | [] => .error .malformed
    | c :: rest =>
      if c = closeBrace then .ok ([(key, value)], rest)
      else if c = ',' then do
        let (fields, rest) ← scanFields scan bound (skipBlanks rest)
        return ((key, value) :: fields, rest)
      else .error .malformed

/-- A list from behind its opening bracket on. A text has no more items than characters. -/
def scanArray (scan : Scanner Json) : Scanner Json := fun cs =>
  match skipBlanks cs with
  | ']' :: rest => .ok (.arr [], rest)
  | cs => (scanItems scan cs.length cs).map fun r => (.arr r.1, r.2)

/-- A field that is given twice keeps its place and has the last value. -/
def objectOf (fields : List (String × Json)) : Json :=
  .obj (fields.foldl (fun object field => object.set field.1 field.2) Dict.empty).entries

/-- An object from behind its opening brace on. -/
def scanObject (scan : Scanner Json) : Scanner Json := fun cs =>
  match skipBlanks cs with
  | [] => .error .malformed
  | c :: cs =>
    if c = closeBrace then .ok (.obj [], cs)
    else (scanFields scan (c :: cs).length (c :: cs)).map fun r => (objectOf r.1, r.2)

/-- One value, where lists and objects are read as given. -/
def scanOnce (array object : Scanner Json) : Scanner Json
  | [] => .error .malformed
  | c :: cs =>
    if c = doubleQuote then (scanString cs).map fun r => (.str r.1, r.2)
    else if c = openBrace then object cs
    else if c = '[' then array cs
    else
      match scanLiteral (c :: cs) with
      | some r => .ok r
      | none => scanNumber (c :: cs)

/-- One value of at most this depth, which is what the recursion limit leaves. -/
def scanValue : (depth : ℕ) → Scanner Json
  | 0 => scanOnce (fun _ => .error (.depth "array")) fun _ => .error (.depth "object")
  | depth + 1 => scanOnce (scanArray (scanValue depth)) (scanObject (scanValue depth))

/-- `json.loads(text)` -/
def loads (depth : ℕ) (text : String) : Except Flaw Json :=
  if text.toList.head? = some (Char.ofNat 0xfeff) then .error .malformed
  else do
    let (value, rest) ← scanValue depth (skipBlanks text.toList)
    if skipBlanks rest = [] then return value else throw .malformed

end SenseGateway.Python

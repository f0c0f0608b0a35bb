import Mathlib.Data.Rat.Floor

namespace SenseGateway.Python

/-- The characters `str.isspace` accepts. -/
def isSpace (c : Char) : Bool :=
  c.toNat ∈ [0x9, 0xa, 0xb, 0xc, 0xd, 0x1c, 0x1d, 0x1e, 0x1f, 0x20, 0x85, 0xa0, 0x1680,
    0x2000, 0x2001, 0x2002, 0x2003, 0x2004, 0x2005, 0x2006, 0x2007, 0x2008, 0x2009, 0x200a,
    0x2028, 0x2029, 0x202f, 0x205f, 0x3000]

/-- The characters without those at both ends that `space` accepts. -/
def trimChars (space : Char → Bool) (cs : List Char) : List Char :=
  ((cs.dropWhile space).reverse.dropWhile space).reverse

def stripChars (cs : List Char) : List Char := trimChars isSpace cs

/-- `s.strip()` -/
def strip (s : String) : String := String.ofList (stripChars s.toList)

/-- The Kelvin sign and the dotted capital I are the only characters outside ASCII whose
lower case has an ASCII letter; the others are left alone, since no text they occur in
is compared with anything but ASCII literals. -/
def lowerChar (c : Char) : List Char :=
  if c.toNat = 0x212a then ['k']
  else if c.toNat = 0x130 then ['i', Char.ofNat 0x307]
  else [c.toLower]

/-- `s.lower()` -/
def lower (s : String) : String := String.ofList (s.toList.flatMap lowerChar)

/-- `s.upper()` on ASCII letters; no other character's upper case is compared with a literal. -/
def upper (s : String) : String := String.ofList (s.toList.map Char.toUpper)

/-- `s.replace(a, b)` for single characters -/
def replaceChar (a b : Char) (s : String) : String :=
  String.ofList (s.toList.map fun c => if c = a then b else c)

/-- `s.split()`: the maximal runs of characters that are not spaces. -/
def splitWords (s : String) : List String :=
  ((s.toList.splitBy fun a b => isSpace a == isSpace b).filter fun w => !w.any isSpace).map
    String.ofList

/-- The code points of the digit zero in every Unicode decimal script. -/
def decimalZeros : List ℕ :=
  [0x30, 0x660, 0x6f0, 0x7c0, 0x966, 0x9e6, 0xa66, 0xae6, 0xb66, 0xbe6, 0xc66, 0xce6, 0xd66,
    0xde6, 0xe50, 0xed0, 0xf20, 0x1040, 0x1090, 0x17e0, 0x1810, 0x1946, 0x19d0, 0x1a80, 0x1a90,
    0x1b50, 0x1bb0, 0x1c40, 0x1c50, 0xa620, 0xa8d0, 0xa900, 0xa9d0, 0xa9f0, 0xaa50, 0xabf0,
    0xff10, 0x104a0, 0x10d30, 0x11066, 0x110f0, 0x11136, 0x111d0, 0x112f0, 0x11450, 0x114d0,
    0x11650, 0x116c0, 0x11730, 0x118e0, 0x11950, 0x11c50, 0x11d50, 0x11da0, 0x11f50, 0x16a60,
    0x16ac0, 0x16b50, 0x1d7ce, 0x1d7d8, 0x1d7e2, 0x1d7ec, 0x1d7f6, 0x1e140, 0x1e2f0, 0x1e4f0,
    0x1e950, 0x1fbf0]

def digitValue (c : Char) : Option ℕ :=
  (decimalZeros.find? fun z => z ≤ c.toNat ∧ c.toNat < z + 10).map (c.toNat - ·)

/-- A run of digits, where one underscore may stand between two digits; `after` says that
the previous character was a digit. -/
def digitRun (after : Bool) : List Char → List ℕ × List Char
  | [] => ([], [])
  | c :: cs =>
    match digitValue c with
    | some d => ((d :: (digitRun true cs).1), (digitRun true cs).2)
    | none =>
      if c = '_' ∧ after ∧ (cs.head?.bind digitValue).isSome then digitRun false cs
      else ([], c :: cs)

def digitsValue (ds : List ℕ) : ℕ := ds.foldl (fun n d => 10 * n + d) 0

/-- An optional sign: whether it is a minus, and what follows it. -/
def takeSign : List Char → Bool × List Char
  | '-' :: cs => (true, cs)
  | '+' :: cs => (false, cs)
  | cs => (false, cs)

/-- The characters `int(s)` and `float(s)` skip around a number: those of `str.isspace`
without the separators U+001C to U+001F. -/
def isNumberSpace (c : Char) : Bool := isSpace c && !decide (0x1c ≤ c.toNat ∧ c.toNat ≤ 0x1f)

/-- The characters of `s` that `int(s)` and `float(s)` read as a number. -/
def numberChars (s : String) : List Char := trimChars isNumberSpace s.toList

/-- The interpreter's default bound on the digits of an integer literal. -/
def maxStrDigits : ℕ := 4300

inductive IntText
  | value (n : ℤ)
  | invalid
  | tooLong (digits : ℕ)
  deriving DecidableEq, Repr

/-- The text `int(s)` reads in base 10; the digits are counted before what follows them is
looked at, but after a misplaced underscore. -/
def intText (s : String) : IntText :=
  let (negative, body) := takeSign (numberChars s)
  let (ds, rest) := digitRun false body
  if ds = [] ∨ rest.head? = some '_' then .invalid
  else if maxStrDigits < ds.length then .tooLong ds.length
  else if rest ≠ [] then .invalid
  else .value (if negative then -(digitsValue ds : ℤ) else digitsValue ds)

inductive FloatText
  | value (q : ℚ)
  | infinity (negative : Bool)
  | nan
  | invalid
  deriving DecidableEq, Repr

/-- The exponent part of a decimal literal, `none` where it is malformed. -/
def exponentText : List Char → Option ℤ
  | [] => some 0
  | c :: cs =>
    if c = 'e' ∨ c = 'E' then
      let (negative, body) := takeSign cs
      let (ds, rest) := digitRun false body
      if ds = [] ∨ rest ≠ [] then none
      else some (if negative then -(digitsValue ds : ℤ) else digitsValue ds)
    else none

/-- The fraction digits after a point, and what follows them. -/
def fractionText : List Char → List ℕ × List Char
  | '.' :: cs => digitRun false cs
  | cs => ([], cs)

/-- The text `float(s)` reads: the exact number it denotes, before rounding. -/
def floatText (s : String) : FloatText :=
  let (negative, body) := takeSign (numberChars s)
  let word := lower (String.ofList body)
  if word = "inf" ∨ word = "infinity" then .infinity negative
  else if word = "nan" then .nan
  else
    let (whole, afterWhole) := digitRun false body
    let (fraction, afterFraction) := fractionText afterWhole
    if whole ++ fraction = [] then .invalid
    else
      match exponentText afterFraction with
      | none => .invalid
      | some e =>
        let magnitude : ℚ := digitsValue (whole ++ fraction) * (10 : ℚ) ^ (e - fraction.length)
        .value (if negative then -magnitude else magnitude)

def singleQuote : Char := Char.ofNat 39

def doubleQuote : Char := Char.ofNat 34

def backslash : Char := Char.ofNat 92

/-- The characters up to U+00FF that are not printable. -/
def isControl (c : Char) : Bool := c.toNat < 0x20 ∨ 0x7f ≤ c.toNat ∧ c.toNat ≤ 0xa0 ∨ c.toNat = 0xad

/-- The escapes `repr` writes for one character inside the quote `q`. -/
def reprChar (q c : Char) : List Char :=
  if c = q ∨ c = backslash then [backslash, c]
  else if c.toNat = 10 then [backslash, 'n']
  else if c.toNat = 13 then [backslash, 'r']
  else if c.toNat = 9 then [backslash, 't']
  else if isControl c then
    [backslash, 'x', Nat.digitChar (c.toNat / 16), Nat.digitChar (c.toNat % 16)]
  else [c]

/-- `repr(s)`; the characters beyond U+00FF are taken as printable. -/
def reprString (s : String) : String :=
  let q := if s.toList.contains singleQuote && !s.toList.contains doubleQuote then doubleQuote
    else singleQuote
  String.ofList ([q] ++ s.toList.flatMap (reprChar q) ++ [q])

theorem repr_nat_injective {m n : ℕ} (h : m.repr = n.repr) : m = n := by
  have hdigits := congrArg String.toList h
  rw [Nat.toList_repr, Nat.toList_repr] at hdigits
  rw [← Nat.ofDigitChars_ten_toDigits (n := m), hdigits, Nat.ofDigitChars_ten_toDigits]

theorem repr_nat_ne_minus (m n : ℕ) : m.repr ≠ "-" ++ n.repr := by
  intro h
  have hdigits := congrArg String.toList h
  rw [Nat.toList_repr, String.toList_append] at hdigits
  have hminus : '-' ∈ Nat.toDigits 10 m := by simp [hdigits]
  have hdigit := Nat.isDigit_of_mem_toDigits (by decide) (by decide) hminus
  revert hdigit
  decide

/-- The text of an integer tells it from the others. -/
theorem toString_int_injective {m n : ℤ} (h : toString m = toString n) : m = n := by
  cases m with
  | ofNat m =>
    cases n with
    | ofNat n => exact congrArg Int.ofNat (repr_nat_injective h)
    | negSucc n => exact absurd h (repr_nat_ne_minus m (n + 1))
  | negSucc m =>
    cases n with
    | ofNat n => exact absurd h.symm (repr_nat_ne_minus n (m + 1))
    | negSucc n =>
      have htext : (m + 1).repr = (n + 1).repr := (String.append_right_inj "-").mp h
      exact congrArg Int.negSucc (Nat.succ.inj (repr_nat_injective htext))

end SenseGateway.Python

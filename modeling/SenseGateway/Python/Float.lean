import Mathlib.Data.Nat.Log
import SenseGateway.Python.Text

namespace SenseGateway.Python

/-- A double as the number it stands for; the sign of zero is not kept. -/
inductive PyFloat
  | finite (q : ℚ)
  | infinity (negative : Bool)
  | nan
  deriving DecidableEq, Repr

/-- The nearest integer, halves to even. -/
def roundHalfEven (x : ℚ) : ℤ :=
  let f := ⌊x⌋
  let r := x - f
  if r < 1 / 2 then f
  else if 1 / 2 < r then f + 1
  else if f % 2 = 0 then f
  else f + 1

/-- The largest `e` with `2 ^ e ≤ a`, for positive `a`. -/
def binaryExponent (a : ℚ) : ℤ :=
  let e : ℤ := (Nat.log2 a.num.natAbs : ℤ) - Nat.log2 a.den
  if a < (2 : ℚ) ^ e then e - 1 else e

/-- The double nearest to a number, ties to even: 53 bits of precision, exponents from
-1022 to 1023, infinity past the largest finite double. -/
def roundDouble (q : ℚ) : PyFloat :=
  if q = 0 then .finite 0
  else
    let ulp : ℚ := (2 : ℚ) ^ (max (binaryExponent |q|) (-1022) - 52)
    let magnitude : ℚ := roundHalfEven (|q| / ulp) * ulp
    if (2 : ℚ) ^ 1024 ≤ magnitude then .infinity (decide (q < 0))
    else .finite (if q < 0 then -magnitude else magnitude)

theorem roundDouble_ne_nan (q : ℚ) : roundDouble q ≠ .nan := by
  unfold roundDouble
  dsimp only
  split
  · exact nofun
  · split <;> exact nofun

namespace PyFloat

/-- `math.isfinite(x)` -/
def isFinite : PyFloat → Bool
  | finite _ => true
  | _ => false

def add : PyFloat → PyFloat → PyFloat
  | finite p, finite q => roundDouble (p + q)
  | nan, _ => nan
  | _, nan => nan
  | infinity s, infinity t => if s = t then infinity s else nan
  | infinity s, finite _ => infinity s
  | finite _, infinity t => infinity t

def neg : PyFloat → PyFloat
  | finite q => finite (-q)
  | infinity s => infinity (!s)
  | nan => nan

def sub (x y : PyFloat) : PyFloat := x.add y.neg

def mul : PyFloat → PyFloat → PyFloat
  | finite p, finite q => roundDouble (p * q)
  | nan, _ => nan
  | _, nan => nan
  | infinity s, infinity t => infinity (s != t)
  | infinity s, finite q => if q = 0 then nan else infinity (s != decide (q < 0))
  | finite p, infinity t => if p = 0 then nan else infinity (decide (p < 0) != t)

/-- `x < y`; false where either is not a number. -/
def lt : PyFloat → PyFloat → Bool
  | finite p, finite q => decide (p < q)
  | nan, _ => false
  | _, nan => false
  | infinity s, infinity t => s && !t
  | infinity s, finite _ => s
  | finite _, infinity t => !t

/-- `x == y` -/
def eq : PyFloat → PyFloat → Bool
  | nan, _ => false
  | x, y => decide (x = y)

/-- `x <= y` -/
def le (x y : PyFloat) : Bool := x.lt y || x.eq y

theorem not_lt_of_le {x y : PyFloat} (h : y.le x = true) : x.lt y = false := by
  cases x with
  | finite q =>
    cases y with
    | finite p =>
      have hle : p ≤ q := by simpa [le, lt, eq, le_iff_lt_or_eq] using h
      simpa [lt] using hle
    | infinity t => simpa [le, lt, eq] using h
    | nan => rfl
  | infinity s =>
    cases y with
    | finite p => simpa [le, lt, eq] using h
    | infinity t => revert h; cases s <;> cases t <;> decide
    | nan => rfl
  | nan => cases y <;> rfl

theorem le_of_not_lt {x y : PyFloat} (h : x.lt y = false) (hx : x ≠ .nan) (hy : y ≠ .nan) :
    y.le x = true := by
  cases x with
  | finite q =>
    cases y with
    | finite p =>
      have hle : p ≤ q := by simpa [lt] using h
      simpa [le, lt, eq, le_iff_lt_or_eq] using hle
    | infinity t => simpa [le, lt, eq] using h
    | nan => exact absurd rfl hy
  | infinity s =>
    cases y with
    | finite p => simpa [le, lt, eq] using h
    | infinity t => revert h; cases s <;> cases t <;> decide
    | nan => exact absurd rfl hy
  | nan => exact absurd rfl hx

theorem sub_ne_nan {x y : PyFloat} (hx : x.isFinite = true) (hy : y.isFinite = true) :
    x.sub y ≠ .nan := by
  cases x with
  | finite p =>
    cases y with
    | finite q => exact roundDouble_ne_nan _
    | _ => cases hy
  | _ => cases hx

theorem sub_zero_of_round {q : ℚ} (h : roundDouble q = .finite q) :
    (finite q).sub (finite 0) = finite q := by
  simp [sub, neg, add, h]

end PyFloat

/-- `digits` as text in base 10, padded on the left with zeros to `width`. -/
def decimalText (width n : ℕ) : String :=
  let s := toString n
  String.ofList (List.replicate (width - s.length) '0') ++ s

/-- The decimal exponent `k` of a positive number: `10 ^ k ≤ a < 10 ^ (k + 1)`. -/
def decimalExponent (a : ℚ) : ℤ :=
  let k : ℤ := (Nat.log 10 a.num.natAbs : ℤ) - Nat.log 10 a.den
  if a < (10 : ℚ) ^ k then k - 1 else k

/-- The number rounded to `n + 1` significant digits: an integer and its power of ten. -/
def significant (round : ℚ → ℤ) (a : ℚ) (n : ℕ) : ℤ × ℤ :=
  let k := decimalExponent a - n
  let m := round (a / (10 : ℚ) ^ k)
  if m = 10 ^ (n + 1) then (1, k + n + 1) else (m, k)

/-- The decimals of `n + 1` digits on both sides of the number, the nearer one first: at a
power of two the doubles below are closer, and the farther one can be the one to read back. -/
def neighbours (a : ℚ) (n : ℕ) : List (ℤ × ℤ) :=
  [significant roundHalfEven a n, significant Int.floor a n, significant Int.ceil a n]

/-- The fewest digits that read back as the same double. -/
def shortestDigits (a : ℚ) : ℤ × ℤ :=
  (((List.range 17).flatMap (neighbours a)).find? fun (m, k) =>
    roundDouble (m * (10 : ℚ) ^ k) = .finite a).getD (significant roundHalfEven a 16)

/-- `repr(x)` of a positive finite double -/
def reprMagnitude (a : ℚ) : String :=
  let (m, k) := shortestDigits a
  let digits := (toString m.toNat).toList
  let point : ℤ := digits.length + k
  if -4 < point ∧ point ≤ 16 then
    if point ≤ 0 then
      "0." ++ String.ofList (List.replicate (-point).toNat '0' ++ digits)
    else if k < 0 then
      String.ofList (digits.take point.toNat) ++ "." ++ String.ofList (digits.drop point.toNat)
    else
      String.ofList (digits ++ List.replicate k.toNat '0') ++ ".0"
  else
    let e := point - 1
    let mantissa := String.ofList (digits.take 1) ++
      (if digits.length = 1 then "" else "." ++ String.ofList (digits.drop 1))
    mantissa ++ "e" ++ (if e < 0 then "-" else "+") ++ decimalText 2 e.natAbs

namespace PyFloat

/-- `repr(x)` -/
def repr : PyFloat → String
  | finite q =>
    if q = 0 then "0.0"
    else if q < 0 then "-" ++ reprMagnitude |q|
    else reprMagnitude q
  | infinity negative => if negative then "-inf" else "inf"
  | nan => "nan"

end PyFloat

end SenseGateway.Python

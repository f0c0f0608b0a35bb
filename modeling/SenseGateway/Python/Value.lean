import SenseGateway.Python.Float

namespace SenseGateway.Python

/-- Whether `sqlite3` can store the integer. -/
def fitsInteger (n : ℤ) : Bool := decide (-2 ^ 63 ≤ n ∧ n < 2 ^ 63)

/-- The classes of exception that handlers tell apart. `requestException` stands for
`requests.RequestException` and every class below it. -/
inductive ExceptionKind
  | keyError
  | typeError
  | valueError
  | overflowError
  | attributeError
  | runtimeError
  | connectionError
  | requestException
  | jsonDecodeError
  | integrityError
  | other
  deriving DecidableEq, Repr

/-- A raised exception: its class and the text `str(error)` gives. -/
structure PyError where
  kind : ExceptionKind
  message : String
  deriving DecidableEq, Repr

abbrev PyExcept := Except PyError

theorem bind_eq_ok {ε α β : Type} {x : Except ε α} {f : α → Except ε β} {b : β} :
    (x >>= f) = .ok b ↔ ∃ a, x = .ok a ∧ f a = .ok b := by
  cases x with
  | error e => simp [bind, Except.bind]
  | ok a => simp [bind, Except.bind]

theorem bind_eq_error {ε α β : Type} {x : Except ε α} {f : α → Except ε β} {e : ε} :
    (x >>= f) = .error e ↔ x = .error e ∨ ∃ a, x = .ok a ∧ f a = .error e := by
  cases x with
  | error e' => simp [bind, Except.bind]
  | ok a => simp [bind, Except.bind]

theorem map_eq_ok {ε α β : Type} {x : Except ε α} {f : α → β} {b : β} :
    x.map f = .ok b ↔ ∃ a, x = .ok a ∧ f a = b := by
  cases x with
  | error e => simp [Except.map]
  | ok a => simp [Except.map]

@[simp] theorem map_eq_error {ε α β : Type} {x : Except ε α} {f : α → β} {e : ε} :
    x.map f = .error e ↔ x = .error e := by
  cases x with
  | error e' => simp [Except.map]
  | ok a => simp [Except.map]

theorem toOption_eq_some {α : Type} {x : PyExcept α} {a : α} : x.toOption = some a ↔ x = .ok a := by
  cases x <;> simp [Except.toOption]

theorem mapM_eq_ok {α β : Type} {f : α → PyExcept β} {xs : List α} {ys : List β} :
    xs.mapM f = .ok ys ↔ List.Forall₂ (fun x y => f x = .ok y) xs ys := by
  induction xs generalizing ys with
  | nil =>
    rw [List.mapM_nil, List.forall₂_nil_left_iff]
    exact ⟨fun h => (Except.ok.inj h).symm, fun h => h ▸ rfl⟩
  | cons x xs ih =>
    rw [List.mapM_cons, List.forall₂_cons_left_iff, bind_eq_ok]
    constructor
    · rintro ⟨y, hy, h⟩
      obtain ⟨ys', hys', h⟩ := bind_eq_ok.mp h
      exact ⟨y, ys', hy, ih.mp hys', (Except.ok.inj h).symm⟩
    · rintro ⟨y, ys', hy, hys', rfl⟩
      exact ⟨y, hy, bind_eq_ok.mpr ⟨ys', ih.mpr hys', rfl⟩⟩

/-- The results of a loop over a list are those of its passes. -/
theorem mem_of_mapM {α β : Type} {f : α → PyExcept β} {xs : List α} {ys : List β}
    (h : xs.mapM f = .ok ys) {y : β} : y ∈ ys ↔ ∃ x ∈ xs, f x = .ok y := by
  induction mapM_eq_ok.mp h with
  | nil => simp
  | @cons x y' xs ys' hx hxs ih =>
    have ih := ih (mapM_eq_ok.mpr hxs)
    simp [ih, hx, eq_comm]

theorem exists_mapM_eq_ok {α β : Type} {f : α → PyExcept β} {xs : List α} :
    (∃ ys, xs.mapM f = .ok ys) ↔ ∀ x ∈ xs, ∃ y, f x = .ok y := by
  induction xs with
  | nil => simp [pure, Except.pure]
  | cons x xs ih =>
    rw [List.forall_mem_cons, ← ih]
    simp only [mapM_eq_ok, List.forall₂_cons_left_iff]
    constructor
    · rintro ⟨_, y, ys, hy, hys, rfl⟩
      exact ⟨⟨y, hy⟩, ys, hys⟩
    · rintro ⟨⟨y, hy⟩, ys, hys⟩
      exact ⟨_, y, ys, hy, hys, rfl⟩

/-- Whether `except (KeyError, TypeError, ValueError)` catches it; a JSON decoding error
is a `ValueError`. -/
def PyError.isConversionError (e : PyError) : Bool :=
  e.kind ∈ [.keyError, .typeError, .valueError, .jsonDecodeError]

def PyError.isRequestException (e : PyError) : Bool := e.kind = .requestException

/-- A value `json.loads` returns. An object keeps its keys in order, each of them once. -/
inductive Json
  | null
  | bool (b : Bool)
  | int (n : ℤ)
  | float (x : PyFloat)
  | str (s : String)
  | arr (items : List Json)
  | obj (fields : List (String × Json))
  deriving Repr

namespace Json

mutual

def decEq : (a b : Json) → Decidable (a = b)
  | null, null => isTrue rfl
  | bool a, bool b => decidable_of_iff (a = b) (by simp)
  | int a, int b => decidable_of_iff (a = b) (by simp)
  | float a, float b => decidable_of_iff (a = b) (by simp)
  | str a, str b => decidable_of_iff (a = b) (by simp)
  | arr a, arr b => match decEqItems a b with
    | isTrue h => isTrue (by rw [h])
    | isFalse h => isFalse (by simpa using h)
  | obj a, obj b => match decEqFields a b with
    | isTrue h => isTrue (by rw [h])
    | isFalse h => isFalse (by simpa using h)
  | null, bool _ | null, int _ | null, float _ | null, str _ | null, arr _ | null, obj _
  | bool _, null | bool _, int _ | bool _, float _ | bool _, str _ | bool _, arr _
  | bool _, obj _ | int _, null | int _, bool _ | int _, float _ | int _, str _ | int _, arr _
  | int _, obj _ | float _, null | float _, bool _ | float _, int _ | float _, str _
  | float _, arr _ | float _, obj _ | str _, null | str _, bool _ | str _, int _
  | str _, float _ | str _, arr _ | str _, obj _ | arr _, null | arr _, bool _ | arr _, int _
  | arr _, float _ | arr _, str _ | arr _, obj _ | obj _, null | obj _, bool _ | obj _, int _
  | obj _, float _ | obj _, str _ | obj _, arr _ => isFalse (by simp)

def decEqItems : (a b : List Json) → Decidable (a = b)
  | [], [] => isTrue rfl
  | [], _ :: _ | _ :: _, [] => isFalse (by simp)
  | x :: xs, y :: ys => match decEq x y, decEqItems xs ys with
    | isTrue h, isTrue h' => isTrue (by rw [h, h'])
    | isFalse h, _ => isFalse (by simp [h])
    | _, isFalse h => isFalse (by simp [h])

def decEqFields : (a b : List (String × Json)) → Decidable (a = b)
  | [], [] => isTrue rfl
  | [], _ :: _ | _ :: _, [] => isFalse (by simp)
  | (k, x) :: xs, (l, y) :: ys => match instDecidableEqString k l, decEq x y, decEqFields xs ys with
    | isTrue h, isTrue h', isTrue h'' => isTrue (by rw [h, h', h''])
    | isFalse h, _, _ => isFalse (by simp [h])
    | _, isFalse h, _ => isFalse (by simp [h])
    | _, _, isFalse h => isFalse (by simp [h])

end

instance : DecidableEq Json := decEq

/-- `type(x).__name__` -/
def typeName : Json → String
  | null => "NoneType"
  | bool _ => "bool"
  | int _ => "int"
  | float _ => "float"
  | str _ => "str"
  | arr _ => "list"
  | obj _ => "dict"

/-- `bool(x)` -/
def truthy : Json → Bool
  | null => false
  | bool b => b
  | int n => n != 0
  | float x => x != .finite 0
  | str s => s != ""
  | arr items => !items.isEmpty
  | obj fields => !fields.isEmpty

/-- `x or y` -/
def orElse (x y : Json) : Json := if x.truthy then x else y

def lookup (key : String) (fields : List (String × Json)) : Option Json :=
  (fields.find? fun f => f.1 = key).map Prod.snd

/-- `x.get(key)`, `none` where the key is absent -/
def find (x : Json) (key : String) : PyExcept (Option Json) :=
  match x with
  | obj fields => .ok (lookup key fields)
  | _ => .error ⟨.attributeError, "'" ++ x.typeName ++ "' object has no attribute 'get'"⟩

/-- `x.get(key, default)` -/
def getD (x : Json) (key : String) (default : Json) : PyExcept Json :=
  (x.find key).map fun v => v.getD default

/-- `x.get(key)` -/
def get (x : Json) (key : String) : PyExcept Json := x.getD key null

/-- `x.values()` -/
def values : Json → PyExcept (List Json)
  | obj fields => .ok (fields.map Prod.snd)
  | x => .error ⟨.attributeError, "'" ++ x.typeName ++ "' object has no attribute 'values'"⟩

/-- `x[key]` -/
def item (x : Json) (key : String) : PyExcept Json :=
  match x with
  | obj fields =>
    match lookup key fields with
    | some v => .ok v
    | none => .error ⟨.keyError, reprString key⟩
  | arr _ => .error ⟨.typeError, "list indices must be integers or slices, not str"⟩
  | str _ => .error ⟨.typeError, "string indices must be integers, not 'str'"⟩
  | _ => .error ⟨.typeError, "'" ++ x.typeName ++ "' object is not subscriptable"⟩

/-- Whether `part` occurs in `whole` as a run of characters. -/
def isSubstring (part whole : List Char) : Bool :=
  match whole with
  | [] => part.isEmpty
  | _ :: rest => part.isPrefixOf whole || isSubstring part rest

/-- `key in x` -/
def contains (x : Json) (key : String) : PyExcept Bool :=
  match x with
  | obj fields => .ok (lookup key fields).isSome
  | arr items => .ok (items.any fun v => decide (v = str key))
  | str s => .ok (isSubstring key.toList s.toList)
  | _ => .error ⟨.typeError, "argument of type '" ++ x.typeName ++ "' is not iterable"⟩

/-- `list(x)`: what a `for` loop over the value visits -/
def iter : Json → PyExcept (List Json)
  | arr items => .ok items
  | obj fields => .ok (fields.map fun f => str f.1)
  | str s => .ok (s.toList.map fun c => str (String.ofList [c]))
  | x => .error ⟨.typeError, "'" ++ x.typeName ++ "' object is not iterable"⟩

/-- The integer part of a number, towards zero. -/
def truncate (q : ℚ) : ℤ := if q < 0 then -⌊-q⌋ else ⌊q⌋

/-- `int(x)` -/
def toInt : Json → PyExcept ℤ
  | bool b => .ok (if b then 1 else 0)
  | int n => .ok n
  | float (.finite q) => .ok (truncate q)
  | float (.infinity _) => .error ⟨.overflowError, "cannot convert float infinity to integer"⟩
  | float .nan => .error ⟨.valueError, "cannot convert float NaN to integer"⟩
  | str s =>
    match intText s with
    | .value n => .ok n
    | .invalid =>
      .error ⟨.valueError, "invalid literal for int() with base 10: " ++
        String.ofList ((reprString s).toList.take 200)⟩
    | .tooLong digits =>
      .error ⟨.valueError, "Exceeds the limit (4300 digits) for integer string conversion: " ++
        "value has " ++ toString digits ++
        " digits; use sys.set_int_max_str_digits() to increase the limit"⟩
  | x => .error ⟨.typeError, "int() argument must be a string, a bytes-like object or a real " ++
      "number, not '" ++ x.typeName ++ "'"⟩

/-- `float(n)` of an integer -/
def floatOfInt (n : ℤ) : PyExcept PyFloat :=
  match roundDouble n with
  | .finite q => .ok (.finite q)
  | _ => .error ⟨.overflowError, "int too large to convert to float"⟩

/-- `float(x)` -/
def toFloat : Json → PyExcept PyFloat
  | bool b => .ok (.finite (if b then 1 else 0))
  | int n => floatOfInt n
  | float x => .ok x
  | str s =>
    match floatText s with
    | .value q => .ok (roundDouble q)
    | .infinity negative => .ok (.infinity negative)
    | .nan => .ok .nan
    | .invalid => .error ⟨.valueError, "could not convert string to float: " ++ reprString s⟩
  | x => .error ⟨.typeError, "float() argument must be a string or a real number, not '" ++
      x.typeName ++ "'"⟩

/-- A number as it compares with other numbers; `none` for anything else. -/
def number : Json → Option PyFloat
  | bool b => some (.finite (if b then 1 else 0))
  | int n => some (.finite n)
  | float x => some x
  | _ => none

mutual

/-- `repr(x)` -/
def repr : Json → String
  | null => "None"
  | bool b => if b then "True" else "False"
  | int n => toString n
  | float x => x.repr
  | str s => reprString s
  | arr items => "[" ++ ", ".intercalate (reprItems items) ++ "]"
  | obj fields => "\x7b" ++ ", ".intercalate (reprFields fields) ++ "\x7d"

def reprItems : List Json → List String
  | [] => []
  | x :: xs => repr x :: reprItems xs

def reprFields : List (String × Json) → List String
  | [] => []
  | (k, x) :: xs => (reprString k ++ ": " ++ repr x) :: reprFields xs

end

/-- `str(x)` -/
def toStr : Json → String
  | str s => s
  | x => repr x

end Json

namespace Json

theorem item_eq_ok_iff {x v : Json} {key : String} :
    x.item key = .ok v ↔ ∃ fields, x = .obj fields ∧ lookup key fields = some v := by
  cases x with
  | obj fields => cases h : lookup key fields <;> simp [item, h]
  | _ => simp [item]

theorem get_eq_ok_iff {x v : Json} {key : String} :
    x.get key = .ok v ↔ ∃ fields, x = .obj fields ∧ (lookup key fields).getD .null = v := by
  cases x with
  | obj fields => simp [get, getD, find, Except.map]
  | _ => simp [get, getD, find, Except.map]

end Json

/-- What tells keys of a dictionary apart: `1`, `1.0` and `True` are one key. -/
inductive DictKey
  | none
  | number (x : PyFloat)
  | text (s : String)
  deriving DecidableEq, Repr

/-- The key a value is in a dictionary. Every NaN is taken for one object. -/
def Json.hashKey : Json → PyExcept DictKey
  | null => .ok .none
  | bool b => .ok (.number (.finite (if b then 1 else 0)))
  | int n => .ok (.number (.finite n))
  | float x => .ok (.number x)
  | str s => .ok (.text s)
  | x => .error ⟨.typeError, "unhashable type: '" ++ x.typeName ++ "'"⟩

end SenseGateway.Python

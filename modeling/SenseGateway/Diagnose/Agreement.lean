import SenseGateway.Diagnose.Parity

namespace SenseGateway.Diagnose

open Python Effects Poller

/-- A field of an object, where it has it. -/
def field (x : Json) (key : String) : Option Json :=
  match x with
  | .obj fields => Json.lookup key fields
  | _ => none

/-- Absent, null, zero or empty. -/
def Blank (v : Option Json) : Prop := (v.getD .null).truthy = false

instance (v : Option Json) : Decidable (Blank v) := inferInstanceAs (Decidable (_ = _))

/-- `int` takes it. -/
def Readable (v : Option Json) : Prop := ∃ w n, v = some w ∧ w.toInt = .ok n

def IsInteger (v : Option Json) : Prop := ∃ w n, v = some w ∧ index w = some n

/-- It is there, and `float` refuses it. -/
def Unfloatable (v : Option Json) : Prop := ∃ w, v = some w ∧ ∀ x, w.toFloat ≠ .ok x

def slaveField (device : Json) : Option Json :=
  (field device "connection").bind fun connection => field connection "slave_id"

/-- The entries from which `process_tag` gets as far as its read. -/
structure PollerReads (device tag : Json) : Prop where
  deviceId : Readable (field device "id")
  tagId : Readable (field tag "id")
  slave : Blank (slaveField device) ∨ Readable (slaveField device)
  address : Readable (field tag "register_address")
  count : Blank (field tag "register_count") ∨ Readable (field tag "register_count")

/-- The entries from which the arguments of the scan's read are integers. -/
structure ScanReads (device tag : Json) : Prop where
  slave : IsInteger (slaveField device)
  address : IsInteger (field tag "register_address")
  count : Blank (field tag "register_count") ∨ IsInteger (field tag "register_count")

/-- Both read, and neither falls back to a default of its own; or neither reads. -/
def SameRead (device tag : Json) : Prop :=
  (PollerReads device tag ∧ ScanReads device tag ∧
    ¬ Blank (slaveField device) ∧ ¬ Blank (field tag "register_count")) ∨
  (¬ PollerReads device tag ∧ ¬ ScanReads device tag)

/-- Adding the offset leaves nothing of the values of a type. -/
def Absorbs : DataType → PyFloat → Prop
  | .float32, offset | .float64, offset => offset = .nan
  | t, .finite q => ∀ (v : t.Value) (n : ℚ), t.number v = .finite n →
      roundDouble (n + q) = roundDouble q
  | _, _ => True

/-- Both programs refuse the scale or the offset, or the scan replaces neither as the poller does:
no null or empty text in their place, and a zero for a scale only where it makes no difference. -/
def SameScaling (t : DataType) (scale offset : Option Json) : Prop :=
  (¬ Blank scale ∧ Unfloatable scale) ∨ (¬ Blank offset ∧ Unfloatable offset) ∨
  (¬ Unfloatable scale ∧ ¬ Unfloatable offset ∧
    (scale.isSome → Blank scale → ∀ o,
      ((offset.getD .null).orElse (.float (.finite 0))).toFloat = .ok o → Absorbs t o))

/-- The entries of a tag and its device that mean the same to both programs. -/
def Agrees (device tag : Json) : Prop :=
  SameRead device tag ∧ (PollerReads device tag → ∀ t : DataType,
    lower (strip ((field tag "data_type").getD (.str "float32")).toStr) ∈ t.names →
      SameScaling t (field tag "scale") (field tag "offset_value"))

section fields

variable {v : Option Json} {w d : Json} {n : ℤ}

end fields

/-- The arguments of the scan's read. -/
def requestOf (code : ℤ) (device tag : Json) : RawRequest :=
  ⟨code, (field tag "register_address").getD .null,
    ((field tag "register_count").getD .null).orElse (.int 2), (slaveField device).getD .null⟩

section requests

variable {settings : Settings} {device tag : Json}

end requests

section values

variable {settings : Settings} {device tag : Json}

end values

section scaling

variable {v : Option Json} {k : ℚ}

end scaling

section agreement

variable {settings : Settings} {device tag : Json}

def sampleSettings : Settings := ⟨"", []⟩

end agreement

end SenseGateway.Diagnose

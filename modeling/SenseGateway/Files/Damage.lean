import Mathlib.Data.List.Count
import SenseGateway.Configuration.Refresh
import SenseGateway.Health.DeviceStatus
import SenseGateway.Python.JsonExtent

namespace SenseGateway.Files

open Python

/-- What is at the path of a file: nothing, what raises an `OSError` when it is read, or bytes. -/
inductive SharedFile
  | missing
  | unreadable
  | content (bytes : List UInt8)
  deriving DecidableEq, Repr

/-- What reading a file as JSON raises. An `OSError` and a JSON decoding error are only logged, so
their texts are left out. -/
inductive ReadFailure
  | os
  | encoding (message : String)
  | parsing (flaw : Flaw)
  deriving DecidableEq, Repr

/-- What gets past `except (OSError, json.JSONDecodeError)`. A `UnicodeDecodeError` is a `ValueError`,
but not one of JSON. -/
def ReadFailure.escaping : ReadFailure → Option PyError
  | .os => none
  | .encoding message => some ⟨.valueError, message⟩
  | .parsing .malformed => none
  | .parsing (.digits count) =>
    some ⟨.valueError, "Exceeds the limit (4300 digits) for integer string conversion: value has " ++
      toString count ++ " digits; use sys.set_int_max_str_digits() to increase the limit"⟩
  | .parsing (.depth collection) =>
    some ⟨.runtimeError, "maximum recursion depth exceeded while decoding a JSON " ++ collection ++
      " from a unicode string"⟩

def IsObject (value : Json) : Prop := ∃ fields, value = .obj fields

section reading

/- `decode` is the codec of the platform, with the text of its error, and `depth` is what the
recursion limit leaves. -/
variable (decode : List UInt8 → Except String String) (depth : ℕ)

/-- `json.loads(path.read_text())` -/
def readJson : SharedFile → Except ReadFailure Json
  | .missing => .error .os
  | .unreadable => .error .os
  | .content bytes =>
    match decode bytes with
    | .error message => .error (.encoding message)
    | .ok text => (loads depth text).mapError .parsing

/-- The `try` statement of both readers: a failure it catches gives no value. -/
def tryRead (file : SharedFile) : PyExcept (Option Json) :=
  match readJson decode depth file with
  | .ok value => .ok (some value)
  | .error failure =>
    match failure.escaping with
    | none => .ok none
    | some e => .error e

def readConfigCache (file : SharedFile) : PyExcept Json := do
  if file = .missing then return .null
  let configuration ← tryRead decode depth file
  return configuration.getD .null

def readDeviceCounts (file : SharedFile) : PyExcept (ℕ × ℕ) := do
  if file = .missing then return (0, 0)
  match ← tryRead decode depth file with
  | none => return (0, 0)
  | some payload =>
    let connected := (← payload.values).count (.str "connected")
    let failed := (← payload.values).count (.str "failed")
    return (connected, failed)

/-- `read_config_cache` returns `None` or an object, with which `main` gets to its loop. -/
def ConfigFallsBack (file : SharedFile) : Prop :=
  ∃ configuration, readConfigCache decode depth file = .ok configuration ∧
    (configuration = .null ∨ IsObject configuration) ∧
    ∃ gateway, Configuration.startup (some configuration) = .ok gateway

/-- `read_device_counts` returns. -/
def StatusFallsBack (file : SharedFile) : Prop :=
  ∃ counts, readDeviceCounts decode depth file = .ok counts

/-- The content decodes to a text that is no document, or one of this shape. -/
def Tolerable (shape : Json → Prop) : SharedFile → Prop
  | .missing => True
  | .unreadable => True
  | .content bytes => ∃ text, decode bytes = .ok text ∧
    (loads depth text = .error .malformed ∨ ∃ value, loads depth text = .ok value ∧ shape value)

end reading

/-- Rules that a slice can be assigned from, where anything false counts as none. -/
def Usable (alarmRules : Json) : Prop :=
  alarmRules.truthy = false ∨ alarmRules.typeName ∈ ["str", "list", "dict"]

/-- `None`, or an object with rules that can be used. -/
def Startable (configuration : Json) : Prop :=
  configuration = .null ∨ ∃ fields, configuration = .obj fields ∧
    Usable ((Json.lookup "alarm_rules" fields).getD .null)

theorem rulesToHold_ok_iff {alarmRules : Json} :
    (∃ rules, Configuration.rulesToHold alarmRules = .ok rules) ↔ Usable alarmRules := by
  unfold Configuration.rulesToHold Usable Json.orElse
  cases htruthy : alarmRules.truthy with
  | false => simp [Json.iter]
  | true => cases alarmRules <;> simp [Json.iter, Json.typeName]

/-- `main` gets to its loop with anything false, and with an object with usable rules. -/
theorem startup_ok_iff {configuration : Json} :
    (∃ gateway, Configuration.startup (some configuration) = .ok gateway) ↔
      configuration.truthy = false ∨ Startable configuration := by
  have hstartup : (∃ gateway, Configuration.startup (some configuration) = .ok gateway) ↔
      ∃ alarmRules, (configuration.orElse (.obj [])).get "alarm_rules" = .ok alarmRules ∧
        Usable alarmRules := by
    simp only [Configuration.startup, Option.getD_some, bind_eq_ok, ← rulesToHold_ok_iff]
    constructor
    · rintro ⟨_, alarmRules, hget, rules, hrules, -⟩
      exact ⟨alarmRules, hget, rules, hrules⟩
    · rintro ⟨alarmRules, hget, rules, hrules⟩
      exact ⟨_, alarmRules, hget, rules, hrules, rfl⟩
  rw [hstartup]
  unfold Json.orElse
  cases htruthy : configuration.truthy with
  | false => simp [Json.get_eq_ok_iff, Json.lookup, Usable, Json.truthy]
  | true =>
    have hnull : configuration ≠ .null := by rintro rfl; cases htruthy
    simp [Json.get_eq_ok_iff, Startable, hnull]

/-- The configurations the reader is to return: `None` or an object, and `main` starts with it. -/
theorem startable_iff {configuration : Json} :
    Startable configuration ↔ (configuration = .null ∨ IsObject configuration) ∧
      ∃ gateway, Configuration.startup (some configuration) = .ok gateway := by
  rw [startup_ok_iff]
  constructor
  · intro h
    exact ⟨h.imp_right fun ⟨fields, hobject, _⟩ => ⟨fields, hobject⟩, .inr h⟩
  · rintro ⟨rfl | ⟨fields, rfl⟩, hfalse | h⟩
    · exact .inl rfl
    · exact h
    · obtain rfl : fields = [] := by simpa [Json.truthy] using hfalse
      exact .inr ⟨[], rfl, .inl rfl⟩
    · exact h

section reading

variable {decode : List UInt8 → Except String String} {depth : ℕ}

/-- What the readers go on with: no value where the content is no document, any value it is. -/
theorem tryRead_content {bytes : List UInt8} {read : Option Json} :
    tryRead decode depth (.content bytes) = .ok read ↔ ∃ text, decode bytes = .ok text ∧
      (loads depth text = .error .malformed ∧ read = none ∨
        ∃ value, loads depth text = .ok value ∧ read = some value) := by
  unfold tryRead readJson
  cases hdecode : decode bytes with
  | error message => simp [hdecode, ReadFailure.escaping]
  | ok text =>
    cases hloads : loads depth text with
    | ok value => simp [hdecode, hloads, Except.mapError, eq_comm]
    | error flaw =>
      cases flaw <;> simp [hdecode, hloads, Except.mapError, ReadFailure.escaping, eq_comm]

/-- A use of what is read that copes with no value works for the contents it tolerates. -/
theorem exists_tryRead_iff {use : Option Json → Prop} (hnone : use none) (file : SharedFile) :
    (∃ read, tryRead decode depth file = .ok read ∧ use read) ↔
      Tolerable decode depth (fun value => use (some value)) file := by
  cases file with
  | missing => exact ⟨fun _ => trivial, fun _ => ⟨none, rfl, hnone⟩⟩
  | unreadable => exact ⟨fun _ => trivial, fun _ => ⟨none, rfl, hnone⟩⟩
  | content bytes =>
    simp only [tryRead_content, Tolerable]
    constructor
    · rintro ⟨_, ⟨text, hdecode, ⟨hloads, rfl⟩ | ⟨value, hloads, rfl⟩⟩, huse⟩
      · exact ⟨text, hdecode, .inl hloads⟩
      · exact ⟨text, hdecode, .inr ⟨value, hloads, huse⟩⟩
    · rintro ⟨text, hdecode, hloads | ⟨value, hloads, huse⟩⟩
      · exact ⟨none, ⟨text, hdecode, .inl ⟨hloads, rfl⟩⟩, hnone⟩
      · exact ⟨some value, ⟨text, hdecode, .inr ⟨value, hloads, rfl⟩⟩, huse⟩

theorem readConfigCache_eq (file : SharedFile) :
    readConfigCache decode depth file =
      (tryRead decode depth file).map fun read => read.getD .null := by
  cases file with
  | missing => rfl
  | unreadable => rfl
  | content bytes => cases h : tryRead decode depth (.content bytes) <;>
      simp [readConfigCache, h, bind, Except.bind, Except.map, pure, Except.pure]

theorem readDeviceCounts_ok_iff (file : SharedFile) :
    (∃ counts, readDeviceCounts decode depth file = .ok counts) ↔
      ∃ read, tryRead decode depth file = .ok read ∧ ∀ payload ∈ read, IsObject payload := by
  cases file with
  | missing => exact ⟨fun _ => ⟨none, rfl, nofun⟩, fun _ => ⟨_, rfl⟩⟩
  | unreadable => exact ⟨fun _ => ⟨none, rfl, nofun⟩, fun _ => ⟨_, rfl⟩⟩
  | content bytes =>
    cases h : tryRead decode depth (.content bytes) with
    | error e => simp [readDeviceCounts, h, bind, Except.bind]
    | ok read =>
      cases read with
      | none => simp [readDeviceCounts, h, bind, Except.bind, pure, Except.pure]
      | some payload =>
        cases payload <;>
          simp [readDeviceCounts, h, bind, Except.bind, pure, Except.pure, Json.values, IsObject]

/-- The snapshots the poller writes are counted as they are. -/
theorem readDeviceCounts_snapshot {bytes : List UInt8} {snapshot : Health.Snapshot}
    (h : tryRead decode depth (.content bytes) =
      .ok (some (.obj (snapshot.map fun e => (e.1, .str e.2))))) :
    readDeviceCounts decode depth (.content bytes) =
      .ok (Health.readDeviceCounts (some snapshot)) := by
  have hvalues : (Json.obj (snapshot.map fun e => (e.1, .str e.2))).values =
      .ok ((snapshot.map Prod.snd).map Json.str) := by
    rw [Json.values, List.map_map, List.map_map]
    rfl
  have hcount (status : String) :
      ((snapshot.map Prod.snd).map Json.str).count (.str status) =
        (snapshot.map Prod.snd).count status :=
    List.count_map_of_injective _ _ (fun _ _ => Json.str.inj) _
  simp only [readDeviceCounts, h, hvalues, hcount, bind, Except.bind, pure, Except.pure, reduceCtorEq,
    if_false, Health.readDeviceCounts]

/-- Each reader falls back exactly on the contents that decode, that are parsed or are no document,
and that have the shape their use takes for granted. -/
theorem fallsBack_iff_tolerable (decode : List UInt8 → Except String String) (depth : ℕ)
    (file : SharedFile) :
    (ConfigFallsBack decode depth file ↔ Tolerable decode depth Startable file) ∧
      (StatusFallsBack decode depth file ↔ Tolerable decode depth IsObject file) := by
  have hconfig : (∃ read, tryRead decode depth file = .ok read ∧ Startable (read.getD .null)) ↔
      Tolerable decode depth Startable file := exists_tryRead_iff (.inl rfl) file
  have hstatus : (∃ read, tryRead decode depth file = .ok read ∧ ∀ payload ∈ read, IsObject payload) ↔
      Tolerable decode depth IsObject file := by
    rw [exists_tryRead_iff nofun file]
    simp
  constructor
  · rw [← hconfig]
    simp only [ConfigFallsBack, readConfigCache_eq, map_eq_ok, ← startable_iff]
    constructor
    · rintro ⟨_, ⟨read, hread, rfl⟩, hstart⟩
      exact ⟨read, hread, hstart⟩
    · rintro ⟨read, hread, hstart⟩
      exact ⟨_, ⟨read, hread, rfl⟩, hstart⟩
  · rw [← hstatus]
    exact readDeviceCounts_ok_iff file

/-- Where the text opens few lists and objects and has no long numbers, only its shape counts. -/
theorem tolerable_of_plain {shape : Json → Prop} {bytes : List UInt8} {text : String}
    (hdecode : decode bytes = .ok text) (hdepth : openings text.toList ≤ depth)
    (hdigits : ¬ HasLongRun text.toList) :
    Tolerable decode depth shape (.content bytes) ↔
      ∀ value, loads depth text = .ok value → shape value := by
  have hflaw (f : Flaw) (h : loads depth text = .error f) : f = .malformed :=
    loads_plain hdepth hdigits h
  simp only [Tolerable, hdecode, Except.ok.injEq, exists_eq_left']
  cases hloads : loads depth text with
  | ok value => simp
  | error f => simp [hflaw f hloads]

end reading

/-- ASCII, which the codecs in use agree on. -/
def decodeAscii (bytes : List UInt8) : Except String String :=
  if bytes.all fun b => b < 0x80 then .ok (String.ofList (bytes.map fun b => Char.ofNat b.toNat))
  else .error "'ascii' codec can't decode bytes: ordinal not in range(128)"

/-- The text `[1]` is a document, and neither reader looks at what kind of document it is. -/
theorem list_content_raises :
    ¬ (∀ bytes, ConfigFallsBack decodeAscii 900 (.content bytes)) ∧
      ¬ ∀ bytes, StatusFallsBack decodeAscii 900 (.content bytes) := by
  have hread : tryRead decodeAscii 900 (.content [0x5b, 0x31, 0x5d]) =
      .ok (some (.arr [.int 1])) := by decide +kernel
  constructor
  · intro h
    obtain ⟨configuration, hreturn, -, gateway, hstart⟩ := h [0x5b, 0x31, 0x5d]
    rw [readConfigCache_eq, hread] at hreturn
    obtain rfl := Except.ok.inj hreturn
    have hcrash : Configuration.startup (some (.arr [.int 1])) =
        .error ⟨.attributeError, "'list' object has no attribute 'get'"⟩ := rfl
    cases hcrash.symm.trans hstart
  · intro h
    obtain ⟨read, hread', hobject⟩ := (readDeviceCounts_ok_iff _).mp (h [0x5b, 0x31, 0x5d])
    obtain rfl := Except.ok.inj (hread.symm.trans hread')
    obtain ⟨fields, h⟩ := hobject _ rfl
    cases h

end SenseGateway.Files

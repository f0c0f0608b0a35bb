import SenseGateway.Diagnose.Scan

namespace SenseGateway.Diagnose

open Python Effects Poller

/-- `operator.index(x)`: the values that are integers. -/
def index : Json → Option ℤ
  | .bool b => some (if b then 1 else 0)
  | .int n => some n
  | _ => none

/-- The read a request asks for; the client takes nothing but integers. -/
def RawRequest.modbus (raw : RawRequest) : Option ReadRequest := do
  let address ← index raw.address
  let count ← index raw.count
  let slave ← index raw.slave
  return ⟨raw.functionCode, address, count, slave⟩

/-- What the device behind the port answers to each read, and what the client raises where an
argument is no integer. -/
structure Meter where
  contents : ReadRequest → PyExcept ReadReply
  refusal : RawRequest → PyError

def Meter.answer (meter : Meter) (raw : RawRequest) : PyExcept ReadReply :=
  match raw.modbus with
  | some request => meter.contents request
  | none => .error (meter.refusal raw)

/-- The value `process_tag` goes on to round. -/
def polled (settings : Settings) (tag : Json) (registers : List ℤ) : PyExcept PyFloat := do
  let dataType ← tag.getD "data_type" (.str "float32")
  let byteOrder ← tag.getD "byte_order" (.str "big")
  let wordOrder ← resolveWordOrder settings tag
  let decodedValue ← Poller.decodeRegisters registers dataType byteOrder wordOrder
  let scale ← ((← tag.get "scale").orElse (.float (.finite 1))).toFloat
  let offset ← ((← tag.get "offset_value").orElse (.float (.finite 0))).toFloat
  return (decodedValue.mul scale).add offset

/-- `process_tag` up to the value it rounds. -/
def polledReading (settings : Settings) (client : Client) (device tag : Json) :
    PollerM (ℤ × ℤ × PyFloat) := do
  let deviceId ← (← device.item "id").toInt
  let tagId ← (← tag.item "id").toInt
  let connection := (← device.get "connection").orElse (.obj [])
  let slaveId ← ((← connection.get "slave_id").orElse (.int 1)).toInt
  let registers ← readModbusRegisters client tag slaveId
  let value ← polled settings tag registers
  return (deviceId, tagId, value)

/-- The rest of `process_tag`. -/
def saveReading (tag : Json) (deviceId tagId : ℤ) (value : PyFloat) : PollerM Unit := do
  let decimalPlaces ← ((← tag.get "decimal_places").orElse (.int 0)).toInt
  let finalValue ← roundDecimals value decimalPlaces
  if finalValue.isFinite then
    let quality ← readingQuality tag finalValue
    saveTelemetry ⟨deviceId, tagId, finalValue, quality⟩
  else pure ()

theorem engineeringValue_of_polled {settings : Settings} {tag rawPlaces : Json} {registers : List ℤ}
    {value final : PyFloat} {decimalPlaces : ℤ} (hvalue : polled settings tag registers = .ok value)
    (hraw : tag.get "decimal_places" = .ok rawPlaces)
    (hplaces : (rawPlaces.orElse (.int 0)).toInt = .ok decimalPlaces)
    (hfinal : roundDecimals value decimalPlaces = .ok final) :
    engineeringValue settings tag registers = .ok final := by
  have h : (do
      let value ← polled settings tag registers
      let decimalPlaces ← ((← tag.get "decimal_places").orElse (.int 0)).toInt
      roundDecimals value decimalPlaces) = .ok final :=
    bind_eq_ok.mpr ⟨value, hvalue, bind_eq_ok.mpr ⟨rawPlaces, hraw, bind_eq_ok.mpr
      ⟨decimalPlaces, hplaces, hfinal⟩⟩⟩
  simpa only [engineeringValue, polled, bind_assoc, pure_bind] using h

theorem processTag_eq (settings : Settings) (client : Client) (device tag : Json) :
    processTag settings client device tag =
      (polledReading settings client device tag).bind fun r => saveReading tag r.1 r.2.1 r.2.2 := by
  simp only [processTag, polledReading, saveReading, engineeringValue, polled, Prog.bind_eq,
    Prog.liftM_eq, Prog.ofExcept_bind, Prog.bind_assoc, Prog.pure_eq, Prog.pure_bind]
  rfl

/-- The read `read_modbus_registers` makes. -/
def readRequest (tag : Json) (slaveId : ℤ) : PyExcept ReadRequest := do
  let functionCode ← ((← tag.get "function_code").orElse (.int 3)).toInt
  let registerAddress ← (← tag.item "register_address").toInt
  let registerCount ← ((← tag.get "register_count").orElse (.int 1)).toInt
  if functionCode = 3 ∨ functionCode = 4 then
    return ⟨functionCode, registerAddress, registerCount, slaveId⟩
  else throw ⟨.valueError, "Only Modbus function codes 3 and 4 are currently supported"⟩

/-- The values of a reply that is no Modbus error. -/
def registersOf : ReadReply → PyExcept (List ℤ)
  | .error text => .error ⟨.runtimeError, "Modbus error: " ++ text⟩
  | .registers values => .ok values

/-- The ids of the device and the tag and the read of `process_tag`. -/
def plannedRead (device tag : Json) : PyExcept (ℤ × ℤ × ReadRequest) := do
  let deviceId ← (← device.item "id").toInt
  let tagId ← (← tag.item "id").toInt
  let slaveId ← ((← (← connectionOf device).get "slave_id").orElse (.int 1)).toInt
  return (deviceId, tagId, ← readRequest tag slaveId)

theorem readModbusRegisters_eq (client : Client) (tag : Json) (slaveId : ℤ) :
    readModbusRegisters client tag slaveId =
      (Prog.ofExcept (readRequest tag slaveId)).bind fun request =>
        (Poller.perform (.read client request)).bind fun answer =>
          Prog.ofExcept (answer >>= registersOf) := by
  simp only [readModbusRegisters, readRequest, Prog.bind_eq, Prog.liftM_eq, Prog.ofExcept_bind,
    Prog.bind_assoc, Prog.pure_eq]
  congr! 12
  split
  · refine congrArg (Prog.bind _) (funext fun answer =>
      congrArg (Prog.bind (Prog.ofExcept answer)) (funext fun reply => ?_))
    cases reply <;> rfl
  · rfl

theorem polledReading_eq (settings : Settings) (client : Client) (device tag : Json) :
    polledReading settings client device tag =
      (Prog.ofExcept (plannedRead device tag)).bind fun r =>
        (Poller.perform (.read client r.2.2)).bind fun answer =>
          Prog.ofExcept (do
            let registers ← answer >>= registersOf
            let value ← polled settings tag registers
            return (r.1, r.2.1, value)) := by
  simp only [polledReading, plannedRead, readModbusRegisters_eq, connectionOf, Prog.bind_eq,
    Prog.liftM_eq, Prog.ofExcept_bind, Prog.bind_assoc, Prog.pure_eq]
  rfl

/-- The Modbus reads of a pass over a tag, and the value it comes to unless it fails. -/
structure Outcome where
  reads : List ReadRequest
  value : Option PyFloat

/-- What comes of the read, where there is one, when `compute` is applied to what it reads. -/
def Meter.outcome (meter : Meter) (request : Option ReadRequest)
    (compute : List ℤ → PyExcept PyFloat) : Outcome where
  reads := request.toList
  value := request.bind fun r => (meter.contents r >>= registersOf >>= compute).toOption

end SenseGateway.Diagnose

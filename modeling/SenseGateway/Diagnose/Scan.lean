import SenseGateway.Diagnose.Decode
import SenseGateway.Poller.Device

namespace SenseGateway.Diagnose

open Python Effects Poller

/-- A `ModbusSerialClient` with the arguments it was made with. -/
structure ScanClient where
  port : Json
  baudrate : ℤ
  parity : String
  stopbits : ℤ
  bytesize : ℤ
  deriving DecidableEq, Repr

/-- The arguments of a read as they stand in the configuration. -/
structure RawRequest where
  functionCode : ℤ
  address : Json
  count : Json
  slave : Json
  deriving DecidableEq, Repr

/-- What the scan prints. -/
inductive Line
  | noCache (path : String)
  | noDevices
  | device (name port : String)
  | skipped
  | unopened (port : String)
  | fail (name address result : String)
  | reading (name address : String) (registers : List ℤ) (value : PyFloat) (unit : String)
      (elapsed : PyFloat)
  | error (name address message : String)
  deriving DecidableEq, Repr

/-- `f"{x:.nf}"`: the digits of the exact value, rounded to `places` decimals, ties to even. -/
def formatFixed (places : ℕ) : PyFloat → String
  | .finite q =>
    let scaled := (roundHalfEven (|q| * 10 ^ places)).toNat
    let sign := if q < 0 then "-" else ""
    let fraction := if places = 0 then "" else "." ++ decimalText places (scaled % 10 ^ places)
    sign ++ toString (scaled / 10 ^ places) ++ fraction
  | .infinity negative => if negative then "-inf" else "inf"
  | .nan => "nan"

/-- `f"{text:<n}"` -/
def padRight (width : ℕ) (text : String) : String :=
  text ++ String.ofList (List.replicate (width - text.length) ' ')

def Line.text : Line → String
  | noCache path => "No config_cache.json found at " ++ path ++
      "\nRun with --port/--address instead for a raw probe."
  | noDevices => "config_cache.json has no devices listed."
  | device name port => "\n=== " ++ name ++ " (" ++ port ++ ") ==="
  | skipped => "  No serial_port configured -- skipping (TCP device?)"
  | unopened port => "  FAILED to open " ++ port ++ " -- either another process has it open " ++
      "(stop the gateway service first) or it's not a real port right now (check --list-ports)."
  | fail name address result =>
    "  FAIL  " ++ padRight 20 name ++ " addr=" ++ padRight 6 address ++ " -- " ++ result
  | reading name address registers value unit elapsed =>
    "  OK    " ++ padRight 20 name ++ " addr=" ++ padRight 6 address ++ " raw=[" ++
      ", ".intercalate (registers.map toString) ++ "] value=" ++ formatFixed 3 value ++ " " ++
      unit ++ " (" ++ formatFixed 0 elapsed ++ " ms)"
  | error name address message =>
    "  ERROR " ++ padRight 20 name ++ " addr=" ++ padRight 6 address ++ " -- " ++ message

example : (Line.reading "Voltage" "140" [17254, 0] (.finite (-230.0625)) "V" (.finite 12)).text =
    "  OK    Voltage              addr=140    raw=[17254, 0] value=-230.062 V (12 ms)" := by
  decide +kernel

inductive ScanCall
  | cacheExists
  | readCache
  | construct (client : ScanClient)
  | connect (client : ScanClient)
  | read (client : ScanClient) (request : RawRequest)
  | close (client : ScanClient)
  | monotonic
  | print (line : Line)
  deriving DecidableEq, Repr

abbrev ScanCall.Answer : ScanCall → Type
  | .cacheExists => Bool
  | .readCache => PyExcept Json
  | .construct _ => PyExcept Unit
  | .connect _ => PyExcept Bool
  | .read _ _ => PyExcept ReadReply
  | .close _ => PyExcept Unit
  | .monotonic => PyFloat
  | .print _ => Unit

abbrev scanCalls : Interface := ⟨ScanCall, ScanCall.Answer⟩

abbrev ScanM := Prog scanCalls PyError

def perform (o : ScanCall) : ScanM o.Answer := Prog.perform (I := scanCalls) o

/-- A field of a tag as it is printed. -/
def formatTagField : Json → String
  | .null => "?"
  | value => value.toStr

def readOneRegister (client : ScanClient) (slaveId address count : Json) (functionCode : ℤ) :
    ScanM ReadReply := do
  if functionCode = 4 then
    Prog.ofExcept (← perform (.read client ⟨4, address, count, slaveId⟩))
  else
    Prog.ofExcept (← perform (.read client ⟨3, address, count, slaveId⟩))

/-- The value the scan prints: decoded and scaled. -/
def scaled (tag : Json) (registers : List ℤ) : PyExcept PyFloat := do
  let dataType ← tag.getD "data_type" (.str "float32")
  let byteOrder ← tag.getD "byte_order" (.str "big")
  let wordOrder ← tag.getD "word_order" (.str "swapped")
  let value ← decodeRegisters registers dataType byteOrder wordOrder
  let scale ← (← tag.getD "scale" (.float (.finite 1))).toFloat
  let offset ← (← tag.getD "offset_value" (.float (.finite 0))).toFloat
  return (value.mul scale).add offset

/-- One pass of the tag loop of `run_config_scan`. -/
def scanTag (client : ScanClient) (slaveId tag : Json) : ScanM Unit := do
  let address ← tag.get "register_address"
  let count := (← tag.get "register_count").orElse (.int 2)
  let functionCode ← ((← tag.get "function_code").orElse (.int 3)).toInt
  let displayName := formatTagField (← tag.get "display_name")
  let addressStr := formatTagField address
  let started ← perform .monotonic
  (do
    let result ← readOneRegister client slaveId address count functionCode
    let elapsedMs := ((← perform .monotonic).sub started).mul (.finite 1000)
    match result with
    | .error text => perform (.print (.fail displayName addressStr text))
    | .registers registers =>
      let value ← scaled tag registers
      let unit := ((← tag.get "unit").orElse (.str "")).toStr
      perform (.print (.reading displayName addressStr registers value unit elapsedMs))
    ).handle fun error => perform (.print (.error displayName addressStr error.message))

/-- `device.get("connection") or {}` -/
def connectionOf (device : Json) : PyExcept Json := do
  return (← device.get "connection").orElse (.obj [])

/-- One pass of the device loop of `run_config_scan`. -/
def scanDevice (device : Json) : ScanM Unit := do
  let conn ← connectionOf device
  let port ← conn.get "serial_port"
  perform (.print (.device (← device.get "device_name").toStr port.toStr))
  if !port.truthy then perform (.print .skipped)
  else
    let baudrate ← ((← conn.get "baudrate").orElse (.int 9600)).toInt
    let parity := normalizeParity (← conn.get "parity")
    let stopbits ← normalizeStopBits (← conn.get "stop_bits")
    let bytesize ← ((← conn.get "data_bits").orElse (.int 8)).toInt
    let client : ScanClient := ⟨port, baudrate, parity, stopbits, bytesize⟩
    Prog.ofExcept (← perform (.construct client))
    if !(← Prog.ofExcept (← perform (.connect client))) then
      perform (.print (.unopened port.toStr))
    else
      let slaveId ← conn.get "slave_id"
      let tags ← (← device.getD "tags" (.arr [])).iter
      Prog.forEach tags (scanTag client slaveId)
      Prog.ofExcept (← perform (.close client))

def runConfigScan (cachePath : String) : ScanM Unit := do
  if !(← perform .cacheExists) then perform (.print (.noCache cachePath))
  else
    let config ← Prog.ofExcept (← perform .readCache)
    let devices ← config.getD "devices" (.arr [])
    if !devices.truthy then perform (.print .noDevices)
    else Prog.forEach (← devices.iter) scanDevice

end SenseGateway.Diagnose

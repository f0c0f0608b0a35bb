import SenseGateway.Poller.Calls
import SenseGateway.Poller.Decode

namespace SenseGateway.Poller

open Python Effects

def rtuCommunicationTypes : List String := ["modbus rtu", "serial", "rtu", ""]

def tcpCommunicationTypes : List String := ["modbus tcp", "tcp"]

/-- The normalized `communication_type` of a device entry. -/
def communicationType (device : Json) : PyExcept String := do
  let raw ← device.get "communication_type"
  let text := lower (strip (raw.orElse (.str "")).toStr)
  return replaceChar '-' ' ' (replaceChar '_' ' ' text)

def normalizeParity (parity : Json) : String :=
  let value := upper (strip (parity.orElse (.str "N")).toStr)
  if value ∈ ["EVEN", "E"] then "E" else if value ∈ ["ODD", "O"] then "O" else "N"

/-- Only `TypeError` and `ValueError` fall back to 1. -/
def normalizeStopBits (stopBits : Json) : PyExcept ℤ :=
  match (do (Json.float (← stopBits.toFloat)).toInt : PyExcept ℤ) with
  | .ok value => .ok (if value = 2 then 2 else 1)
  | .error e => if e.isConversionError then .ok 1 else .error e

def resolveSerialPort (settings : Settings) (connection : Json) : PyExcept String := do
  let serialPort := strip ((← connection.get "serial_port").orElse (.str "")).toStr
  if serialPort ≠ "" then return serialPort
  else if settings.defaultSerialPort ≠ "" then return settings.defaultSerialPort
  else throw ⟨.valueError, "Serial port is not configured"⟩

def serialParams (settings : Settings) (connection : Json) : PyExcept ClientParams := do
  let port ← resolveSerialPort settings connection
  let baudrate ← ((← connection.get "baudrate").orElse (.int 9600)).toInt
  let parity := normalizeParity (← connection.get "parity")
  let stopbits ← normalizeStopBits (← connection.get "stop_bits")
  return .serial port baudrate parity stopbits

def tcpParams (connection : Json) : PyExcept ClientParams := do
  let ipAddress ← connection.get "ip_address"
  if !ipAddress.truthy then throw ⟨.valueError, "IP address is not configured"⟩
  else
    let port ← ((← connection.get "tcp_port").orElse (.int 502)).toInt
    return .tcp ipAddress.toStr port

/-- The choice `create_modbus_client` makes between the two kinds of client. -/
def clientParams (settings : Settings) (communicationType : String) (connection : Json) :
    PyExcept ClientParams :=
  if communicationType ∈ rtuCommunicationTypes then serialParams settings connection
  else if communicationType ∈ tcpCommunicationTypes then tcpParams connection
  else .error ⟨.valueError, "Unsupported communication type: " ++ communicationType⟩

def createModbusClient (settings : Settings) (deviceId : ℤ) (communicationType : String)
    (connection : Json) : PollerM Client := do
  let params ← clientParams settings communicationType connection
  let uid ← Prog.ofExcept (← perform (.construct deviceId params))
  return ⟨uid, deviceId, params⟩

def connect (client : Client) : PollerM Bool := do
  Prog.ofExcept (← perform (.connect client))

def reapPendingCloseThreads : PollerM ℕ :=
  withLock .pendingCloses (perform .filterPendingCloses)

def closeClientWithTimeout (client : Client) : PollerM Unit := do
  let _ ← reapPendingCloseThreads
  perform (.startClose client)
  perform (.joinClose client)
  if ← perform (.closeIsAlive client) then
    withLock .pendingCloses (perform (.appendPendingClose client))
  perform (.closeReturned client)

/-- The warning about a close in flight, where the bus lock has just been taken. -/
def warnOnPendingClose (isSerial : Bool) : PollerM Unit :=
  if isSerial then do
    let outstanding ← reapPendingCloseThreads
    if outstanding ≠ 0 then perform .warnCloseInFlight
  else pure ()

def unableToConnect (device : Json) : PollerM Unit := do
  let deviceName ← device.get "device_name"
  raise .connectionError ("Unable to connect to device " ++ deviceName.toStr)

def readModbusRegisters (client : Client) (tag : Json) (slaveId : ℤ) : PollerM (List ℤ) := do
  let functionCode ← ((← tag.get "function_code").orElse (.int 3)).toInt
  let registerAddress ← (← tag.item "register_address").toInt
  let registerCount ← ((← tag.get "register_count").orElse (.int 1)).toInt
  if functionCode = 3 ∨ functionCode = 4 then
    let reply ← Prog.ofExcept
      (← perform (.read client ⟨functionCode, registerAddress, registerCount, slaveId⟩))
    match reply with
    | .error text => raise .runtimeError ("Modbus error: " ++ text)
    | .registers values => return values
  else raise .valueError "Only Modbus function codes 3 and 4 are currently supported"

def resolveWordOrder (settings : Settings) (tag : Json) : PyExcept Json := do
  let cloudWordOrder ← tag.getD "word_order" (.str "swapped")
  let tagId ← (← tag.item "id").toInt
  match settings.wordOrderOverrides.lookup tagId with
  | some override => return .str override
  | none => return cloudWordOrder

def saveTelemetry (reading : Reading) : PollerM Unit := do
  let sourceTimestamp ← perform .utcNow
  withLock .queueDatabase do
    Prog.ofExcept (← perform (.insertTelemetry reading sourceTimestamp))
  -- whatever the historian raises is logged and dropped
  (withLock .historyDatabase do
    Prog.ofExcept (← perform (.insertHistory reading sourceTimestamp))).handle fun _ => pure ()
  withLock .alarmState (perform (.setLatestReading reading))

/-- `round(x, n)` of a float: to the nearest multiple of `10 ^ -n`, halves to even. -/
def roundDecimals (x : PyFloat) (n : ℤ) : PyExcept PyFloat :=
  match x with
  | .finite q =>
    let unit : ℚ := (10 : ℚ) ^ (-n)
    match roundDouble (roundHalfEven (q / unit) * unit) with
    | .finite r => .ok (.finite r)
    | _ => .error ⟨.overflowError, "rounded value too large to represent"⟩
  | x => .ok x

/-- The value `process_tag` checks and saves: decoded, scaled and rounded. -/
def engineeringValue (settings : Settings) (tag : Json) (registers : List ℤ) :
    PyExcept PyFloat := do
  let dataType ← tag.getD "data_type" (.str "float32")
  let byteOrder ← tag.getD "byte_order" (.str "big")
  let wordOrder ← resolveWordOrder settings tag
  let decodedValue ← decodeRegisters registers dataType byteOrder wordOrder
  let scale ← ((← tag.get "scale").orElse (.float (.finite 1))).toFloat
  let offset ← ((← tag.get "offset_value").orElse (.float (.finite 0))).toFloat
  let decimalPlaces ← ((← tag.get "decimal_places").orElse (.int 0)).toInt
  roundDecimals ((decodedValue.mul scale).add offset) decimalPlaces

/-- `round(decoded_value * scale + offset, decimal_places)` -/
def convert (scale offset : PyFloat) (decimalPlaces : ℤ) (decoded : PyFloat) : PyExcept PyFloat :=
  roundDecimals ((decoded.mul scale).add offset) decimalPlaces

/-- What `process_tag` decodes the registers of a tag to. -/
def decodedValue (settings : Settings) (tag : Json) (registers : List ℤ) : PyExcept PyFloat := do
  let dataType ← tag.getD "data_type" (.str "float32")
  let byteOrder ← tag.getD "byte_order" (.str "big")
  let wordOrder ← resolveWordOrder settings tag
  decodeRegisters registers dataType byteOrder wordOrder

/-- The scale, the offset and the decimal places of a tag. -/
def conversion (tag : Json) : PyExcept (PyFloat × PyFloat × ℤ) := do
  let scale ← ((← tag.get "scale").orElse (.float (.finite 1))).toFloat
  let offset ← ((← tag.get "offset_value").orElse (.float (.finite 0))).toFloat
  let decimalPlaces ← ((← tag.get "decimal_places").orElse (.int 0)).toInt
  return (scale, offset, decimalPlaces)

theorem engineeringValue_eq (settings : Settings) (tag : Json) (registers : List ℤ) :
    engineeringValue settings tag registers = (do
      let decoded ← decodedValue settings tag registers
      let (scale, offset, decimalPlaces) ← conversion tag
      convert scale offset decimalPlaces decoded) := by
  simp only [engineeringValue, decodedValue, conversion, bind_assoc, pure_bind]
  rfl

/-- Whether `value` lies outside the limit, where the tag has one. -/
def beyondLimit (limit : Json) (outside : PyFloat → Bool) : PyExcept Bool :=
  match limit with
  | .null => .ok false
  | limit => do return outside (← limit.toFloat)

def readingQuality (tag : Json) (value : PyFloat) : PyExcept String := do
  let minimumValue ← tag.get "minimum_value"
  let maximumValue ← tag.get "maximum_value"
  let below ← beyondLimit minimumValue fun limit => value.lt limit
  let above ← beyondLimit maximumValue fun limit => limit.lt value
  return if below || above then "out_of_range" else "good"

def processTag (settings : Settings) (client : Client) (device tag : Json) : PollerM Unit := do
  let deviceId ← (← device.item "id").toInt
  let tagId ← (← tag.item "id").toInt
  let connection := (← device.get "connection").orElse (.obj [])
  let slaveId ← ((← connection.get "slave_id").orElse (.int 1)).toInt
  let registers ← readModbusRegisters client tag slaveId
  let finalValue ← engineeringValue settings tag registers
  if finalValue.isFinite then
    let quality ← readingQuality tag finalValue
    saveTelemetry ⟨deviceId, tagId, finalValue, quality⟩
  else pure ()

/-- One pass of the tag loop of `run_device`. -/
def pollTag (settings : Settings) (client : Client) (device : Json) (currentTime : PyFloat)
    (tag : Json) : PollerM Unit := do
  if !(← tag.getD "enabled" (.bool true)).truthy then return ()
  let pollKey := (← (← device.item "id").toInt, ← (← tag.item "id").toInt)
  let pollInterval ← ((← tag.get "poll_interval").orElse (.float (.finite 2))).toFloat
  let previousPoll := (← perform (.lastPoll pollKey)).getD (.finite 0)
  if (currentTime.sub previousPoll).lt pollInterval then return ()
  -- every error of the tag itself is logged and dropped
  ((processTag settings client device tag).handle fun _ => pure ()).ensure
    (perform (.setLastPoll pollKey currentTime))

def pollTags (settings : Settings) (client : Client) (device : Json) : PollerM Unit := do
  let currentTime ← perform .monotonic
  let tags ← (← device.getD "tags" (.arr [])).iter
  Prog.forEach tags (pollTag settings client device currentTime)

/-- The block of `run_device` under `with bus_lock`. -/
def pollOnBus (settings : Settings) (device connection : Json) (deviceId : ℤ)
    (communicationType : String) (isSerial : Bool) : PollerM Unit := do
  warnOnPendingClose isSerial
  let client ← createModbusClient settings deviceId communicationType connection
  -- a client that fails to connect is raised past, and never closed
  if !(← connect client) then unableToConnect device
  perform (.setDeviceStatus deviceId "connected")
  (pollTags settings client device).ensure (closeClientWithTimeout client)

/-- The block of `run_device` under the device lock. -/
def pollDevice (settings : Settings) (device : Json) (deviceId : ℤ) : PollerM Unit := do
  let connection := (← device.get "connection").orElse (.obj [])
  let communicationType ← communicationType device
  if communicationType ∉ rtuCommunicationTypes ∧ communicationType ∉ tcpCommunicationTypes then
    perform (.setDeviceStatus deviceId "failed")
  else
    let isSerial := decide (communicationType ∈ rtuCommunicationTypes)
    withBusLock isSerial
      (pollOnBus settings device connection deviceId communicationType isSerial)

def runDevice (settings : Settings) (device : Json) : PollerM Unit := do
  let deviceId ← (← device.item "id").toInt
  -- a device that is still being polled is skipped for this cycle
  if ← perform (.tryAcquire (.device deviceId)) then
    ((pollDevice settings device deviceId).handle fun e => do
      perform (.setDeviceStatus deviceId "failed")
      Prog.throw e).ensure (perform (.release (.device deviceId)))

end SenseGateway.Poller

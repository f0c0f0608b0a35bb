import SenseGateway.Poller.Device

namespace SenseGateway.Commands

open Python Effects Poller

def validCommandTypes : List String := ["write_register", "write_coil"]

/-- The tags of one device entry: the first tag with the id decides, and `none` says that no
tag has it. -/
def findTag (device : Json) (tagId : ℤ) : List Json → PyExcept (Option (Option (Json × Json)))
  | [] => .ok none
  | tag :: tags => do
    if (← (← tag.getD "id" (.int (-1))).toInt) ≠ tagId then findTag device tagId tags
    -- `is True`: a flag that is merely truthy does not count
    else if (← tag.get "writable") = .bool true then return some (some (device, tag))
    else return some none

/-- The device entries: one with another id is passed over, and so is one without the tag. -/
def findInDevices (deviceId tagId : ℤ) : List Json → PyExcept (Option (Json × Json))
  | [] => .ok none
  | device :: devices => do
    if (← (← device.getD "id" (.int (-1))).toInt) ≠ deviceId then
      findInDevices deviceId tagId devices
    else
      match ← findTag device tagId (← (← device.getD "tags" (.arr [])).iter) with
      | some found => return found
      | none => findInDevices deviceId tagId devices

def findWritableTag (configuration : Json) (deviceId tagId : ℤ) :
    PyExcept (Option (Json × Json)) := do
  findInDevices deviceId tagId (← (← configuration.getD "devices" (.arr [])).iter)

/-- A request that fails is logged; any other exception escapes. -/
def ackCommand (commandId : Json) (status : String) (error : Option String) : PollerM Unit := do
  let executedAt ← perform .utcNow
  match ← perform (.postAck ⟨commandId, status, executedAt, error⟩) with
  | .ok () => pure ()
  | .error e => if e.isRequestException then pure () else Prog.throw e

def write (client : Client) (request : WriteRequest) : PollerM Unit := do
  match ← Prog.ofExcept (← perform (.write client request)) with
  | .done => pure ()
  | .error text => raise .runtimeError ("Modbus write error: " ++ text)

def writeCommandValue (client : Client) (tag : Json) (commandType : String) (value : Json)
    (slaveId : ℤ) : PollerM Unit := do
  let registerAddress ← (← tag.item "register_address").toInt
  if commandType = "write_register" then
    -- the one check of the declared type that the source makes
    if (← ((← tag.get "function_code").orElse (.int 3)).toInt) = 4 then
      raise .valueError ("Tag is an input register (function_code=4); " ++
        "input registers are read-only in Modbus and cannot be written")
    else
      write client (.register registerAddress (← value.toInt) slaveId)
  else if commandType = "write_coil" then
    write client (.coil registerAddress value.truthy slaveId)
  else raise .valueError ("Unsupported command type: " ++ commandType)

/-- The ids of a command, as integers. -/
def commandIds (command : Json) : PyExcept (ℤ × ℤ) := do
  return (← (← command.item "device_id").toInt, ← (← command.item "tag_id").toInt)

/-- What follows the creation of the client under the bus lock. -/
def connectAndWrite (device tag connection : Json) (commandType : String) (value : Json)
    (client : Client) : PollerM Unit := do
  if !(← connect client) then unableToConnect device
  let slaveId ← ((← connection.get "slave_id").orElse (.int 1)).toInt
  writeCommandValue client tag commandType value slaveId

/-- The block of `execute_command` under `with bus_lock`: the client it created, `none` where
it raised before there was one, and how the block ended. -/
def writeOnBus (settings : Settings) (device tag connection : Json) (communicationType : String)
    (isSerial : Bool) (deviceId : ℤ) (commandType : String) (value : Json) :
    PollerM (Option Client × PyExcept Unit) := do
  let created ← attempt do
    warnOnPendingClose isSerial
    createModbusClient settings deviceId communicationType connection
  match created with
  | .error e => return (none, .error e)
  | .ok client =>
    return (some client,
      ← attempt (connectAndWrite device tag connection commandType value client))

/-- The connection and communication type `execute_command` reads from the device entry. -/
def connectionOf (device : Json) : PyExcept (Json × String) := do
  let connection := (← device.get "connection").orElse (.obj [])
  return (connection, ← communicationType device)

/-- The `try` block of `execute_command` under the device lock, up to its handlers. -/
def writeToDevice (settings : Settings) (device tag : Json) (deviceId : ℤ) (commandType : String)
    (value : Json) : PollerM (Option Client × PyExcept Unit) :=
  match connectionOf device with
  | .error e => Prog.pure (none, .error e)
  | .ok (connection, communicationType) =>
    let isSerial := decide (communicationType ∈ rtuCommunicationTypes)
    withBusLock isSerial
      (writeOnBus settings device tag connection communicationType isSerial deviceId
        commandType value)

/-- The handlers: an error is acknowledged as failed, and the client is closed either way,
after the bus lock has been released. Answers whether the command was carried out. -/
def concludeWrite (commandId : Json) (client : Option Client) (result : PyExcept Unit) :
    PollerM Bool :=
  Prog.ensure
    (match result with
    | .ok () => Prog.pure true
    | .error e => do
      ackCommand commandId "failed" (some e.message)
      return false)
    -- the `finally` stands outside `with bus_lock`
    (match client with
    | some client => closeClientWithTimeout client
    | none => Prog.pure ())

/-- `execute_command` from the device lock on. -/
def executeOnDevice (settings : Settings) (commandId : Json) (device tag : Json)
    (commandType : String) (value : Json) : PollerM Unit := do
  let deviceId ← (← device.item "id").toInt
  let succeeded ← withLock (.device deviceId) do
    let (client, result) ← writeToDevice settings device tag deviceId commandType value
    concludeWrite commandId client result
  if succeeded then ackCommand commandId "success" none

def executeCommand (settings : Settings) (command configuration : Json) : PollerM Unit := do
  let commandId ← command.get "command_id"
  let commandType := ((← command.get "command_type").orElse (.str "")).toStr
  let value ← command.get "value"
  match commandIds command with
  | .error e =>
    if e.isConversionError then
      ackCommand commandId "failed" (some ("Malformed command: " ++ e.message))
    else Prog.throw e
  | .ok (deviceId, tagId) =>
    if commandType ∉ validCommandTypes then
      ackCommand commandId "failed" (some ("Unsupported command_type: " ++ commandType))
    else
      match ← findWritableTag configuration deviceId tagId with
      | none => ackCommand commandId "failed" (some "Tag not found or not marked writable")
      | some (device, tag) => executeOnDevice settings commandId device tag commandType value

/-- The commands in a reply of the backend: none where the request failed, where the endpoint is
missing, or where the body is not what it should be. -/
def commandsIn : PendingReply → PyExcept (List Json)
  | .payload payload => do
    if !(← payload.get "success").truthy then return []
    else
      match ← payload.get "commands" with
      | .arr commands => return commands
      | _ => return []
  | _ => .ok []

def fetchPendingCommands : PollerM (List Json) := do
  commandsIn (← perform .getPendingCommands)

/-- One cycle of `run_commands_loop`. What a command raises ends the cycle. -/
def commandsCycle (settings : Settings) : PollerM Unit :=
  Prog.handle
    (do
      let pendingCommands ← fetchPendingCommands
      Prog.forEach pendingCommands fun command => do
        let configuration ← perform (.currentConfiguration command)
        executeCommand settings command configuration)
    fun _ => pure ()

def sampleSettings : Settings := ⟨"", []⟩

/-- A device entry on the serial port, with one writable tag. -/
def serialDevice (id : ℤ) : Json :=
  .obj [("id", .int id), ("communication_type", .str "rtu"),
    ("connection", .obj [("serial_port", .str "COM3")]),
    ("tags", .arr [.obj [("id", .int 7), ("writable", .bool true),
      ("register_address", .int 40)]])]

/-- The client created for such an entry. -/
def serialClient (uid : ℕ) (id : ℤ) : Client := ⟨uid, id, .serial "COM3" 9600 "N" 1⟩

def sampleConfiguration : Json := .obj [("devices", .arr [serialDevice 1, serialDevice 2])]

def writeCommand (deviceId : ℤ) : Json :=
  .obj [("command_id", .int 9), ("command_type", .str "write_register"),
    ("device_id", .int deviceId), ("tag_id", .int 7), ("value", .int 5)]

end SenseGateway.Commands

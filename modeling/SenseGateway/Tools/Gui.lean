import SenseGateway.Tools.Console

namespace SenseGateway.Tools

open Python Effects Poller Diagnose

/-- The entry fields of the window. -/
inductive Entry
  | port | baud | parity | stopbits
  | scanFrom | scanTo | scanAddress | scanCount | scanFunction
  | slaveId | address | count | functionCode | dataType | byteOrder | wordOrder
  deriving DecidableEq, Repr

/-- A row of the results of a device scan. -/
structure ResultRow where
  name : Json
  address : Json
  registers : Option (List ℤ)
  value : String
  unit : Json
  status : String
  deriving DecidableEq

/-- What the window is made to show. The time stamps of the log are left out. -/
inductive Display
  | status (text : String)
  | log (text : String)
  | deviceInfo (text : String)
  | slaveId (text : String)
  | clearDevices
  | device (label : String)
  | clearResults
  | result (row : ResultRow)
  deriving DecidableEq

/-- What the user does. -/
inductive UserEvent
  | connect | disconnect | listPorts | scanSlaveIds | selectDevice | scanDevice
  | readSingle | closeWindow
  deriving DecidableEq, Repr

/-- What the test window does outside plain computation. `update` handles what the user did in the
meantime, which it answers with. -/
inductive GuiCall
  | entry (field : Entry)
  | display (what : Display)
  | selection
  | updateIdletasks
  | update
  | nextEvent
  | destroy
  | cacheExists
  | readCache
  | comports
  | monotonic
  | construct (params : PortParams)
  | connect (client : PortClient)
  | close (client : PortClient)
  | read (client : PortClient) (request : RawRequest)
  deriving DecidableEq

abbrev GuiCall.Answer : GuiCall → Type
  | .entry _ => String
  | .display _ => PyExcept Unit
  | .selection => Option ℕ
  | .updateIdletasks => PyExcept Unit
  | .update => List UserEvent
  | .nextEvent => UserEvent
  | .destroy => Unit
  | .cacheExists => Bool
  | .readCache => PyExcept Json
  | .comports => PyExcept (List (String × String))
  | .monotonic => PyFloat
  | .construct _ => PyExcept ℕ
  | .connect _ => PyExcept Bool
  | .close _ => PyExcept Unit
  | .read _ _ => PyExcept ReadReply

abbrev guiCalls : Interface := ⟨GuiCall, GuiCall.Answer⟩

/-- The fields of `ModbusGuiApp` that its handlers look at, and whether its window is gone. -/
structure Gui where
  client : Option PortClient
  devices : List Json
  destroyed : Bool
  deriving DecidableEq

/-- A handler. An exception leaves the fields as they are where it is raised. -/
abbrev GuiM := Prog guiCalls (Gui × PyError)

namespace Gui

def perform (o : GuiCall) : GuiM o.Answer := Prog.perform (I := guiCalls) o

/-- The value of a computation that can raise. -/
def get {α : Type} (g : Gui) (x : PyExcept α) : GuiM α :=
  Prog.ofExcept (x.mapError fun e => (g, e))

def display (g : Gui) (what : Display) : GuiM Unit := do g.get (← perform (.display what))

/-- `try: p except Exception as error: h error` around a part that leaves the fields alone -/
def catching {α : Type} (p : GuiM α) (h : PyError → GuiM α) : GuiM α := p.handle fun raised => h raised.2

def disconnect (g : Gui) : GuiM Gui := do
  let g ← (match g.client with
    | some client => do
      g.get (← perform (.close client))
      let g := { g with client := none }
      g.display (.log "Disconnected.")
      return g
    | none => return g : GuiM Gui)
  g.display (.status "Not connected")
  return g

/-- `connect` once there is no connection. -/
def openPort (g : Gui) : GuiM Gui := do
  let port := strip (← perform (.entry .port))
  let baudrate ← g.get (intOf (← perform (.entry .baud)))
  let parity := normalizeParity (.str (← perform (.entry .parity)))
  let stopbits ← g.get (normalizeStopBits (.str (← perform (.entry .stopbits))))
  let params : PortParams := ⟨port, baudrate, parity, stopbits⟩
  let uid ← g.get (← perform (.construct params))
  let client : PortClient := ⟨uid, params⟩
  if !(← g.get (← perform (.connect client))) then
    g.display (.status ("FAILED to open " ++ port))
    g.display (.log ("FAILED to open " ++ port ++ " -- either another process has it open (stop the " ++
      "gateway service: net stop \"BBJ Sense Gateway\") or it is not a real port right now. Try List Ports."))
    return g
  else
    -- a client that did not connect is never the window's
    let g := { g with client := some client }
    g.display (.status ("Connected: " ++ port))
    g.display (.log ("Connected to " ++ port ++ "."))
    return g

def connect (g : Gui) : GuiM Gui := do
  let g ← if g.client.isSome then g.disconnect else Prog.pure g
  g.openPort

/-- `_on_close` -/
def onClose (g : Gui) : GuiM Gui := do
  let g ← g.disconnect
  perform .destroy
  return { g with destroyed := true }

def listPorts (g : Gui) : GuiM Gui := do
  let ports ← g.get (← perform .comports)
  if ports = [] then
    g.display (.log ("No COM ports detected by Windows at all -- that's a driver/USB-adapter problem, " ++
      "not a wiring problem."))
  else
    g.display (.log (toString ports.length ++ " COM port(s) detected:"))
    Prog.forEach ports fun p => g.display (.log ("  " ++ p.1 ++ "  " ++ p.2))
  return g

/-- `read_one_register` with `self.client`, which can be `None` by then. -/
def readOneRegister (g : Gui) (slaveId address count : Json) (functionCode : ℤ) : GuiM ReadReply := do
  let method := if functionCode = 4 then "read_input_registers" else "read_holding_registers"
  match g.client with
  | none => g.get (.error ⟨.attributeError, "'NoneType' object has no attribute '" ++ method ++ "'"⟩)
  | some client =>
    g.get (← perform (.read client ⟨if functionCode = 4 then 4 else 3, address, count, slaveId⟩))

/-- What a discovery scan asks for. -/
structure Discovery where
  start : ℤ
  stop : ℤ
  address : ℤ
  count : ℤ
  functionCode : ℤ

/-- The fields of the discovery panel as numbers. -/
def discovery : GuiM (PyExcept Discovery) := do
  let start ← perform (.entry .scanFrom)
  let stop ← perform (.entry .scanTo)
  let address ← perform (.entry .scanAddress)
  let count ← perform (.entry .scanCount)
  let functionCode ← perform (.entry .scanFunction)
  return (do
    return ⟨← intOf start, ← intOf stop, ← intOf address, ← intOf count, ← intOf functionCode⟩)

/-- Whether something answers at the slave id. A device that answers with an error is there, too. -/
def knock (g : Gui) (d : Discovery) (slaveId : ℤ) : GuiM Bool :=
  catching
    (do
      match ← g.readOneRegister (.int slaveId) (.int d.address) (.int d.count) d.functionCode with
      | .error text =>
        g.display (.log ("  slave " ++ toString slaveId ++ ": ALIVE (responded with a Modbus exception: " ++
          text ++ ") -- device is present, try a different register"))
      | .registers registers =>
        g.display (.log ("  slave " ++ toString slaveId ++ ": ALIVE, raw=" ++ listText registers))
      return true)
    fun _ => Prog.pure false

/-- The loop of a discovery scan. After each id the window handles what the user has done, which can
change the connection. -/
def knockAll (pump : Gui → GuiM Gui) (d : Discovery) : List ℤ → Gui → Bool → GuiM (Gui × Bool)
  | [], g, foundAny => return (g, foundAny)
  | slaveId :: slaveIds, g, foundAny => do
    let answered ← g.knock d slaveId
    let g ← pump g
    knockAll pump d slaveIds g (foundAny || answered)

def scanSlaveIds (pump : Gui → GuiM Gui) (g : Gui) : GuiM Gui := do
  if g.client = none then
    g.display (.log "Connect to a port first.")
    return g
  else
    match ← discovery with
    | .error e =>
      if e.kind = .valueError then
        g.display (.log "Slave ID range / register fields must be numbers.")
        return g
      else g.get (.error e)
    | .ok d =>
      let range := toString d.start ++ "-" ++ toString d.stop
      g.display (.log ("Scanning slave IDs " ++ range ++ " ..."))
      g.get (← perform .updateIdletasks)
      let slaveIds ← g.get (pyRange d.start (d.stop + 1) 1)
      let (g, foundAny) ← knockAll pump d slaveIds g false
      if !foundAny then
        g.display (.log ("  No response from any slave ID " ++ range ++ ". Check wiring (A/B not swapped, " ++
          "correct COM port), baud/parity/stop-bit settings, and that the meter is actually powered."))
      g.display (.log "Slave ID scan complete.")
      return g

/-- `device.get("connection") or {}` -/
def connectionOf (g : Gui) (device : Json) : GuiM Json := g.get (Diagnose.connectionOf device)

/-- `self.devices[i]` -/
def deviceAt (g : Gui) (i : ℕ) : GuiM Json :=
  match g.devices[i]? with
  | some device => Prog.pure device
  | none => g.get (.error ⟨.other, "list index out of range"⟩)

/-- `on_device_select` -/
def onDeviceSelect (g : Gui) : GuiM Gui := do
  match ← perform .selection with
  | none => return g
  | some i =>
    let device ← g.deviceAt i
    let conn ← g.connectionOf device
    let name ← g.get (device.get "device_name")
    let tags ← g.get (device.getD "tags" (.arr []) >>= Json.iter)
    let port ← g.get (conn.get "serial_port")
    let slaveId ← g.get (conn.get "slave_id")
    g.display (.deviceInfo (name.toStr ++ " -- " ++ toString tags.length ++ " tag(s), port=" ++ port.toStr ++
      ", slave=" ++ slaveId.toStr))
    g.display (.slaveId (← g.get (conn.getD "slave_id" (.str ""))).toStr)
    return g

/-- One pass of the tag loop of `scan_device`. -/
def scanTag (g : Gui) (slaveId tag : Json) : GuiM Unit := do
  let address ← g.get (tag.get "register_address")
  let count := (← g.get (tag.get "register_count")).orElse (.int 2)
  let functionCode ← g.get (do ((← tag.get "function_code").orElse (.int 3)).toInt)
  let name ← g.get (tag.get "display_name")
  catching
    (do
      match ← g.readOneRegister slaveId address count functionCode with
      | .error text => g.display (.result ⟨name, address, none, "", .str "", "FAIL: " ++ text⟩)
      | .registers registers =>
        let value ← g.get (Diagnose.scaled tag registers)
        let unit := (← g.get (tag.get "unit")).orElse (.str "")
        g.display (.result ⟨name, address, some registers, formatFixed 3 value, unit, "OK"⟩))
    fun error => g.display (.result ⟨name, address, none, "", .str "", "ERROR: " ++ error.message⟩)

def scanDevice (g : Gui) : GuiM Gui := do
  match ← perform .selection with
  | none =>
    g.display (.log "Select a device first.")
    return g
  | some i =>
    if g.client = none then
      g.display (.log "Connect to a port first.")
      return g
    else
      let device ← g.deviceAt i
      let conn ← g.connectionOf device
      let expectedPort ← g.get (conn.get "serial_port")
      let name ← g.get (device.get "device_name")
      let port := strip (← perform (.entry .port))
      if expectedPort.truthy ∧ expectedPort ≠ .str port then
        g.display (.log ("Warning: " ++ name.toStr ++ " is configured for " ++ expectedPort.toStr ++
          ", but you're connected to " ++ port ++ ". Reconnect to the right port first."))
        return g
      else
        g.display .clearResults
        let slaveId ← g.get (conn.get "slave_id")
        g.display (.log ("Scanning " ++ name.toStr ++ " (slave " ++ slaveId.toStr ++ ")..."))
        let tags ← g.get (device.getD "tags" (.arr []) >>= Json.iter)
        Prog.forEach tags (g.scanTag slaveId)
        g.display (.log ("Scan of " ++ name.toStr ++ " complete."))
        return g

def readSingle (g : Gui) : GuiM Gui := do
  if g.client = none then g.display (.log "Connect to a port first.")
  else if strip (← perform (.entry .address)) = "" then g.display (.log "Enter a register address.")
  else
    catching
      (do
        let slaveId ← g.get (intOf (← perform (.entry .slaveId)))
        let address ← g.get (intOf (← perform (.entry .address)))
        let count ← g.get (intOf (← perform (.entry .count)))
        let functionCode ← g.get (intOf (← perform (.entry .functionCode)))
        let started ← perform .monotonic
        let result ← g.readOneRegister (.int slaveId) (.int address) (.int count) functionCode
        let elapsedMs := ((← perform .monotonic).sub started).mul (.finite 1000)
        let place := "slave=" ++ toString slaveId ++ " addr=" ++ toString address
        match result with
        | .error text => g.display (.log (place ++ " FAIL: " ++ text))
        | .registers registers =>
          let dataType ← perform (.entry .dataType)
          let byteOrder ← perform (.entry .byteOrder)
          let wordOrder ← perform (.entry .wordOrder)
          let value ← g.get (Diagnose.decodeRegisters registers (.str dataType) (.str byteOrder)
            (.str wordOrder))
          g.display (.log (place ++ " raw=" ++ listText registers ++ " value=" ++ formatFixed 4 value ++
            " (" ++ formatFixed 0 elapsedMs ++ " ms)")))
      fun error => g.display (.log ("ERROR: " ++ error.message))
  return g

/-- What the window makes of an exception that leaves a handler: it is reported, and the handlers of
further events start from the fields as they are. -/
def reported (p : GuiM Gui) : GuiM Gui := p.handle fun raised => Prog.pure raised.1

/-- The handler of an event; a discovery scan handles further events as `pump` does. -/
def handleEvent (pump : Gui → GuiM Gui) : UserEvent → Gui → GuiM Gui
  | .connect, g => g.connect
  | .disconnect, g => g.disconnect
  | .listPorts, g => g.listPorts
  | .scanSlaveIds, g => g.scanSlaveIds pump
  | .selectDevice, g => g.onDeviceSelect
  | .scanDevice, g => g.scanDevice
  | .readSingle, g => g.readSingle
  | .closeWindow, g => g.onClose

/-- `self.root.update()` in a handler, where so many handlers can interrupt one another. -/
def pump : ℕ → Gui → GuiM Gui
  | 0, g => do
    -- at this depth the user does nothing any more
    let _ ← perform .update
    return g
  | depth + 1, g => do
    if g.destroyed then g.get (.error
      ⟨.other, "can't invoke \"update\" command: application has been destroyed"⟩)
    else
      let events ← perform .update
      events.foldlM
        (fun g event => if g.destroyed then Prog.pure g else
          reported (handleEvent (pump depth) event g)) g

/-- `mainloop`: so many events, or fewer where one of them closes the window. -/
def mainloop (depth : ℕ) : ℕ → Gui → GuiM Gui
  | 0, g => return g
  | events + 1, g => do
    if g.destroyed then return g
    else
      let event ← perform .nextEvent
      let g ← reported (handleEvent (pump depth) event g)
      mainloop depth events g

/-- `load_devices`, for a window without a connection. -/
def loadDevices (cachePath : String) : GuiM Gui := do
  let g : Gui := ⟨none, [], false⟩
  g.display .clearDevices
  if !(← perform .cacheExists) then
    g.display (.log ("No config_cache.json found at " ++ cachePath ++ " -- device list will be empty. " ++
      "Manual reads below still work without it."))
    return g
  else
    let config ← g.get (← perform .readCache)
    let devices ← g.get (config.getD "devices" (.arr []) >>= Json.iter)
    Prog.forEach devices fun device => do
      let conn ← g.connectionOf device
      let name ← g.get (device.get "device_name")
      let slaveId ← g.get (conn.get "slave_id")
      let port ← g.get (conn.get "serial_port")
      g.display (.device (name.toStr ++ " (slave " ++ slaveId.toStr ++ ", " ++ port.toStr ++ ")"))
    g.display (.log ("Loaded " ++ toString devices.length ++ " device(s) from config."))
    return { g with devices := devices }

/-- `main` of `modbus_gui`, whose user does so many things. -/
def main (cachePath : String) (depth events : ℕ) : GuiM Gui := do
  let g ← loadDevices cachePath
  mainloop depth events g

end Gui

end SenseGateway.Tools

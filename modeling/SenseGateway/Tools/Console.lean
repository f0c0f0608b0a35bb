import SenseGateway.Configuration.Overrides
import SenseGateway.Diagnose.Scan

namespace SenseGateway.Tools

open Python Effects Poller Diagnose

/-- The arguments of `ModbusSerialClient` that its users choose. -/
structure PortParams where
  port : String
  baudrate : ℤ
  parity : String
  stopbits : ℤ
  deriving DecidableEq, Repr

/-- A client object; no two have the same number. -/
structure PortClient where
  uid : ℕ
  params : PortParams
  deriving DecidableEq, Repr

/-- What the console and the raw probe do outside plain computation. -/
inductive ToolCall
  | input (prompt : String)
  | print (text : String)
  | comports
  | construct (params : PortParams)
  | connect (client : PortClient)
  | close (client : PortClient)
  | read (client : PortClient) (request : ReadRequest)
  deriving DecidableEq

abbrev ToolCall.Answer : ToolCall → Type
  | .input _ => PyExcept String
  | .print _ => Unit
  | .comports => PyExcept (List (String × String))
  | .construct _ => PyExcept ℕ
  | .connect _ => PyExcept Bool
  | .close _ => PyExcept Unit
  | .read _ _ => PyExcept ReadReply

abbrev toolCalls : Interface := ⟨ToolCall, ToolCall.Answer⟩

abbrev ToolM := Prog toolCalls PyError

def perform (o : ToolCall) : ToolM o.Answer := Prog.perform (I := toolCalls) o

/-- `str(registers)` of a list of integers -/
def listText (registers : List ℤ) : String := "[" ++ ", ".intercalate (registers.map toString) ++ "]"

/-- `int(text)` -/
def intOf (text : String) : PyExcept ℤ := (Json.str text).toInt

/-- `range(start, stop, step)`, which refuses a step of zero. -/
def pyRange (start stop step : ℤ) : PyExcept (List ℤ) :=
  if step = 0 then .error (valueError "range() arg 3 must not be zero")
  else
    let span := if 0 < step then stop - start else start - stop
    .ok ((List.range ((span + (step.natAbs - 1)) / step.natAbs).toNat).map fun i => start + i * step)

def readOneRegister (client : PortClient) (slaveId address count functionCode : ℤ) :
    ToolM ReadReply := do
  if functionCode = 4 then Prog.ofExcept (← perform (.read client ⟨4, address, count, slaveId⟩))
  else Prog.ofExcept (← perform (.read client ⟨3, address, count, slaveId⟩))

section console

def ask (prompt default : String) : ToolM String := do
  let typed := strip (← Prog.ofExcept (← perform (.input (prompt ++ " [" ++ default ++ "]: "))))
  return if typed ≠ "" then typed else default

def construct (params : PortParams) : ToolM PortClient := do
  let uid ← Prog.ofExcept (← perform (.construct params))
  return ⟨uid, params⟩

/-- What is printed of the ports where one cannot be opened. -/
def printPorts : ToolM Unit := do
  let ports ← Prog.ofExcept (← perform .comports)
  if ports ≠ [] then
    perform (.print "COM ports Windows currently sees:")
    Prog.forEach ports fun p => perform (.print ("  " ++ p.1 ++ "  " ++ p.2))
  else
    perform (.print ("Windows sees no COM ports at all -- that's a driver/USB-adapter problem, not a " ++
      "wiring problem."))

/-- `connect` of `modbus_console` -/
def connectConsole : ToolM (Option PortClient) := do
  let port ← ask "COM port" "COM6"
  let baud ← intOf (← ask "Baud rate" "4800")
  let parity ← ask "Parity (N/E/O)" "O"
  let stopbits ← intOf (← ask "Stop bits" "2")
  let client ← construct ⟨port, baud, normalizeParity (.str parity), ← normalizeStopBits (.int stopbits)⟩
  if !(← Prog.ofExcept (← perform (.connect client))) then
    perform (.print ("\nFAILED to open " ++ port ++ ". Either another process has it open (stop the " ++
      "gateway service: net stop \"BBJ Sense Gateway\") or it's not a real port right now.\n"))
    printPorts
    return none
  else
    perform (.print ("Connected to " ++ port ++ ".\n"))
    return some client

/-- The settings of the console that the next question offers again. -/
structure Typed where
  slaveId : String
  count : String
  functionCode : String
  dataType : String
  byteOrder : String
  wordOrder : String

def Typed.initial : Typed := ⟨"1", "2", "3", "float32", "big", "swapped"⟩

def readAndPrint (client : PortClient) (slaveId address count functionCode : ℤ) (typed : Typed) :
    ToolM Unit :=
  let addr := "  addr=" ++ padRight 6 (toString address)
  Prog.handle
    (do
      match ← readOneRegister client slaveId address count functionCode with
      | .error text => perform (.print (addr ++ " FAIL  " ++ text))
      | .registers registers =>
        match Diagnose.decodeRegisters registers (.str typed.dataType) (.str typed.byteOrder)
            (.str typed.wordOrder) with
        | .ok value =>
          perform (.print (addr ++ " OK    raw=" ++ listText registers ++ " value=" ++
            formatFixed 4 value))
        | .error e =>
          perform (.print (addr ++ " OK    raw=" ++ listText registers ++ " (couldn't decode as " ++
            typed.dataType ++ ": " ++ e.message ++ ")")))
    fun error => perform (.print (addr ++ " ERROR " ++ error.message))

/-- The questions after an address. -/
def askSettings (typed : Typed) : ToolM Typed := do
  let slaveId ← ask "Slave ID" typed.slaveId
  let count ← ask "Register count" typed.count
  let functionCode ← ask "Function code (3=holding, 4=input)" typed.functionCode
  let dataType ← ask "Data type (float32/float64/int16/uint16/int32/uint32)" typed.dataType
  let byteOrder ← ask "Byte order (big/little)" typed.byteOrder
  let wordOrder ← ask "Word order (normal/swapped)" typed.wordOrder
  return ⟨slaveId, count, functionCode, dataType, byteOrder, wordOrder⟩

/-- The read or the sweep an address asks for. -/
def readAddresses (client : PortClient) (addressInput : String) (typed : Typed) : ToolM Unit := do
  if '-' ∈ addressInput.toList then
    let ends := Configuration.partition '-' addressInput
    let start ← intOf ends.1
    let stop ← intOf ends.2
    let step ← intOf typed.count
    let addresses ← pyRange start stop step
    Prog.forEach addresses fun address => do
      let slaveId ← intOf typed.slaveId
      let count ← intOf typed.count
      let functionCode ← intOf typed.functionCode
      readAndPrint client slaveId address count functionCode typed
  else
    let slaveId ← intOf typed.slaveId
    let address ← intOf addressInput
    let count ← intOf typed.count
    let functionCode ← intOf typed.functionCode
    readAndPrint client slaveId address count functionCode typed

/-- How one pass of the console's loop goes on. -/
inductive Turn
  | quit
  | reconnect
  | again (typed : Typed)

def consoleTurn (client : PortClient) (typed : Typed) : ToolM Turn := do
  let addressInput ← ask ("\nRegister address (or range like 300-400, 'r' to reconnect, 'q' to quit)") ""
  if lower addressInput = "q" then return .quit
  else if lower addressInput = "r" then return .reconnect
  else if addressInput = "" then
    perform (.print "Enter an address, a range, 'r', or 'q'.")
    return .again typed
  else
    let typed ← askSettings typed
    readAddresses client addressInput typed
    return .again typed

/-- How `p` ended, as a value. -/
def attempt {α : Type} (p : ToolM α) : ToolM (PyExcept α) :=
  (p.bind fun a => Prog.pure (.ok a)).handle fun e => Prog.pure (.error e)

/-- The `try` block of the console, with a user who quits after so many turns: what `client` is at its
end, and how it ended. -/
def consoleLoop : ℕ → PortClient → Typed → ToolM (Option PortClient × PyExcept Unit)
  | 0, client, _ => return (some client, .ok ())
  | turns + 1, client, typed => do
    match ← attempt (consoleTurn client typed) with
    | .error e => return (some client, .error e)
    | .ok .quit => return (some client, .ok ())
    | .ok (.again typed) => consoleLoop turns client typed
    | .ok .reconnect =>
      match ← perform (.close client) with
      | .error e => return (some client, .error e)
      | .ok () =>
        match ← attempt connectConsole with
        -- the name still stands for the client that has been closed
        | .error e => return (some client, .error e)
        | .ok none => return (none, .ok ())
        | .ok (some client) => consoleLoop turns client typed

/-- `main` of `modbus_console` -/
def consoleMain (doc : String) (turns : ℕ) : ToolM Unit := do
  perform (.print doc)
  match ← connectConsole with
  | none => return ()
  | some client =>
    let (client, out) ← consoleLoop turns client .initial
    match client with
    | none => Prog.throw ⟨.attributeError, "'NoneType' object has no attribute 'close'"⟩
    | some client =>
      Prog.ofExcept (← perform (.close client))
      perform (.print "\nConnection closed.")
      Prog.ofExcept out

end console

section probe

/-- The options of `diagnose_modbus.py --address`. -/
structure ProbeArgs where
  port : String
  baud : ℤ
  parity : String
  stopbits : ℤ
  slaveId : ℤ
  address : ℤ
  count : ℤ
  functionCode : ℤ
  dataType : String
  byteOrder : String
  wordOrder : String

def runRawProbe (args : ProbeArgs) : ToolM Unit := do
  let stopbits ← normalizeStopBits (.int args.stopbits)
  let client ← construct ⟨args.port, args.baud, normalizeParity (.str args.parity), stopbits⟩
  if !(← Prog.ofExcept (← perform (.connect client))) then
    perform (.print ("FAILED to open " ++ args.port ++ " -- either another process has it open (stop " ++
      "the gateway service first) or it's not a real port right now (check --list-ports)."))
  else
    Prog.ensure
      (do
        match ← readOneRegister client args.slaveId args.address args.count args.functionCode with
        | .error text => perform (.print ("Modbus error: " ++ text))
        | .registers registers =>
          perform (.print ("Raw registers: " ++ listText registers))
          let value ← Diagnose.decodeRegisters registers (.str args.dataType) (.str args.byteOrder)
            (.str args.wordOrder)
          let rounded ← roundDecimals value 4
          perform (.print ("Decoded value (" ++ args.dataType ++ "): " ++ rounded.repr)))
      (do Prog.ofExcept (← perform (.close client)))

end probe

end SenseGateway.Tools

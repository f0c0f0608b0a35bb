import SenseGateway.Effects.Prog
import SenseGateway.Python.Value

namespace SenseGateway.Poller

open Python Effects

/-- What the environment variables of `settings.py` decide. -/
structure Settings where
  defaultSerialPort : String
  wordOrderOverrides : List (ℤ × String)

/-- The locks of the poller process. `DEVICE_LOCKS.setdefault` never replaces a lock, so the
lock of a device is named by the device's id. -/
inductive LockId
  | device (id : ℤ)
  | serialBus
  | pendingCloses
  | queueDatabase
  | historyDatabase
  | alarmState
  deriving DecidableEq, Repr

/-- The arguments of `ModbusSerialClient` and `ModbusTcpClient` that depend on the device. -/
inductive ClientParams
  | serial (port : String) (baudrate : ℤ) (parity : String) (stopbits : ℤ)
  | tcp (host : String) (port : ℤ)
  deriving DecidableEq, Repr

/-- A client object. `device` is the id of the device entry it was created for; only
statements about runs look at it and at `uid`. -/
structure Client where
  uid : ℕ
  device : ℤ
  params : ClientParams
  deriving DecidableEq, Repr

def Client.isSerial (c : Client) : Bool :=
  match c.params with
  | .serial .. => true
  | .tcp .. => false

structure ReadRequest where
  functionCode : ℤ
  address : ℤ
  count : ℤ
  slave : ℤ
  deriving DecidableEq, Repr

inductive WriteRequest
  | register (address value slave : ℤ)
  | coil (address : ℤ) (value : Bool) (slave : ℤ)
  deriving DecidableEq, Repr

def WriteRequest.slave : WriteRequest → ℤ
  | .register _ _ slave => slave
  | .coil _ _ slave => slave

def WriteRequest.address : WriteRequest → ℤ
  | .register address _ _ => address
  | .coil address _ _ => address

inductive ReadReply
  | error (text : String)
  | registers (values : List ℤ)
  deriving DecidableEq, Repr

inductive WriteReply
  | error (text : String)
  | done
  deriving DecidableEq, Repr

/-- One reading as `save_telemetry` hands it on. -/
structure Reading where
  deviceId : ℤ
  tagId : ℤ
  value : PyFloat
  quality : String
  deriving DecidableEq, Repr

/-- The body of an acknowledgement. -/
structure Ack where
  commandId : Json
  status : String
  executedAt : String
  error : Option String
  deriving DecidableEq, Repr

/-- What asking the backend for the pending commands comes to. -/
inductive PendingReply
  | unreachable
  | notFound
  | invalid
  | payload (body : Json)
  deriving DecidableEq, Repr

/-- The calls `run_device`, `execute_command` and the command loop make outside plain
computation. `currentConfiguration` is made for the sake of one command, which only statements
about runs look at. -/
inductive Call
  | acquire (lock : LockId)
  | tryAcquire (lock : LockId)
  | release (lock : LockId)
  | filterPendingCloses
  | appendPendingClose (client : Client)
  | warnCloseInFlight
  | construct (device : ℤ) (params : ClientParams)
  | connect (client : Client)
  | startClose (client : Client)
  | joinClose (client : Client)
  | closeIsAlive (client : Client)
  | closeReturned (client : Client)
  | read (client : Client) (request : ReadRequest)
  | write (client : Client) (request : WriteRequest)
  | postAck (ack : Ack)
  | getPendingCommands
  | currentConfiguration (command : Json)
  | setDeviceStatus (device : ℤ) (status : String)
  | monotonic
  | utcNow
  | lastPoll (key : ℤ × ℤ)
  | setLastPoll (key : ℤ × ℤ) (time : PyFloat)
  | insertTelemetry (reading : Reading) (sourceTimestamp : String)
  | insertHistory (reading : Reading) (sourceTimestamp : String)
  | setLatestReading (reading : Reading)
  deriving DecidableEq, Repr

/-- Calls that can raise answer with what they return or raise. `filterPendingCloses` answers
with the number of close threads still alive, `construct` with a number no earlier client
has. -/
abbrev Call.Answer : Call → Type
  | .tryAcquire _ => Bool
  | .filterPendingCloses => ℕ
  | .construct _ _ => PyExcept ℕ
  | .connect _ => PyExcept Bool
  | .closeIsAlive _ => Bool
  | .read _ _ => PyExcept ReadReply
  | .write _ _ => PyExcept WriteReply
  | .postAck _ => PyExcept Unit
  | .getPendingCommands => PendingReply
  | .currentConfiguration _ => Json
  | .monotonic => PyFloat
  | .utcNow => String
  | .lastPoll _ => Option PyFloat
  | .insertTelemetry _ _ => PyExcept Unit
  | .insertHistory _ _ => PyExcept Unit
  | _ => Unit

abbrev calls : Interface := ⟨Call, Call.Answer⟩

instance (o : Call) : DecidableEq o.Answer :=
  match o with
  | .tryAcquire _ | .closeIsAlive _ => inferInstanceAs (DecidableEq Bool)
  | .filterPendingCloses => inferInstanceAs (DecidableEq ℕ)
  | .construct _ _ => inferInstanceAs (DecidableEq (PyExcept ℕ))
  | .connect _ => inferInstanceAs (DecidableEq (PyExcept Bool))
  | .read _ _ => inferInstanceAs (DecidableEq (PyExcept ReadReply))
  | .write _ _ => inferInstanceAs (DecidableEq (PyExcept WriteReply))
  | .postAck _ | .insertTelemetry _ _ | .insertHistory _ _ =>
    inferInstanceAs (DecidableEq (PyExcept Unit))
  | .getPendingCommands => inferInstanceAs (DecidableEq PendingReply)
  | .currentConfiguration _ => inferInstanceAs (DecidableEq Json)
  | .monotonic => inferInstanceAs (DecidableEq PyFloat)
  | .utcNow => inferInstanceAs (DecidableEq String)
  | .lastPoll _ => inferInstanceAs (DecidableEq (Option PyFloat))
  | .acquire _ | .release _ | .appendPendingClose _ | .warnCloseInFlight | .startClose _
  | .joinClose _ | .closeReturned _ | .setDeviceStatus _ _ | .setLastPoll _ _
  | .setLatestReading _ => inferInstanceAs (DecidableEq Unit)

instance : DecidableEq (Event calls)
  | ⟨o, r⟩, ⟨o', r'⟩ =>
    if h : o = o' then decidable_of_iff (h ▸ r = r') (by subst h; simp)
    else isFalse (by simp [h])

abbrev PollerM := Prog calls PyError

def perform (o : Call) : PollerM o.Answer := Prog.perform (I := calls) o

/-- An environment in which nothing fails and no time passes. -/
def friendly : (o : Call) → o.Answer
  | .tryAcquire _ => true
  | .filterPendingCloses => 0
  | .construct _ _ => .ok 0
  | .connect _ => .ok true
  | .closeIsAlive _ => false
  | .read _ _ => .ok (.registers [])
  | .write _ _ => .ok .done
  | .postAck _ => .ok ()
  | .getPendingCommands => .notFound
  | .currentConfiguration _ => .obj []
  | .monotonic => .finite 0
  | .utcNow => ""
  | .lastPoll _ => none
  | .insertTelemetry _ _ => .ok ()
  | .insertHistory _ _ => .ok ()
  | .acquire _ | .release _ | .appendPendingClose _ | .warnCloseInFlight | .startClose _
  | .joinClose _ | .closeReturned _ | .setDeviceStatus _ _ | .setLastPoll _ _
  | .setLatestReading _ => ()

def raise {α : Type} (kind : ExceptionKind) (message : String) : PollerM α :=
  Prog.throw ⟨kind, message⟩

/-- `with lock: body` -/
def withLock {α : Type} (lock : LockId) (body : PollerM α) : PollerM α := do
  perform (.acquire lock)
  body.ensure (perform (.release lock))

/-- `with MODBUS_SERIAL_LOCK if is_serial else nullcontext(): body` -/
def withBusLock {α : Type} (isSerial : Bool) (body : PollerM α) : PollerM α :=
  if isSerial then withLock .serialBus body else body

/-- How `p` ended, as a value. -/
def attempt {α : Type} (p : PollerM α) : PollerM (PyExcept α) :=
  (p.bind fun a => Prog.pure (.ok a)).handle fun e => Prog.pure (.error e)

theorem wp_attempt {α L : Type} {P : Protocol calls L} {l : L} {p : PollerM α}
    {Q : PyExcept α → L → Prop} {E : PyError → L → Prop}
    (h : p.wp P (fun a => Q (.ok a)) (fun e => Q (.error e)) l) : (attempt p).wp P Q E l :=
  (Prog.wp_handle _ _).mpr ((Prog.wp_bind _ _).mpr h)

end SenseGateway.Poller

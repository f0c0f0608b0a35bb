import SenseGateway.Commands.Execute

namespace SenseGateway.Commands

open Python Effects Poller

/-- A command the gate lets through, with the device entry and the tag it found. -/
structure Order where
  commandId : Json
  deviceId : ℤ
  device : Json
  tag : Json
  commandType : String
  value : Json

inductive Verdict
  | rejected (commandId : Json) (message : String)
  | accepted (order : Order)

/-- `str(command.get("command_type") or "")` -/
def commandTypeOf (command : Json) : PyExcept String := do
  return ((← command.get "command_type").orElse (.str "")).toStr

/-- The id of a device entry as `execute_command` reads it for the device lock. -/
def entryDeviceId (device : Json) : PyExcept ℤ := do (← device.item "id").toInt

/-- What `execute_command` decides before it takes the device lock. -/
def screen (command configuration : Json) : PyExcept Verdict := do
  let commandId ← command.get "command_id"
  let commandType ← commandTypeOf command
  let value ← command.get "value"
  match commandIds command with
  | .error e =>
    if e.isConversionError then
      return .rejected commandId ("Malformed command: " ++ e.message)
    else throw e
  | .ok (deviceId, tagId) =>
    if commandType ∉ validCommandTypes then
      return .rejected commandId ("Unsupported command_type: " ++ commandType)
    else
      match ← findWritableTag configuration deviceId tagId with
      | none => return .rejected commandId "Tag not found or not marked writable"
      | some (device, tag) =>
        return .accepted ⟨commandId, ← entryDeviceId device, device, tag, commandType, value⟩

/-- The id a verdict is acknowledged under. -/
def Verdict.commandId : Verdict → Json
  | .rejected commandId _ => commandId
  | .accepted order => order.commandId

theorem screen_commandId {command configuration : Json} {verdict : Verdict}
    (h : screen command configuration = .ok verdict) :
    command.get "command_id" = .ok verdict.commandId := by
  obtain ⟨commandId, hid, h⟩ := bind_eq_ok.mp h
  obtain ⟨commandType, -, h⟩ := bind_eq_ok.mp h
  obtain ⟨value, -, h⟩ := bind_eq_ok.mp h
  rw [hid]
  split at h
  · split at h <;> cases h
    rfl
  · split at h
    · cases h
      rfl
    · obtain ⟨found, -, h⟩ := bind_eq_ok.mp h
      rcases found with _ | ⟨device, tag⟩
      · cases h
        rfl
      · obtain ⟨id, -, h⟩ := bind_eq_ok.mp h
        cases h
        rfl

/-- The part of `execute_command` under the device lock, and the acknowledgement after it. -/
def executeOrder (settings : Settings) (order : Order) : PollerM Unit := do
  let succeeded ← withLock (.device order.deviceId) do
    let (client, result) ← writeToDevice settings order.device order.tag order.deviceId
      order.commandType order.value
    concludeWrite order.commandId client result
  if succeeded then ackCommand order.commandId "success" none

def carryOut (settings : Settings) : Verdict → PollerM Unit
  | .rejected commandId message => ackCommand commandId "failed" (some message)
  | .accepted order => executeOrder settings order

theorem executeOnDevice_eq (settings : Settings) (commandId device tag : Json)
    (commandType : String) (value : Json) :
    executeOnDevice settings commandId device tag commandType value =
      (Prog.ofExcept (entryDeviceId device)).bind fun deviceId =>
        executeOrder settings ⟨commandId, deviceId, device, tag, commandType, value⟩ := by
  simp only [executeOnDevice, entryDeviceId, Prog.bind_eq, Prog.monadLift_eq]
  cases device.item "id" with
  | error e => rfl
  | ok id => rfl

/-- `execute_command` screens the command and then carries the verdict out. -/
theorem executeCommand_eq (settings : Settings) (command configuration : Json) :
    executeCommand settings command configuration =
      (Prog.ofExcept (screen command configuration)).bind (carryOut settings) := by
  unfold executeCommand screen commandTypeOf
  simp only [Prog.bind_eq, Prog.liftM_eq, Prog.ofExcept_bind, Prog.bind_assoc]
  congr 1
  funext commandId
  congr 1
  funext rawType
  simp only [Prog.ofExcept_ok, Prog.pure_bind, pure, Except.pure]
  congr 1
  funext value
  cases commandIds command with
  | error e =>
    dsimp only
    cases e.isConversionError <;> rfl
  | ok ids =>
    dsimp only
    split
    · rfl
    · rw [Prog.ofExcept_bind, Prog.bind_assoc]
      congr 1
      funext found
      rcases found with _ | ⟨device, tag⟩
      · rfl
      · simp only [executeOnDevice_eq, Prog.ofExcept_bind, Prog.bind_assoc]
        rfl

/-- The request `write_command_value` sends, or what it raises before it sends one. -/
def writeRequest (tag : Json) (commandType : String) (value : Json) (slaveId : ℤ) :
    PyExcept WriteRequest := do
  let registerAddress ← (← tag.item "register_address").toInt
  if commandType = "write_register" then
    if (← ((← tag.get "function_code").orElse (.int 3)).toInt) = 4 then
      throw ⟨.valueError, "Tag is an input register (function_code=4); " ++
        "input registers are read-only in Modbus and cannot be written"⟩
    else return .register registerAddress (← value.toInt) slaveId
  else if commandType = "write_coil" then return .coil registerAddress value.truthy slaveId
  else throw ⟨.valueError, "Unsupported command type: " ++ commandType⟩

/-- The command type decides between the two requests, and both are for the address of the tag. -/
theorem writeRequest_cases {tag value : Json} {commandType : String} {slaveId : ℤ}
    {request : WriteRequest} (h : writeRequest tag commandType value slaveId = .ok request) :
    ∃ address, (do (← tag.item "register_address").toInt) = .ok address ∧
      ((commandType = "write_register" ∧
          ∃ n, value.toInt = .ok n ∧ request = .register address n slaveId) ∨
        (commandType = "write_coil" ∧ request = .coil address value.truthy slaveId)) := by
  obtain ⟨raw, hraw, h⟩ := bind_eq_ok.mp h
  obtain ⟨address, haddress, h⟩ := bind_eq_ok.mp h
  refine ⟨address, bind_eq_ok.mpr ⟨raw, hraw, haddress⟩, ?_⟩
  split at h
  · rename_i hregister
    obtain ⟨rawCode, -, h⟩ := bind_eq_ok.mp h
    obtain ⟨code, -, h⟩ := bind_eq_ok.mp h
    split at h
    · cases h
    · obtain ⟨n, hn, h⟩ := bind_eq_ok.mp h
      cases h
      exact .inl ⟨hregister, n, hn, rfl⟩
  · split at h
    · rename_i hcoil
      cases h
      exact .inr ⟨hcoil, rfl⟩
    · cases h

theorem writeCommandValue_eq (client : Client) (tag : Json) (commandType : String) (value : Json)
    (slaveId : ℤ) :
    writeCommandValue client tag commandType value slaveId =
      (Prog.ofExcept (writeRequest tag commandType value slaveId)).bind (write client) := by
  unfold writeCommandValue writeRequest
  simp only [Prog.bind_eq, Prog.liftM_eq, Prog.ofExcept_bind, Prog.bind_assoc]
  congr 1
  funext rawAddress
  congr 1
  funext registerAddress
  split
  · simp only [Prog.ofExcept_bind, Prog.bind_assoc]
    congr 1
    funext rawCode
    congr 1
    funext functionCode
    split
    · rfl
    · rw [Prog.ofExcept_bind, Prog.bind_assoc]
      rfl
  · split <;> rfl

def slaveIdOf (connection : Json) : PyExcept ℤ := do
  ((← connection.get "slave_id").orElse (.int 1)).toInt

/-- The client parameters and the request of the only write an order can come to. -/
def plannedWrite (settings : Settings) (order : Order) : PyExcept (ClientParams × WriteRequest) := do
  let (connection, communicationType) ← connectionOf order.device
  let params ← clientParams settings communicationType connection
  let slaveId ← slaveIdOf connection
  let request ← writeRequest order.tag order.commandType order.value slaveId
  return (params, request)

theorem writeRequest_of_plannedWrite {settings : Settings} {order : Order} {params : ClientParams}
    {request : WriteRequest} (h : plannedWrite settings order = .ok (params, request)) :
    ∃ slaveId, writeRequest order.tag order.commandType order.value slaveId = .ok request := by
  obtain ⟨_, -, h⟩ := bind_eq_ok.mp h
  obtain ⟨_, -, h⟩ := bind_eq_ok.mp h
  obtain ⟨slaveId, -, h⟩ := bind_eq_ok.mp h
  obtain ⟨request', hr, h⟩ := bind_eq_ok.mp h
  cases h
  exact ⟨slaveId, hr⟩

theorem connectAndWrite_eq (device tag connection : Json) (commandType : String) (value : Json)
    (client : Client) :
    connectAndWrite device tag connection commandType value client =
      (connect client).bind fun connected =>
        (if connected then Prog.pure () else unableToConnect device).bind fun _ =>
          (Prog.ofExcept (slaveIdOf connection)).bind fun slaveId =>
            (Prog.ofExcept (writeRequest tag commandType value slaveId)).bind (write client) := by
  unfold connectAndWrite
  rw [Prog.bind_eq]
  congr 1
  funext connected
  simp only [slaveIdOf, Prog.ofExcept_bind, Prog.bind_assoc, ← writeCommandValue_eq]
  cases connected <;> rfl

/-- Calls that neither write, nor acknowledge, nor fetch commands. -/
def Quiet : Call → Prop
  | .write _ _ | .postAck _ | .getPendingCommands | .currentConfiguration _ => False
  | _ => True

/-- A program whose calls are all quiet; what it returns satisfies `R` and what it raises `F`. -/
def QuietProg {α : Type} (p : PollerM α) (R : α → Prop) (F : PyError → Prop) : Prop :=
  p.wp (Protocol.only (I := calls) Quiet) (fun a _ => R a) (fun e _ => F e) ()

section quiet

variable {α β : Type} {R : α → Prop} {F : PyError → Prop}

theorem QuietProg.do {o : Call} {f : o.Answer → PollerM α} (ho : Quiet o)
    (h : ∀ r, QuietProg (f r) R F) : QuietProg ((perform o).bind f) R F := ⟨ho, h⟩

theorem QuietProg.bind {p : PollerM β} {f : β → PollerM α} {S : β → Prop}
    (hp : QuietProg p S F) (hf : ∀ b, S b → QuietProg (f b) R F) : QuietProg (p.bind f) R F :=
  (Prog.wp_bind _ _).mpr (Prog.wp_mono (fun b _ hb => hf b hb) (fun _ _ he => he) hp)

theorem QuietProg.withLock {k : LockId} {body : PollerM α} (h : QuietProg body R F) :
    QuietProg (withLock k body) R F := by
  refine .do trivial fun _ => (Prog.wp_ensure _ _).mpr ?_
  exact Prog.wp_mono (fun _ _ h => ⟨trivial, fun _ => h⟩) (fun _ _ h => ⟨trivial, fun _ => h⟩) h

theorem reapPendingCloseThreads_quiet : QuietProg reapPendingCloseThreads (fun _ => True) F :=
  .withLock ⟨trivial, fun _ => trivial⟩

theorem warnOnPendingClose_quiet (isSerial : Bool) :
    QuietProg (warnOnPendingClose isSerial) (fun _ => True) F := by
  cases isSerial with
  | false => exact trivial
  | true =>
    refine .bind reapPendingCloseThreads_quiet fun outstanding _ => ?_
    change QuietProg (if outstanding ≠ 0 then perform .warnCloseInFlight else Prog.pure ()) _ _
    split
    · exact ⟨trivial, fun _ => trivial⟩
    · exact trivial

theorem createModbusClient_quiet (settings : Settings) (deviceId : ℤ) (communicationType : String)
    (connection : Json) :
    QuietProg (createModbusClient settings deviceId communicationType connection)
      (fun client => client.device = deviceId ∧
        clientParams settings communicationType connection = .ok client.params)
      fun _ => True := by
  refine Prog.wp_bind_ofExcept (fun params hp => ?_) fun _ _ => trivial
  refine ⟨trivial, fun r => ?_⟩
  cases r with
  | error e => exact trivial
  | ok uid => exact ⟨rfl, hp⟩

theorem connect_quiet (client : Client) :
    QuietProg (connect client) (fun _ => True) fun _ => True := by
  refine .do trivial fun r => ?_
  cases r <;> exact trivial

theorem unableToConnect_quiet (device : Json) :
    QuietProg (unableToConnect device) (fun _ => False) fun _ => True :=
  Prog.wp_bind_ofExcept (fun _ _ => trivial) fun _ _ => trivial

theorem closeClientWithTimeout_quiet (client : Client) :
    QuietProg (closeClientWithTimeout client) (fun _ => True) fun _ => False := by
  refine .bind reapPendingCloseThreads_quiet fun _ _ => ?_
  refine .do trivial fun _ => .do trivial fun _ => .do trivial fun alive => ?_
  cases alive with
  | true => exact .bind (.withLock ⟨trivial, fun _ => trivial⟩) fun _ _ => ⟨trivial, fun _ => trivial⟩
  | false => exact ⟨trivial, fun _ => trivial⟩

end quiet

/-- What a protocol needs so that carrying out an order keeps to it: the stages an order goes
through, of which `Ready` comes before the write and `Over` after the acknowledgement. -/
structure Stages {L : Type} (P : Protocol calls L) (settings : Settings) (order : Order) where
  Ready : L → Prop
  Written : L → Prop
  Failed : L → Prop
  Over : L → Prop
  quiet : ∀ o, Quiet o → ∀ l, P.allowed l o ∧ ∀ r, P.next l o r = l
  failed_of_ready : ∀ l, Ready l → Failed l
  write : ∀ l client request, Ready l → client.device = order.deviceId →
    plannedWrite settings order = .ok (client.params, request) →
    P.allowed l (.write client request) ∧
      Written (P.next l (.write client request) (.ok .done)) ∧
      ∀ r, r ≠ .ok .done → Failed (P.next l (.write client request) r)
  ackFailed : ∀ l executedAt message, Failed l →
    P.allowed l (.postAck ⟨order.commandId, "failed", executedAt, some message⟩) ∧
      ∀ r, Over (P.next l (.postAck ⟨order.commandId, "failed", executedAt, some message⟩) r)
  ackSuccess : ∀ l executedAt, Written l →
    P.allowed l (.postAck ⟨order.commandId, "success", executedAt, none⟩) ∧
      ∀ r, Over (P.next l (.postAck ⟨order.commandId, "success", executedAt, none⟩) r)

section stages

variable {L : Type} {P : Protocol calls L} {l : L} {α : Type}

theorem wp_of_quiet {p : PollerM α} {R : α → Prop} {F : PyError → Prop} {Q : α → L → Prop}
    {E : PyError → L → Prop} (h : QuietProg p R F)
    (hP : ∀ o, Quiet o → ∀ l, P.allowed l o ∧ ∀ r, P.next l o r = l)
    (hQ : ∀ a, R a → Q a l) (hE : ∀ e, F e → E e l) : p.wp P Q E l := by
  refine Prog.wp_mono ?_ ?_ (Prog.wp_of_only h fun o ho => hP o ho l)
  · rintro a _ ⟨rfl, ha⟩
    exact hQ a ha
  · rintro e _ ⟨rfl, he⟩
    exact hE e he

/-- An acknowledgement is one call that matters; it raises only after that call. -/
theorem ackCommand_wp {commandId : Json} {status : String} {error : Option String} {R : L → Prop}
    (hP : ∀ o, Quiet o → ∀ l, P.allowed l o ∧ ∀ r, P.next l o r = l)
    (h : ∀ executedAt, P.allowed l (.postAck ⟨commandId, status, executedAt, error⟩) ∧
      ∀ r, R (P.next l (.postAck ⟨commandId, status, executedAt, error⟩) r)) :
    (ackCommand commandId status error).wp P (fun _ => R) (fun _ => R) l := by
  obtain ⟨ha, hn⟩ := hP .utcNow trivial l
  refine ⟨ha, fun executedAt => ?_⟩
  rw [hn]
  refine ⟨(h executedAt).1, fun r => ?_⟩
  have hr := (h executedAt).2 r
  cases r with
  | ok _ => exact hr
  | error e =>
    change Prog.wp P (if e.isRequestException then Prog.pure () else Prog.throw e) _ _ _
    split
    · exact hr
    · exact hr

/-- A lock does not matter to a protocol that passes over quiet calls. -/
theorem wp_withLock_of_quiet {k : LockId} {body : PollerM α} {Q : α → L → Prop}
    {E : PyError → L → Prop} (hP : ∀ o, Quiet o → ∀ l, P.allowed l o ∧ ∀ r, P.next l o r = l)
    (h : body.wp P Q E l) : (withLock k body).wp P Q E l := by
  obtain ⟨ha, hn⟩ := hP (.acquire k) trivial l
  refine ⟨ha, fun r => ?_⟩
  rw [hn]
  refine (Prog.wp_ensure _ _).mpr (Prog.wp_mono ?_ ?_ h)
  · intro a l' hQ
    obtain ⟨ha', hn'⟩ := hP (.release k) trivial l'
    exact ⟨ha', fun r => by rwa [hn']⟩
  · intro e l' hE
    obtain ⟨ha', hn'⟩ := hP (.release k) trivial l'
    exact ⟨ha', fun r => by rwa [hn']⟩

theorem wp_withBusLock_of_quiet {isSerial : Bool} {body : PollerM α} {Q : α → L → Prop}
    {E : PyError → L → Prop} (hP : ∀ o, Quiet o → ∀ l, P.allowed l o ∧ ∀ r, P.next l o r = l)
    (h : body.wp P Q E l) : (withBusLock isSerial body).wp P Q E l := by
  cases isSerial with
  | true => exact wp_withLock_of_quiet hP h
  | false => exact h

namespace Stages

variable {settings : Settings} {order : Order} (S : Stages P settings order)
include S

theorem connectAndWrite_wp {connection : Json} {communicationType : String} {client : Client}
    (hc : connectionOf order.device = .ok (connection, communicationType))
    (hparams : clientParams settings communicationType connection = .ok client.params)
    (hdevice : client.device = order.deviceId) (hl : S.Ready l) :
    (connectAndWrite order.device order.tag connection order.commandType order.value client).wp P
      (fun _ => S.Written) (fun _ => S.Failed) l := by
  have failed := S.failed_of_ready l hl
  rw [connectAndWrite_eq]
  refine (Prog.wp_bind _ _).mpr (wp_of_quiet (connect_quiet client) S.quiet ?_ fun _ _ => failed)
  intro connected _
  have opened : QuietProg (if connected then Prog.pure () else unableToConnect order.device)
      (fun _ => True) fun _ => True := by
    split
    · exact trivial
    · exact Prog.wp_mono (fun _ _ _ => trivial) (fun _ _ h => h) (unableToConnect_quiet order.device)
  refine (Prog.wp_bind _ _).mpr (wp_of_quiet opened S.quiet (fun _ _ => ?_) fun _ _ => failed)
  refine Prog.wp_bind_ofExcept (fun slaveId hs => ?_) fun _ _ => failed
  refine Prog.wp_bind_ofExcept (fun request hr => ?_) fun _ _ => failed
  obtain ⟨ha, hwritten, hfailed⟩ := S.write l client request hl hdevice (by
    simp [plannedWrite, hc, hparams, hs, hr, bind, Except.bind, pure, Except.pure])
  refine ⟨ha, fun r => ?_⟩
  rcases r with e | text | _
  · exact hfailed _ (by simp)
  · exact hfailed _ (by simp)
  · exact hwritten

/-- How far the order came: carried out, or failed for the reason `result` gives. -/
def Concluded (result : PyExcept Unit) (l : L) : Prop :=
  match result with
  | .ok () => S.Written l
  | .error _ => S.Failed l

theorem writeOnBus_wp {connection : Json} {communicationType : String} (isSerial : Bool)
    (hc : connectionOf order.device = .ok (connection, communicationType)) (hl : S.Ready l) :
    (writeOnBus settings order.device order.tag connection communicationType isSerial
      order.deviceId order.commandType order.value).wp P
      (fun r => S.Concluded r.2) (fun _ _ => False) l := by
  refine (Prog.wp_bind _ _).mpr (wp_attempt (wp_of_quiet
    (.bind (warnOnPendingClose_quiet isSerial) fun _ _ => createModbusClient_quiet _ _ _ _)
    S.quiet ?_ ?_))
  · rintro client ⟨hdevice, hparams⟩
    refine (Prog.wp_bind _ _).mpr (wp_attempt ?_)
    exact Prog.wp_mono (fun _ _ h => h) (fun _ _ h => h)
      (S.connectAndWrite_wp hc hparams hdevice hl)
  · exact fun _ _ => S.failed_of_ready l hl

theorem writeToDevice_wp (hl : S.Ready l) :
    (writeToDevice settings order.device order.tag order.deviceId order.commandType
      order.value).wp P (fun r => S.Concluded r.2) (fun _ _ => False) l := by
  unfold writeToDevice
  split
  · exact S.failed_of_ready l hl
  · rename_i connection communicationType hc
    exact wp_withBusLock_of_quiet S.quiet (S.writeOnBus_wp _ hc hl)

theorem concludeWrite_wp (client : Option Client) {result : PyExcept Unit}
    (hl : S.Concluded result l) :
    (concludeWrite order.commandId client result).wp P
      (fun succeeded l' => if succeeded then S.Written l' else S.Over l')
      (fun _ => S.Over) l := by
  refine Prog.wp_ensure_of_keeps ?_ fun R l' hR => ?_
  · cases result with
    | ok _ => exact hl
    | error e =>
      exact (Prog.wp_bind _ _).mpr (ackCommand_wp S.quiet fun at_ => S.ackFailed l at_ e.message hl)
  · cases client with
    | none => exact hR
    | some client =>
      exact wp_of_quiet (closeClientWithTimeout_quiet client) S.quiet (fun _ _ => hR) fun _ h => h.elim

/-- An order comes to at most the one write it plans, and then to one acknowledgement. -/
theorem executeOrder_wp (hl : S.Ready l) :
    (executeOrder settings order).wp P (fun _ => S.Over) (fun _ => S.Over) l := by
  refine (Prog.wp_bind _ _).mpr (wp_withLock_of_quiet S.quiet ((Prog.wp_bind _ _).mpr
    (Prog.wp_mono ?_ (fun _ _ h => h.elim) (S.writeToDevice_wp hl))))
  rintro ⟨client, result⟩ l₁ h₁
  refine Prog.wp_mono ?_ (fun _ _ h => h) (S.concludeWrite_wp client h₁)
  intro succeeded l₂ h₂
  cases succeeded with
  | true => exact ackCommand_wp S.quiet fun at_ => S.ackSuccess l₂ at_ h₂
  | false => exact h₂

end Stages

/-- A whole command: it is refused with one acknowledgement, or its order is carried out, or it
raises before either. -/
theorem executeCommand_stages {settings : Settings} {command configuration : Json} (Over : L → Prop)
    (hP : ∀ o, Quiet o → ∀ l, P.allowed l o ∧ ∀ r, P.next l o r = l)
    (hrejected : ∀ commandId message, screen command configuration = .ok (.rejected commandId message) →
      ∀ executedAt, P.allowed l (.postAck ⟨commandId, "failed", executedAt, some message⟩) ∧
        ∀ r, Over (P.next l (.postAck ⟨commandId, "failed", executedAt, some message⟩) r))
    (haccepted : ∀ order, screen command configuration = .ok (.accepted order) →
      ∃ S : Stages P settings order, S.Ready l ∧ ∀ l', S.Over l' → Over l') :
    (executeCommand settings command configuration).wp P (fun _ => Over)
      (fun e l' => Over l' ∨ l' = l ∧ screen command configuration = .error e) l := by
  rw [executeCommand_eq]
  refine Prog.wp_bind_ofExcept (fun verdict hv => ?_) fun e he => ?_
  · cases verdict with
    | rejected commandId message =>
      exact Prog.wp_mono (fun _ _ h => h) (fun _ _ h => .inl h)
        (ackCommand_wp hP (hrejected commandId message hv))
    | accepted order =>
      obtain ⟨S, hready, hover⟩ := haccepted order hv
      exact Prog.wp_mono (fun _ l' h => hover l' h) (fun _ l' h => .inl (hover l' h))
        (S.executeOrder_wp hready)
  · exact .inr ⟨rfl, he⟩

end stages

end SenseGateway.Commands

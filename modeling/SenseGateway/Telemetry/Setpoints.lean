import SenseGateway.Commands.Coercion
import SenseGateway.Effects.Schedule
import SenseGateway.Telemetry.Plant
import SenseGateway.Telemetry.Sourced

namespace SenseGateway.Telemetry

open Python Effects Poller

/-- The command asks for this value in this register: that of the tag that it is let through to. -/
def Obeys (settings : Settings) (command configuration : Json) (register : Register) (value : ℤ) :
    Prop :=
  ∃ deviceId tagId device tag, Commands.commandIds command = .ok (deviceId, tagId) ∧
    Commands.Authorizes configuration deviceId tagId device tag ∧
    registerOf settings device tag = .ok register ∧
    (do (← command.get "value").toInt) = .ok value

section promises

variable (settings : Settings) (polled : Json → Prop) (ours : Register → Prop) (start : Plant)

/-- Registers are written by commands only, and by each where it says. -/
def Commanded (before : List (Thread × Event calls)) (x : Thread × Event calls) : Prop :=
  ∀ register value, written x.2 = some (register, value) →
    x.1 = .command ∧ ∃ command configuration,
      (plantMachine settings polled ours).Performs .command
        (Commands.executeCommand settings command configuration) before x.2 ∧
      Obeys settings command configuration register value

/-- The command of this id is carried out by a write that is confirmed after `past`, and its run goes
on to the call `e`, after `later`. -/
structure CarriedOut (command configuration commandId : Json) (client : Client)
    (request : WriteRequest) (past later : List (Thread × Event calls)) (e : Event calls) : Prop where
  run : (plantMachine settings polled ours).InRun .command
    (Commands.executeCommand settings command configuration) past
    ⟨.write client request, .ok .done⟩ later e
  commandId : command.get "command_id" = .ok commandId
  planned : Commands.Planned settings command configuration client request

/-- A success is told of a write that has been confirmed in the same run of `execute_command`. -/
def Truthful (before : List (Thread × Event calls)) (x : Thread × Event calls) : Prop :=
  ∀ ack r, x = (.command, ⟨.postAck ack, r⟩) → ack.status = "success" →
    ∃ command configuration client request past later,
      before = past ++ (.command, ⟨.write client request, .ok .done⟩) :: later ∧
      CarriedOut settings polled ours command configuration ack.commandId client request past later x.2

/-- Holding registers are read as they are. -/
def Answered (before : List (Thread × Event calls)) (x : Thread × Event calls) : Prop :=
  ∀ register request registers, readings x.2 = some (register, request, registers) →
    request.functionCode = 3 →
      ∃ plant, Fits ours start plant before ∧ registers = plant.words register request.count

/-- No pass of the tag loop begins. -/
def OnePass (log : List (Thread × Event calls)) : Prop :=
  ∀ x ∈ log, x.1 = .poll → ∀ key, x.2.op ≠ .lastPoll key

/-- The ids a reading carries. -/
def Names (device tag : Json) (reading : Poller.Reading) : Prop :=
  (do (← device.item "id").toInt) = .ok reading.deviceId ∧
    (do (← tag.item "id").toInt) = .ok reading.tagId

/-- The pass in which the call `e` stores the reading belongs to a run of `run_device` for the device
entry. It has made the read after `past`, and the reading is what the tag makes of the answer. -/
structure Reported (device tag : Json) (register : Register) (reading : Poller.Reading)
    (read : LastRead) (past pass : List (Thread × Event calls)) (e : Event calls) : Prop where
  listed : polled device
  run : (plantMachine settings polled ours).InRun .poll (runDevice settings device) past read.event
    pass e
  onePass : OnePass pass
  sourced : Sourced settings device tag read reading
  names : Names device tag reading
  register : registerOf settings device tag = .ok register

/-- A reading of holding registers is what a tag makes of what they contained in the pass that stores
it. -/
def Shown (before : List (Thread × Event calls)) (x : Thread × Event calls) : Prop :=
  ∀ reading stamp r, x = (.poll, ⟨.insertTelemetry reading stamp, r⟩) →
    ∃ device tag register read past pass, before = past ++ (.poll, read.event) :: pass ∧
      Reported settings polled ours device tag register reading read past pass x.2 ∧
      (functionCodeOf tag = .ok 3 → ∃ count plant, registerCountOf tag = .ok count ∧
        Fits ours start plant past ∧
        engineeringValue settings tag (plant.words register count) = .ok reading.value)

end promises

section glue

variable {settings : Settings}

theorem bind_toInt {x : PyExcept Json} {v : Json} {n : ℤ} (hx : x = .ok v) (hv : v.toInt = .ok n) :
    (do (← x).toInt) = .ok n := bind_eq_ok.mpr ⟨v, hx, hv⟩

theorem registerOf_eq {device tag connection : Json} {communicationType : String} {params : ClientParams}
    {slave address : ℤ}
    (hconnection : Commands.connectionOf device = .ok (connection, communicationType))
    (hparams : clientParams settings communicationType connection = .ok params)
    (hslave : Commands.slaveIdOf connection = .ok slave)
    (haddress : (do (← tag.item "register_address").toInt) = .ok address) :
    registerOf settings device tag = .ok ⟨params, slave, address⟩ := by
  obtain ⟨raw, hraw, haddress⟩ := bind_eq_ok.mp haddress
  exact bind_eq_ok.mpr ⟨_, hconnection, bind_eq_ok.mpr ⟨_, hparams, bind_eq_ok.mpr ⟨_, hslave,
    bind_eq_ok.mpr ⟨raw, hraw, bind_eq_ok.mpr ⟨_, haddress, rfl⟩⟩⟩⟩⟩

theorem obeys_of_planned {command configuration : Json} {client : Client} {address value slave : ℤ}
    (h : Commands.Planned settings command configuration client (.register address value slave)) :
    Obeys settings command configuration ⟨client.params, slave, address⟩ value := by
  obtain ⟨order, hscreen, hdevice, hplan⟩ := h
  obtain ⟨deviceId, tagId, hids, -, -, hfind, hid⟩ := Commands.screen_accepted hscreen
  obtain ⟨-, ⟨connection, communicationType, hconnection, hparams, hslave⟩, haddress⟩ :=
    Commands.plannedWrite_targets hid hdevice hplan
  refine ⟨deviceId, tagId, order.device, order.tag, hids, Commands.findWritableTag_authorizes hfind,
    registerOf_eq hconnection hparams hslave haddress, ?_⟩
  rcases Commands.value_of_plannedWrite hplan with ⟨_, n, _, -, hn, hrequest⟩ | ⟨_, _, -, hrequest⟩
  · cases hrequest
    exact bind_toInt (Commands.screen_value hscreen) hn
  · cases hrequest

theorem obeys_of_written {command configuration : Json} {client : Client} {request : WriteRequest}
    {r : PyExcept WriteReply} {register : Register} {value : ℤ}
    (h : Commands.Planned settings command configuration client request)
    (hwritten : written ⟨.write client request, r⟩ = some (register, value)) :
    Obeys settings command configuration register value := by
  cases request with
  | register address n slave =>
    cases hwritten
    exact obeys_of_planned h
  | coil address on slave => cases hwritten

/-- The tag entry says which registers are read. -/
theorem parts_of_readRequest {tag : Json} {slaveId : ℤ} {request : ReadRequest}
    (h : Diagnose.readRequest tag slaveId = .ok request) :
    request.slave = slaveId ∧ functionCodeOf tag = .ok request.functionCode ∧
      (do (← tag.item "register_address").toInt) = .ok request.address ∧
        registerCountOf tag = .ok request.count := by
  obtain ⟨rawCode, hrawCode, h⟩ := bind_eq_ok.mp h
  obtain ⟨functionCode, hcode, h⟩ := bind_eq_ok.mp h
  obtain ⟨rawAddress, hrawAddress, h⟩ := bind_eq_ok.mp h
  obtain ⟨address, haddress, h⟩ := bind_eq_ok.mp h
  obtain ⟨rawCount, hrawCount, h⟩ := bind_eq_ok.mp h
  obtain ⟨count, hcount, h⟩ := bind_eq_ok.mp h
  split at h
  · obtain rfl := Except.ok.inj h
    exact ⟨rfl, bind_eq_ok.mpr ⟨_, hrawCode, hcode⟩, bind_toInt hrawAddress haddress,
      bind_eq_ok.mpr ⟨_, hrawCount, hcount⟩⟩
  · cases h

/-- The device entry says which slave is asked. -/
theorem parts_of_plannedRead {device tag connection : Json} {communicationType : String}
    {deviceId tagId : ℤ} {request : ReadRequest}
    (hconnection : Commands.connectionOf device = .ok (connection, communicationType))
    (h : Diagnose.plannedRead device tag = .ok (deviceId, tagId, request)) :
    (do (← device.item "id").toInt) = .ok deviceId ∧ (do (← tag.item "id").toInt) = .ok tagId ∧
      ∃ slaveId, Commands.slaveIdOf connection = .ok slaveId ∧
        Diagnose.readRequest tag slaveId = .ok request := by
  obtain ⟨rawDevice, hrawDevice, h⟩ := bind_eq_ok.mp h
  obtain ⟨deviceId', hdeviceId, h⟩ := bind_eq_ok.mp h
  obtain ⟨rawTag, hrawTag, h⟩ := bind_eq_ok.mp h
  obtain ⟨tagId', htagId, h⟩ := bind_eq_ok.mp h
  obtain ⟨connection', hconnection', h⟩ := bind_eq_ok.mp h
  obtain ⟨rawSlave, hrawSlave, h⟩ := bind_eq_ok.mp h
  obtain ⟨slaveId, hslaveId, h⟩ := bind_eq_ok.mp h
  obtain ⟨request', hrequest, h⟩ := bind_eq_ok.mp h
  cases h
  refine ⟨bind_toInt hrawDevice hdeviceId, bind_toInt hrawTag htagId, slaveId, ?_, hrequest⟩
  -- both take the connection from the same entry
  obtain ⟨raw, hraw, hconnection⟩ := bind_eq_ok.mp hconnection
  obtain ⟨raw', hraw', hconnection'⟩ := bind_eq_ok.mp hconnection'
  cases hraw.symm.trans hraw'
  obtain ⟨_, -, hconnection⟩ := bind_eq_ok.mp hconnection
  cases hconnection
  cases hconnection'
  exact bind_eq_ok.mpr ⟨rawSlave, hrawSlave, hslaveId⟩

/-- The entries name the register that is read, and how. -/
theorem Sourced.target {device tag : Json} {read : LastRead} {reading : Poller.Reading}
    (h : Sourced settings device tag read reading) :
    Names device tag reading ∧
      registerOf settings device tag =
        .ok ⟨read.client.params, read.request.slave, read.request.address⟩ ∧
      functionCodeOf tag = .ok read.request.functionCode ∧
        registerCountOf tag = .ok read.request.count := by
  obtain ⟨connection, communicationType, hconnection, hparams⟩ := h.params
  obtain ⟨hdevice, htag, slaveId, hslave, hrequest⟩ := parts_of_plannedRead hconnection h.request
  obtain ⟨rfl, hcode, haddress, hcount⟩ := parts_of_readRequest hrequest
  exact ⟨⟨hdevice, htag⟩, registerOf_eq hconnection hparams hslave haddress, hcode, hcount⟩

end glue

/-- What holds of the plant and of the log of the calls. -/
structure Faithful (settings : Settings) (polled : Json → Prop) (ours : Register → Prop)
    (start plant : Plant) (log : List (Thread × Event calls)) : Prop where
  fits : Fits ours start plant log
  answered : Throughout (Answered ours start) log
  commanded : Throughout (Commanded settings polled ours) log
  truthful : Throughout (Truthful settings polled ours) log
  shown : Throughout (Shown settings polled ours start) log

section faithful

variable {settings : Settings} {polled : Json → Prop} {ours : Register → Prop}
  {start plant plant' : Plant}
  {log : List (Thread × Event calls)} {t : Thread} {o : Call} {r : o.Answer}

theorem answered_call (hfits : Fits ours start plant log) (hs : Plant.serves t plant o r plant') :
    Answered ours start log (t, ⟨o, r⟩) := by
  intro register request registers hread hcode
  cases o with
  | read client request' => exact ⟨plant, hfits, hs.2 register request registers hread hcode⟩
  | _ => cases hread

theorem commanded_call {p : PollerM Unit}
    (h : (plantMachine settings polled ours).Performs t p log ⟨o, r⟩) :
    Commanded settings polled ours log (t, ⟨o, r⟩) := by
  intro register value hwritten
  cases o with
  | write client request =>
    obtain ⟨es, hlatest, htrace⟩ := id h
    cases t with
    | poll =>
      obtain ⟨device, -, rfl⟩ := hlatest.1
      have hallows := (htrace.wp (runDevice_follows none)).1
      obtain ⟨-, ⟨hnever, -⟩, -⟩ := ((sourced settings device).allows_append _ _ _).mp hallows
      exact absurd rfl (hnever client request)
    | command =>
      obtain ⟨command, configuration, rfl⟩ := hlatest.1
      have hallows := (htrace.wp executeCommand_orderly).1
      have hplanned := (((orderly settings command configuration).allows_append _ _ _).mp hallows).2.1
      exact ⟨rfl, command, configuration, h, obeys_of_written hplanned hwritten⟩
  | _ => cases hwritten

theorem truthful_call {p : PollerM Unit}
    (h : (plantMachine settings polled ours).Performs t p log ⟨o, r⟩) :
    Truthful settings polled ours log (t, ⟨o, r⟩) := by
  rintro ack answer heq hsuccess
  cases heq
  obtain ⟨es, hlatest, htrace⟩ := h
  obtain ⟨command, configuration, rfl⟩ := hlatest.1
  have hallows := (htrace.wp executeCommand_orderly).1
  obtain ⟨hid, client, request, es₁, es₂, hplanned, rfl⟩ := write_of_success hallows hsuccess
  obtain ⟨past, later, rfl, -, hrun⟩ := hlatest.inRun htrace
  exact ⟨command, configuration, client, request, past, later, rfl, hrun, hid, hplanned⟩

theorem shown_call {p : PollerM Unit} (hanswered : Throughout (Answered ours start) log)
    (h : (plantMachine settings polled ours).Performs t p log ⟨o, r⟩) :
    Shown settings polled ours start log (t, ⟨o, r⟩) := by
  rintro reading stamp answer heq
  cases heq
  obtain ⟨es, hlatest, htrace⟩ := h
  obtain ⟨device, hpolled, rfl⟩ := hlatest.1
  have hallows := (htrace.wp (runDevice_follows none)).1
  obtain ⟨tag, read, es₁, es₂, hsourced, rfl, hpass⟩ := read_of_stored hallows
  obtain ⟨hnames, hregister, hcode, hcount⟩ := hsourced.target
  obtain ⟨past, pass, rfl, rfl, hrun⟩ := hlatest.inRun htrace
  have hanswer := hanswered past _ pass rfl
  refine ⟨device, tag, _, read, past, pass, rfl, ⟨hpolled, hrun, ?_, hsourced, hnames, hregister⟩,
    fun hthree => ?_⟩
  · intro x hx hpoll key
    refine hpass x.2 ?_ key
    exact List.mem_filterMap.mpr ⟨x, hx, by simp [hpoll]⟩
  · rw [hthree] at hcode
    obtain ⟨plant, hfits, hregisters⟩ :=
      hanswer _ read.request read.registers rfl (Except.ok.inj hcode).symm
    exact ⟨_, plant, hcount, hfits, hregisters ▸ hsourced.value⟩

/-- Every run is faithful. -/
theorem faithful_of_reach {c : Config calls PyError Thread (Plant × List (Thread × Event calls))}
    (hstart : ∀ register, Word (start register))
    (hr : (plantMachine settings polled ours).logging.Reach (Machine.fresh start) c) :
    Faithful settings polled ours start c.world.1 c.world.2 := by
  refine Machine.log_of_reach hr ?_ ?_ ?_
  · exact ⟨fits_start hstart, throughout_nil, throughout_nil, throughout_nil, throughout_nil⟩
  · intro t plant log o r plant' p h hs hcall
    exact ⟨h.fits.serves hs, h.answered.snoc (answered_call h.fits hs),
      h.commanded.snoc (commanded_call hcall), h.truthful.snoc (truthful_call hcall),
      h.shown.snoc (shown_call h.answered hcall)⟩
  · rintro running plant log plant' h ⟨register, value, hours, hvalue, rfl⟩
    exact ⟨h.fits.update hours hvalue, h.answered, h.commanded, h.truthful, h.shown⟩

end faithful

/-- The reading shows the value, or one that a call has tried to write since. -/
def ShowsSince (register : Register) (value : ℤ) (since : List (Thread × Event calls))
    (reading : Poller.Reading) : Prop :=
  reading.value = .finite value ∨
    ∃ x ∈ since, ∃ n : ℤ, written x.2 = some (register, n) ∧ reading.value = .finite n

section fresh

variable {settings : Settings} {ours : Register → Prop} {start : Plant}

/-- What comes before the beginning of a pass is past where the pass reads. -/
theorem past_of_pass (before : List (Thread × Event calls))
    {pass past following : List (Thread × Event calls)} {key : ℤ × ℤ} {previous : Option PyFloat}
    {read : LastRead}
    (h : before ++ (.poll, ⟨.lastPoll key, previous⟩) :: pass =
      past ++ (.poll, read.event) :: following) (hpass : OnePass following) :
    ∃ unread, past = before ++ (.poll, ⟨.lastPoll key, previous⟩) :: unread ∧
      pass = unread ++ (.poll, read.event) :: following := by
  rcases List.append_eq_append_iff.mp h with ⟨_ | ⟨x, unread⟩, rfl, hrest⟩ | ⟨_ | ⟨x, rest⟩, rfl, hrest⟩
  · cases hrest
  · obtain ⟨rfl, rfl⟩ := List.cons.inj hrest
    exact ⟨unread, rfl, rfl⟩
  · cases hrest
  · obtain ⟨rfl, rfl⟩ := List.cons.inj hrest
    exact absurd rfl (hpass (.poll, ⟨.lastPoll key, previous⟩) (by simp) rfl key)

theorem Current.since {past later acked : List (Thread × Event calls)} {y : Thread × Event calls}
    {register : Register} {value n : ℤ} (h : Current start (past ++ y :: later) register n)
    (hwritten : written y.2 = some (register, value)) (hconfirmed : confirmed y.2 = true)
    (hlater : ∀ x ∈ later, written x.2 = none ∨ x ∈ acked) {reading : Poller.Reading}
    (hreading : reading.value = .finite n) : ShowsSince register value acked reading := by
  rcases h.notOlder past y later value rfl hwritten hconfirmed with rfl | ⟨x, hx, hx'⟩
  · exact .inl hreading
  · refine .inr ⟨x, (hlater x hx).resolve_left fun hnone => ?_, n, hx', hreading⟩
    rw [hnone] at hx'
    cases hx'

end fresh

/-- Remote control as the cloud sees it. In every run, whatever the locks, the clock, the stores and the
devices do: a reading of holding registers is what its tag makes of values that can be there, read in
the pass that stores it; registers are only written by commands, which the tag and the device entry
that they are let through to send to the same register that these are read from; and a reading whose
pass begins after a command has been told a success shows the value that was commanded in the run of
`execute_command` that has told it, unless a command has tried to write another since. -/
theorem setpoint_reported {settings : Settings} {polled : Json → Prop} {ours : Register → Prop}
    {start : Plant}
    {c : Config calls PyError Thread (Plant × List (Thread × Event calls))}
    (hstart : ∀ register, Word (start register))
    (hr : (plantMachine settings polled ours).logging.Reach (Machine.fresh start) c) :
    Throughout (Shown settings polled ours start) c.world.2 ∧
    Throughout (Commanded settings polled ours) c.world.2 ∧
    ∀ told ack answer waiting key previous pass reading stamp stored rest,
      c.world.2 = told ++ (.command, ⟨.postAck ack, answer⟩) :: (waiting ++
        (.poll, ⟨.lastPoll key, previous⟩) :: (pass ++
          (.poll, ⟨.insertTelemetry reading stamp, stored⟩) :: rest)) →
      ack.status = "success" →
      ∃ command configuration client request past later device tag register read unread following,
        told = past ++ (.command, ⟨.write client request, .ok .done⟩) :: later ∧
        CarriedOut settings polled ours command configuration ack.commandId client request past later
          ⟨.postAck ack, answer⟩ ∧
        pass = unread ++ (.poll, read.event) :: following ∧
        Reported settings polled ours device tag register reading read
          (told ++ (.command, ⟨.postAck ack, answer⟩) :: (waiting ++
            (.poll, ⟨.lastPoll key, previous⟩) :: unread))
          following ⟨.insertTelemetry reading stamp, stored⟩ ∧
        ∀ value, written ⟨.write client request, .ok .done⟩ = some (register, value) →
          ours register → functionCodeOf tag = .ok 3 → Plain tag →
            ShowsSince register value (later ++ waiting ++ unread) reading := by
  have h := faithful_of_reach hstart hr
  refine ⟨h.shown, h.commanded, fun told ack answer waiting key previous pass reading stamp stored rest
    hlog hsuccess => ?_⟩
  obtain ⟨command, configuration, client, request, past, later, htold, hcarried⟩ :=
    h.truthful told _ _ hlog ack answer rfl hsuccess
  obtain ⟨device, tag, register, read, past', following, hcut, hreported, hshown⟩ :=
    h.shown (told ++ (.command, ⟨.postAck ack, answer⟩) :: (waiting ++
      (.poll, ⟨.lastPoll key, previous⟩) :: pass)) _ rest (by rw [hlog]; simp) reading stamp stored rfl
  obtain ⟨unread, rfl, rfl⟩ := past_of_pass (told ++ (.command, ⟨.postAck ack, answer⟩) :: waiting)
    (by simpa using hcut) hreported.onePass
  rw [List.append_assoc, List.cons_append] at hreported hshown
  refine ⟨command, configuration, client, request, past, later, device, tag, register, read, unread,
    following, htold, hcarried, rfl, hreported, fun value hwritten hours hcode hplain => ?_⟩
  obtain ⟨count, plant, hcount, hfits, hvalue⟩ := hshown hcode
  cases hplain.registerCount.symm.trans hcount
  rw [words_one] at hvalue
  have hreading := hplain.value (hfits.word register) hvalue
  have hcurrent := hfits.current register hours
  rw [htold, List.append_assoc, List.cons_append] at hcurrent
  refine hcurrent.since hwritten rfl (fun x hx => ?_) hreading
  simp only [List.append_assoc, List.mem_append, List.mem_cons] at hx ⊢
  rcases hx with hx | rfl | hx | rfl | hx
  · exact .inr (.inl hx)
  · exact .inl rfl
  · exact .inr (.inr (.inl hx))
  · exact .inl rfl
  · exact .inr (.inr (.inr hx))

/-- Devices that answer every request, at a time when every tag is due. -/
def Plant.answer (plant : Plant) : (o : Call) → o.Answer × Plant
  | .read client request =>
    (.ok (.registers (plant.words ⟨client.params, request.slave, request.address⟩ request.count)), plant)
  | .write client (.register address value slave) =>
    if Word value then (.ok .done, Function.update plant ⟨client.params, slave, address⟩ value)
    else (.error ⟨.other, "ushort format requires 0 <= number <= 65535"⟩, plant)
  | .monotonic => (.finite 1000, plant)
  | o => (friendly o, plant)

theorem Plant.answer_serves (t : Thread) (plant : Plant) (o : Call) :
    Plant.serves t plant o (plant.answer o).1 (plant.answer o).2 := by
  cases o with
  | read client request =>
    refine ⟨rfl, fun register request' registers hread _ => ?_⟩
    cases hread
    rfl
  | write client request =>
    cases request with
    | register address value slave =>
      by_cases hvalue : Word value
      · simp only [Plant.answer, if_pos hvalue]
        exact .inr ⟨hvalue, rfl⟩
      · simp only [Plant.answer, if_neg hvalue]
        exact .inl ⟨rfl, rfl⟩
    | coil address on slave => exact ⟨rfl, fun _ _ _ hread => by cases hread⟩
  | _ => exact ⟨rfl, fun _ _ _ hread => by cases hread⟩

def plantDriver (settings : Settings) (polled : Json → Prop) (ours : Register → Prop) :
    Driver (plantMachine settings polled ours).logging where
  answer t w o := some ((w.1.answer o).1, (w.1.answer o).2, w.2 ++ [(t, ⟨o, (w.1.answer o).1⟩)])
  sound := by
    rintro t w o r w' h
    cases h
    exact ⟨Plant.answer_serves t w.1 o, rfl⟩

/-- A tag of one register that can be written. -/
def setpointTag : Json :=
  .obj [("id", .int 7), ("writable", .bool true), ("register_address", .int 40),
    ("data_type", .str "Word")]

def setpointDevice : Json :=
  .obj [("id", .int 1), ("communication_type", .str "rtu"),
    ("connection", .obj [("serial_port", .str "COM3")]), ("tags", .arr [setpointTag])]

def setpointRegister : Register := ⟨.serial "COM3" 9600 "N" 1, 1, 40⟩

theorem plain_setpointTag : Plain setpointTag where
  registerCount := rfl
  dataType := ⟨_, rfl, by decide⟩
  byteOrder := ⟨_, rfl, by decide⟩
  conversion := ⟨0, rfl, le_rfl⟩

/-- The write that the command for the tag comes to. -/
def setpointWrite : Event calls :=
  ⟨.write ⟨0, 1, setpointRegister.params⟩ (.register 40 5 1), (.ok .done : PyExcept WriteReply)⟩

def setpointAck : Ack := ⟨.int 9, "success", "", none⟩

def setpointReading : Poller.Reading := ⟨1, 7, .finite 5, "good"⟩

/-- The command is carried out, and then the device is polled up to where the reading is stored. -/
def setpointRun : List (Move (plantMachine ⟨"", []⟩ (· = setpointDevice) fun _ => True).logging) :=
  let driver := plantDriver ⟨"", []⟩ (· = setpointDevice) fun _ => True
  [.start .command (Commands.executeCommand ⟨"", []⟩ (Commands.writeCommand 1)
      (.obj [("devices", .arr [setpointDevice])])) ⟨_, _, rfl⟩,
    .steps driver .command 19,
    .start .poll (runDevice ⟨"", []⟩ setpointDevice) ⟨_, rfl, rfl⟩,
    .steps driver .poll 14]

theorem setpoint_reported_sample :
    ∃ (c : Config calls PyError Thread (Plant × List (Thread × Event calls)))
      (past later waiting unread following : List (Thread × Event calls)) (read : LastRead),
      (plantMachine ⟨"", []⟩ (· = setpointDevice) fun _ => True).logging.Reach
        (Machine.fresh fun _ => 0) c ∧
      c.world.2 = past ++ (.command, setpointWrite) :: later ++
        (.command, ⟨.postAck setpointAck, .ok ()⟩) ::
        (waiting ++ (.poll, ⟨.lastPoll (1, 7), none⟩) :: (unread ++ (.poll, read.event) :: following ++
          (.poll, ⟨.insertTelemetry setpointReading "", .ok ()⟩) :: [])) ∧
      ShowsSince setpointRegister 5 (later ++ waiting ++ unread) setpointReading := by
  obtain ⟨c, hr, hlog, hwrites⟩ := Move.reach_of_schedule (Machine.fresh fun _ => 0) setpointRun
    (fun c => c.world.2 = c.world.2.take 18 ++ (.command, ⟨.postAck setpointAck, .ok ()⟩) ::
        ((c.world.2.drop 19).take 9 ++ (.poll, ⟨.lastPoll (1, 7), none⟩) ::
          ((c.world.2.drop 29).take 3 ++ (.poll, ⟨.insertTelemetry setpointReading "", .ok ()⟩) :: [])) ∧
      (c.world.2.take 18).filter (fun x => confirmed x.2) = [(.command, setpointWrite)])
    (by decide +kernel)
  obtain ⟨-, -, hfresh⟩ := setpoint_reported (fun _ => ⟨le_rfl, by decide⟩) hr
  obtain ⟨command, configuration, client, request, past, later, device, tag, register, read, unread,
    following, htold, -, hpass, hreported, hshows⟩ := hfresh _ _ _ _ _ _ _ _ _ _ _ hlog rfl
  obtain rfl : device = setpointDevice := hreported.listed
  obtain ⟨tags, htags, htag⟩ := hreported.sourced.listed
  have hregister := hreported.register
  obtain rfl : _ = tags := Except.ok.inj htags
  obtain rfl : tag = setpointTag := List.mem_singleton.mp htag
  obtain rfl : setpointRegister = register := Except.ok.inj hregister
  have hwrite : (Thread.command, (⟨.write client request, .ok .done⟩ : Event calls)) ∈
      (c.world.2.take 18).filter fun x => confirmed x.2 := by
    rw [htold]
    exact List.mem_filter.mpr ⟨by simp, rfl⟩
  rw [hwrites] at hwrite
  cases List.mem_singleton.mp hwrite
  refine ⟨c, past, later, _, unread, following, read, hr, hlog.trans ?_,
    hshows 5 rfl trivial rfl plain_setpointTag⟩
  rw [htold, hpass]
  rfl

end SenseGateway.Telemetry

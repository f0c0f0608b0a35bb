import SenseGateway.Commands.Authorization

namespace SenseGateway.Commands

open Python Effects Poller

/-- The declared function code of a tag, where a missing one means 3. -/
def declaredCode (tag : Json) : PyExcept ℤ := do
  ((← tag.get "function_code").orElse (.int 3)).toInt

/-- The Modbus function codes that read or write coils. -/
def coilCodes : List ℤ := [1, 5, 15]

/-- The command type is one for the declared type of the tag. -/
def Matches (commandType : String) (tag : Json) : Prop :=
  commandType = "write_register" ∧ declaredCode tag = .ok 3 ∨
    commandType = "write_coil" ∧ ∃ code ∈ coilCodes, declaredCode tag = .ok code

/-- The command names a tag of the configuration that the gate lets it write. -/
def Names (command configuration : Json) (commandType : String) (tag : Json) : Prop :=
  commandTypeOf command = .ok commandType ∧ ∃ deviceId tagId device,
    commandIds command = .ok (deviceId, tagId) ∧
      findWritableTag configuration deviceId tagId = .ok (some (device, tag))

/-- The acknowledgements of a run, in order. -/
def acks (es : List (Event calls)) : List Ack :=
  es.filterMap fun e =>
    match e.op with
    | .postAck ack => some ack
    | _ => none

/-- Every run of the command keeps coil writes to coil tags and register writes to tags with
code 3, and refuses every other combination before the wire with a failed acknowledgement. -/
def TypeSafe (settings : Settings) (command configuration : Json) : Prop :=
  ∀ es out, Prog.Trace (executeCommand settings command configuration) es out →
    ∀ commandType tag, Names command configuration commandType tag →
      (∀ client address value slave, (client, .coil address value slave) ∈ writes es →
        ∃ code ∈ coilCodes, declaredCode tag = .ok code) ∧
      (∀ client address value slave, (client, .register address value slave) ∈ writes es →
        declaredCode tag = .ok 3) ∧
      (¬ Matches commandType tag →
        writes es = [] ∧ (out ≠ none → ∃ ack ∈ acks es, ack.status = "failed"))

/-- A mismatched command gets past the checks: `execute_command` raises before it decides, or
every conversion on the way to the write succeeds. -/
def Slips (settings : Settings) (command configuration : Json) : Prop :=
  ∃ commandType tag, Names command configuration commandType tag ∧ ¬ Matches commandType tag ∧
    ((∃ e, screen command configuration = .error e) ∨
      ∃ order w, screen command configuration = .ok (.accepted order) ∧
        plannedWrite settings order = .ok w)

theorem Names.unique {command configuration tag tag' : Json} {commandType commandType' : String}
    (h : Names command configuration commandType tag)
    (h' : Names command configuration commandType' tag') :
    commandType = commandType' ∧ tag = tag' := by
  obtain ⟨htype, deviceId, tagId, device, hids, hfind⟩ := h
  obtain ⟨htype', deviceId', tagId', device', hids', hfind'⟩ := h'
  obtain ⟨rfl, rfl⟩ : deviceId = deviceId' ∧ tagId = tagId' := by simpa using hids.symm.trans hids'
  have hfound := hfind.symm.trans hfind'
  exact ⟨Except.ok.inj (htype.symm.trans htype'), by simp_all⟩

theorem names_of_accepted {command configuration : Json} {order : Order}
    (h : screen command configuration = .ok (.accepted order)) :
    Names command configuration order.commandType order.tag := by
  obtain ⟨deviceId, tagId, hids, htype, -, hfind, -⟩ := screen_accepted h
  exact ⟨htype, deviceId, tagId, order.device, hids, hfind⟩

/-- The command type that sends a request of this kind. -/
def commandTypeFor : WriteRequest → String
  | .register _ _ _ => "write_register"
  | .coil _ _ _ => "write_coil"

theorem commandType_of_writeRequest {tag value : Json} {commandType : String} {slaveId : ℤ}
    {request : WriteRequest} (h : writeRequest tag commandType value slaveId = .ok request) :
    commandType = commandTypeFor request := by
  obtain ⟨address, -, ⟨htype, n, -, rfl⟩ | ⟨htype, rfl⟩⟩ := writeRequest_cases h
  · exact htype
  · exact htype

theorem commandType_of_plannedWrite {settings : Settings} {order : Order} {params : ClientParams}
    {request : WriteRequest} (h : plannedWrite settings order = .ok (params, request)) :
    order.commandType = commandTypeFor request := by
  obtain ⟨slaveId, hr⟩ := writeRequest_of_plannedWrite h
  exact commandType_of_writeRequest hr

/-- Where no mismatched command slips, what is written matches. -/
theorem matches_of_planned {settings : Settings} {command configuration : Json}
    (hslip : ¬ Slips settings command configuration) {client : Client} {request : WriteRequest}
    (h : Planned settings command configuration client request) {commandType : String} {tag : Json}
    (hn : Names command configuration commandType tag) :
    Matches commandType tag ∧ commandType = commandTypeFor request := by
  obtain ⟨order, hscreen, -, hplan⟩ := h
  obtain ⟨rfl, rfl⟩ := hn.unique (names_of_accepted hscreen)
  refine ⟨?_, commandType_of_plannedWrite hplan⟩
  by_contra hm
  exact hslip ⟨_, _, hn, hm, .inr ⟨order, _, hscreen, hplan⟩⟩

/-- The local state says whether a failed acknowledgement has been sent. -/
def failedAck : Protocol calls Bool where
  allowed _ _ := True
  next sent o _ :=
    match o with
    | .postAck ack => sent || ack.status = "failed"
    | _ => sent

theorem ack_of_failedAck {es : List (Event calls)} (h : failedAck.after false es = true) :
    ∃ ack ∈ acks es, ack.status = "failed" := by
  induction es with
  | nil => cases h
  | cons e es ih =>
    obtain ⟨op, r⟩ := e
    cases op with
    | postAck ack =>
      by_cases hack : ack.status = "failed"
      · exact ⟨ack, by simp [acks], hack⟩
      · have hrest : failedAck.after false es = true := by
          simpa [Protocol.after, failedAck, hack] using h
        obtain ⟨ack', hmem, hstatus⟩ := ih hrest
        exact ⟨ack', by simpa [acks] using .inr (by simpa [acks] using hmem), hstatus⟩
    | _ => exact ih h

theorem failedAck_quiet (o : Call) (ho : Quiet o) (sent : Bool) :
    failedAck.allowed sent o ∧ ∀ r, failedAck.next sent o r = sent := by
  refine ⟨trivial, fun r => ?_⟩
  cases o with
  | postAck ack => exact ho.elim
  | _ => rfl

/-- A mismatched command that does not slip is acknowledged as failed in every complete run. -/
theorem failed_of_mismatch {settings : Settings} {command configuration : Json}
    (hslip : ¬ Slips settings command configuration) {commandType : String} {tag : Json}
    (hn : Names command configuration commandType tag) (hm : ¬ Matches commandType tag)
    {es : List (Event calls)} {out : PyExcept Unit}
    (h : Prog.Trace (executeCommand settings command configuration) es (some out)) :
    ∃ ack ∈ acks es, ack.status = "failed" := by
  have failed (executedAt : String) (commandId : Json) (message : String) (sent : Bool) (r) :
      failedAck.next sent (.postAck ⟨commandId, "failed", executedAt, some message⟩) r = true := by
    simp [failedAck]
  have hwp : (executeCommand settings command configuration).wp failedAck (fun _ sent => sent = true)
      (fun e sent => sent = true ∨ sent = false ∧ screen command configuration = .error e) false :=
    executeCommand_stages _ failedAck_quiet (fun _ _ _ _ => ⟨trivial, fun r => failed _ _ _ _ r⟩)
      fun order hscreen => by
      refine ⟨⟨fun _ => True, fun _ => False, fun _ => True, fun sent => sent = true,
        failedAck_quiet, fun _ _ => trivial, fun _ client request _ _ hplan => ?_,
        fun _ _ _ _ => ⟨trivial, fun r => failed _ _ _ _ r⟩, fun _ _ h => h.elim⟩, trivial,
        fun _ h => h⟩
      obtain ⟨rfl, rfl⟩ := hn.unique (names_of_accepted hscreen)
      exact absurd ⟨_, _, hn, hm, .inr ⟨order, _, hscreen, hplan⟩⟩ hslip
  obtain ⟨-, hok, herror⟩ := h.wp hwp
  apply ack_of_failedAck
  cases out with
  | ok a => exact hok a rfl
  | error e =>
    rcases herror e rfl with hsent | ⟨-, hscreen⟩
    · exact hsent
    · exact absurd ⟨_, _, hn, hm, .inl ⟨e, hscreen⟩⟩ hslip

/-- The planned write is made in an environment where nothing fails. -/
theorem writes_friendlyEvents {settings : Settings} {command configuration : Json} {order : Order}
    {params : ClientParams} {request : WriteRequest}
    (hscreen : screen command configuration = .ok (.accepted order))
    (hplan : plannedWrite settings order = .ok (params, request)) :
    (⟨0, order.deviceId, params⟩, request) ∈
      writes (friendlyEvents settings command configuration) := by
  obtain ⟨⟨connection, communicationType⟩, hc, h⟩ := bind_eq_ok.mp hplan
  obtain ⟨params', hp, h⟩ := bind_eq_ok.mp h
  obtain ⟨slaveId, hs, h⟩ := bind_eq_ok.mp h
  obtain ⟨request', hr, h⟩ := bind_eq_ok.mp h
  cases h
  unfold friendlyEvents
  rw [executeCommand_eq, hscreen]
  simp only [Prog.ofExcept_ok, Prog.pure_bind, carryOut, executeOrder, writeToDevice, hc]
  cases decide (communicationType ∈ rtuCommunicationTypes) <;>
    simp [writeOnBus, warnOnPendingClose, reapPendingCloseThreads, createModbusClient, hp, attempt,
      connectAndWrite_eq, connect, hs, hr, write, withBusLock, withLock, perform, Prog.perform,
      Prog.bind,
      Prog.ensure, Prog.handle, Prog.events, friendly, writes]

/-- A command keeps to the declared type of its tag exactly where no mismatch slips. -/
theorem typeSafe_iff_not_slips (settings : Settings) (command configuration : Json) :
    TypeSafe settings command configuration ↔ ¬ Slips settings command configuration := by
  constructor
  · rintro hsafe ⟨commandType, tag, hn, hm, ⟨e, hscreen⟩ | ⟨order, ⟨params, request⟩, hscreen, hplan⟩⟩
    · have htrace : Prog.Trace (executeCommand settings command configuration) []
          (some (.error e)) := by
        rw [executeCommand_eq, hscreen]
        exact .raised e
      obtain ⟨ack, hack, -⟩ := ((hsafe _ _ htrace commandType tag hn).2.2 hm).2 (by simp)
      cases hack
    · obtain ⟨out, htrace⟩ := friendlyEvents_trace settings command configuration
      have hnil := ((hsafe _ _ htrace commandType tag hn).2.2 hm).1
      have hmem := writes_friendlyEvents hscreen hplan
      simp [hnil] at hmem
  · intro hslip es out htrace commandType tag hn
    obtain ⟨-, hplanned⟩ := writes_of_trace htrace
    refine ⟨fun client address value slave hw => ?_, fun client address value slave hw => ?_,
      fun hm => ⟨?_, fun hout => ?_⟩⟩
    · obtain ⟨hm, htype⟩ := matches_of_planned hslip (hplanned _ hw) hn
      rcases hm with ⟨hregister, -⟩ | ⟨-, hcode⟩
      · simp [htype, commandTypeFor] at hregister
      · exact hcode
    · obtain ⟨hm, htype⟩ := matches_of_planned hslip (hplanned _ hw) hn
      rcases hm with ⟨-, hcode⟩ | ⟨hcoil, -⟩
      · exact hcode
      · simp [htype, commandTypeFor] at hcoil
    · refine List.eq_nil_iff_forall_not_mem.mpr fun w hw => hm ?_
      exact (matches_of_planned hslip (hplanned _ hw) hn).1
    · obtain ⟨out, rfl⟩ := Option.ne_none_iff_exists'.mp hout
      exact failed_of_mismatch hslip hn hm htrace

/-- A writable tag that declares itself an input register. -/
def inputTag : Json :=
  .obj [("id", .int 7), ("writable", .bool true), ("register_address", .int 40),
    ("function_code", .int 4)]

def inputConfiguration : Json :=
  .obj [("devices", .arr [.obj [("id", .int 1), ("communication_type", .str "rtu"),
    ("connection", .obj [("serial_port", .str "COM3")]), ("tags", .arr [inputTag])]])]

/-- A coil command for that tag. -/
def coilCommand : Json :=
  .obj [("command_id", .int 9), ("command_type", .str "write_coil"),
    ("device_id", .int 1), ("tag_id", .int 7), ("value", .int 1)]

/-- The coil at the address of an input register is written. -/
theorem coil_written_for_register_tag :
    ¬ TypeSafe sampleSettings coilCommand inputConfiguration := by
  intro hsafe
  obtain ⟨out, htrace⟩ := friendlyEvents_trace sampleSettings coilCommand inputConfiguration
  have hn : Names coilCommand inputConfiguration "write_coil" inputTag :=
    ⟨rfl, 1, 7, _, by decide, rfl⟩
  obtain ⟨code, hmem, hcode⟩ := (hsafe _ _ htrace _ _ hn).1 (serialClient 0 1) 40 true 1 (by decide)
  obtain rfl : (4 : ℤ) = code := Except.ok.inj hcode
  revert hmem
  decide

end SenseGateway.Commands

import SenseGateway.Commands.Outline

namespace SenseGateway.Commands

open Python Effects Poller

/-- The writes of a run, in order. -/
def writes (es : List (Event calls)) : List (Client × WriteRequest) :=
  es.filterMap fun e =>
    match e.op with
    | .write client request => some (client, request)
    | _ => none

/-- The write is the one the accepted command plans. -/
def Planned (settings : Settings) (command configuration : Json) (client : Client)
    (request : WriteRequest) : Prop :=
  ∃ order, screen command configuration = .ok (.accepted order) ∧
    client.device = order.deviceId ∧ plannedWrite settings order = .ok (client.params, request)

/-- At most one write, and only one that `A` admits. The local state says whether it was made. -/
def writeOnce (A : Client → WriteRequest → Prop) : Protocol calls Bool where
  allowed written o := ∀ client request, o = .write client request → written = false ∧ A client request
  next written o _ :=
    match o with
    | .write _ _ => true
    | _ => written

theorem writeOnce_other {A : Client → WriteRequest → Prop} {o : Call}
    (ho : ∀ client request, o ≠ .write client request) (written : Bool) :
    (writeOnce A).allowed written o ∧ ∀ r, (writeOnce A).next written o r = written := by
  refine ⟨fun client request h => absurd h (ho client request), fun r => ?_⟩
  cases o with
  | write client request => exact absurd rfl (ho client request)
  | _ => rfl

theorem Quiet.ne_write {o : Call} (ho : Quiet o) (client : Client) (request : WriteRequest) :
    o ≠ .write client request := by
  rintro rfl
  exact ho

theorem writes_of_allows {A : Client → WriteRequest → Prop} {es : List (Event calls)}
    (h : (writeOnce A).Allows false es) :
    (writes es).length ≤ 1 ∧ ∀ w ∈ writes es, A w.1 w.2 := by
  have none_left (es : List (Event calls)) (h : (writeOnce A).Allows true es) : writes es = [] := by
    induction es with
    | nil => rfl
    | cons e es ih =>
      obtain ⟨op, r⟩ := e
      cases op with
      | write client request => exact absurd (h.1 client request rfl).1 (by simp)
      | _ => exact ih h.2
  induction es with
  | nil => simp [writes]
  | cons e es ih =>
    obtain ⟨op, r⟩ := e
    cases op with
    | write client request =>
      have hnil := none_left es h.2
      have hw : writes (⟨.write client request, r⟩ :: es) = [(client, request)] := by
        simpa [writes] using hnil
      rw [hw]
      simpa using (h.1 client request rfl).2
    | _ => exact ih h.2

/-- A run of a command makes at most one write, and only the planned one. -/
theorem writes_of_trace {settings : Settings} {command configuration : Json}
    {es : List (Event calls)} {out : Option (PyExcept Unit)}
    (h : Prog.Trace (executeCommand settings command configuration) es out) :
    (writes es).length ≤ 1 ∧ ∀ w ∈ writes es, Planned settings command configuration w.1 w.2 := by
  have quiet (o : Call) (ho : Quiet o) (l : Bool) := writeOnce_other
    (A := Planned settings command configuration) ho.ne_write l
  have ack (a : Ack) (l : Bool) := writeOnce_other
    (A := Planned settings command configuration) (o := .postAck a) (by simp) l
  refine writes_of_allows (h.wp
    (executeCommand_stages (fun _ => True) quiet (fun _ _ _ _ => ?_) fun order ho => ?_)).1
  · exact ⟨(ack _ _).1, fun _ => trivial⟩
  · refine ⟨⟨fun l => l = false, fun _ => True, fun _ => True, fun _ => True, quiet,
      fun _ _ => trivial, fun l client request hl hdevice hplan => ?_, fun l _ _ _ => ?_,
      fun l _ _ => ?_⟩, rfl, fun _ _ => trivial⟩
    · refine ⟨fun _ _ heq => ?_, trivial, fun _ _ => trivial⟩
      cases heq
      exact ⟨hl, order, ho, hdevice, hplan⟩
    · exact ⟨(ack _ _).1, fun _ => trivial⟩
    · exact ⟨(ack _ _).1, fun _ => trivial⟩

/-- The id the gate compares: an entry without one counts as -1. -/
def entryId (entry : Json) : PyExcept ℤ := do (← entry.getD "id" (.int (-1))).toInt

/-- The gate lets a command for the two ids through to a tag of a device entry: the tag is the
first with its id in that entry and literally writable. -/
structure Authorizes (configuration : Json) (deviceId tagId : ℤ) (device tag : Json) : Prop where
  device_mem : ∃ devices, (do (← configuration.getD "devices" (.arr [])).iter) = .ok devices ∧
    device ∈ devices
  device_id : entryId device = .ok deviceId
  first_tag : ∃ before after,
    (do (← device.getD "tags" (.arr [])).iter) = .ok (before ++ tag :: after) ∧
    ∀ other ∈ before, ∃ n, entryId other = .ok n ∧ n ≠ tagId
  tag_id : entryId tag = .ok tagId
  writable : tag.get "writable" = .ok (.bool true)

theorem findTag_some {device device' tag : Json} {tagId : ℤ} {tags : List Json}
    (h : findTag device tagId tags = .ok (some (some (device', tag)))) :
    device' = device ∧ entryId tag = .ok tagId ∧ tag.get "writable" = .ok (.bool true) ∧
      ∃ before after, tags = before ++ tag :: after ∧
        ∀ other ∈ before, ∃ n, entryId other = .ok n ∧ n ≠ tagId := by
  induction tags with
  | nil => cases h
  | cons first rest ih =>
    obtain ⟨raw, hraw, h⟩ := bind_eq_ok.mp h
    obtain ⟨n, hn, h⟩ := bind_eq_ok.mp h
    have hid : entryId first = .ok n := bind_eq_ok.mpr ⟨raw, hraw, hn⟩
    split at h
    · obtain ⟨hd, ht, hw, before, after, rfl, hbefore⟩ := ih h
      refine ⟨hd, ht, hw, first :: before, after, rfl, fun other ho => ?_⟩
      rcases List.mem_cons.mp ho with rfl | ho
      · exact ⟨n, hid, ‹_›⟩
      · exact hbefore other ho
    · obtain ⟨flag, hflag, h⟩ := bind_eq_ok.mp h
      split at h
      · cases h
        exact ⟨rfl, by simp_all, by simp_all, [], rest, rfl, by simp⟩
      · cases h

theorem findInDevices_some {deviceId tagId : ℤ} {devices : List Json} {device tag : Json}
    (h : findInDevices deviceId tagId devices = .ok (some (device, tag))) :
    device ∈ devices ∧ entryId device = .ok deviceId ∧
      ∃ tags, (do (← device.getD "tags" (.arr [])).iter) = .ok tags ∧
        findTag device tagId tags = .ok (some (some (device, tag))) := by
  induction devices with
  | nil => cases h
  | cons first rest ih =>
    obtain ⟨raw, hraw, h⟩ := bind_eq_ok.mp h
    obtain ⟨n, hn, h⟩ := bind_eq_ok.mp h
    have hid : entryId first = .ok n := bind_eq_ok.mpr ⟨raw, hraw, hn⟩
    split at h
    · obtain ⟨hmem, rest⟩ := ih h
      exact ⟨List.mem_cons_of_mem _ hmem, rest⟩
    · obtain ⟨rawTags, hrawTags, h⟩ := bind_eq_ok.mp h
      obtain ⟨tags, htags, h⟩ := bind_eq_ok.mp h
      obtain ⟨found, hfound, h⟩ := bind_eq_ok.mp h
      rcases found with _ | found
      · obtain ⟨hmem, rest⟩ := ih h
        exact ⟨List.mem_cons_of_mem _ hmem, rest⟩
      · cases h
        obtain ⟨rfl, -⟩ := findTag_some hfound
        exact ⟨List.mem_cons_self, by simp_all, tags, bind_eq_ok.mpr ⟨rawTags, hrawTags, htags⟩, hfound⟩

/-- Whatever the gate lets through is authorized. -/
theorem findWritableTag_authorizes {configuration : Json} {deviceId tagId : ℤ} {device tag : Json}
    (h : findWritableTag configuration deviceId tagId = .ok (some (device, tag))) :
    Authorizes configuration deviceId tagId device tag := by
  obtain ⟨rawDevices, hrawDevices, h⟩ := bind_eq_ok.mp h
  obtain ⟨devices, hdevices, h⟩ := bind_eq_ok.mp h
  obtain ⟨hmem, hid, tags, htags, hfound⟩ := findInDevices_some h
  obtain ⟨-, htag, hwritable, before, after, rfl, hbefore⟩ := findTag_some hfound
  exact ⟨⟨devices, bind_eq_ok.mpr ⟨rawDevices, hrawDevices, hdevices⟩, hmem⟩, hid,
    ⟨before, after, htags, hbefore⟩, htag, hwritable⟩

/-- The write goes to the connection and the slave of the device entry and to the register of
the tag. -/
structure Targets (settings : Settings) (device tag : Json) (client : Client)
    (request : WriteRequest) : Prop where
  device_id : entryDeviceId device = .ok client.device
  connection : ∃ connection communicationType,
    connectionOf device = .ok (connection, communicationType) ∧
      clientParams settings communicationType connection = .ok client.params ∧
      slaveIdOf connection = .ok request.slave
  register : (do (← tag.item "register_address").toInt) = .ok request.address

theorem Targets.unique {settings : Settings} {device tag : Json} {client client' : Client}
    {request request' : WriteRequest} (h : Targets settings device tag client request)
    (h' : Targets settings device tag client' request') :
    client.device = client'.device ∧ client.params = client'.params ∧
      request.slave = request'.slave ∧ request.address = request'.address := by
  obtain ⟨connection, communicationType, hc, hp, hs⟩ := h.connection
  obtain ⟨connection', communicationType', hc', hp', hs'⟩ := h'.connection
  obtain ⟨rfl, rfl⟩ : connection = connection' ∧ communicationType = communicationType' := by
    simpa using hc.symm.trans hc'
  exact ⟨Except.ok.inj (h.device_id.symm.trans h'.device_id), Except.ok.inj (hp.symm.trans hp'),
    Except.ok.inj (hs.symm.trans hs'), Except.ok.inj (h.register.symm.trans h'.register)⟩

theorem screen_accepted {command configuration : Json} {order : Order}
    (h : screen command configuration = .ok (.accepted order)) :
    ∃ deviceId tagId, commandIds command = .ok (deviceId, tagId) ∧
      commandTypeOf command = .ok order.commandType ∧ order.commandType ∈ validCommandTypes ∧
      findWritableTag configuration deviceId tagId = .ok (some (order.device, order.tag)) ∧
      entryDeviceId order.device = .ok order.deviceId := by
  obtain ⟨commandId, -, h⟩ := bind_eq_ok.mp h
  obtain ⟨commandType, htype, h⟩ := bind_eq_ok.mp h
  obtain ⟨value, -, h⟩ := bind_eq_ok.mp h
  split at h
  · split at h <;> cases h
  · rename_i deviceId tagId hids
    split at h
    · cases h
    · obtain ⟨found, hfound, h⟩ := bind_eq_ok.mp h
      rcases found with _ | ⟨device, tag⟩
      · cases h
      · obtain ⟨id, hid, h⟩ := bind_eq_ok.mp h
        cases h
        exact ⟨deviceId, tagId, hids, htype, by simp_all, hfound, hid⟩

theorem writeRequest_register {tag value : Json} {commandType : String} {slaveId : ℤ}
    {request : WriteRequest} (h : writeRequest tag commandType value slaveId = .ok request) :
    (do (← tag.item "register_address").toInt) = .ok request.address ∧ request.slave = slaveId := by
  obtain ⟨address, hreg, ⟨-, n, -, rfl⟩ | ⟨-, rfl⟩⟩ := writeRequest_cases h
  · exact ⟨hreg, rfl⟩
  · exact ⟨hreg, rfl⟩

theorem plannedWrite_targets {settings : Settings} {order : Order} {client : Client}
    {request : WriteRequest} (hid : entryDeviceId order.device = .ok order.deviceId)
    (hdevice : client.device = order.deviceId)
    (h : plannedWrite settings order = .ok (client.params, request)) :
    Targets settings order.device order.tag client request := by
  obtain ⟨⟨connection, communicationType⟩, hc, h⟩ := bind_eq_ok.mp h
  obtain ⟨params, hp, h⟩ := bind_eq_ok.mp h
  obtain ⟨slaveId, hs, h⟩ := bind_eq_ok.mp h
  obtain ⟨request', hr, h⟩ := bind_eq_ok.mp h
  cases h
  obtain ⟨hreg, rfl⟩ := writeRequest_register hr
  exact ⟨hdevice ▸ hid, ⟨connection, communicationType, hc, hp, hs⟩, hreg⟩

/-- Where a device entry has an id at all, the gate and the device lock read the same one. -/
theorem entryId_of_entryDeviceId {device : Json} {n : ℤ} (h : entryDeviceId device = .ok n) :
    entryId device = .ok n := by
  obtain ⟨raw, hraw, h⟩ := bind_eq_ok.mp h
  refine bind_eq_ok.mpr ⟨raw, ?_, h⟩
  cases device with
  | obj fields =>
    simp only [Json.item] at hraw
    split at hraw
    · cases hraw
      simp [Json.getD, Json.find, Except.map, *]
    · cases hraw
  | _ => simp [Json.item] at hraw

theorem planned_authorized {settings : Settings} {command configuration : Json} {client : Client}
    {request : WriteRequest} {deviceId tagId : ℤ} (hids : commandIds command = .ok (deviceId, tagId))
    (h : Planned settings command configuration client request) :
    ∃ device tag, findWritableTag configuration deviceId tagId = .ok (some (device, tag)) ∧
      Targets settings device tag client request ∧ client.device = deviceId := by
  obtain ⟨order, hscreen, hdevice, hplan⟩ := h
  obtain ⟨deviceId', tagId', hids', -, -, hfind, hid⟩ := screen_accepted hscreen
  obtain ⟨rfl, rfl⟩ : deviceId' = deviceId ∧ tagId' = tagId := by simpa using hids'.symm.trans hids
  refine ⟨order.device, order.tag, hfind, plannedWrite_targets hid hdevice hplan, ?_⟩
  have hgate := (findWritableTag_authorizes hfind).device_id
  exact hdevice.trans (Except.ok.inj ((entryId_of_entryDeviceId hid).symm.trans hgate))

theorem commandIds_of_planned {settings : Settings} {command configuration : Json} {client : Client}
    {request : WriteRequest} (h : Planned settings command configuration client request) :
    ∃ deviceId tagId, commandIds command = .ok (deviceId, tagId) := by
  obtain ⟨order, hscreen, -⟩ := h
  obtain ⟨deviceId, tagId, hids, -⟩ := screen_accepted hscreen
  exact ⟨deviceId, tagId, hids⟩

/-- The gate as a whole: at most one write, to an authorized tag, at a target that the
configuration and the two ids determine. -/
theorem command_authorized {settings : Settings} {configuration command : Json}
    {es : List (Event calls)} {out : Option (PyExcept Unit)}
    (h : Prog.Trace (executeCommand settings command configuration) es out) :
    (writes es).length ≤ 1 ∧
      (∀ client request, (client, request) ∈ writes es →
        ∃ deviceId tagId device tag, commandIds command = .ok (deviceId, tagId) ∧
          Authorizes configuration deviceId tagId device tag ∧
          Targets settings device tag client request ∧ client.device = deviceId) ∧
      ∀ command' es' out', Prog.Trace (executeCommand settings command' configuration) es' out' →
        commandIds command' = commandIds command →
          ∀ client request client' request', (client, request) ∈ writes es →
            (client', request') ∈ writes es' →
              client.device = client'.device ∧ client.params = client'.params ∧
                request.slave = request'.slave ∧ request.address = request'.address := by
  obtain ⟨honce, hplanned⟩ := writes_of_trace h
  refine ⟨honce, fun client request hw => ?_, fun command' es' out' h' hids => ?_⟩
  · obtain ⟨deviceId, tagId, hids⟩ := commandIds_of_planned (hplanned _ hw)
    obtain ⟨device, tag, hfind, htargets, hdevice⟩ := planned_authorized hids (hplanned _ hw)
    exact ⟨deviceId, tagId, device, tag, hids, findWritableTag_authorizes hfind, htargets, hdevice⟩
  · intro client request client' request' hw hw'
    have hplanned' := (writes_of_trace h').2 _ hw'
    obtain ⟨deviceId, tagId, hcommand⟩ := commandIds_of_planned (hplanned _ hw)
    obtain ⟨device, tag, hfind, htargets, -⟩ := planned_authorized hcommand (hplanned _ hw)
    obtain ⟨device', tag', hfind', htargets', -⟩ :=
      planned_authorized (hids.trans hcommand) hplanned'
    obtain ⟨rfl, rfl⟩ : device = device' ∧ tag = tag' := by simpa using hfind.symm.trans hfind'
    exact htargets.unique htargets'

/-- The calls of a command in an environment where nothing fails. -/
def friendlyEvents (settings : Settings) (command configuration : Json) : List (Event calls) :=
  (executeCommand settings command configuration).events (fun o _ => (friendly o, ())) ()

theorem friendlyEvents_trace (settings : Settings) (command configuration : Json) :
    ∃ out, Prog.Trace (executeCommand settings command configuration)
      (friendlyEvents settings command configuration) (some out) :=
  ⟨_, Prog.trace_events _ _ _⟩

def otherValueCommand : Json :=
  .obj [("command_id", .int 10), ("command_type", .str "write_register"),
    ("device_id", .str "1"), ("tag_id", .int 7), ("value", .int 6), ("issued_by", .str "engineer1")]

/-- Two commands for the same tag with different values: both are written, at the same target. -/
theorem command_authorized_sample :
    ∃ es out es' out',
      (Prog.Trace (executeCommand sampleSettings (writeCommand 1) sampleConfiguration) es out ∧
        writes es = [(serialClient 0 1, .register 40 5 1)]) ∧
      (Prog.Trace (executeCommand sampleSettings otherValueCommand sampleConfiguration) es' out' ∧
        writes es' = [(serialClient 0 1, .register 40 6 1)]) ∧
      (writes es).length ≤ 1 ∧
      ∀ client request client' request', (client, request) ∈ writes es →
        (client', request') ∈ writes es' → request.address = request'.address := by
  obtain ⟨out, h⟩ := friendlyEvents_trace sampleSettings (writeCommand 1) sampleConfiguration
  obtain ⟨out', h'⟩ := friendlyEvents_trace sampleSettings otherValueCommand sampleConfiguration
  obtain ⟨honce, -, hsame⟩ := command_authorized h
  refine ⟨_, some out, _, some out', ⟨h, by decide⟩, ⟨h', by decide⟩, honce, ?_⟩
  intro client request client' request' hw hw'
  exact (hsame _ _ _ h' (by decide) client request client' request' hw hw').2.2.2

/-- A device entry with a writable tag that has no id. -/
def anonymousConfiguration : Json :=
  .obj [("devices", .arr [.obj [("id", .int 1), ("communication_type", .str "rtu"),
    ("connection", .obj [("serial_port", .str "COM3")]),
    ("tags", .arr [.obj [("writable", .bool true), ("register_address", .int 40)]])]])]

def anonymousCommand : Json :=
  .obj [("command_id", .int 9), ("command_type", .str "write_register"),
    ("device_id", .int 1), ("tag_id", .int (-1)), ("value", .int 5)]

/-- A command for tag -1 is written to a tag that has no id, so not to one whose id is -1. -/
theorem anonymous_tag_written :
    ∃ es out client request,
      Prog.Trace (executeCommand sampleSettings anonymousCommand anonymousConfiguration) es out ∧
      (client, request) ∈ writes es ∧
      ¬ ∃ deviceId tagId device tag, commandIds anonymousCommand = .ok (deviceId, tagId) ∧
        Authorizes anonymousConfiguration deviceId tagId device tag ∧
        (do (← tag.item "id").toInt) = .ok tagId := by
  obtain ⟨out, h⟩ := friendlyEvents_trace sampleSettings anonymousCommand anonymousConfiguration
  refine ⟨_, some out, serialClient 0 1, .register 40 5 1, h, by decide, ?_⟩
  rintro ⟨deviceId, tagId, device, tag, -, hauth, hid⟩
  obtain ⟨devices, hdevices, hmem⟩ := hauth.device_mem
  obtain rfl : _ = devices := Except.ok.inj hdevices
  obtain rfl : device = _ := by simpa using hmem
  obtain ⟨before, after, htags, -⟩ := hauth.first_tag
  have hmem : tag ∈ before ++ tag :: after := by simp
  rw [← Except.ok.inj htags] at hmem
  obtain rfl : tag = _ := by simpa using hmem
  cases hid

end SenseGateway.Commands

import Mathlib.Data.List.Dedup
import Mathlib.Data.List.Perm.Subperm
import SenseGateway.Poller.Footprint
import SenseGateway.Python.Dict

namespace SenseGateway.Health

open Python Effects Poller

def deviceStatusWriteIntervalSeconds : ℤ := 5

/-- The file `write_device_status` writes: the JSON object, its keys as texts. -/
abbrev Snapshot := List (String × String)

def payload (statusByDevice : Dict ℤ String) : Snapshot :=
  statusByDevice.entries.map fun e => (toString e.1, e.2)

/-- The numbers of connected and failed devices, with no file in place of a snapshot at first. -/
def readDeviceCounts : Option Snapshot → ℕ × ℕ
  | none => (0, 0)
  | some payload =>
    ((payload.map Prod.snd).count "connected", (payload.map Prod.snd).count "failed")

/-- The device loop of `main`. An error of a device is logged under its name, which is looked up
outside of the handler's own protection. -/
def pollDevices (settings : Settings) (devices : List Json) : PollerM Unit :=
  Prog.forEach devices fun device =>
    (runDevice settings device).handle fun _ => do
      let _ ← device.get "device_name"
      return ()

/-- What one turn of the main loop does before it looks at the device status file. -/
def pollConfiguration (settings : Settings) (configuration : Json) : PollerM Unit := do
  let devices ← (← configuration.getD "devices" (.arr [])).iter
  pollDevices settings devices

/-- `DEVICE_STATUS` after these calls. -/
def statusAfter (status : Dict ℤ String) (es : List (Event calls)) : Dict ℤ String :=
  es.foldl
    (fun status e =>
      match e.op with
      | .setDeviceStatus deviceId text => status.set deviceId text
      | _ => status)
    status

/-- What the main loop keeps, and the file it writes. -/
structure Monitor where
  deviceStatus : Dict ℤ String
  lastDeviceStatusWrite : PyFloat
  deviceStatusFile : Option Snapshot

def Monitor.initial : Monitor := ⟨.empty, .finite 0, none⟩

/-- One turn of the main loop: the configuration it polls and the time, the calls `run_device`
makes and how the device loop ends, and what writing the file raises. -/
structure Cycle (settings : Settings) where
  configuration : Json
  currentTime : PyFloat
  events : List (Event calls)
  out : PyExcept Unit
  polled : Prog.Trace (pollConfiguration settings configuration) events (some out)
  fileWrite : PyExcept Unit

variable {settings : Settings}

namespace Monitor

/-- Whether the turn reaches the file and writes it. -/
def Writes (m : Monitor) (c : Cycle settings) : Prop :=
  c.out = .ok () ∧ c.fileWrite = .ok () ∧
    (PyFloat.finite deviceStatusWriteIntervalSeconds).le
      (c.currentTime.sub m.lastDeviceStatusWrite) = true

/-- The file is replaced as a whole, or not at all. -/
def turn (m : Monitor) (c : Cycle settings) : Monitor :=
  let m := { m with deviceStatus := statusAfter m.deviceStatus c.events }
  match c.out with
  | .error _ => m
  | .ok () =>
    if (PyFloat.finite deviceStatusWriteIntervalSeconds).le
        (c.currentTime.sub m.lastDeviceStatusWrite) then
      { m with
        lastDeviceStatusWrite := c.currentTime
        deviceStatusFile := match c.fileWrite with
          | .ok () => some (payload m.deviceStatus)
          | .error _ => m.deviceStatusFile }
    else m

def run (cycles : List (Cycle settings)) : Monitor := cycles.foldl turn .initial

end Monitor

/-- The ids of the devices of a configuration. -/
def deviceIds (configuration : Json) : List ℤ :=
  match (do (← configuration.getD "devices" (.arr [])).iter : PyExcept (List Json)) with
  | .ok devices => devices.filterMap fun device => (device.item "id" >>= Json.toInt).toOption
  | .error _ => []

/-- Every snapshot a run writes is about devices of the configuration polled in that turn, and the
counts read back do not exceed the number of these devices. -/
def DescribesConfiguration (cycles : List (Cycle settings)) : Prop :=
  ∀ before c, before ++ [c] <+: cycles → (Monitor.run before).Writes c →
    ∃ snapshot, ((Monitor.run before).turn c).deviceStatusFile = some snapshot ∧
      (∀ entry ∈ snapshot, ∃ deviceId ∈ deviceIds c.configuration, entry.1 = toString deviceId) ∧
      (readDeviceCounts (some snapshot)).1 + (readDeviceCounts (some snapshot)).2 ≤
        (deviceIds c.configuration).dedup.length

/-- Before every turn that writes, `DEVICE_STATUS` has devices of that turn's configuration only. -/
def NoLeftovers (cycles : List (Cycle settings)) : Prop :=
  ∀ before c, before ++ [c] <+: cycles → (Monitor.run before).Writes c →
    ∀ deviceId ∈ (Monitor.run before).deviceStatus.keys, deviceId ∈ deviceIds c.configuration

section calls

open Prog

variable {device : Json}

/-- Calls that set a status only for the device. -/
def StatusOf (device : Json) (o : Call) : Prop :=
  ∀ deviceId text, o = .setDeviceStatus deviceId text →
    (device.item "id" >>= Json.toInt) = .ok deviceId

theorem statusOf_own {deviceId : ℤ} (hid : (device.item "id" >>= Json.toInt) = .ok deviceId)
    (text : String) : StatusOf device (.setDeviceStatus deviceId text) := by
  rintro _ _ ⟨⟩
  exact hid

theorem statusOf_opening {o : Call} (h : Opening o) : StatusOf device o := by
  rintro _ _ rfl
  exact h.elim

theorem statusOf_closing {client : Client} {o : Call} (h : Closing client o) : StatusOf device o := by
  rintro _ _ rfl
  exact h.elim

theorem statusOf_passCalls {client : Client} {tag : Json} {currentTime : PyFloat} {o : Call}
    (h : PassCalls client device tag currentTime o) : StatusOf device o := by
  rintro _ _ rfl
  rcases h with (⟨_, h⟩ | ⟨_, -, h⟩) | ⟨_, _, -, -, h | h⟩
  · cases h
  · exact h.elim
  · cases h
  · cases h

theorem pollTags_makes (settings : Settings) (client : Client) :
    Makes (I := calls) (StatusOf device) (pollTags settings client device) := by
  refine .bind (.perform nofun) fun currentTime => ?_
  refine .bind (.ofExcept _) fun _ => .bind (.ofExcept _) fun tags => .forEach fun tag _ => ?_
  exact .mono (pollTag_makes settings client device currentTime tag) fun _ => statusOf_passCalls

theorem pollOnBus_makes (settings : Settings) (connection : Json) {deviceId : ℤ}
    (hid : (device.item "id" >>= Json.toInt) = .ok deviceId) (communicationType : String)
    (isSerial : Bool) :
    Makes (I := calls) (StatusOf device)
      (pollOnBus settings device connection deviceId communicationType isSerial) := by
  refine .bind (.mono (warnOnPendingClose_makes isSerial) fun _ => statusOf_opening) fun _ => ?_
  refine .bind (.mono (createModbusClient_makes _ _ _ _) fun _ => statusOf_opening) fun client => ?_
  refine .bind (.bind (.perform nofun) fun r => .ofExcept _) fun connected => ?_
  have hpoll : Makes (I := calls) (StatusOf device)
      ((perform (.setDeviceStatus deviceId "connected")).bind fun _ =>
        (pollTags settings client device).ensure (closeClientWithTimeout client)) :=
    .bind (.perform (statusOf_own hid _)) fun _ =>
      .ensure (pollTags_makes settings client)
        (.mono (closeClientWithTimeout_makes client) fun _ => statusOf_closing)
  exact .ite (.bind (.bind (.ofExcept _) fun _ => .throw _) fun _ => hpoll) hpoll

/-- `run_device` sets no status but that of its device. -/
theorem runDevice_makes (settings : Settings) (device : Json) :
    Makes (I := calls) (StatusOf device) (runDevice settings device) := by
  refine .bind_ofExcept fun rawId hraw => .bind_ofExcept fun deviceId hint => ?_
  have hid : (device.item "id" >>= Json.toInt) = .ok deviceId := bind_eq_ok.mpr ⟨rawId, hraw, hint⟩
  have failed : Makes (I := calls) (StatusOf device)
      (perform (.setDeviceStatus deviceId "failed")) := .perform (statusOf_own hid "failed")
  have polled : Makes (I := calls) (StatusOf device) (pollDevice settings device deviceId) := by
    refine .bind (.ofExcept _) fun _ => .bind (.ofExcept _) fun communicationType => ?_
    refine .ite failed ?_
    have onBus (connection : Json) (isSerial : Bool) :=
      pollOnBus_makes settings connection hid communicationType isSerial
    exact .ite (withLock_makes nofun nofun (onBus _ _)) (onBus _ _)
  refine .bind (.perform nofun) fun taken => .ite ?_ (.pure _)
  exact .ensure (.handle polled fun e => .bind failed fun _ => .throw e) (.perform nofun)

theorem mem_deviceIds {configuration : Json} {devices : List Json} {deviceId : ℤ}
    (hdevices : (do (← configuration.getD "devices" (.arr [])).iter) = .ok devices)
    (hmem : device ∈ devices) (hid : (device.item "id" >>= Json.toInt) = .ok deviceId) :
    deviceId ∈ deviceIds configuration := by
  unfold deviceIds
  rw [hdevices]
  exact List.mem_filterMap.mpr ⟨device, hmem, by rw [hid]; rfl⟩

/-- A turn sets no status but those of devices of its configuration. -/
theorem pollConfiguration_makes (settings : Settings) (configuration : Json) :
    Makes (I := calls)
      (fun o => ∀ deviceId text, o = .setDeviceStatus deviceId text →
        deviceId ∈ deviceIds configuration)
      (pollConfiguration settings configuration) := by
  refine .bind_ofExcept fun rawDevices hraw => .bind_ofExcept fun devices hdevices => ?_
  refine .forEach fun device hmem => .handle (.mono (runDevice_makes settings device) ?_) fun _ =>
    .bind (.ofExcept _) fun _ => .pure _
  intro o ho deviceId text heq
  exact mem_deviceIds (bind_eq_ok.mpr ⟨rawDevices, hraw, hdevices⟩) hmem (ho deviceId text heq)

end calls

theorem mem_keys_statusAfter {status : Dict ℤ String} {es : List (Event calls)} {deviceId : ℤ} :
    deviceId ∈ (statusAfter status es).keys ↔
      deviceId ∈ status.keys ∨ ∃ e ∈ es, ∃ text, e.op = .setDeviceStatus deviceId text := by
  induction es generalizing status with
  | nil => simp [statusAfter]
  | cons e es ih =>
    obtain ⟨op, r⟩ := e
    have hevents : (∃ e ∈ (⟨op, r⟩ : Event calls) :: es, ∃ text,
          e.op = .setDeviceStatus deviceId text) ↔
        (∃ text, op = .setDeviceStatus deviceId text) ∨
          ∃ e ∈ es, ∃ text, e.op = .setDeviceStatus deviceId text := by
      simp only [List.mem_cons, exists_eq_or_imp]
    cases op with
    | setDeviceStatus j text =>
      change deviceId ∈ (statusAfter (status.set j text) es).keys ↔ _
      rw [ih, Dict.mem_keys_set, hevents]
      simp only [Call.setDeviceStatus.injEq]
      constructor
      · rintro ((rfl | h) | h)
        · exact .inr (.inl ⟨text, rfl, rfl⟩)
        · exact .inl h
        · exact .inr (.inr h)
      · rintro (h | ⟨_, rfl, -⟩ | h)
        · exact .inl (.inr h)
        · exact .inl (.inl rfl)
        · exact .inr h
    | _ =>
      change deviceId ∈ (statusAfter status es).keys ↔ _
      rw [ih, hevents, or_iff_right (a := ∃ text, _) (by rintro ⟨_, ⟨⟩⟩)]

/-- The counts of two different statuses together are at most the number of entries. -/
theorem count_add_count_le {a b : String} (hab : a ≠ b) (statuses : List String) :
    statuses.count a + statuses.count b ≤ statuses.length := by
  induction statuses with
  | nil => simp
  | cons status statuses ih =>
    simp only [List.count_cons, List.length_cons, beq_iff_eq]
    by_cases ha : status = a
    · have hb : status ≠ b := fun h => hab (ha.symm.trans h)
      rw [if_pos ha, if_neg hb]
      omega
    · rw [if_neg ha]
      split <;> omega

/-- A written snapshot is about the devices of a list exactly where `DEVICE_STATUS` was. -/
theorem payload_subset_iff {status : Dict ℤ String} {ids : List ℤ} :
    (∀ entry ∈ payload status, ∃ deviceId ∈ ids, entry.1 = toString deviceId) ↔
      ∀ deviceId ∈ status.keys, deviceId ∈ ids := by
  constructor
  · intro h deviceId hmem
    obtain ⟨⟨_, text⟩, hentry, rfl⟩ := List.mem_map.mp hmem
    obtain ⟨deviceId', hids, heq⟩ := h _ (List.mem_map_of_mem hentry)
    obtain rfl := toString_int_injective heq
    exact hids
  · intro h entry hmem
    obtain ⟨⟨deviceId, text⟩, hentry, rfl⟩ := List.mem_map.mp hmem
    exact ⟨deviceId, h deviceId (List.mem_map_of_mem hentry), rfl⟩

/-- A snapshot about devices of a list counts no more than there are. -/
theorem readDeviceCounts_le {status : Dict ℤ String} {ids : List ℤ}
    (h : ∀ deviceId ∈ status.keys, deviceId ∈ ids) :
    (readDeviceCounts (some (payload status))).1 + (readDeviceCounts (some (payload status))).2 ≤
      ids.dedup.length := by
  have hcounts := count_add_count_le (a := "connected") (b := "failed") (by decide)
    ((payload status).map Prod.snd)
  have hlength : ((payload status).map Prod.snd).length = status.keys.length := by
    simp [payload, Dict.keys]
  have hsubset : status.keys.length ≤ ids.dedup.length :=
    (status.nodup.subperm fun deviceId hmem => List.mem_dedup.mpr (h deviceId hmem)).length_le
  exact hcounts.trans (hlength.le.trans hsubset)

theorem turn_deviceStatusFile {m : Monitor} {c : Cycle settings} (h : m.Writes c) :
    (m.turn c).deviceStatusFile = some (payload (statusAfter m.deviceStatus c.events)) := by
  obtain ⟨hout, hwrite, hdue⟩ := h
  simp [Monitor.turn, hout, hwrite, hdue]

/-- A run's snapshots describe the configurations polled exactly where no turn that writes starts
with a device that its configuration does not have. -/
theorem describesConfiguration_iff_noLeftovers (cycles : List (Cycle settings)) :
    DescribesConfiguration cycles ↔ NoLeftovers cycles := by
  refine forall_congr' fun before => forall_congr' fun c => ?_
  refine forall_congr' fun _ => forall_congr' fun hwrites => ?_
  have hpolled := (pollConfiguration_makes settings c.configuration).of_trace c.polled
  have hkeys : (∀ deviceId ∈ (statusAfter (Monitor.run before).deviceStatus c.events).keys,
        deviceId ∈ deviceIds c.configuration) ↔
      ∀ deviceId ∈ (Monitor.run before).deviceStatus.keys,
        deviceId ∈ deviceIds c.configuration := by
    simp only [mem_keys_statusAfter]
    refine ⟨fun h deviceId hmem => h deviceId (.inl hmem), ?_⟩
    rintro h deviceId (hmem | ⟨e, he, text, hset⟩)
    · exact h deviceId hmem
    · exact hpolled e he deviceId text hset
  rw [turn_deviceStatusFile hwrites, ← hkeys, ← payload_subset_iff]
  constructor
  · rintro ⟨snapshot, hsnapshot, hsubset, -⟩
    obtain rfl := Option.some.inj hsnapshot
    exact hsubset
  · intro hsubset
    exact ⟨_, rfl, hsubset, readDeviceCounts_le (payload_subset_iff.mp hsubset)⟩

/-- A configuration with one device that cannot be polled. -/
def oneDevice (id : ℤ) : Json :=
  .obj [("devices", .arr [.obj [("id", .int id), ("communication_type", .str "bacnet")]])]

def sampleSettings : Settings := ⟨"", []⟩

/-- A turn over it in an environment where nothing fails. -/
def friendlyCycle (id : ℤ) (currentTime : PyFloat) : Cycle sampleSettings where
  configuration := oneDevice id
  currentTime := currentTime
  events := (pollConfiguration sampleSettings (oneDevice id)).events (fun o _ => (friendly o, ())) ()
  out := ((pollConfiguration sampleSettings (oneDevice id)).eval (fun o _ => (friendly o, ())) ()).1
  polled := Prog.trace_events (fun o (_ : Unit) => (friendly o, ()))
    (pollConfiguration sampleSettings (oneDevice id)) ()
  fileWrite := .ok ()

/-- A device that was taken out of the configuration stays in the snapshot. -/
theorem removed_device_still_counted :
    ¬ DescribesConfiguration [friendlyCycle 1 (.finite 10), friendlyCycle 2 (.finite 20)] := by
  intro h
  obtain ⟨snapshot, hsnapshot, -, hcounts⟩ := h [friendlyCycle 1 (.finite 10)]
    (friendlyCycle 2 (.finite 20)) List.prefix_rfl (by
      unfold Monitor.Writes
      decide +kernel)
  have hboth : ((Monitor.run [friendlyCycle 1 (.finite 10)]).turn
      (friendlyCycle 2 (.finite 20))).deviceStatusFile =
        some [("1", "failed"), ("2", "failed")] := by decide +kernel
  obtain rfl := Option.some.inj (hboth.symm.trans hsnapshot)
  revert hcounts
  decide +kernel

end SenseGateway.Health

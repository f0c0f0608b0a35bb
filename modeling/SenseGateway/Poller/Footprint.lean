import SenseGateway.Poller.Device

namespace SenseGateway.Poller

open Python Effects Prog

/-! Which calls the functions of the poller make. -/

/-- The calls that come before a client is connected. -/
def Opening : Call → Prop
  | .acquire k | .release k => k = .pendingCloses
  | .filterPendingCloses | .warnCloseInFlight | .construct _ _ => True
  | _ => False

/-- The calls of `close_client_with_timeout`. -/
def Closing (client : Client) : Call → Prop
  | .acquire k | .release k => k = .pendingCloses
  | .filterPendingCloses => True
  | .appendPendingClose c | .startClose c | .joinClose c | .closeIsAlive c | .closeReturned c =>
    c = client
  | _ => False

/-- The calls `save_telemetry` makes to store a reading. -/
def Saves (reading : Reading) : Call → Prop
  | .acquire k | .release k => k = .queueDatabase ∨ k = .historyDatabase ∨ k = .alarmState
  | .insertTelemetry r _ | .insertHistory r _ | .setLatestReading r => r = reading
  | .utcNow => True
  | _ => False

/-- What `process_tag` saves: a finite value with the quality that the limits of the tag give it. -/
def Labelled (device tag : Json) (reading : Reading) : Prop :=
  (device.item "id" >>= Json.toInt) = .ok reading.deviceId ∧
    (tag.item "id" >>= Json.toInt) = .ok reading.tagId ∧ reading.value.isFinite = true ∧
    readingQuality tag reading.value = .ok reading.quality

/-- The calls of `process_tag`. -/
def Processes (client : Client) (device tag : Json) (o : Call) : Prop :=
  (∃ request, o = .read client request) ∨ ∃ reading, Labelled device tag reading ∧ Saves reading o

/-- The calls of one pass of the tag loop at the time. -/
def PassCalls (client : Client) (device tag : Json) (currentTime : PyFloat) (o : Call) : Prop :=
  Processes client device tag o ∨
    ∃ deviceId tagId, (device.item "id" >>= Json.toInt) = .ok deviceId ∧
      (tag.item "id" >>= Json.toInt) = .ok tagId ∧
      (o = .lastPoll (deviceId, tagId) ∨ o = .setLastPoll (deviceId, tagId) currentTime)

section makes

variable {α : Type} {ok : Call → Prop}

theorem withLock_makes {lock : LockId} {body : PollerM α} (hacquire : ok (.acquire lock))
    (hrelease : ok (.release lock)) (h : Makes (I := calls) ok body) :
    Makes (I := calls) ok (withLock lock body) :=
  .bind (.perform hacquire) fun _ => .ensure h (.perform hrelease)

theorem reapPendingCloseThreads_makes (hacquire : ok (.acquire .pendingCloses))
    (hrelease : ok (.release .pendingCloses)) (hfilter : ok .filterPendingCloses) :
    Makes (I := calls) ok reapPendingCloseThreads :=
  withLock_makes hacquire hrelease (.perform hfilter)

theorem warnOnPendingClose_makes (isSerial : Bool) :
    Makes (I := calls) Opening (warnOnPendingClose isSerial) := by
  refine .ite (.bind (reapPendingCloseThreads_makes rfl rfl trivial) fun outstanding => ?_) (.pure _)
  exact .ite (.perform trivial) (.pure _)

theorem createModbusClient_makes (settings : Settings) (deviceId : ℤ) (communicationType : String)
    (connection : Json) : Makes (I := calls) Opening
      (createModbusClient settings deviceId communicationType connection) :=
  .bind (.ofExcept _) fun _ => .bind (.perform trivial) fun _ => .bind (.ofExcept _) fun _ => .pure _

theorem closeClientWithTimeout_makes (client : Client) :
    Makes (I := calls) (Closing client) (closeClientWithTimeout client) := by
  refine .bind (reapPendingCloseThreads_makes rfl rfl trivial) fun _ => .bind (.perform rfl) fun _ => ?_
  refine .bind (.perform rfl) fun _ => .bind (.perform rfl) fun alive => ?_
  exact .ite (.bind (withLock_makes rfl rfl (.perform rfl)) fun _ => .perform rfl) (.perform rfl)

theorem saveTelemetry_makes (reading : Reading) :
    Makes (I := calls) (Saves reading) (saveTelemetry reading) := by
  refine .bind (.perform trivial) fun stamp =>
    .bind (withLock_makes (.inl rfl) (.inl rfl) ?_) fun _ => ?_
  · exact .bind (.perform rfl) fun r => .ofExcept r
  · refine .bind (.handle (withLock_makes (.inr (.inl rfl)) (.inr (.inl rfl)) ?_) fun _ => .pure _)
      fun _ => withLock_makes (.inr (.inr rfl)) (.inr (.inr rfl)) (.perform rfl)
    exact .bind (.perform rfl) fun r => .ofExcept r

theorem readModbusRegisters_makes (client : Client) (tag : Json) (slaveId : ℤ) :
    Makes (I := calls) (fun o => ∃ request, o = .read client request)
      (readModbusRegisters client tag slaveId) := by
  refine .bind (.ofExcept _) fun _ => .bind (.ofExcept _) fun functionCode => ?_
  refine .bind (.ofExcept _) fun _ => .bind (.ofExcept _) fun address => ?_
  refine .bind (.ofExcept _) fun _ => .bind (.ofExcept _) fun count => ?_
  refine .ite (.bind (.perform ⟨_, rfl⟩) fun r => .bind (.ofExcept _) fun reply => ?_) (.throw _)
  cases reply with
  | error text => exact .throw _
  | registers values => exact .pure _

theorem processTag_makes (settings : Settings) (client : Client) (device tag : Json) :
    Makes (I := calls) (Processes client device tag) (processTag settings client device tag) := by
  refine .bind_ofExcept fun rawDevice hrawDevice => .bind_ofExcept fun deviceId hdevice => ?_
  refine .bind_ofExcept fun rawTag hrawTag => .bind_ofExcept fun tagId htag => ?_
  refine .bind (.ofExcept _) fun _ => .bind (.ofExcept _) fun _ => ?_
  refine .bind (.ofExcept _) fun slaveId => ?_
  refine .bind (.mono (readModbusRegisters_makes client tag slaveId) fun _ => .inl) fun registers => ?_
  refine .bind (.ofExcept _) fun value => ?_
  show Makes (I := calls) _ (if value.isFinite then _ else _)
  split
  · refine .bind_ofExcept fun quality hquality => .mono (saveTelemetry_makes _) fun o ho => ?_
    exact .inr ⟨_, ⟨bind_eq_ok.mpr ⟨_, hrawDevice, hdevice⟩, bind_eq_ok.mpr ⟨_, hrawTag, htag⟩,
      ‹_›, hquality⟩, ho⟩
  · exact .pure _

theorem pollTag_makes (settings : Settings) (client : Client) (device : Json) (currentTime : PyFloat)
    (tag : Json) : Makes (I := calls) (PassCalls client device tag currentTime)
      (pollTag settings client device currentTime tag) := by
  refine .bind (.ofExcept _) fun enabled => .ite (.pure _) ?_
  refine .bind_ofExcept fun rawDevice hrawDevice => .bind_ofExcept fun deviceId hdevice => ?_
  refine .bind_ofExcept fun rawTag hrawTag => .bind_ofExcept fun tagId htag => ?_
  refine .bind (.ofExcept _) fun _ => .bind (.ofExcept _) fun interval => ?_
  have hkey {o : Call} (ho : o = .lastPoll (deviceId, tagId) ∨
      o = .setLastPoll (deviceId, tagId) currentTime) : PassCalls client device tag currentTime o :=
    .inr ⟨deviceId, tagId, bind_eq_ok.mpr ⟨_, hrawDevice, hdevice⟩,
      bind_eq_ok.mpr ⟨_, hrawTag, htag⟩, ho⟩
  refine .bind (.perform (hkey (.inl rfl))) fun previous => .ite (.pure _) ?_
  exact .ensure (.handle (.mono (processTag_makes settings client device tag) fun _ => .inl)
    fun _ => .pure _) (.perform (hkey (.inr rfl)))

end makes

end SenseGateway.Poller

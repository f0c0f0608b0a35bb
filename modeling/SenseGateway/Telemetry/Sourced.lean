import SenseGateway.Commands.Authorization
import SenseGateway.Diagnose.Parity
import SenseGateway.Effects.Following
import SenseGateway.Effects.Logs
import SenseGateway.Poller.Timetable

namespace SenseGateway.Telemetry

open Python Effects Poller

/-! What the poll thread stores. -/

/-- The device entry has the tag. -/
def Listed (device tag : Json) : Prop := ∃ tags, tagsOf device = .ok tags ∧ tag ∈ tags

/-- A successful read. -/
structure LastRead where
  client : Client
  request : ReadRequest
  registers : List ℤ

def LastRead.event (read : LastRead) : Event calls :=
  ⟨.read read.client read.request, .ok (.registers read.registers)⟩

/-- The reading is what a tag of the device makes of the registers. -/
structure Sourced (settings : Settings) (device tag : Json) (read : LastRead)
    (reading : Poller.Reading) : Prop where
  listed : Listed device tag
  params : ∃ connection communicationType,
    Commands.connectionOf device = .ok (connection, communicationType) ∧
      clientParams settings communicationType connection = .ok read.client.params
  request : Diagnose.plannedRead device tag = .ok (reading.deviceId, reading.tagId, read.request)
  value : engineeringValue settings tag read.registers = .ok reading.value

/-- Nothing is written, and what is stored has been read in the same pass of the tag loop. -/
def sourced (settings : Settings) (device : Json) : Protocol calls (Option LastRead) where
  allowed l o := (∀ client request, o ≠ .write client request) ∧
    (∀ ack, o ≠ .postAck ack) ∧
    ∀ reading stamp, o = .insertTelemetry reading stamp →
      ∃ tag read, l = some read ∧ Sourced settings device tag read reading
  next
    | _, .read client request, .ok (.registers registers) => some ⟨client, request, registers⟩
    | _, .lastPoll _, _ => none
    | l, _, _ => l

section sourced

variable {settings : Settings} {device tag : Json} {α : Type} {l : Option LastRead}

/-- Calls that neither write, nor acknowledge, nor store a reading. -/
def Harmless : Call → Prop
  | .write _ _ | .postAck _ | .insertTelemetry _ _ => False
  | _ => True

theorem harmless_allowed {o : Call} (ho : Harmless o) (l : Option LastRead) :
    (sourced settings device).allowed l o := by
  refine ⟨?_, ?_, ?_⟩
  · rintro client request rfl
    exact ho
  · rintro ack rfl
    exact ho
  · rintro reading stamp rfl
    exact ho.elim

theorem harmless_follows {o : Call} (ho : Harmless o) :
    Prog.Follows (sourced settings device) (perform o) := .perform (harmless_allowed ho)

theorem withLock_follows {lock : LockId} {body : PollerM α}
    (h : Prog.Follows (sourced settings device) body) :
    Prog.Follows (sourced settings device) (withLock lock body) :=
  .bind (harmless_follows (o := .acquire lock) trivial) fun _ =>
    .ensure h (harmless_follows (o := .release lock) trivial)

theorem harmless_opening {o : Call} (h : Opening o) : Harmless o := by
  cases o <;> first | exact h.elim | exact trivial

theorem harmless_closing {client : Client} {o : Call} (h : Closing client o) : Harmless o := by
  cases o <;> first | exact h.elim | exact trivial

theorem saveTelemetry_follows {read : LastRead} {reading : Poller.Reading}
    (h : Sourced settings device tag read reading) :
    (saveTelemetry reading).wp (sourced settings device) (fun _ _ => True) (fun _ _ => True)
      (some read) := by
  refine Prog.wp_mono (fun _ _ _ => trivial) (fun _ _ _ => trivial)
    (Prog.wp_of_only (saveTelemetry_makes reading) fun o ho => ⟨⟨?_, ?_, ?_⟩, ?_⟩)
  · rintro client request rfl
    exact ho
  · rintro ack rfl
    exact ho
  · rintro reading' stamp rfl
    obtain rfl : reading' = reading := ho
    exact ⟨tag, read, rfl, h⟩
  · intro r
    cases o <;> first | rfl | exact ho.elim

theorem processTag_follows {client : Client} (hlisted : Listed device tag)
    (hparams : ∃ connection communicationType,
      Commands.connectionOf device = .ok (connection, communicationType) ∧
        clientParams settings communicationType connection = .ok client.params) :
    Prog.Follows (sourced settings device) (processTag settings client device tag) := by
  intro l
  rw [Diagnose.processTag_eq, Diagnose.polledReading_eq, Prog.bind_assoc]
  cases hplan : Diagnose.plannedRead device tag with
  | error e => exact trivial
  | ok r =>
    obtain ⟨deviceId, tagId, request⟩ := r
    refine ⟨harmless_allowed (o := .read client request) trivial l, fun answer => ?_⟩
    rcases answer with e | text | registers
    · exact trivial
    · exact trivial
    · show ((Prog.ofExcept (Diagnose.polled settings tag registers >>= fun value =>
        (.ok (deviceId, tagId, value) : PyExcept (ℤ × ℤ × PyFloat)))).bind fun r =>
          Diagnose.saveReading tag r.1 r.2.1 r.2.2).wp _ _ _
            (some (LastRead.mk client request registers))
      cases hpolled : Diagnose.polled settings tag registers with
      | error e => exact trivial
      | ok value =>
        show (Diagnose.saveReading tag deviceId tagId value).wp _ _ _ _
        refine Prog.wp_bind_ofExcept (fun raw hraw => ?_) fun _ _ => trivial
        refine Prog.wp_bind_ofExcept (fun places hplaces => ?_) fun _ _ => trivial
        refine Prog.wp_bind_ofExcept (fun final hfinal => ?_) fun _ _ => trivial
        have hvalue : engineeringValue settings tag registers = .ok final :=
          Diagnose.engineeringValue_of_polled hpolled hraw hplaces hfinal
        show (if final.isFinite then _ else _ : PollerM Unit).wp _ _ _ _
        split
        · refine Prog.wp_bind_ofExcept (fun quality _ => ?_) fun _ _ => trivial
          exact saveTelemetry_follows ⟨hlisted, hparams, hplan, hvalue⟩
        · exact trivial

theorem pollTag_follows {client : Client} (currentTime : PyFloat)
    (hlisted : Listed device tag)
    (hparams : ∃ connection communicationType,
      Commands.connectionOf device = .ok (connection, communicationType) ∧
        clientParams settings communicationType connection = .ok client.params) :
    Prog.Follows (sourced settings device) (pollTag settings client device currentTime tag) := by
  rw [pollTag_eq]
  refine .bind_ofExcept fun turn _ => ?_
  cases turn with
  | none => exact .pure _
  | some turn =>
    refine .bind (harmless_follows (o := .lastPoll turn.1) trivial) fun previous => .ite (.pure _) ?_
    exact .ensure (.handle (processTag_follows hlisted hparams) fun _ => .pure _)
      (harmless_follows (o := .setLastPoll turn.1 currentTime) trivial)

theorem pollTags_follows {client : Client} (hparams : ∃ connection communicationType,
      Commands.connectionOf device = .ok (connection, communicationType) ∧
        clientParams settings communicationType connection = .ok client.params) :
    Prog.Follows (sourced settings device) (pollTags settings client device) := by
  refine .bind (harmless_follows (o := .monotonic) trivial) fun currentTime => ?_
  refine .bind_ofExcept fun raw hraw => .bind_ofExcept fun tags htags => .forEach fun tag htag => ?_
  exact pollTag_follows currentTime ⟨tags, bind_eq_ok.mpr ⟨raw, hraw, htags⟩, htag⟩ hparams

theorem pollOnBus_follows {connection : Json} {deviceId : ℤ} {communicationType : String}
    (isSerial : Bool)
    (hconnection : Commands.connectionOf device = .ok (connection, communicationType)) :
    Prog.Follows (sourced settings device)
      (pollOnBus settings device connection deviceId communicationType isSerial) := by
  refine .bind (.of_makes (warnOnPendingClose_makes isSerial)
    fun _ h => harmless_allowed (harmless_opening h)) fun _ => ?_
  show Prog.Follows (sourced settings device) ((createModbusClient _ _ _ _).bind _)
  unfold createModbusClient
  simp only [Prog.bind_eq, Prog.liftM_eq, Prog.bind_assoc, Prog.pure_eq, Prog.pure_bind]
  refine .bind_ofExcept fun params hparams => ?_
  refine .bind (harmless_follows (o := .construct deviceId params) trivial) fun made =>
    .bind_ofExcept fun uid _ => ?_
  have connecting : Prog.Follows (sourced settings device) (connect ⟨uid, deviceId, params⟩) :=
    .bind (harmless_follows (o := .connect _) trivial) fun r => .ofExcept r
  have polling : Prog.Follows (sourced settings device)
      ((perform (.setDeviceStatus deviceId "connected")).bind fun _ =>
      (pollTags settings ⟨uid, deviceId, params⟩ device).ensure
        (closeClientWithTimeout ⟨uid, deviceId, params⟩)) :=
    .bind (harmless_follows (o := .setDeviceStatus deviceId "connected") trivial) fun _ =>
      .ensure (pollTags_follows ⟨connection, communicationType, hconnection, hparams⟩)
        (.of_makes (closeClientWithTimeout_makes _) fun _ h => harmless_allowed (harmless_closing h))
  refine .bind connecting fun connected => .ite (.bind ?_ fun _ => polling) polling
  exact .bind_ofExcept fun name _ => fun _ => trivial

/-- A poll of a device stores nothing but what it has read of it. -/
theorem runDevice_follows : Prog.Follows (sourced settings device) (runDevice settings device) := by
  refine .bind_ofExcept fun _ _ => .bind_ofExcept fun deviceId _ => ?_
  refine .bind (harmless_follows (o := .tryAcquire (.device deviceId)) trivial) fun taken =>
    .ite ?_ (.pure _)
  refine .ensure (.handle ?_ fun e => ?_) (harmless_follows (o := .release (.device deviceId)) trivial)
  · refine .bind_ofExcept fun raw hraw => .bind_ofExcept fun communicationType htype => ?_
    refine .ite (harmless_follows (o := .setDeviceStatus deviceId "failed") trivial) ?_
    have onBus (isSerial : Bool) : Prog.Follows (sourced settings device)
        (pollOnBus settings device _ deviceId _ isSerial) :=
      pollOnBus_follows isSerial
        (bind_eq_ok.mpr ⟨raw, hraw, bind_eq_ok.mpr ⟨communicationType, htype, rfl⟩⟩)
    unfold withBusLock
    exact .ite (withLock_follows (onBus _)) (onBus _)
  · exact .bind (harmless_follows (o := .setDeviceStatus deviceId "failed") trivial) fun _ => fun _ =>
      trivial

/-- What is stored has been read before in the same pass of the tag loop. -/
theorem read_of_stored {es : List (Event calls)} {reading : Poller.Reading} {stamp : String}
    {r : PyExcept Unit}
    (h : (sourced settings device).Allows none (es ++ [⟨.insertTelemetry reading stamp, r⟩])) :
    ∃ tag read es₁ es₂, Sourced settings device tag read reading ∧
      es = es₁ ++ read.event :: es₂ ∧
      ∀ e ∈ es₂, ∀ key, e.op ≠ .lastPoll key := by
  obtain ⟨-, ⟨-, -, hstored⟩, -⟩ := ((sourced settings device).allows_append _ _ _).mp h
  obtain ⟨tag, read, hread, hsourced⟩ := hstored reading stamp rfl
  obtain ⟨es₁, ⟨op, answer⟩, es₂, rfl, hne, hset, hkept⟩ := Protocol.since_set hread
  refine ⟨tag, read, es₁, es₂, hsourced, ?_, fun e he key hop => ?_⟩
  · cases op with
    | read client request =>
      rcases answer with e | text | registers
      · exact absurd hset hne
      · exact absurd hset hne
      · cases hset
        rfl
    | lastPoll key => cases hset
    | _ => exact absurd hset hne
  · obtain ⟨op, answer⟩ := e
    obtain rfl : op = .lastPoll key := hop
    cases hkept _ he

end sourced

/-! What the command thread writes and acknowledges. -/

/-- What is written is what the command plans, and a success is told only of a write that was
confirmed. -/
def orderly (settings : Settings) (command configuration : Json) :
    Protocol calls (Option (Client × WriteRequest)) where
  allowed l
    | .write client request => Commands.Planned settings command configuration client request
    | .postAck ack => ack.status = "success" →
        command.get "command_id" = .ok ack.commandId ∧ l ≠ none
    | _ => True
  next
    | _, .write client request, .ok .done => some (client, request)
    | l, _, _ => l

section orderly

variable {settings : Settings} {command configuration : Json}

theorem orderly_quiet (o : Call) (ho : Commands.Quiet o) (l : Option (Client × WriteRequest)) :
    (orderly settings command configuration).allowed l o ∧
      ∀ r, (orderly settings command configuration).next l o r = l := by
  cases o <;> first | exact ho.elim | exact ⟨trivial, fun _ => rfl⟩

theorem executeCommand_orderly : (Commands.executeCommand settings command configuration).wp
    (orderly settings command configuration) (fun _ _ => True) (fun _ _ => True) none := by
  have hfailed : "failed" ≠ "success" := by decide
  refine Prog.wp_mono (fun _ _ _ => trivial) (fun _ _ _ => trivial)
    (Commands.executeCommand_stages (fun _ => True) orderly_quiet
      (fun commandId message _ executedAt => ?_)
      fun order ho => ?_)
  · exact ⟨fun h => absurd h hfailed, fun _ => trivial⟩
  · refine ⟨⟨fun _ => True, fun l => l ≠ none, fun _ => True, fun _ => True, orderly_quiet,
      fun _ _ => trivial, fun l client request _ hdevice hplan => ?_, fun l _ _ _ => ?_,
      fun l executedAt hl => ?_⟩, trivial, fun _ _ => trivial⟩
    · exact ⟨⟨order, ho, hdevice, hplan⟩, Option.some_ne_none _, fun _ _ => trivial⟩
    · exact ⟨fun h => absurd h hfailed, fun _ => trivial⟩
    · exact ⟨fun _ => ⟨Commands.screen_commandId ho, hl⟩, fun _ => trivial⟩

/-- A success is told after the write that the command plans has been confirmed. -/
theorem write_of_success {es : List (Event calls)} {ack : Ack} {r : PyExcept Unit}
    (h : (orderly settings command configuration).Allows none (es ++ [⟨.postAck ack, r⟩]))
    (hsuccess : ack.status = "success") : command.get "command_id" = .ok ack.commandId ∧
      ∃ client request es₁ es₂, Commands.Planned settings command configuration client request ∧
        es = es₁ ++ ⟨.write client request, .ok .done⟩ :: es₂ := by
  obtain ⟨hes, hack, -⟩ := ((orderly settings command configuration).allows_append _ _ _).mp h
  obtain ⟨hid, hl⟩ := hack hsuccess
  obtain ⟨⟨client, request⟩, hset⟩ := Option.ne_none_iff_exists'.mp hl
  obtain ⟨es₁, ⟨op, answer⟩, es₂, rfl, hne, hset, -⟩ := Protocol.since_set hset
  have hallowed := (((orderly settings command configuration).allows_append _ _ _).mp hes).2.1
  cases op with
  | write client' request' =>
    rcases answer with e | text | _
    · exact absurd hset hne
    · exact absurd hset hne
    · cases hset
      exact ⟨hid, client, request, es₁, es₂, hallowed, rfl⟩
  | _ => exact absurd hset hne

end orderly

end SenseGateway.Telemetry

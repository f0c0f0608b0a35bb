import SenseGateway.Commands.DeclaredType

namespace SenseGateway.Commands

open Python Effects Poller

/-- The writes of a run with the answer to each, in order. -/
def writeResults (es : List (Event calls)) : List (Client × WriteRequest × PyExcept WriteReply) :=
  es.filterMap fun e =>
    match e with
    | ⟨.write client request, answer⟩ => some (client, request, answer)
    | _ => none

/-- What a run has written and acknowledged. -/
structure Journal where
  written : List (Client × WriteRequest × PyExcept WriteReply)
  acked : List Ack

/-- The protocol that allows every call and keeps the journal. -/
def journal : Protocol calls Journal where
  allowed _ _ := True
  next l o r :=
    match o, r with
    | .write client request, answer => ⟨l.written ++ [(client, request, answer)], l.acked⟩
    | .postAck ack, _ => ⟨l.written, l.acked ++ [ack]⟩
    | _, _ => l

theorem journal_after (l : Journal) (es : List (Event calls)) :
    journal.after l es = ⟨l.written ++ writeResults es, l.acked ++ acks es⟩ := by
  induction es generalizing l with
  | nil => simp [Protocol.after, writeResults, acks]
  | cons e es ih =>
    have hstep : journal.after l (e :: es) = journal.after (journal.next l e.op e.answer) es := rfl
    rw [hstep, ih]
    obtain ⟨op, r⟩ := e
    cases op with
    | write client request => simp [journal, writeResults, acks]
    | postAck ack => simp [journal, writeResults, acks]
    | _ => rfl

theorem journal_quiet (o : Call) (ho : Quiet o) (l : Journal) :
    journal.allowed l o ∧ ∀ r, journal.next l o r = l := by
  refine ⟨trivial, fun r => ?_⟩
  cases o with
  | write client request => exact ho.elim
  | postAck ack => exact ho.elim
  | _ => rfl

/-- One acknowledgement for the command, which tells how the write went: it is a success where
there was one write, admitted by `A` and answered without an error, and a failure where no write
was answered without an error. -/
def Journal.Settled (commandId : Json) (A : Client → WriteRequest → Prop) (l : Journal) : Prop :=
  ∃ ack, l.acked = [ack] ∧ ack.commandId = commandId ∧
    (ack.status = "success" ∧
        (∃ client request, A client request ∧ l.written = [(client, request, .ok .done)]) ∨
      ack.status = "failed" ∧ ∀ w ∈ l.written, w.2.2 ≠ .ok .done)

/-- The stages of an order in the journal. -/
def journalStages {settings : Settings} {order : Order} {A : Client → WriteRequest → Prop}
    (hA : ∀ client request, client.device = order.deviceId →
      plannedWrite settings order = .ok (client.params, request) → A client request) :
    Stages journal settings order where
  Ready l := l = ⟨[], []⟩
  Written l := ∃ client request, A client request ∧ l = ⟨[(client, request, .ok .done)], []⟩
  Failed l := l.acked = [] ∧ ∀ w ∈ l.written, w.2.2 ≠ .ok .done
  Over := Journal.Settled order.commandId A
  quiet := journal_quiet
  failed_of_ready := by
    rintro l rfl
    exact ⟨rfl, by simp⟩
  write := by
    rintro l client request rfl hdevice hplan
    refine ⟨trivial, ⟨client, request, hA client request hdevice hplan, rfl⟩, fun r hr => ?_⟩
    exact ⟨rfl, by simpa [journal] using hr⟩
  ackFailed := by
    rintro l executedAt message ⟨hacked, hfailed⟩
    refine ⟨trivial, fun r => ⟨⟨order.commandId, "failed", executedAt, some message⟩, ?_, rfl,
      .inr ⟨rfl, hfailed⟩⟩⟩
    simp [journal, hacked]
  ackSuccess := by
    rintro l executedAt ⟨client, request, hw, rfl⟩
    exact ⟨trivial, fun r => ⟨_, rfl, rfl, .inl ⟨rfl, client, request, hw, rfl⟩⟩⟩

/-- How the journal of a whole command ends: settled, unless it raised before any call. -/
theorem executeCommand_journal (settings : Settings) (command configuration : Json) :
    (executeCommand settings command configuration).wp journal
      (fun _ l => ∃ commandId, command.get "command_id" = .ok commandId ∧
        l.Settled commandId (Planned settings command configuration))
      (fun e l => (∃ commandId, command.get "command_id" = .ok commandId ∧
        l.Settled commandId (Planned settings command configuration)) ∨
          l = ⟨[], []⟩ ∧ screen command configuration = .error e) ⟨[], []⟩ := by
  refine executeCommand_stages _ journal_quiet (fun commandId message hv executedAt => ?_)
    fun order hv => ?_
  · refine ⟨trivial, fun r => ⟨commandId, screen_commandId hv, _, rfl, rfl, .inr ⟨rfl, ?_⟩⟩⟩
    simp [journal]
  · have planned (client : Client) (request : WriteRequest) (hdevice : client.device = order.deviceId)
        (hplan : plannedWrite settings order = .ok (client.params, request)) :
        Planned settings command configuration client request := ⟨order, hv, hdevice, hplan⟩
    exact ⟨journalStages planned, rfl, fun l hover => ⟨order.commandId, screen_commandId hv, hover⟩⟩

/-- A run to the end settled its command, or it raised before any write and acknowledgement. -/
theorem settled_of_trace {settings : Settings} {command configuration : Json}
    {es : List (Event calls)} {out : PyExcept Unit}
    (h : Prog.Trace (executeCommand settings command configuration) es (some out)) :
    (∃ commandId, command.get "command_id" = .ok commandId ∧
      Journal.Settled commandId (Planned settings command configuration)
        ⟨writeResults es, acks es⟩) ∨
      writeResults es = [] ∧ acks es = [] ∧ ∃ e, out = .error e := by
  obtain ⟨-, hok, herror⟩ := h.wp (executeCommand_journal settings command configuration)
  rw [journal_after] at hok herror
  cases out with
  | ok a => exact .inl (hok a rfl)
  | error e =>
    rcases herror e rfl with hsettled | ⟨hempty, -⟩
    · exact .inl hsettled
    · exact .inr ⟨congrArg Journal.written hempty, congrArg Journal.acked hempty, e, rfl⟩

/-- A command that returns has been acknowledged once, under its own id, and as a success exactly
where its one write was answered without an error. -/
theorem acknowledged_once {settings : Settings} {command configuration : Json}
    {es : List (Event calls)}
    (h : Prog.Trace (executeCommand settings command configuration) es (some (.ok ()))) :
    ∃ ack, acks es = [ack] ∧ command.get "command_id" = .ok ack.commandId ∧
      (ack.status = "success" ↔
        ∃ client request, writeResults es = [(client, request, .ok .done)]) ∧
      (ack.status ≠ "success" → ack.status = "failed") := by
  have hsettled := (settled_of_trace h).resolve_right fun ⟨_, _, _, hraised⟩ => nomatch hraised
  obtain ⟨_, hid, ack, hacks, rfl, hstatus⟩ := hsettled
  refine ⟨ack, hacks, hid, ?_⟩
  rcases hstatus with ⟨hsuccess, client, request, -, hwritten⟩ | ⟨hfailed, hnone⟩
  · exact ⟨⟨fun _ => ⟨client, request, hwritten⟩, fun _ => hsuccess⟩, fun hne => absurd hsuccess hne⟩
  · refine ⟨⟨fun hsuccess => ?_, fun ⟨client, request, hwritten⟩ => ?_⟩, fun _ => hfailed⟩
    · rw [hfailed] at hsuccess
      exact absurd hsuccess (by decide)
    · exact absurd rfl (hnone (client, request, .ok .done) (by simp [hwritten]))

theorem friendlyEvents_returned (settings : Settings) (command configuration : Json)
    (h : ((executeCommand settings command configuration).eval
      (fun o _ => (friendly o, ())) ()).1 = .ok ()) :
    Prog.Trace (executeCommand settings command configuration)
      (friendlyEvents settings command configuration) (some (.ok ())) := by
  have htrace := Prog.trace_events (fun o _ => (friendly o, ()))
    (executeCommand settings command configuration) ()
  rwa [h] at htrace

/-- A command that is carried out, and one that is refused for its type. -/
theorem acknowledged_once_sample :
    (∃ es ack, Prog.Trace (executeCommand sampleSettings (writeCommand 1) sampleConfiguration) es
        (some (.ok ())) ∧ acks es = [ack] ∧ ack.status = "success") ∧
      ∃ es ack, Prog.Trace (executeCommand sampleSettings (.obj [("command_id", .int 4),
          ("device_id", .int 1), ("tag_id", .int 7)]) sampleConfiguration) es (some (.ok ())) ∧
        acks es = [ack] ∧ ack.status = "failed" := by
  constructor
  · have h := friendlyEvents_returned sampleSettings (writeCommand 1) sampleConfiguration
      (by decide)
    obtain ⟨ack, hacks, -, hsuccess, -⟩ := acknowledged_once h
    exact ⟨_, ack, h, hacks, hsuccess.mpr ⟨serialClient 0 1, .register 40 5 1, by decide⟩⟩
  · have h := friendlyEvents_returned sampleSettings
      (.obj [("command_id", .int 4), ("device_id", .int 1), ("tag_id", .int 7)])
      sampleConfiguration (by decide)
    obtain ⟨ack, hacks, -, hsuccess, hfailed⟩ := acknowledged_once h
    refine ⟨_, ack, h, hacks, hfailed fun hs => ?_⟩
    obtain ⟨client, request, hwritten⟩ := hsuccess.mp hs
    have hnone : writeResults (friendlyEvents sampleSettings (.obj [("command_id", .int 4),
      ("device_id", .int 1), ("tag_id", .int 7)]) sampleConfiguration) = [] := by decide
    simp [hnone] at hwritten

end SenseGateway.Commands

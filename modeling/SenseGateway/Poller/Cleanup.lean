import SenseGateway.Effects.Counting
import SenseGateway.Poller.Locking
import SenseGateway.Poller.Timetable

namespace SenseGateway.Poller

open Python Effects Commands

/-- The locks held after a call. -/
def holdingAfter (held : List LockId) (e : Event calls) : List LockId :=
  match e with
  | ⟨.acquire k, _⟩ => k :: held
  | ⟨.tryAcquire k, taken⟩ => if taken then k :: held else held
  | ⟨.release k, _⟩ => held.erase k
  | _ => held

/-- The locks a run has acquired and not released. -/
def locksHeld (es : List (Event calls)) : List LockId := es.foldl holdingAfter []

/-- The return of a call of `close_client_with_timeout`. -/
def closedEvent (client : Client) : Event calls := ⟨.closeReturned client, ()⟩

def isClose : Call → Bool
  | .closeReturned _ => true
  | _ => false

/-- How often a client has been closed. -/
def closings (client : Client) (es : List (Event calls)) : ℕ :=
  es.countP fun e => decide (e.op = .closeReturned client)

/-- A run leaves no lock taken, and closes each client that it has connected once, before it releases
a device lock. -/
structure CleansUp (es : List (Event calls)) : Prop where
  released : locksHeld es = []
  closed : ∀ client, connectedEvent client ∈ es → closings client es = 1
  inTime : ∀ before client after, es = before ++ connectedEvent client :: after →
    ∃ mid rest, after = mid ++ closedEvent client :: rest ∧
      ∀ e ∈ mid, ∀ deviceId, e.op ≠ .release (.device deviceId)

section locks

variable {t : Thread} {l : Local} {es : List (Event calls)} {client : Client}

theorem held_next (l : Local) (e : Event calls) :
    (next l e.op e.answer).held = holdingAfter l.held e := by
  obtain ⟨op, r⟩ := e
  cases op with
  | acquire k =>
    simp only [next, holdingAfter]
    split <;> rfl
  | tryAcquire k =>
    simp only [next, holdingAfter]
    split <;> rfl
  | filterPendingCloses =>
    simp only [next, holdingAfter]
    split <;> rfl
  | closeIsAlive c =>
    simp only [next, holdingAfter]
    split <;> rfl
  | connect c =>
    obtain e | connected := r
    · rfl
    · cases connected <;> rfl
  | _ => rfl

theorem held_after (l : Local) (es : List (Event calls)) :
    ((lockProtocol t).after l es).held = es.foldl holdingAfter l.held := by
  induction es generalizing l with
  | nil => rfl
  | cons e es ih =>
    rw [List.foldl_cons, ← held_next]
    exact ih _

/-- While a client is open a thread closes that client, or keeps it open and its device lock taken. -/
theorem opened_next {e : Event calls} (hopen : l.opened = some client)
    (ha : (lockProtocol t).allowed l e.op) :
    e = closedEvent client ∨ (next l e.op e.answer).opened = some client ∧
      ∀ deviceId, e.op ≠ .release (.device deviceId) := by
  obtain ⟨op, r⟩ := e
  cases op with
  | closeReturned c =>
    rcases ha with hnone | ⟨hsome, -⟩
    · cases hopen.symm.trans hnone
    · cases hopen.symm.trans hsome
      exact .inl rfl
  | connect c => cases hopen.symm.trans ha.1
  | release k =>
    refine .inr ⟨hopen, ?_⟩
    rintro deviceId ⟨⟩
    cases hopen.symm.trans (ha.2.1 rfl)
  | acquire k =>
    refine .inr ⟨?_, by simp⟩
    simp only [next]
    split <;> exact hopen
  | tryAcquire k =>
    refine .inr ⟨?_, by simp⟩
    simp only [next]
    split <;> exact hopen
  | filterPendingCloses =>
    refine .inr ⟨?_, by simp⟩
    simp only [next]
    split <;> exact hopen
  | closeIsAlive c =>
    refine .inr ⟨?_, by simp⟩
    simp only [next]
    split <;> exact hopen
  | _ => exact .inr ⟨hopen, by simp⟩

/-- A client that is open is closed before the thread is idle again, and no device lock is released
until then. -/
theorem closed_of_opened (hopen : l.opened = some client) (hes : (lockProtocol t).Allows l es)
    (hend : ((lockProtocol t).after l es).opened = none) :
    ∃ mid rest, es = mid ++ closedEvent client :: rest ∧
      ∀ e ∈ mid, ∀ deviceId, e.op ≠ .release (.device deviceId) := by
  induction es generalizing l with
  | nil => cases hopen.symm.trans hend
  | cons e es ih =>
    rcases opened_next hopen hes.1 with rfl | ⟨hkeeps, hrelease⟩
    · exact ⟨[], es, rfl, by simp⟩
    · obtain ⟨mid, rest, rfl, hmid⟩ := ih hkeeps hes.2 hend
      exact ⟨e :: mid, rest, rfl, List.forall_mem_cons.mpr ⟨hrelease, hmid⟩⟩

/-- A run from one idle state to another, with at most one call of `close_client_with_timeout`. -/
theorem cleansUp_of_idle {start : Local} (hstart : start.Idle) (hes : (lockProtocol t).Allows start es)
    (hend : ((lockProtocol t).after start es).Idle)
    (honce : (es.countP fun e => isClose e.op) ≤ 1) : CleansUp es := by
  have hclosed (before : List (Event calls)) (client : Client) (after : List (Event calls))
      (hsplit : es = before ++ connectedEvent client :: after) :
      ∃ mid rest, after = mid ++ closedEvent client :: rest ∧
        ∀ e ∈ mid, ∀ deviceId, e.op ≠ .release (.device deviceId) := by
    subst hsplit
    have hafter := (((lockProtocol t).allows_append _ _ _).mp hes).2.2
    refine closed_of_opened rfl hafter ?_
    have hend := hend.2
    rwa [Protocol.after, List.foldl_append] at hend
  refine ⟨?_, fun client hclient => ?_, hclosed⟩
  · have hheld := held_after (t := t) start es
    rw [hstart.1, hend.1] at hheld
    exact hheld.symm
  · obtain ⟨before, after, hsplit⟩ := List.append_of_mem hclient
    obtain ⟨mid, rest, rfl, -⟩ := hclosed before client after hsplit
    -- the close returns at least once, and no close returns twice
    have hmem : closedEvent client ∈ es := by
      rw [hsplit]
      simp
    have hpos : 0 < closings client es := List.countP_pos_iff.mpr ⟨_, hmem, by simp [closedEvent]⟩
    have hle : closings client es ≤ es.countP fun e => isClose e.op := by
      refine List.countP_mono_left fun e _ he => ?_
      rw [of_decide_eq_true he]
      rfl
    omega

end locks

section counting

open Prog

variable {α : Type}

/-- No call of the program is the return of `close_client_with_timeout`. -/
abbrev Closeless (p : PollerM α) : Prop := Makes (I := calls) (fun o => isClose o = false) p

theorem not_close_opening {o : Call} (h : Opening o) : isClose o = false := by
  cases o <;> first | rfl | exact h.elim

theorem not_close_passCalls {client : Client} {device tag : Json} {currentTime : PyFloat} {o : Call}
    (h : PassCalls client device tag currentTime o) : isClose o = false := by
  cases o with
  | closeReturned c =>
    rcases h with (⟨_, h⟩ | ⟨_, -, h⟩) | ⟨_, _, -, -, h | h⟩
    · cases h
    · exact h.elim
    · cases h
    · cases h
  | _ => rfl

theorem pollTags_closeless (settings : Settings) (client : Client) (device : Json) :
    Closeless (pollTags settings client device) := by
  refine .bind (.perform rfl) fun currentTime => .bind (.ofExcept _) fun _ => ?_
  refine .bind (.ofExcept _) fun tags => .forEach fun tag _ => ?_
  exact .mono (pollTag_makes settings client device currentTime tag) fun _ => not_close_passCalls

theorem connect_closeless (client : Client) : Closeless (connect client) :=
  .bind (.perform rfl) fun _ => .ofExcept _

theorem unableToConnect_closeless (device : Json) : Closeless (unableToConnect device) :=
  .bind (.ofExcept _) fun _ => .throw _

theorem warnOnPendingClose_closeless (isSerial : Bool) : Closeless (warnOnPendingClose isSerial) :=
  .mono (warnOnPendingClose_makes isSerial) fun _ => not_close_opening

theorem createModbusClient_closeless (settings : Settings) (deviceId : ℤ)
    (communicationType : String) (connection : Json) :
    Closeless (createModbusClient settings deviceId communicationType connection) :=
  .mono (createModbusClient_makes _ _ _ _) fun _ => not_close_opening

theorem closeClientWithTimeout_once (client : Client) :
    AtMost (I := calls) isClose 1 (closeClientWithTimeout client) := by
  have hlast : AtMost (I := calls) isClose 1 (perform (.closeReturned client)) :=
    fun n => ⟨trivial, fun _ => Nat.le_refl _⟩
  have hreap : Closeless reapPendingCloseThreads := reapPendingCloseThreads_makes rfl rfl rfl
  have happend : Closeless (withLock .pendingCloses (perform (.appendPendingClose client))) :=
    withLock_makes rfl rfl (.perform rfl)
  refine .skip hreap fun _ => .skip (.perform rfl) fun _ => .skip (.perform rfl) fun _ => ?_
  exact .skip (.perform rfl) fun alive => .ite (.skip happend fun _ => hlast) hlast

theorem pollOnBus_once (settings : Settings) (device connection : Json) (deviceId : ℤ)
    (communicationType : String) (isSerial : Bool) : AtMost (I := calls) isClose 1
      (pollOnBus settings device connection deviceId communicationType isSerial) := by
  refine .skip (warnOnPendingClose_closeless isSerial) fun _ => ?_
  refine .skip (createModbusClient_closeless _ _ _ _) fun client => ?_
  refine .skip (connect_closeless client) fun connected => ?_
  have hpoll : AtMost (I := calls) isClose 1
      ((perform (.setDeviceStatus deviceId "connected")).bind fun _ =>
        (pollTags settings client device).ensure (closeClientWithTimeout client)) :=
    .skip (.perform rfl) fun _ =>
      (AtMost.of_makes (pollTags_closeless settings client device)).ensure
        (closeClientWithTimeout_once client)
  exact .ite (.skip (unableToConnect_closeless device) fun _ => hpoll) hpoll

theorem withLock_once {lock : LockId} {body : PollerM α} (h : AtMost (I := calls) isClose 1 body) :
    AtMost (I := calls) isClose 1 (withLock lock body) :=
  .skip (.perform rfl) fun _ => .ensure_makes h (.perform rfl)

theorem runDevice_once (settings : Settings) (device : Json) :
    AtMost (I := calls) isClose 1 (runDevice settings device) := by
  refine .skip (.ofExcept _) fun _ => .skip (.ofExcept _) fun deviceId => ?_
  have failed : Closeless (perform (.setDeviceStatus deviceId "failed")) := .perform rfl
  have none {p : PollerM Unit} (h : Closeless p) : AtMost (I := calls) isClose 1 p :=
    (AtMost.of_makes h).mono (Nat.zero_le 1)
  have polled : AtMost (I := calls) isClose 1 (pollDevice settings device deviceId) := by
    refine .skip (.ofExcept _) fun _ => .skip (.ofExcept _) fun communicationType => ?_
    have onBus (connection : Json) (isSerial : Bool) :=
      pollOnBus_once settings device connection deviceId communicationType isSerial
    exact .ite (none failed) (.ite (withLock_once (onBus _ _)) (onBus _ _))
  refine .skip (.perform rfl) fun taken => .ite ?_ (none (.pure ()))
  exact .ensure_makes (.handle_makes polled fun e => .bind failed fun _ => .throw e) (.perform rfl)

theorem ackCommand_closeless (commandId : Json) (status : String) (error : Option String) :
    Closeless (ackCommand commandId status error) := by
  refine .bind (.perform rfl) fun executedAt => .bind (.perform rfl) fun reply => ?_
  match reply with
  | .ok () => exact .pure _
  | .error e => exact .ite (.pure _) (.throw _)

theorem attempt_closeless {p : PollerM α} (h : Closeless p) : Closeless (attempt p) :=
  .handle (.bind h fun _ => .pure _) fun _ => .pure _

theorem connectAndWrite_closeless (device tag connection : Json) (commandType : String) (value : Json)
    (client : Client) :
    Closeless (connectAndWrite device tag connection commandType value client) := by
  have hwrite (request : WriteRequest) : Closeless (write client request) := by
    refine .bind (.perform rfl) fun r => .bind (.ofExcept _) fun reply => ?_
    match reply with
    | .done => exact .pure _
    | .error _ => exact .throw _
  have hvalue (slaveId : ℤ) : Closeless (writeCommandValue client tag commandType value slaveId) := by
    refine .bind (.ofExcept _) fun _ => .bind (.ofExcept _) fun address => .ite ?_ (.ite ?_ (.throw _))
    · refine .bind (.ofExcept _) fun _ => .bind (.ofExcept _) fun functionCode => .ite (.throw _) ?_
      exact .bind (.ofExcept _) fun _ => hwrite _
    · exact hwrite _
  have hrest : Closeless ((Prog.ofExcept (connection.get "slave_id")).bind fun raw =>
      (Prog.ofExcept (raw.orElse (.int 1)).toInt).bind fun slaveId =>
        writeCommandValue client tag commandType value slaveId) :=
    .bind (.ofExcept _) fun _ => .bind (.ofExcept _) fun slaveId => hvalue slaveId
  refine .bind (connect_closeless client) fun connected => .ite ?_ hrest
  exact .bind (unableToConnect_closeless device) fun _ => hrest

theorem writeToDevice_closeless (settings : Settings) (device tag : Json) (deviceId : ℤ)
    (commandType : String) (value : Json) :
    Closeless (writeToDevice settings device tag deviceId commandType value) := by
  unfold writeToDevice
  split
  · exact .pure _
  · have hbus (connection : Json) (communicationType : String) (isSerial : Bool) :
        Closeless (writeOnBus settings device tag connection communicationType isSerial deviceId
          commandType value) := by
      have hcreate : Closeless ((warnOnPendingClose isSerial).bind fun _ =>
          createModbusClient settings deviceId communicationType connection) :=
        .bind (warnOnPendingClose_closeless isSerial) fun _ => createModbusClient_closeless _ _ _ _
      refine .bind (attempt_closeless hcreate) fun created => ?_
      match created with
      | .error e => exact .pure _
      | .ok client =>
        refine .bind (attempt_closeless (connectAndWrite_closeless _ _ _ _ _ client)) fun _ => ?_
        exact .pure _
    exact .ite (withLock_makes rfl rfl (hbus _ _ _)) (hbus _ _ _)

theorem concludeWrite_once (commandId : Json) (client : Option Client) (result : PyExcept Unit) :
    AtMost (I := calls) isClose 1 (concludeWrite commandId client result) := by
  refine AtMost.ensure (m := 0) (k := 1) (AtMost.of_makes ?_) ?_
  · cases result with
    | ok _ => exact .pure _
    | error e => exact .bind (ackCommand_closeless _ _ _) fun _ => .pure _
  · cases client with
    | some client => exact closeClientWithTimeout_once client
    | none => exact (AtMost.of_makes (.pure ())).mono (Nat.zero_le 1)

theorem executeCommand_once (settings : Settings) (command configuration : Json) :
    AtMost (I := calls) isClose 1 (executeCommand settings command configuration) := by
  have none {p : PollerM Unit} (h : Closeless p) : AtMost (I := calls) isClose 1 p :=
    (AtMost.of_makes h).mono (Nat.zero_le 1)
  refine .skip (.ofExcept _) fun commandId => .skip (.ofExcept _) fun _ => ?_
  refine .skip (.ofExcept _) fun value => ?_
  split
  · exact none (.ite (ackCommand_closeless _ _ _) (.throw _))
  · refine .ite (none (ackCommand_closeless _ _ _)) (.skip (.ofExcept _) fun found => ?_)
    rcases found with _ | ⟨device, tag⟩
    · exact none (ackCommand_closeless _ _ _)
    · refine .skip (.ofExcept _) fun _ => .skip (.ofExcept _) fun deviceId => ?_
      have hwritten (commandType : String) : AtMost (I := calls) isClose 1 (withLock (.device deviceId)
          ((writeToDevice settings device tag deviceId commandType value).bind fun written =>
            concludeWrite commandId written.1 written.2)) :=
        withLock_once (.skip (writeToDevice_closeless settings device tag deviceId commandType value)
          fun written => concludeWrite_once commandId written.1 written.2)
      exact (hwritten _).bind fun succeeded =>
        AtMost.of_makes (.ite (ackCommand_closeless _ _ _) (.pure _))

end counting

/-- However `run_device` and `execute_command` end, they clean up. -/
theorem cleansUp_of_trace {settings : Settings} {p : PollerM Unit} {es : List (Event calls)}
    {out : PyExcept Unit}
    (hp : (∃ device, p = runDevice settings device) ∨
      ∃ command configuration, p = executeCommand settings command configuration)
    (h : Prog.Trace p es (some out)) : CleansUp es := by
  have hidle : Local.Idle ⟨[], none, false, none, false⟩ := ⟨rfl, rfl⟩
  have hend {t : Thread} (hwp : p.wp (lockProtocol t) (fun _ => Local.Idle) (fun _ => Local.Idle)
      ⟨[], none, false, none, false⟩) (honce : Prog.AtMost (I := calls) isClose 1 p) : CleansUp es := by
    obtain ⟨hallows, hok, herror⟩ := h.wp hwp
    refine cleansUp_of_idle hidle hallows ?_ (honce.of_trace h)
    cases out with
    | ok a => exact hok a rfl
    | error e => exact herror e rfl
  rcases hp with ⟨device, rfl⟩ | ⟨command, configuration, rfl⟩
  · exact hend (t := .poll) (runDevice_wp settings device hidle) (runDevice_once settings device)
  · exact hend (executeCommand_wp settings command configuration rfl hidle)
      (executeCommand_once settings command configuration)

/-- A run of `run_device` that a tag ends with an error, and a command that is carried out: both connect
and clean up. -/
theorem cleansUp_sample :
    ∃ es es', Prog.Trace (runDevice sampleSettings (withTags meterFields [.null])) es
        (some (.error ⟨.attributeError, "'NoneType' object has no attribute 'get'"⟩)) ∧
      Prog.Trace (executeCommand sampleSettings (writeCommand 1) sampleConfiguration) es'
        (some (.ok ())) ∧
      (connectedEvent (serialClient 0 1) ∈ es ∧ CleansUp es) ∧
      connectedEvent (serialClient 0 1) ∈ es' ∧ CleansUp es' := by
  have hrun := Prog.trace_events (fun o (_ : Unit) => (friendly o, ()))
    (runDevice sampleSettings (withTags meterFields [.null])) ()
  have hcommand := Prog.trace_events (fun o (_ : Unit) => (friendly o, ()))
    (executeCommand sampleSettings (writeCommand 1) sampleConfiguration) ()
  exact ⟨_, _, hrun, hcommand, ⟨by decide, cleansUp_of_trace (.inl ⟨_, rfl⟩) hrun⟩, by decide,
    cleansUp_of_trace (.inr ⟨_, _, rfl⟩) hcommand⟩

end SenseGateway.Poller

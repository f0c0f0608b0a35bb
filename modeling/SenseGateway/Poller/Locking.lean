import SenseGateway.Commands.Execute
import SenseGateway.Effects.Threads

namespace SenseGateway.Poller

open Python Effects Commands

/-- The two threads of the poller process that use Modbus clients. -/
inductive Thread
  | poll
  | command
  deriving DecidableEq, Repr

/-- The order in which the locks are nested. -/
def LockId.rank : LockId → ℕ
  | .device _ => 0
  | .serialBus => 1
  | _ => 2

/-- What a thread knows of itself: the locks it holds, the client it has open (from `connect`
to the return of `close_client_with_timeout`), whether the close of that client is settled
(finished, or abandoned and recorded), and, since it last took the bus lock, how many close
threads it counted and whether it logged the warning. -/
structure Local where
  held : List LockId
  opened : Option Client
  settled : Bool
  reaped : Option ℕ
  warned : Bool

namespace Local

/-- Between two calls of `run_device` or `execute_command`. -/
def Idle (l : Local) : Prop := l.held = [] ∧ l.opened = none

/-- No lock is held that is taken for a single statement. -/
def Leafless (l : Local) : Prop := ∀ j ∈ l.held, j.rank < 2

/-- Where the thread opens a client that must not share the bus. -/
def MayOpen (l : Local) (c : Client) : Prop :=
  l.opened = none ∧ .device c.device ∈ l.held ∧
    (c.isSerial → .serialBus ∈ l.held ∧ ∃ n, l.reaped = some n ∧ (n ≠ 0 → l.warned))

def take (l : Local) (k : LockId) : Local := { l with held := k :: l.held }

def drop (l : Local) (k : LockId) : Local := { l with held := l.held.erase k }

end Local

/-- What each thread may do while it holds which locks. -/
def allowed (t : Thread) (l : Local) : Call → Prop
  | .acquire k => (∀ j ∈ l.held, j.rank < k.rank) ∧ (t = .poll → 0 < k.rank)
  | .tryAcquire k => l.held = [] ∧ l.opened = none ∧ k.rank = 0
  | .release k => k ∈ l.held ∧ (k.rank = 0 → l.opened = none) ∧
      (k = .serialBus → t = .poll → l.opened = none)
  | .filterPendingCloses => .pendingCloses ∈ l.held
  | .appendPendingClose c => .pendingCloses ∈ l.held ∧ (l.opened = none ∨ l.opened = some c)
  | .connect c => l.MayOpen c
  | .closeIsAlive c => l.opened = none ∨ l.opened = some c
  | .closeReturned c => l.opened = none ∨ l.opened = some c ∧ l.settled
  | _ => True

def next (l : Local) : (o : Call) → o.Answer → Local
  | .acquire k, _ =>
    if k = .serialBus then { l.take k with reaped := none, warned := false } else l.take k
  | .tryAcquire k, taken => if taken then l.take k else l
  | .release k, _ => l.drop k
  | .filterPendingCloses, n =>
    if l.opened = none ∧ .serialBus ∈ l.held then { l with reaped := some n } else l
  | .appendPendingClose _, _ => { l with settled := true }
  | .warnCloseInFlight, _ => { l with warned := true }
  | .connect c, .ok true => { l with opened := some c, settled := false, reaped := none }
  | .closeIsAlive _, alive => if alive then l else { l with settled := true }
  | .closeReturned _, _ => { l with opened := none }
  | _, _ => l

def lockProtocol (t : Thread) : Protocol calls Local := ⟨allowed t, next⟩

variable {t : Thread} {l : Local} {α β : Type}

theorem Local.Leafless.take {k : LockId} (h : l.Leafless) (hk : k.rank < 2) :
    (l.take k).Leafless := by
  intro j hj
  rcases List.mem_cons.mp hj with rfl | hj
  · exact hk
  · exact h j hj

@[simp] theorem Local.drop_take (l : Local) (k : LockId) : (l.take k).drop k = l := by
  simp [Local.take, Local.drop]

theorem wp_do {o : Call} {f : o.Answer → PollerM α} {Q : α → Local → Prop}
    {E : PyError → Local → Prop} (ha : allowed t l o)
    (h : ∀ r, (f r).wp (lockProtocol t) Q E (next l o r)) :
    ((perform o).bind f).wp (lockProtocol t) Q E l := ⟨ha, h⟩

theorem wp_withLock {k : LockId} {body : PollerM α} {Q : α → Local → Prop}
    {E : PyError → Local → Prop} (ha : allowed t l (.acquire k))
    (h : body.wp (lockProtocol t) (fun a l' => allowed t l' (.release k) ∧ Q a (l'.drop k))
      (fun e l' => allowed t l' (.release k) ∧ E e (l'.drop k)) (next l (.acquire k) ())) :
    (withLock k body).wp (lockProtocol t) Q E l := by
  refine wp_do ha fun _ => ?_
  rw [Prog.wp_ensure]
  exact Prog.wp_mono (fun _ _ h => ⟨h.1, fun _ => h.2⟩) (fun _ _ h => ⟨h.1, fun _ => h.2⟩) h

/-- A lock that nothing else is nested in may be taken wherever no such lock is held. -/
theorem wp_withLock_leaf {k : LockId} {body : PollerM α} {Q : α → Local → Prop}
    {E : PyError → Local → Prop} (hl : l.Leafless) (hk : k.rank = 2)
    (h : body.wp (lockProtocol t) (fun a l' => k ∈ l'.held ∧ Q a (l'.drop k))
      (fun e l' => k ∈ l'.held ∧ E e (l'.drop k)) (l.take k)) :
    (withLock k body).wp (lockProtocol t) Q E l := by
  have hbus : k ≠ .serialBus := by
    rintro rfl
    cases hk
  -- neither the device lock nor the bus lock, so its release asks for nothing but that it is held
  have release (l' : Local) (hmem : k ∈ l'.held) : allowed t l' (.release k) :=
    ⟨hmem, fun h => by omega, fun h => absurd h hbus⟩
  refine wp_withLock ⟨fun j hj => by rw [hk]; exact hl j hj, fun _ => by omega⟩ ?_
  simp only [next, if_neg hbus]
  exact Prog.wp_mono (fun _ l' h => ⟨release l' h.1, h.2⟩) (fun _ l' h => ⟨release l' h.1, h.2⟩) h

/-- A program that leaves the local state as it found it, however it ends. -/
def Neutral (t : Thread) (p : PollerM α) : Prop :=
  ∀ l : Local, l.Leafless → p.wp (lockProtocol t) (fun _ l' => l' = l) (fun _ l' => l' = l) l

namespace Neutral

theorem pure (a : α) : Neutral t (Prog.pure a) := fun _ _ => rfl

theorem throw (e : PyError) : Neutral t (Prog.throw e : PollerM α) := fun _ _ => rfl

theorem ofExcept (x : PyExcept α) : Neutral t (Prog.ofExcept x) := by
  cases x with
  | ok a => exact pure a
  | error e => exact throw e

/-- Calls that touch neither locks nor clients. -/
theorem perform {o : Call} (h : ∀ l, allowed t l o ∧ ∀ r, next l o r = l) :
    Neutral t (perform o) := fun l _ => h l

theorem bind {p : PollerM α} {f : α → PollerM β} (hp : Neutral t p) (hf : ∀ a, Neutral t (f a)) :
    Neutral t (p.bind f) := by
  intro l hl
  rw [Prog.wp_bind]
  refine Prog.wp_mono ?_ (fun _ _ h => h) (hp l hl)
  rintro a l' rfl
  exact hf a l' hl

theorem handle {p : PollerM α} {h : PyError → PollerM α} (hp : Neutral t p)
    (hh : ∀ e, Neutral t (h e)) : Neutral t (p.handle h) := by
  intro l hl
  rw [Prog.wp_handle]
  refine Prog.wp_mono (fun _ _ h => h) ?_ (hp l hl)
  rintro e l' rfl
  exact hh e l' hl

theorem ensure {p : PollerM α} {f : PollerM Unit} (hp : Neutral t p) (hf : Neutral t f) :
    Neutral t (p.ensure f) := by
  intro l hl
  rw [Prog.wp_ensure]
  refine Prog.wp_mono ?_ ?_ (hp l hl)
  · rintro _ l' rfl
    exact hf l' hl
  · rintro _ l' rfl
    exact hf l' hl

theorem forEach {xs : List β} {body : β → PollerM Unit} (h : ∀ x, Neutral t (body x)) :
    Neutral t (Prog.forEach xs body) := by
  intro l hl
  refine Prog.wp_forEach (J := fun _ l' => l' = l) ?_ rfl
  rintro x _ l' rfl
  exact h x l' hl

theorem ite {c : Prop} [Decidable c] {p q : PollerM α} (hp : Neutral t p) (hq : Neutral t q) :
    Neutral t (if c then p else q) := by
  split
  · exact hp
  · exact hq

/-- A critical section that does nothing else to locks or clients. -/
theorem withLock {k : LockId} {body : PollerM α} (hk : k.rank = 2)
    (h : ∀ l, body.wp (lockProtocol t) (fun _ l' => l' = l) (fun _ l' => l' = l) l) :
    Neutral t (withLock k body) := by
  intro l hl
  refine wp_withLock_leaf hl hk (Prog.wp_mono ?_ ?_ (h (l.take k)))
  · rintro _ l' rfl
    exact ⟨List.mem_cons_self, l.drop_take k⟩
  · rintro _ l' rfl
    exact ⟨List.mem_cons_self, l.drop_take k⟩

end Neutral

theorem saveTelemetry_neutral (reading : Reading) : Neutral t (saveTelemetry reading) := by
  refine Neutral.bind (Neutral.perform fun _ => ⟨trivial, fun _ => rfl⟩) fun stamp => ?_
  refine Neutral.bind (Neutral.withLock rfl fun l => ?_) fun _ => ?_
  · refine wp_do trivial fun r => ?_
    cases r <;> rfl
  refine Neutral.bind (Neutral.handle (Neutral.withLock rfl fun l => ?_) fun _ => .pure _)
    fun _ => ?_
  · refine wp_do trivial fun r => ?_
    cases r <;> rfl
  exact Neutral.withLock rfl fun l => ⟨trivial, fun _ => rfl⟩

theorem readModbusRegisters_neutral (client : Client) (tag : Json) (slaveId : ℤ) :
    Neutral t (readModbusRegisters client tag slaveId) := by
  refine .bind (.ofExcept _) fun _ => .bind (.ofExcept _) fun functionCode => ?_
  refine .bind (.ofExcept _) fun _ => .bind (.ofExcept _) fun address => ?_
  refine .bind (.ofExcept _) fun _ => .bind (.ofExcept _) fun count => ?_
  refine .ite ?_ (.throw _)
  refine .bind (.perform fun _ => ⟨trivial, fun _ => rfl⟩) fun r => .bind (.ofExcept _) fun reply => ?_
  cases reply with
  | error text => exact .throw _
  | registers values => exact .pure _

theorem processTag_neutral (settings : Settings) (client : Client) (device tag : Json) :
    Neutral t (processTag settings client device tag) := by
  refine .bind (.ofExcept _) fun _ => .bind (.ofExcept _) fun deviceId => ?_
  refine .bind (.ofExcept _) fun _ => .bind (.ofExcept _) fun tagId => ?_
  refine .bind (.ofExcept _) fun _ => .bind (.ofExcept _) fun _ => ?_
  refine .bind (.ofExcept _) fun slaveId => ?_
  refine .bind (readModbusRegisters_neutral client tag slaveId) fun registers => ?_
  refine .bind (.ofExcept _) fun value => .ite ?_ (.pure _)
  exact .bind (.ofExcept _) fun quality => saveTelemetry_neutral _

theorem pollTag_neutral (settings : Settings) (client : Client) (device : Json)
    (currentTime : PyFloat) (tag : Json) :
    Neutral t (pollTag settings client device currentTime tag) := by
  refine .bind (.ofExcept _) fun enabled => .ite (.pure _) ?_
  refine .bind (.ofExcept _) fun _ => .bind (.ofExcept _) fun deviceId => ?_
  refine .bind (.ofExcept _) fun _ => .bind (.ofExcept _) fun tagId => ?_
  refine .bind (.ofExcept _) fun _ => .bind (.ofExcept _) fun interval => ?_
  refine .bind (.perform fun _ => ⟨trivial, fun _ => rfl⟩) fun previous => .ite (.pure _) ?_
  exact .ensure (.handle (processTag_neutral settings client device tag) fun _ => .pure _)
    (.perform fun _ => ⟨trivial, fun _ => rfl⟩)

theorem pollTags_neutral (settings : Settings) (client : Client) (device : Json) :
    Neutral t (pollTags settings client device) := by
  refine .bind (.perform fun _ => ⟨trivial, fun _ => rfl⟩) fun currentTime => ?_
  refine .bind (.ofExcept _) fun _ => .bind (.ofExcept _) fun tags => ?_
  exact .forEach fun tag => pollTag_neutral settings client device currentTime tag

theorem ackCommand_neutral (commandId : Json) (status : String) (error : Option String) :
    Neutral t (ackCommand commandId status error) := by
  refine .bind (.perform fun _ => ⟨trivial, fun _ => rfl⟩) fun executedAt => ?_
  refine .bind (.perform fun _ => ⟨trivial, fun _ => rfl⟩) fun r => ?_
  cases r with
  | ok _ => exact .pure _
  | error e => exact .ite (.pure _) (.throw _)

theorem write_neutral (client : Client) (request : WriteRequest) :
    Neutral t (write client request) := by
  refine .bind (.perform fun _ => ⟨trivial, fun _ => rfl⟩) fun r => .bind (.ofExcept _) fun reply => ?_
  cases reply with
  | done => exact .pure _
  | error text => exact .throw _

theorem writeCommandValue_neutral (client : Client) (tag : Json) (commandType : String)
    (value : Json) (slaveId : ℤ) :
    Neutral t (writeCommandValue client tag commandType value slaveId) := by
  refine .bind (.ofExcept _) fun _ => .bind (.ofExcept _) fun address => .ite ?_ (.ite ?_ (.throw _))
  · refine .bind (.ofExcept _) fun _ => .bind (.ofExcept _) fun code => .ite (.throw _) ?_
    exact .bind (.ofExcept _) fun n => write_neutral client _
  · exact write_neutral client _

theorem reapPendingCloseThreads_wp (hl : l.Leafless) :
    reapPendingCloseThreads.wp (lockProtocol t)
      (fun n l' => l' = next l .filterPendingCloses n) (fun _ _ => False) l := by
  refine wp_withLock_leaf hl rfl ⟨List.mem_cons_self, fun n => ?_⟩
  have hbus : LockId.serialBus ∈ (l.take .pendingCloses).held ↔ LockId.serialBus ∈ l.held := by
    simp [Local.take]
  change LockId.pendingCloses ∈ (next (l.take .pendingCloses) .filterPendingCloses n).held ∧
    (next (l.take .pendingCloses) .filterPendingCloses n).drop .pendingCloses =
      next l .filterPendingCloses n
  simp only [next, hbus]
  -- the count is only remembered where the thread is about to open a client on the bus
  by_cases h : l.opened = none ∧ LockId.serialBus ∈ l.held
  · simp [Local.take, Local.drop, h]
  · rw [if_neg h, if_neg (by simpa [Local.take] using h)]
    exact ⟨List.mem_cons_self, l.drop_take _⟩

/-- On the bus, the close threads have been counted and the warning logged where it is due. -/
theorem warnOnPendingClose_wp (isSerial : Bool) (hl : l.Leafless) (hopen : l.opened = none)
    (hbus : isSerial → .serialBus ∈ l.held) :
    (warnOnPendingClose isSerial).wp (lockProtocol t)
      (fun _ l' => l'.held = l.held ∧ l'.opened = none ∧
        (isSerial → ∃ n, l'.reaped = some n ∧ (n ≠ 0 → l'.warned)))
      (fun _ _ => False) l := by
  unfold warnOnPendingClose
  cases isSerial with
  | false => exact ⟨rfl, hopen, by simp⟩
  | true =>
    simp only [if_true, Prog.bind_eq, Prog.wp_bind]
    refine Prog.wp_mono ?_ (fun _ _ h => h) (reapPendingCloseThreads_wp hl)
    rintro n l' rfl
    have hnext : next l .filterPendingCloses n = { l with reaped := some n } :=
      if_pos ⟨hopen, hbus rfl⟩
    rw [hnext]
    by_cases hn : n = 0
    · rw [if_neg (by simpa using hn)]
      exact ⟨rfl, hopen, fun _ => ⟨n, rfl, fun h => absurd hn h⟩⟩
    · rw [if_pos hn]
      exact ⟨trivial, fun _ => ⟨rfl, hopen, fun _ => ⟨n, rfl, fun _ => rfl⟩⟩⟩

theorem clientParams_isSerial {settings : Settings} {communicationType : String}
    {connection : Json} {params : ClientParams}
    (h : clientParams settings communicationType connection = .ok params) (uid : ℕ) (device : ℤ) :
    (Client.mk uid device params).isSerial = decide (communicationType ∈ rtuCommunicationTypes) := by
  unfold clientParams at h
  split at h
  · rename_i hrtu
    obtain ⟨port, -, h⟩ := bind_eq_ok.mp h
    obtain ⟨_, -, h⟩ := bind_eq_ok.mp h
    obtain ⟨baudrate, -, h⟩ := bind_eq_ok.mp h
    obtain ⟨_, -, h⟩ := bind_eq_ok.mp h
    obtain ⟨_, -, h⟩ := bind_eq_ok.mp h
    obtain ⟨stopbits, -, h⟩ := bind_eq_ok.mp h
    cases h
    simp [Client.isSerial, hrtu]
  · rename_i hrtu
    split at h
    · obtain ⟨ipAddress, -, h⟩ := bind_eq_ok.mp h
      split at h
      · cases h
      · obtain ⟨_, -, h⟩ := bind_eq_ok.mp h
        obtain ⟨port, -, h⟩ := bind_eq_ok.mp h
        cases h
        simp [Client.isSerial, hrtu]
    · cases h

theorem createModbusClient_wp (settings : Settings) (deviceId : ℤ) (communicationType : String)
    (connection : Json) :
    (createModbusClient settings deviceId communicationType connection).wp (lockProtocol t)
      (fun c l' => l' = l ∧ c.device = deviceId ∧
        c.isSerial = decide (communicationType ∈ rtuCommunicationTypes))
      (fun _ l' => l' = l) l := by
  refine Prog.wp_bind_ofExcept (fun params hparams => ?_) fun _ _ => rfl
  refine wp_do trivial fun r => ?_
  cases r with
  | error e => exact rfl
  | ok uid => exact ⟨rfl, rfl, clientParams_isSerial hparams uid deviceId⟩

/-- The client is closed, or its close abandoned and recorded, when the call returns. -/
theorem closeClientWithTimeout_wp {c : Client} (hl : l.Leafless)
    (hopen : l.opened = none ∨ l.opened = some c) :
    (closeClientWithTimeout c).wp (lockProtocol t)
      (fun _ l' => l'.held = l.held ∧ l'.opened = none) (fun _ _ => False) l := by
  refine (Prog.wp_bind _ _).mpr
    (Prog.wp_mono ?_ (fun _ _ h => h) (reapPendingCloseThreads_wp hl))
  rintro n l₁ rfl
  set l₁ := next l .filterPendingCloses n with hl₁
  have held : l₁.held = l.held := by simp only [hl₁, next]; split <;> rfl
  have opened : l₁.opened = none ∨ l₁.opened = some c := by
    simp only [hl₁, next]
    split <;> exact hopen
  refine wp_do trivial fun _ => wp_do trivial fun _ => wp_do opened fun alive => ?_
  cases alive with
  | false => exact ⟨opened.imp id fun h => ⟨h, rfl⟩, fun _ => ⟨held, rfl⟩⟩
  | true =>
    refine (Prog.wp_bind _ _).mpr (wp_withLock_leaf (fun j hj => hl j (held ▸ hj)) rfl
      ⟨⟨List.mem_cons_self, opened⟩, fun _ => ⟨List.mem_cons_self, ?_⟩⟩)
    refine ⟨opened.imp id fun h => ⟨h, rfl⟩, fun _ => ⟨?_, rfl⟩⟩
    change (LockId.pendingCloses :: l₁.held).erase .pendingCloses = l.held
    rw [List.erase_cons_head, held]

/-- A block under the bus lock, entered with the device lock and left with the same locks. -/
theorem withBusLock_wp {isSerial : Bool} {body : PollerM α} {Q : α → Local → Prop}
    {E : PyError → Local → Prop} {k : LockId} (hk : k.rank = 0) (hheld : l.held = [k])
    (h : ∀ l₁ : Local, l₁.opened = l.opened → l₁.held = (if isSerial then [.serialBus, k] else [k]) →
      body.wp (lockProtocol t)
        (fun a l' => l'.held = l₁.held ∧ (isSerial → t = .poll → l'.opened = none) ∧
          ∀ l'', l''.held = [k] → l''.opened = l'.opened → Q a l'')
        (fun e l' => l'.held = l₁.held ∧ (isSerial → t = .poll → l'.opened = none) ∧
          ∀ l'', l''.held = [k] → l''.opened = l'.opened → E e l'') l₁) :
    (withBusLock isSerial body).wp (lockProtocol t) Q E l := by
  cases isSerial with
  | false =>
    refine Prog.wp_mono ?_ ?_ (h l rfl hheld)
    · exact fun a l' h' => h'.2.2 l' (h'.1.trans hheld) rfl
    · exact fun e l' h' => h'.2.2 l' (h'.1.trans hheld) rfl
  | true =>
    have release (l' : Local) (hh : l'.held = [.serialBus, k]) (hp : t = .poll → l'.opened = none) :
        allowed t l' (.release .serialBus) ∧ (l'.drop .serialBus).held = [k] := by
      refine ⟨⟨by simp [hh], fun h => absurd h (by decide), fun _ => hp⟩, ?_⟩
      simp [Local.drop, hh]
    refine wp_withLock ⟨fun j hj => ?_, fun _ => Nat.one_pos⟩ (Prog.wp_mono ?_ ?_
      (h (next l (.acquire .serialBus) ()) rfl (by simp [next, Local.take, hheld])))
    · obtain rfl : j = k := by simpa [hheld] using hj
      rw [hk]
      exact Nat.one_pos
    · intro a l' h'
      obtain ⟨hr, hd⟩ := release l' (by simpa [next, Local.take, hheld] using h'.1) (h'.2.1 rfl)
      exact ⟨hr, h'.2.2 _ hd rfl⟩
    · intro e l' h'
      obtain ⟨hr, hd⟩ := release l' (by simpa [next, Local.take, hheld] using h'.1) (h'.2.1 rfl)
      exact ⟨hr, h'.2.2 _ hd rfl⟩

theorem unableToConnect_wp (device : Json) :
    (unableToConnect device).wp (lockProtocol t) (fun _ _ => False) (fun _ l' => l' = l) l :=
  Prog.wp_bind_ofExcept (fun _ _ => rfl) fun _ _ => rfl

/-- A new client, and the client open after `connect()` returned true. -/
theorem connect_wp {c : Client} (h : l.MayOpen c) :
    (connect c).wp (lockProtocol t)
      (fun connected l' => l' =
        if connected then { l with opened := some c, settled := false, reaped := none } else l)
      (fun _ l' => l' = l) l := by
  refine wp_do h fun r => ?_
  rcases r with e | connected
  · exact rfl
  · cases connected <;> exact rfl

/-- The locks held in a block under `withBusLock`, with the device lock around it. -/
def busLocks (isSerial : Bool) (deviceId : ℤ) : List LockId :=
  if isSerial then [.serialBus, .device deviceId] else [.device deviceId]

theorem leafless_busLocks {isSerial : Bool} {deviceId : ℤ}
    (h : l.held = busLocks isSerial deviceId) : l.Leafless := by
  intro j hj
  rw [h, busLocks] at hj
  cases isSerial <;> simp at hj <;> rcases hj with rfl | rfl <;> simp [LockId.rank]

theorem mayOpen_of_warned {isSerial : Bool} {deviceId : ℤ} {c : Client}
    (hheld : l.held = busLocks isSerial deviceId) (hopen : l.opened = none)
    (hwarn : isSerial → ∃ n, l.reaped = some n ∧ (n ≠ 0 → l.warned))
    (hdev : c.device = deviceId) (hser : c.isSerial = isSerial) : l.MayOpen c := by
  subst hdev hser
  refine ⟨hopen, ?_, fun hs => ⟨?_, hwarn hs⟩⟩
  · rw [hheld, busLocks]
    split <;> simp
  · simp [hheld, busLocks, hs]

theorem pollOnBus_wp (settings : Settings) (device connection : Json) {deviceId : ℤ}
    {communicationType : String} {isSerial : Bool}
    (hser : isSerial = decide (communicationType ∈ rtuCommunicationTypes))
    (hheld : l.held = busLocks isSerial deviceId) (hopen : l.opened = none) :
    (pollOnBus settings device connection deviceId communicationType isSerial).wp (lockProtocol t)
      (fun _ l' => l'.held = l.held ∧ l'.opened = none)
      (fun _ l' => l'.held = l.held ∧ l'.opened = none) l := by
  have hbus : isSerial → .serialBus ∈ l.held := fun h => by simp [hheld, busLocks, h]
  refine (Prog.wp_bind _ _).mpr (Prog.wp_mono ?_ (fun _ _ h => h.elim)
    (warnOnPendingClose_wp isSerial (leafless_busLocks hheld) hopen hbus))
  rintro _ l₁ ⟨held₁, opened₁, warned₁⟩
  refine (Prog.wp_bind _ _).mpr (Prog.wp_mono ?_ ?_
    (createModbusClient_wp settings deviceId communicationType connection))
  swap
  · rintro _ _ rfl
    exact ⟨held₁, opened₁⟩
  rintro c l₁ ⟨rfl, hdev, hcser⟩
  refine (Prog.wp_bind _ _).mpr (Prog.wp_mono ?_ ?_ (connect_wp
    (mayOpen_of_warned (held₁.trans hheld) opened₁ warned₁ hdev (hcser.trans hser.symm))))
  swap
  · rintro _ _ rfl
    exact ⟨held₁, opened₁⟩
  rintro connected l₂ rfl
  cases connected with
  | false =>
    refine (Prog.wp_bind _ _).mpr (Prog.wp_mono (fun _ _ h => h.elim) ?_ (unableToConnect_wp device))
    rintro _ _ rfl
    exact ⟨held₁, opened₁⟩
  | true =>
    refine wp_do trivial fun _ => (Prog.wp_ensure _ _).mpr ?_
    -- the `finally` closes the client, whichever way the tags end
    let l₂ : Local := { l₁ with opened := some c, settled := false, reaped := none }
    have leafless : l₂.Leafless := leafless_busLocks (held₁.trans hheld)
    have closed : (closeClientWithTimeout c).wp (lockProtocol t)
        (fun _ l' => l'.held = l.held ∧ l'.opened = none)
        (fun _ l' => l'.held = l.held ∧ l'.opened = none) l₂ :=
      Prog.wp_mono (fun _ _ h => ⟨h.1.trans held₁, h.2⟩) (fun _ _ h => h.elim)
        (closeClientWithTimeout_wp leafless (.inr rfl))
    refine Prog.wp_mono ?_ ?_ (pollTags_neutral settings c device l₂ leafless)
    · rintro _ _ rfl
      exact closed
    · rintro _ _ rfl
      exact closed

theorem pollDevice_wp (settings : Settings) (device : Json) {deviceId : ℤ}
    (hheld : l.held = [.device deviceId]) (hopen : l.opened = none) :
    (pollDevice settings device deviceId).wp (lockProtocol t)
      (fun _ l' => l'.held = l.held ∧ l'.opened = none)
      (fun _ l' => l'.held = l.held ∧ l'.opened = none) l := by
  refine Prog.wp_bind_ofExcept (fun _ _ => ?_) fun _ _ => ⟨rfl, hopen⟩
  refine Prog.wp_bind_ofExcept (fun communicationType _ => ?_) fun _ _ => ⟨rfl, hopen⟩
  simp only []
  split
  · exact ⟨trivial, fun _ => ⟨rfl, hopen⟩⟩
  · refine withBusLock_wp rfl hheld fun l₁ opened₁ held₁ => ?_
    refine Prog.wp_mono ?_ ?_ (pollOnBus_wp settings device _ rfl held₁ (opened₁.trans hopen))
    · exact fun _ l' h => ⟨h.1, fun _ _ => h.2, fun l'' hh ho => ⟨hh.trans hheld.symm, ho.trans h.2⟩⟩
    · exact fun _ l' h => ⟨h.1, fun _ _ => h.2, fun l'' hh ho => ⟨hh.trans hheld.symm, ho.trans h.2⟩⟩

theorem runDevice_wp (settings : Settings) (device : Json) (hl : l.Idle) :
    (runDevice settings device).wp (lockProtocol t) (fun _ => Local.Idle) (fun _ => Local.Idle) l := by
  refine Prog.wp_bind_ofExcept (fun _ _ => ?_) fun _ _ => hl
  refine Prog.wp_bind_ofExcept (fun deviceId _ => ?_) fun _ _ => hl
  refine wp_do ⟨hl.1, hl.2, rfl⟩ fun taken => ?_
  cases taken with
  | false => exact hl
  | true =>
    have held : (l.take (.device deviceId)).held = [.device deviceId] := by simp [Local.take, hl.1]
    have release (l' : Local) (h : l'.held = [.device deviceId] ∧ l'.opened = none) :
        (perform (.release (.device deviceId))).wp (lockProtocol t) (fun _ => Local.Idle)
          (fun _ => Local.Idle) l' := by
      have ha : allowed t l' (.release (.device deviceId)) :=
        ⟨by simp [h.1], fun _ => h.2, fun hk => absurd hk (by simp)⟩
      exact ⟨ha, fun _ => ⟨by simp [lockProtocol, next, Local.drop, h.1], h.2⟩⟩
    refine (Prog.wp_ensure _ _).mpr ((Prog.wp_handle _ _).mpr (Prog.wp_mono ?_ ?_
      (pollDevice_wp settings device held hl.2)))
    · exact fun _ l' h => release l' ⟨h.1.trans held, h.2⟩
    · exact fun _ l' h => wp_do trivial fun _ => release l' ⟨h.1.trans held, h.2⟩

theorem connectAndWrite_wp (device tag connection : Json) (commandType : String) (value : Json)
    {c : Client} (hl : l.Leafless) (h : l.MayOpen c) :
    (connectAndWrite device tag connection commandType value c).wp (lockProtocol t)
      (fun _ l' => l'.held = l.held ∧ l'.opened = some c)
      (fun _ l' => l'.held = l.held ∧ (l'.opened = none ∨ l'.opened = some c)) l := by
  refine (Prog.wp_bind _ _).mpr (Prog.wp_mono ?_ ?_ (connect_wp h))
  swap
  · rintro _ _ rfl
    exact ⟨rfl, .inl h.1⟩
  rintro connected l₂ rfl
  cases connected with
  | false =>
    refine (Prog.wp_bind _ _).mpr (Prog.wp_mono (fun _ _ h => h.elim) ?_ (unableToConnect_wp device))
    rintro _ _ rfl
    exact ⟨rfl, .inl h.1⟩
  | true =>
    let l₂ : Local := { l with opened := some c, settled := false, reaped := none }
    refine Prog.wp_mono ?_ ?_ (Neutral.bind (.ofExcept _) (fun _ => .bind (.ofExcept _) fun slaveId =>
      writeCommandValue_neutral c tag commandType value slaveId) l₂ hl)
    · rintro _ _ rfl
      exact ⟨rfl, rfl⟩
    · rintro _ _ rfl
      exact ⟨rfl, .inr rfl⟩

/-- The client of a command is either not open or the one handed to the handlers. -/
def OpenedBy (l : Local) (client : Option Client) : Prop :=
  l.opened = none ∨ ∃ c, client = some c ∧ l.opened = some c

theorem writeOnBus_wp (settings : Settings) (device tag connection : Json) {deviceId : ℤ}
    {communicationType : String} {isSerial : Bool} (commandType : String) (value : Json)
    (hser : isSerial = decide (communicationType ∈ rtuCommunicationTypes))
    (hheld : l.held = busLocks isSerial deviceId) (hopen : l.opened = none) :
    (writeOnBus settings device tag connection communicationType isSerial deviceId commandType
      value).wp (lockProtocol t)
      (fun r l' => l'.held = l.held ∧ OpenedBy l' r.1) (fun _ _ => False) l := by
  have hbus : isSerial → .serialBus ∈ l.held := fun h => by simp [hheld, busLocks, h]
  refine (Prog.wp_bind _ _).mpr (wp_attempt ((Prog.wp_bind _ _).mpr (Prog.wp_mono ?_
    (fun _ _ h => h.elim) (warnOnPendingClose_wp isSerial (leafless_busLocks hheld) hopen hbus))))
  rintro _ l₁ ⟨held₁, opened₁, warned₁⟩
  refine Prog.wp_mono ?_ ?_ (createModbusClient_wp settings deviceId communicationType connection)
  · rintro c l₁ ⟨rfl, hdev, hcser⟩
    have leafless : l₁.Leafless := leafless_busLocks (held₁.trans hheld)
    refine (Prog.wp_bind _ _).mpr (wp_attempt (Prog.wp_mono ?_ ?_
      (connectAndWrite_wp device tag connection commandType value leafless
        (mayOpen_of_warned (held₁.trans hheld) opened₁ warned₁ hdev (hcser.trans hser.symm)))))
    · exact fun _ l' h => ⟨h.1.trans held₁, .inr ⟨c, rfl, h.2⟩⟩
    · exact fun _ l' h => ⟨h.1.trans held₁, h.2.imp id fun h => ⟨c, rfl, h⟩⟩
  · rintro e _ rfl
    exact ⟨held₁, .inl opened₁⟩

theorem writeToDevice_wp (settings : Settings) (device tag : Json) {deviceId : ℤ}
    (commandType : String) (value : Json) (ht : t = .command)
    (hheld : l.held = [.device deviceId]) (hopen : l.opened = none) :
    (writeToDevice settings device tag deviceId commandType value).wp (lockProtocol t)
      (fun r l' => l'.held = l.held ∧ OpenedBy l' r.1) (fun _ _ => False) l := by
  unfold writeToDevice
  split
  · exact ⟨rfl, .inl hopen⟩
  · refine withBusLock_wp rfl hheld fun l₁ opened₁ held₁ => Prog.wp_mono ?_ (fun _ _ h => h.elim)
      (writeOnBus_wp settings device tag _ commandType value rfl held₁ (opened₁.trans hopen))
    intro r l' h
    refine ⟨h.1, fun _ hp => ?_, fun l'' hh ho => ⟨hh.trans hheld.symm, ?_⟩⟩
    · -- a command leaves the bus with its client still open
      rw [ht] at hp
      cases hp
    · exact h.2.imp ho.trans fun ⟨c, hc, h⟩ => ⟨c, hc, ho.trans h⟩

/-- The `finally` of a block that leaves the local state alone starts where the block did. -/
theorem Neutral.wp_ensure {p : PollerM α} {f : PollerM Unit} {Q : Local → Prop} (hl : l.Leafless)
    (hp : Neutral t p) (hf : f.wp (lockProtocol t) (fun _ => Q) (fun _ => Q) l) :
    (p.ensure f).wp (lockProtocol t) (fun _ => Q) (fun _ => Q) l := by
  refine (Prog.wp_ensure _ _).mpr (Prog.wp_mono ?_ ?_ (hp l hl))
  · rintro _ _ rfl
    exact hf
  · rintro _ _ rfl
    exact hf

theorem concludeWrite_wp (commandId : Json) (client : Option Client) (result : PyExcept Unit)
    (hl : l.Leafless) (hopen : OpenedBy l client) :
    (concludeWrite commandId client result).wp (lockProtocol t)
      (fun _ l' => l'.held = l.held ∧ l'.opened = none)
      (fun _ l' => l'.held = l.held ∧ l'.opened = none) l := by
  refine Neutral.wp_ensure hl ?_ ?_
  · cases result with
    | ok _ => exact .pure _
    | error e => exact .bind (ackCommand_neutral _ _ _) fun _ => .pure _
  · cases client with
    | none =>
      refine ⟨rfl, hopen.elim id ?_⟩
      rintro ⟨c, hc, -⟩
      cases hc
    | some c =>
      refine Prog.wp_mono (fun _ _ h => h) (fun _ _ h => h.elim) (closeClientWithTimeout_wp hl ?_)
      refine hopen.imp id ?_
      rintro ⟨c', hc, h⟩
      rw [h, Option.some.inj hc]

/-- A program that leaves the local state alone is one a thread may run between two calls. -/
theorem Neutral.idle {p : PollerM α} (h : Neutral t p) (hl : l.Idle) :
    p.wp (lockProtocol t) (fun _ => Local.Idle) (fun _ => Local.Idle) l := by
  have leafless : l.Leafless := by
    intro j hj
    simp [hl.1] at hj
  refine Prog.wp_mono ?_ ?_ (h l leafless)
  · rintro _ _ rfl
    exact hl
  · rintro _ _ rfl
    exact hl

theorem executeOnDevice_wp (settings : Settings) (commandId device tag : Json)
    (commandType : String) (value : Json) (ht : t = .command) (hl : l.Idle) :
    (executeOnDevice settings commandId device tag commandType value).wp (lockProtocol t)
      (fun _ => Local.Idle) (fun _ => Local.Idle) l := by
  refine Prog.wp_bind_ofExcept (fun _ _ => ?_) fun _ _ => hl
  refine Prog.wp_bind_ofExcept (fun deviceId _ => ?_) fun _ _ => hl
  have held : (next l (.acquire (.device deviceId)) ()).held = [.device deviceId] := by
    simp [next, Local.take, hl.1]
  have release (l' : Local) (h : l'.held = [.device deviceId]) (ho : l'.opened = none) :
      allowed t l' (.release (.device deviceId)) ∧ (l'.drop (.device deviceId)).Idle :=
    ⟨⟨by simp [h], fun _ => ho, fun hk => absurd hk (by simp)⟩, by simp [Local.drop, h], ho⟩
  refine (Prog.wp_bind _ _).mpr (wp_withLock ⟨by simp [hl.1], fun hp => by simp [ht] at hp⟩
    ((Prog.wp_bind _ _).mpr (Prog.wp_mono ?_ (fun _ _ h => h.elim)
      (writeToDevice_wp settings device tag commandType value ht held hl.2))))
  rintro ⟨client, result⟩ l₁ ⟨held₁, opened₁⟩
  -- the bus lock is released by now; the close happens under the device lock alone
  have onlyDevice : l₁.held = busLocks false deviceId := held₁.trans held
  have leafless : l₁.Leafless := leafless_busLocks onlyDevice
  refine Prog.wp_mono ?_ ?_ (concludeWrite_wp commandId client result leafless opened₁)
  · rintro succeeded l₂ ⟨held₂, opened₂⟩
    obtain ⟨ha, hi⟩ := release l₂ (held₂.trans (held₁.trans held)) opened₂
    exact ⟨ha, (Neutral.ite (ackCommand_neutral commandId "success" none) (.pure ())).idle hi⟩
  · rintro e l₂ ⟨held₂, opened₂⟩
    exact release l₂ (held₂.trans (held₁.trans held)) opened₂

theorem executeCommand_wp (settings : Settings) (command configuration : Json)
    (ht : t = .command) (hl : l.Idle) :
    (executeCommand settings command configuration).wp (lockProtocol t)
      (fun _ => Local.Idle) (fun _ => Local.Idle) l := by
  refine Prog.wp_bind_ofExcept (fun commandId _ => ?_) fun _ _ => hl
  refine Prog.wp_bind_ofExcept (fun _ _ => ?_) fun _ _ => hl
  refine Prog.wp_bind_ofExcept (fun value _ => ?_) fun _ _ => hl
  split
  · exact (Neutral.ite (ackCommand_neutral commandId _ _) (.throw _)).idle hl
  · split
    · exact (ackCommand_neutral commandId _ _).idle hl
    · refine Prog.wp_bind_ofExcept (fun found _ => ?_) fun _ _ => hl
      rcases found with _ | ⟨device, tag⟩
      · exact (ackCommand_neutral commandId _ _).idle hl
      · exact executeOnDevice_wp settings commandId device tag _ value ht hl

end SenseGateway.Poller

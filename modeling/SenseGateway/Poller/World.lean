import SenseGateway.Effects.LockOrder
import SenseGateway.Poller.Locking

namespace SenseGateway.Poller

open Python Effects Commands Relation

/-- What the poll thread and the command thread share. `closing` holds the clients whose close
thread has been started, `closed` those whose `close()` has finished, `pending` is
`_PENDING_CLOSE_THREADS`, and `opened` the client each thread has open. -/
structure World where
  holder : LockId → Option Thread
  created : ℕ
  connected : List Client
  closing : List Client
  closed : List Client
  pending : List Client
  abandoned : List Client
  opened : Thread → Option Client
  warned : Thread → Bool

namespace World

def initial : World :=
  ⟨fun _ => none, 0, [], [], [], [], [], fun _ => none, fun _ => false⟩

/-- The tracked close threads that have not finished. -/
def alive (w : World) : List Client := w.pending.filter (· ∉ w.closed)

/-- Taking the bus lock begins a new opening, for which nothing has been logged. -/
def grant (w : World) (t : Thread) (k : LockId) : World :=
  { w with
    holder := Function.update w.holder k (some t)
    warned := if k = .serialBus then Function.update w.warned t false else w.warned }

def free (w : World) (k : LockId) : World := { w with holder := Function.update w.holder k none }

/-- How a call of one thread is answered: a lock is only granted while it is free, and the
outcomes of the device and of the network are arbitrary. -/
def serves (t : Thread) (w : World) : (o : Call) → o.Answer → World → Prop
  | .acquire k, _, w' => w.holder k = none ∧ w' = w.grant t k
  | .tryAcquire k, taken, w' =>
    if taken then w.holder k = none ∧ w' = w.grant t k else w.holder k ≠ none ∧ w' = w
  | .release k, _, w' => w.holder k = some t ∧ w' = w.free k
  | .filterPendingCloses, n, w' => n = w.alive.length ∧ w' = { w with pending := w.alive }
  | .appendPendingClose c, _, w' =>
    w' = { w with pending := w.pending ++ [c], abandoned := c :: w.abandoned }
  | .warnCloseInFlight, _, w' => w' = { w with warned := Function.update w.warned t true }
  | .construct _ _, .ok uid, w' => uid = w.created ∧ w' = { w with created := w.created + 1 }
  | .connect c, .ok true, w' =>
    w' = { w with connected := c :: w.connected, opened := Function.update w.opened t (some c) }
  | .startClose c, _, w' => w' = { w with closing := c :: w.closing }
  | .closeIsAlive c, alive, w' => alive = decide (c ∉ w.closed) ∧ w' = w
  | .closeReturned _, _, w' => w' = { w with opened := Function.update w.opened t none }
  | _, _, w' => w' = w

/-- A close thread that was started finishes. -/
def finishClose (w w' : World) : Prop :=
  ∃ c ∈ w.closing, w' = { w with closed := c :: w.closed }

end World

/-- What each thread may be asked to run: the poll thread any device entry, the command thread
any command under any configuration. -/
def entries (settings : Settings) (t : Thread) (p : PollerM Unit) : Prop :=
  match t with
  | .poll => ∃ device, p = runDevice settings device
  | .command => ∃ command configuration, p = executeCommand settings command configuration

/-- The poll thread and the command thread, interleaved call by call. -/
def machine (settings : Settings) : Machine calls PyError Thread World :=
  ⟨World.serves, fun _ => World.finishClose, entries settings⟩

abbrev PollerConfig := Config calls PyError Thread World

def initial : PollerConfig := ⟨.initial, fun _ => none⟩

/-- The call the thread makes next. -/
def nextCall (c : PollerConfig) (t : Thread) : Option Call :=
  match c.running t with
  | some (.call o _) => some o
  | _ => none

theorem running_of_nextCall {c : PollerConfig} {t : Thread} {o : Call} (h : nextCall c t = some o) :
    ∃ k, c.running t = some (.call o k) := by
  unfold nextCall at h
  split at h
  · obtain rfl := Option.some.inj h
    exact ⟨_, ‹_›⟩
  · cases h

/-- The locks and open clients of the world are those the threads know of. -/
structure Owned (w : World) (ls : Thread → Local) : Prop where
  holder : ∀ k t, w.holder k = some t ↔ k ∈ (ls t).held
  nodup : ∀ t, (ls t).held.Nodup
  opened : ∀ t, w.opened t = (ls t).opened
  device : ∀ t c, (ls t).opened = some c → .device c.device ∈ (ls t).held

namespace Owned

variable {w w' : World} {ls : Thread → Local} {t : Thread} {l' : Local} {k : LockId}

theorem initial : Owned .initial fun _ => ⟨[], none, false, none, false⟩ :=
  ⟨by simp [World.initial], by simp, by simp [World.initial], by simp⟩

/-- A lock has one holder. -/
theorem eq_of_held (h : Owned w ls) {u v : Thread} (hu : k ∈ (ls u).held) (hv : k ∈ (ls v).held) :
    u = v := by
  rw [← h.holder] at hu hv
  exact Option.some.inj (hu.symm.trans hv)

/-- Steps that change neither locks nor open clients. -/
theorem congr (h : Owned w ls) (hh : w'.holder = w.holder) (ho : w'.opened = w.opened)
    (hl : l'.held = (ls t).held) (hlo : l'.opened = (ls t).opened) :
    Owned w' (Function.update ls t l') := by
  have held (u : Thread) : (Function.update ls t l' u).held = (ls u).held := by
    by_cases hu : u = t
    · subst hu
      simpa using hl
    · simp [hu]
  have opened (u : Thread) : (Function.update ls t l' u).opened = (ls u).opened := by
    by_cases hu : u = t
    · subst hu
      simpa using hlo
    · simp [hu]
  constructor
  · intro j u
    rw [hh, held, h.holder]
  · intro u
    rw [held]
    exact h.nodup u
  · intro u
    rw [ho, opened, h.opened]
  · intro u c hc
    rw [held]
    rw [opened] at hc
    exact h.device u c hc

theorem grant (h : Owned w ls) (hk : w.holder k = none) (hl : l'.held = k :: (ls t).held)
    (hlo : l'.opened = (ls t).opened) : Owned (w.grant t k) (Function.update ls t l') := by
  have free (u : Thread) : k ∉ (ls u).held := by simp [← h.holder, hk]
  constructor
  · intro j u
    by_cases hj : j = k <;> by_cases hu : u = t
    · subst hj hu
      simp [World.grant, hl]
    · subst hj
      simp [World.grant, hu, free u, Ne.symm hu]
    · subst hu
      simp [World.grant, hj, hl, h.holder]
    · simp [World.grant, hj, hu, h.holder]
  · intro u
    by_cases hu : u = t
    · subst hu
      simpa [hl] using ⟨free u, h.nodup u⟩
    · simpa [hu] using h.nodup u
  · intro u
    by_cases hu : u = t
    · subst hu
      simpa [World.grant, hlo] using h.opened u
    · simpa [World.grant, hu] using h.opened u
  · intro u c hc
    by_cases hu : u = t
    · subst hu
      simp only [Function.update_self, hlo] at hc
      simpa [hl] using .inr (h.device u c hc)
    · simp only [Function.update_of_ne hu] at hc ⊢
      exact h.device u c hc

theorem free (h : Owned w ls) (hk : k ∈ (ls t).held) (hdev : k.rank = 0 → (ls t).opened = none)
    (hl : l'.held = (ls t).held.erase k) (hlo : l'.opened = (ls t).opened) :
    Owned (w.free k) (Function.update ls t l') := by
  constructor
  · intro j u
    by_cases hj : j = k <;> by_cases hu : u = t
    · subst hj hu
      simp [World.free, hl, (h.nodup u).not_mem_erase]
    · subst hj
      simp only [World.free, Function.update_self, Function.update_of_ne hu]
      simpa using fun hm => hu (h.eq_of_held hm hk)
    · subst hu
      simp [World.free, hj, hl, h.holder, List.mem_erase_of_ne hj]
    · simp [World.free, hj, hu, h.holder]
  · intro u
    by_cases hu : u = t
    · subst hu
      simpa [hl] using (h.nodup u).erase k
    · simpa [hu] using h.nodup u
  · intro u
    by_cases hu : u = t
    · subst hu
      simpa [World.free, hlo] using h.opened u
    · simpa [World.free, hu] using h.opened u
  · intro u c hc
    by_cases hu : u = t
    · subst hu
      simp only [Function.update_self, hlo, hl] at hc ⊢
      refine (List.mem_erase_of_ne ?_).mpr (h.device u c hc)
      rintro rfl
      rw [hdev rfl] at hc
      cases hc
    · simp only [Function.update_of_ne hu] at hc ⊢
      exact h.device u c hc

/-- A client is opened or given up by the thread that holds its device. -/
theorem setOpened (h : Owned w ls) (o : Option Client)
    (hh : w'.holder = w.holder) (ho : w'.opened = Function.update w.opened t o)
    (hl : l'.held = (ls t).held) (hlo : l'.opened = o)
    (hdev : ∀ c, o = some c → .device c.device ∈ (ls t).held) :
    Owned w' (Function.update ls t l') := by
  have held (u : Thread) : (Function.update ls t l' u).held = (ls u).held := by
    by_cases hu : u = t
    · subst hu
      simpa using hl
    · simp [hu]
  constructor
  · intro j u
    rw [hh, held, h.holder]
  · intro u
    rw [held]
    exact h.nodup u
  · intro u
    by_cases hu : u = t
    · subst hu
      simp [ho, hlo]
    · simp [ho, hu, h.opened]
  · intro u c hc
    rw [held]
    by_cases hu : u = t
    · subst hu
      exact hdev c (by simpa [hlo] using hc)
    · exact h.device u c (by simpa [hu] using hc)

theorem serves (h : Owned w ls) {o : Call} {r : o.Answer} (hs : World.serves t w o r w')
    (ha : allowed t (ls t) o) : Owned w' (Function.update ls t (next (ls t) o r)) := by
  cases o with
  | acquire k =>
    obtain ⟨hk, rfl⟩ := hs
    refine h.grant hk ?_ ?_
    · simp only [next]
      split <;> rfl
    · simp only [next]
      split <;> rfl
  | tryAcquire k =>
    cases r with
    | true =>
      obtain ⟨hk, rfl⟩ := hs
      exact h.grant hk rfl rfl
    | false =>
      obtain ⟨-, rfl⟩ := hs
      exact h.congr rfl rfl rfl rfl
  | release k =>
    obtain ⟨-, rfl⟩ := hs
    exact h.free ha.1 ha.2.1 rfl rfl
  | filterPendingCloses =>
    obtain ⟨-, rfl⟩ := hs
    refine h.congr rfl rfl ?_ ?_
    · simp only [next]
      split <;> rfl
    · simp only [next]
      split <;> rfl
  | construct d p =>
    cases r with
    | error e =>
      obtain rfl := hs
      exact h.congr rfl rfl rfl rfl
    | ok uid =>
      obtain ⟨-, rfl⟩ := hs
      exact h.congr rfl rfl rfl rfl
  | connect c =>
    rcases r with e | connected
    · obtain rfl := hs
      exact h.congr rfl rfl rfl rfl
    · cases connected with
      | false =>
        obtain rfl := hs
        exact h.congr rfl rfl rfl rfl
      | true =>
        obtain rfl := hs
        refine h.setOpened (some c) rfl rfl rfl rfl ?_
        rintro c' ⟨⟩
        exact ha.2.1
  | closeIsAlive c =>
    obtain ⟨-, rfl⟩ := hs
    refine h.congr rfl rfl ?_ ?_
    · simp only [next]
      split <;> rfl
    · simp only [next]
      split <;> rfl
  | closeReturned c =>
    obtain rfl := hs
    exact h.setOpened none rfl rfl rfl rfl (by simp)
  | _ =>
    obtain rfl := hs
    exact h.congr rfl rfl rfl rfl

end Owned

end SenseGateway.Poller

import SenseGateway.Poller.Exclusion

namespace SenseGateway.Poller

open Python Effects Commands Relation

/-- The close of the client has finished, or it was abandoned and is tracked as pending. -/
def Accounted (w : World) (client : Client) : Prop :=
  client ∈ w.closed ∨ client ∈ w.abandoned ∧ client ∈ w.pending

/-- Where a serial client is about to be opened, the thread holds the bus lock, and every serial
client connected earlier has been closed, or its close was abandoned, is tracked, and the
warning was logged for this opening. -/
def BusSafe (c : PollerConfig) : Prop :=
  ∀ t client, nextCall c t = some (.connect client) → client.isSerial →
    c.world.holder .serialBus = some t ∧
      ∀ earlier ∈ c.world.connected, earlier.isSerial →
        earlier ∈ c.world.closed ∨
          earlier ∈ c.world.abandoned ∧ earlier ∈ c.world.pending ∧ c.world.warned t

/-- The command thread is past the close of its serial client, or has recorded it, whenever the
poll thread counts the pending closes for an opening on the bus. -/
def CommandClosed (t : Thread) (w : World) (o : Call) : Prop :=
  t = .poll → o = .filterPendingCloses → w.holder .serialBus = some .poll →
    w.opened .poll = none → ∀ client, w.opened .command = some client → client.isSerial →
      Accounted w client

/-- What the threads know of the serial bus. -/
structure BusKnown (w : World) (ls : Thread → Local) : Prop where
  owned : Owned w ls
  warned : ∀ t, w.warned t = (ls t).warned
  tracked : ∀ c ∈ w.connected, c.isSerial → Accounted w c ∨ ∃ t, (ls t).opened = some c
  settled : ∀ t c, (ls t).opened = some c → (ls t).settled → Accounted w c
  polled : ∀ c, (ls .poll).opened = some c → c.isSerial → .serialBus ∈ (ls .poll).held
  reaped : ∀ t n, (ls t).reaped = some n → .serialBus ∈ (ls t).held →
    (ls t).opened = none ∧
      (∀ u c, (ls u).opened = some c → c.isSerial → Accounted w c) ∧
      (n = 0 → ∀ c ∈ w.connected, c.isSerial → c ∈ w.closed)

namespace BusKnown

variable {w w' : World} {ls : Thread → Local} {t : Thread} {l' : Local}

theorem initial : BusKnown .initial fun _ => ⟨[], none, false, none, false⟩ :=
  ⟨Owned.initial, by simp [World.initial], by simp [World.initial], by simp, by simp, by simp⟩

/-- Steps after which no client is less closed or recorded than before. -/
theorem congr (h : BusKnown w ls) (howned : Owned w' (Function.update ls t l'))
    (hconn : w'.connected = w.connected) (hwarned : w'.warned = Function.update w.warned t l'.warned)
    (hclosed : ∀ c ∈ w.closed, c ∈ w'.closed) (hacc : ∀ c, Accounted w c → Accounted w' c)
    (hopen : l'.opened = (ls t).opened) (hsettled : ∀ c, l'.opened = some c → l'.settled →
      Accounted w' c) (hpoll : t = .poll → ∀ c, l'.opened = some c → c.isSerial →
      .serialBus ∈ l'.held)
    (hreaped : ∀ n, l'.reaped = some n → .serialBus ∈ l'.held → l'.opened = none ∧
      (∀ u c, (ls u).opened = some c → c.isSerial → Accounted w' c) ∧
      (n = 0 → ∀ c ∈ w.connected, c.isSerial → c ∈ w'.closed)) :
    BusKnown w' (Function.update ls t l') := by
  have opened (u : Thread) : (Function.update ls t l' u).opened = (ls u).opened := by
    by_cases hu : u = t
    · subst hu
      simpa using hopen
    · simp [hu]
  constructor
  · exact howned
  · intro u
    by_cases hu : u = t
    · subst hu
      simp [hwarned]
    · simp [hwarned, hu, h.warned]
  · intro c hc hs
    simp only [opened]
    exact (h.tracked c (hconn ▸ hc) hs).imp_left (hacc c)
  · intro u c hc hset
    by_cases hu : u = t
    · subst hu
      simp only [Function.update_self] at hc hset
      exact hsettled c hc hset
    · simp only [Function.update_of_ne hu] at hc hset
      exact hacc c (h.settled u c hc hset)
  · intro c hc hs
    by_cases hu : .poll = t
    · subst hu
      simp only [Function.update_self] at hc ⊢
      exact hpoll rfl c hc hs
    · simp only [Function.update_of_ne hu] at hc ⊢
      exact h.polled c hc hs
  · intro u n hn hbus
    simp only [opened, hconn]
    by_cases hu : u = t
    · subst hu
      simp only [Function.update_self] at hn hbus
      rw [← hopen]
      exact hreaped n hn hbus
    · simp only [Function.update_of_ne hu] at hn hbus
      obtain ⟨ho, ha, hz⟩ := h.reaped u n hn hbus
      exact ⟨ho, fun v c hv hs => hacc c (ha v c hv hs), fun h0 c hc hs => hclosed c (hz h0 c hc hs)⟩

/-- Steps that leave the thread's own knowledge of clients and closes as it is. -/
theorem frame (h : BusKnown w ls) (howned : Owned w' (Function.update ls t l'))
    (hconn : w'.connected = w.connected) (hclosed : w'.closed = w.closed)
    (hab : w'.abandoned = w.abandoned) (hpend : w'.pending = w.pending)
    (hwarned : w'.warned = Function.update w.warned t l'.warned)
    (hopen : l'.opened = (ls t).opened) (hset : l'.settled = (ls t).settled)
    (hbus : t = .poll → l'.opened ≠ none → .serialBus ∈ (ls t).held → .serialBus ∈ l'.held)
    (hreaped : ∀ n, l'.reaped = some n → .serialBus ∈ l'.held →
      (ls t).reaped = some n ∧ .serialBus ∈ (ls t).held) :
    BusKnown w' (Function.update ls t l') := by
  have acc (c : Client) (hc : Accounted w c) : Accounted w' c := by
    simpa only [Accounted, hclosed, hab, hpend] using hc
  refine h.congr howned hconn hwarned (fun c hc => hclosed ▸ hc) acc hopen ?_ ?_ ?_
  · intro c hc hs
    exact acc c (h.settled t c (hopen ▸ hc) (hset ▸ hs))
  · rintro rfl c hc hs
    exact hbus rfl (by simp [hc]) (h.polled c (hopen ▸ hc) hs)
  · intro n hn hmem
    obtain ⟨hn, hmem⟩ := hreaped n hn hmem
    obtain ⟨ho, ha, hz⟩ := h.reaped t n hn hmem
    exact ⟨hopen.trans ho, fun u c hu hs => acc c (ha u c hu hs), hclosed ▸ hz⟩

theorem grant {k : LockId} (h : BusKnown w ls) (hk : w.holder k = none)
    (hl : l' = if k = .serialBus then { (ls t).take k with reaped := none, warned := false }
      else (ls t).take k) : BusKnown (w.grant t k) (Function.update ls t l') := by
  have howned : Owned (w.grant t k) (Function.update ls t l') := by
    refine h.owned.grant hk ?_ ?_ <;> rw [hl] <;> split <;> rfl
  -- on taking the bus the thread forgets its count and its warning
  by_cases hbus : k = .serialBus
  · subst hbus
    rw [if_pos rfl] at hl
    subst hl
    exact h.frame howned rfl rfl rfl rfl rfl rfl rfl
      (fun _ _ hm => List.mem_cons_of_mem _ hm) (fun _ hn => by simp at hn)
  · rw [if_neg hbus] at hl
    subst hl
    refine h.frame howned rfl rfl rfl rfl ?_ rfl rfl (fun _ _ hm => List.mem_cons_of_mem _ hm)
      fun n hn hm => ⟨hn, ?_⟩
    · simp [World.grant, hbus, Local.take, ← h.warned]
    · simpa [Local.take, Ne.symm hbus] using hm

theorem release {k : LockId} (h : BusKnown w ls) (ha : allowed t (ls t) (.release k)) :
    BusKnown (w.free k) (Function.update ls t ((ls t).drop k)) := by
  refine h.frame (h.owned.free ha.1 ha.2.1 rfl rfl) rfl rfl rfl rfl ?_ rfl rfl ?_ ?_
  · simp [World.free, Local.drop, ← h.warned]
  · intro ht ho hm
    refine (List.mem_erase_of_ne ?_).mpr hm
    rintro rfl
    exact ho (ha.2.2 rfl ht)
  · exact fun n hn hm => ⟨hn, List.mem_of_mem_erase hm⟩

/-- On the bus every serial client another thread has open is accounted for. -/
theorem others_accounted (h : BusKnown w ls) (hg : CommandClosed t w .filterPendingCloses)
    (hbus : .serialBus ∈ (ls t).held) (ho : (ls t).opened = none) {u : Thread} {c : Client}
    (hu : (ls u).opened = some c) (hs : c.isSerial) : Accounted w c := by
  -- the poll thread closes its clients on the bus, but the command thread does not: there the
  -- guard of the schedule is what is left
  cases t with
  | poll =>
    cases u with
    | poll => simp [ho] at hu
    | command =>
      refine hg rfl rfl ((h.owned.holder _ _).mpr hbus) ?_ c ?_ hs
      · rw [h.owned.opened, ho]
      · rw [h.owned.opened, hu]
  | command =>
    cases u with
    | poll => exact absurd (h.owned.eq_of_held hbus (h.polled c hu hs)) (by simp)
    | command => simp [ho] at hu

theorem filter (h : BusKnown w ls) (hg : CommandClosed t w .filterPendingCloses) :
    BusKnown { w with pending := w.alive }
      (Function.update ls t (next (ls t) .filterPendingCloses w.alive.length)) := by
  have acc (c : Client) (hc : Accounted w c) : Accounted { w with pending := w.alive } c := by
    by_cases hclosed : c ∈ w.closed
    · exact .inl hclosed
    · obtain ⟨ha, hp⟩ := hc.resolve_left hclosed
      exact .inr ⟨ha, List.mem_filter.mpr ⟨hp, by simpa using hclosed⟩⟩
  have howned : Owned { w with pending := w.alive }
      (Function.update ls t (next (ls t) .filterPendingCloses w.alive.length)) := by
    refine h.owned.congr rfl rfl ?_ ?_ <;> simp only [next] <;> split <;> rfl
  by_cases hc : (ls t).opened = none ∧ .serialBus ∈ (ls t).held
  · obtain ⟨ho, hbus⟩ := hc
    have others (u : Thread) (c : Client) (hu : (ls u).opened = some c) (hs : c.isSerial) :
        Accounted w c := h.others_accounted hg hbus ho hu hs
    have hnext : next (ls t) .filterPendingCloses w.alive.length =
        { ls t with reaped := some w.alive.length } := if_pos ⟨ho, hbus⟩
    rw [hnext] at howned ⊢
    refine h.congr howned rfl ?_ (fun _ => id) acc rfl ?_ ?_ ?_
    · simp [← h.warned]
    · intro c hopen
      simp [ho] at hopen
    · rintro - c hopen
      simp [ho] at hopen
    · intro n hn _
      refine ⟨ho, fun u c hu hs => acc c (others u c hu hs), fun h0 c hconn hs => ?_⟩
      -- a count of zero means that every tracked close has finished
      have closed (c : Client) (hp : c ∈ w.pending) : c ∈ w.closed := by
        have hnil : w.alive = [] := by
          apply List.eq_nil_of_length_eq_zero
          rw [← h0]
          exact Option.some.inj hn
        by_contra hopen
        have halive : c ∈ w.alive := List.mem_filter.mpr ⟨hp, by simpa using hopen⟩
        simp [hnil] at halive
      have hacc : Accounted w c := by
        obtain hacc | ⟨u, hu⟩ := h.tracked c hconn hs
        · exact hacc
        · exact others u c hu hs
      exact hacc.elim id fun hp => closed c hp.2
  · have hnext : next (ls t) .filterPendingCloses w.alive.length = ls t := if_neg hc
    rw [hnext] at howned ⊢
    refine h.congr howned rfl ?_ (fun _ => id) acc rfl ?_ ?_ ?_
    · simp [← h.warned]
    · exact fun c ho hs => acc c (h.settled t c ho hs)
    · rintro rfl c ho hs
      exact h.polled c ho hs
    · intro n hn hbus
      obtain ⟨ho, ha, hz⟩ := h.reaped t n hn hbus
      exact ⟨ho, fun u c hu hs => acc c (ha u c hu hs), hz⟩

/-- The close of the open client comes to its end: it finished, or it is recorded. -/
theorem settle {client : Client} (h : BusKnown w ls)
    (ho : (ls t).opened = none ∨ (ls t).opened = some client)
    (hholder : w'.holder = w.holder) (hopened : w'.opened = w.opened)
    (hconn : w'.connected = w.connected) (hwarned : w'.warned = w.warned)
    (hclosed : w'.closed = w.closed) (hacc : ∀ c, Accounted w c → Accounted w' c)
    (hnew : Accounted w' client) :
    BusKnown w' (Function.update ls t { ls t with settled := true }) := by
  refine h.congr (h.owned.congr hholder hopened rfl rfl) hconn ?_ (fun c hc => hclosed ▸ hc) hacc
    rfl ?_ ?_ ?_
  · simp [hwarned, ← h.warned]
  · intro c hc _
    rcases ho with ho | ho
    · simp [ho] at hc
    · obtain rfl : client = c := by simpa [ho] using hc
      exact hnew
  · rintro rfl c hc hs
    exact h.polled c hc hs
  · intro n hn hbus
    obtain ⟨ho, ha, hz⟩ := h.reaped t n hn hbus
    exact ⟨ho, fun u c hu hs => hacc c (ha u c hu hs), hclosed ▸ hz⟩

theorem connect {client : Client} (h : BusKnown w ls) (ha : (ls t).MayOpen client) :
    BusKnown
      { w with
        connected := client :: w.connected
        opened := Function.update w.opened t (some client) }
      (Function.update ls t { ls t with opened := some client, settled := false, reaped := none }) := by
  have howned := h.owned.serves (w := w) (o := .connect client) (r := .ok true) rfl ha
  obtain ⟨hnone, -, hserial⟩ := ha
  constructor
  · exact howned
  · intro u
    by_cases hu : u = t
    · subst hu
      simp [h.warned]
    · simp [hu, h.warned]
  · intro c hc hs
    rcases List.mem_cons.mp hc with rfl | hc
    · exact .inr ⟨t, by simp⟩
    · refine (h.tracked c hc hs).imp_right fun ⟨u, hu⟩ => ⟨u, ?_⟩
      have hut : u ≠ t := by
        rintro rfl
        simp [hnone] at hu
      simpa [hut] using hu
  · intro u c hc hset
    by_cases hu : u = t
    · subst hu
      simp at hset
    · simp only [Function.update_of_ne hu] at hc hset
      exact h.settled u c hc hset
  · intro c hc hs
    by_cases hu : .poll = t
    · subst hu
      obtain rfl : client = c := by simpa using hc
      simpa using (hserial hs).1
    · simp only [Function.update_of_ne hu] at hc ⊢
      exact h.polled c hc hs
  · intro u n hn hbus
    have hut : u ≠ t := by
      rintro rfl
      simp at hn
    simp only [Function.update_of_ne hut] at hn hbus
    -- the new client is no serial one: the bus belongs to the other thread
    have hnot : ¬ client.isSerial := fun hs => hut (h.owned.eq_of_held hbus (hserial hs).1)
    obtain ⟨ho, hacc, hz⟩ := h.reaped u n hn hbus
    refine ⟨by simpa [hut] using ho, fun v c hv hs => ?_, fun h0 c hc hs => ?_⟩
    · by_cases hvt : v = t
      · subst hvt
        obtain rfl : client = c := by simpa using hv
        exact absurd hs hnot
      · exact hacc v c (by simpa [hvt] using hv) hs
    · rcases List.mem_cons.mp hc with rfl | hc
      · exact absurd hs hnot
      · exact hz h0 c hc hs

theorem closeReturned {client : Client} (h : BusKnown w ls)
    (ha : allowed t (ls t) (.closeReturned client)) :
    BusKnown { w with opened := Function.update w.opened t none }
      (Function.update ls t { ls t with opened := none }) := by
  have sub (u : Thread) (c : Client)
      (hc : (Function.update ls t { ls t with opened := none } u).opened = some c) :
      (ls u).opened = some c := by
    by_cases hu : u = t
    · subst hu
      simp at hc
    · simpa [hu] using hc
  constructor
  · exact h.owned.serves (w := w) (o := .closeReturned client) (r := ()) rfl ha
  · intro u
    by_cases hu : u = t
    · subst hu
      simp [h.warned]
    · simp [hu, h.warned]
  · intro c hc hs
    rcases h.tracked c hc hs with hacc | ⟨u, hu⟩
    · exact .inl hacc
    · by_cases hut : u = t
      · subst hut
        obtain ⟨-, hset⟩ := ha.resolve_left (by simp [hu])
        exact .inl (h.settled u c hu hset)
      · exact .inr ⟨u, by simpa [hut] using hu⟩
  · intro u c hc hset
    refine h.settled u c (sub u c hc) ?_
    by_cases hu : u = t
    · subst hu
      simp at hc
    · simpa [hu] using hset
  · intro c hc hs
    have hu : .poll ≠ t := by
      rintro rfl
      simp at hc
    simpa [hu] using h.polled c (sub .poll c hc) hs
  · intro u n hn hbus
    have same : (Function.update ls t { ls t with opened := none } u).reaped = (ls u).reaped ∧
        (Function.update ls t { ls t with opened := none } u).held = (ls u).held := by
      by_cases hu : u = t
      · subst hu
        simp
      · simp [hu]
    obtain ⟨ho, hacc, hz⟩ := h.reaped u n (same.1 ▸ hn) (same.2 ▸ hbus)
    refine ⟨?_, fun v c hv => hacc v c (sub v c hv), hz⟩
    by_cases hu : u = t
    · subst hu
      simp
    · simpa [hu] using ho

/-- Steps that change nothing the invariant speaks of. -/
theorem same (h : BusKnown w ls) (hholder : w'.holder = w.holder) (hopened : w'.opened = w.opened)
    (hconn : w'.connected = w.connected) (hclosed : w'.closed = w.closed)
    (hab : w'.abandoned = w.abandoned) (hpend : w'.pending = w.pending)
    (hwarned : w'.warned = w.warned) : BusKnown w' (Function.update ls t (ls t)) :=
  h.frame (h.owned.congr hholder hopened rfl rfl) hconn hclosed hab hpend
    (by simp [hwarned, ← h.warned]) rfl rfl (fun _ _ => id) (fun _ hn hm => ⟨hn, hm⟩)

theorem serves (h : BusKnown w ls) {o : Call} {r : o.Answer} (hs : World.serves t w o r w')
    (ha : allowed t (ls t) o) (hg : CommandClosed t w o) :
    BusKnown w' (Function.update ls t (next (ls t) o r)) := by
  cases o with
  | acquire k =>
    obtain ⟨hk, rfl⟩ := hs
    exact h.grant hk rfl
  | tryAcquire k =>
    have hbus : k ≠ .serialBus := by
      rintro rfl
      cases ha.2.2
    cases r with
    | true =>
      obtain ⟨hk, rfl⟩ := hs
      exact h.grant hk (if_neg hbus).symm
    | false =>
      obtain ⟨-, rfl⟩ := hs
      exact h.same rfl rfl rfl rfl rfl rfl rfl
  | release k =>
    obtain ⟨-, rfl⟩ := hs
    exact h.release ha
  | filterPendingCloses =>
    obtain ⟨rfl, rfl⟩ := hs
    exact h.filter hg
  | appendPendingClose client =>
    obtain rfl := hs
    refine h.settle ha.2 rfl rfl rfl rfl rfl ?_ ?_
    · exact fun c hc => hc.imp_right fun ⟨hab, hp⟩ => ⟨by simp [hab], by simp [hp]⟩
    · exact .inr ⟨by simp, by simp⟩
  | warnCloseInFlight =>
    obtain rfl := hs
    exact h.frame (h.owned.congr rfl rfl rfl rfl) rfl rfl rfl rfl rfl rfl rfl (fun _ _ => id)
      (fun _ hn hm => ⟨hn, hm⟩)
  | construct d p =>
    cases r with
    | error e =>
      obtain rfl := hs
      exact h.same rfl rfl rfl rfl rfl rfl rfl
    | ok uid =>
      obtain ⟨-, rfl⟩ := hs
      exact h.same rfl rfl rfl rfl rfl rfl rfl
  | connect client =>
    rcases r with e | connected
    · obtain rfl := hs
      exact h.same rfl rfl rfl rfl rfl rfl rfl
    · cases connected with
      | false =>
        obtain rfl := hs
        exact h.same rfl rfl rfl rfl rfl rfl rfl
      | true =>
        obtain rfl := hs
        exact h.connect ha
  | closeIsAlive client =>
    obtain ⟨hr, rfl⟩ := hs
    cases r with
    | true => exact h.same rfl rfl rfl rfl rfl rfl rfl
    | false => exact h.settle ha rfl rfl rfl rfl rfl (fun _ => id) (.inl (by simpa using hr))
  | closeReturned client =>
    obtain rfl := hs
    exact h.closeReturned ha
  | _ =>
    obtain rfl := hs
    exact h.same rfl rfl rfl rfl rfl rfl rfl

theorem finishClose (h : BusKnown w ls) (hb : World.finishClose w w') : BusKnown w' ls := by
  obtain ⟨c, -, rfl⟩ := hb
  have acc (c' : Client) (hc : Accounted w c') :
      Accounted { w with closed := c :: w.closed } c' := hc.imp_left fun h => by simp [h]
  constructor
  · exact ⟨h.owned.holder, h.owned.nodup, h.owned.opened, h.owned.device⟩
  · exact h.warned
  · exact fun c' hc hs => (h.tracked c' hc hs).imp_left (acc c')
  · exact fun t c' hc hs => acc c' (h.settled t c' hc hs)
  · exact h.polled
  · intro t n hn hbus
    obtain ⟨ho, ha, hz⟩ := h.reaped t n hn hbus
    exact ⟨ho, fun u c' hu hs => acc c' (ha u c' hu hs), fun h0 c' hc hs => by simp [hz h0 c' hc hs]⟩

end BusKnown

/-- The discipline of the bus, where the poll thread only counts pending closes while the
command thread is past its own close. -/
def busDiscipline (settings : Settings) :
    Discipline ((machine settings).restrict CommandClosed) Local where
  protocol := lockProtocol
  idle _ := Local.Idle
  inv := BusKnown
  entry_wp _ _ _ := idle_wp_of_entry
  serves_inv _ _ _ _ _ _ h hs ha := h.serves hs.1 ha hs.2
  background_inv _ _ _ _ h hb := h.finishClose hb

theorem busSafe_of_holds {settings : Settings} {c : PollerConfig} {ls : Thread → Local}
    (h : (busDiscipline settings).Holds c ls) : BusSafe c := by
  intro t client hnext hserial
  obtain ⟨k, hk⟩ := running_of_nextCall hnext
  obtain ⟨hnone, -, hbus⟩ : (ls t).MayOpen client := h.allowed hk
  obtain ⟨hheld, n, hn, hwarned⟩ := hbus hserial
  obtain ⟨-, hothers, hzero⟩ := h.1.reaped t n hn hheld
  refine ⟨(h.1.owned.holder _ _).mpr hheld, fun earlier hconn hs => ?_⟩
  have hacc : Accounted c.world earlier :=
    (h.1.tracked earlier hconn hs).elim id fun ⟨u, hu⟩ => hothers u earlier hu hs
  by_cases h0 : n = 0
  · exact .inl (hzero h0 earlier hconn hs)
  · exact hacc.imp_right fun ⟨hab, hp⟩ => ⟨hab, hp, (h.1.warned t).trans (hwarned h0)⟩

/-- In every run in which the poll thread never counts pending closes while the command thread
is still closing a serial client outside the bus lock, the bus is never silently shared. -/
theorem bus_never_silently_shared (settings : Settings) {c : PollerConfig}
    (hr : ((machine settings).restrict CommandClosed).Reach initial c) : BusSafe c := by
  have h₀ : (busDiscipline settings).Holds initial fun _ => ⟨[], none, false, none, false⟩ :=
    ⟨BusKnown.initial, fun _ => idle_initial⟩
  obtain ⟨ls, h⟩ := Discipline.reach_holds hr h₀
  exact busSafe_of_holds h

/-- A guard the schedule can check: no client of the command thread is open at all. -/
def commandIdle (t : Thread) (w : World) (o : Call) : Bool :=
  decide (t = .poll ∧ o = .filterPendingCloses → w.opened .command = none)

theorem commandClosed_of_idle (t : Thread) (w : World) (o : Call) (h : commandIdle t w o = true) :
    CommandClosed t w o := by
  intro ht ho _ _ client hc
  rw [of_decide_eq_true h ⟨ht, ho⟩] at hc
  cases hc

/-- The close of a command's client was abandoned, and the poll thread logs the warning before
it opens the bus. -/
theorem bus_never_silently_shared_abandoned :
    ∃ c, ((machine sampleSettings).restrict CommandClosed).Reach initial c ∧
      (nextCall c .poll = some (.connect (serialClient 1 2)) ∧
        serialClient 0 1 ∈ c.world.connected ∧ serialClient 0 1 ∉ c.world.closed) ∧
      BusSafe c := by
  let D := (obliging sampleSettings).guard commandIdle commandClosed_of_idle
  obtain ⟨c, hr, hc⟩ := Move.reach_of_schedule (M := (machine sampleSettings).restrict CommandClosed)
    initial
    [.start .command _ (entries_executeCommand sampleSettings (writeCommand 1)
      sampleConfiguration), .steps D .command 23,
      .start .poll _ (entries_runDevice sampleSettings (serialDevice 2)), .steps D .poll 7]
    (fun c => nextCall c .poll = some (.connect (serialClient 1 2)) ∧
      serialClient 0 1 ∈ c.world.connected ∧ serialClient 0 1 ∉ c.world.closed) (by decide)
  exact ⟨c, hr, hc, bus_never_silently_shared sampleSettings hr⟩

/-- A command has written and released the bus lock, and the poll thread opens a client for
another device before the command's client is closed. -/
theorem bus_silently_shared :
    ∃ c, (machine sampleSettings).Reach initial c ∧ ¬ BusSafe c := by
  let D := obliging sampleSettings
  obtain ⟨c, hr, hc⟩ := Move.reach_of_schedule initial
    [.start .command _ (entries_executeCommand sampleSettings (writeCommand 1)
      sampleConfiguration), .steps D .command 9,
      .start .poll _ (entries_runDevice sampleSettings (serialDevice 2)), .steps D .poll 6]
    (fun c => nextCall c .poll = some (.connect (serialClient 1 2)) ∧
      serialClient 0 1 ∈ c.world.connected ∧ serialClient 0 1 ∉ c.world.closed ∧
      serialClient 0 1 ∉ c.world.abandoned) (by decide)
  refine ⟨c, hr, fun hsafe => ?_⟩
  obtain ⟨hnext, hconn, hclosed, habandoned⟩ := hc
  rcases (hsafe .poll _ hnext rfl).2 _ hconn rfl with h | h
  · exact hclosed h
  · exact habandoned h.1

end SenseGateway.Poller

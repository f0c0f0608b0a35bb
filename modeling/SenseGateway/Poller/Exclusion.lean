import SenseGateway.Poller.Schedule

namespace SenseGateway.Poller

open Python Effects Commands Relation

/-- The thread has a client for the device open, from `connect` to the return of
`close_client_with_timeout`. -/
def HasClientOpen (c : PollerConfig) (t : Thread) (deviceId : ℤ) : Prop :=
  ∃ client, client.device = deviceId ∧
    (nextCall c t = some (.connect client) ∨ c.world.opened t = some client)

/-- The lock the next call of the thread waits for. -/
def wants (c : PollerConfig) (t : Thread) : Option LockId :=
  match nextCall c t with
  | some (.acquire k) => some k
  | _ => none

/-- One thread waits for a lock the other one holds. -/
def Waits (c : PollerConfig) : Thread → Thread → Prop :=
  WaitsFor (fun t k => c.world.holder k = some t) (wants c)

theorem nextCall_of_wants {c : PollerConfig} {t : Thread} {k : LockId} (h : wants c t = some k) :
    nextCall c t = some (.acquire k) := by
  unfold wants at h
  split at h
  · obtain rfl := Option.some.inj h
    assumption
  · cases h

theorem idle_wp_of_entry {settings : Settings} {t : Thread} {p : PollerM Unit} {l : Local}
    (h : entries settings t p) (hl : l.Idle) :
    p.wp (lockProtocol t) (fun _ => Local.Idle) (fun _ => Local.Idle) l := by
  cases t with
  | poll =>
    obtain ⟨device, rfl⟩ := h
    exact runDevice_wp settings device hl
  | command =>
    obtain ⟨command, configuration, rfl⟩ := h
    exact executeCommand_wp settings command configuration rfl hl

/-- Both threads keep to the lock protocol, and what they know of their locks and open clients
is what the world says. -/
def ownership (settings : Settings) : Discipline (machine settings) Local where
  protocol := lockProtocol
  idle _ := Local.Idle
  inv := Owned
  entry_wp _ _ _ := idle_wp_of_entry
  serves_inv _ _ _ _ _ _ h hs ha := h.serves hs ha
  background_inv := by
    rintro _ w w' ls h ⟨c, -, rfl⟩
    exact ⟨h.holder, h.nodup, h.opened, h.device⟩

theorem idle_initial : Local.Idle ⟨[], none, false, none, false⟩ := ⟨rfl, rfl⟩

variable {settings : Settings} {c : PollerConfig}

theorem ownership_holds (hr : (machine settings).Reach initial c) :
    ∃ ls, (ownership settings).Holds c ls :=
  have h : (ownership settings).Holds initial fun _ => ⟨[], none, false, none, false⟩ :=
    ⟨Owned.initial, fun _ => idle_initial⟩
  Discipline.reach_holds hr h

section holds

variable {ls : Thread → Local} (h : (ownership settings).Holds c ls)
include h

theorem allowed_of_nextCall {t : Thread} {o : Call} (hn : nextCall c t = some o) :
    allowed t (ls t) o := by
  obtain ⟨k, hk⟩ := running_of_nextCall hn
  exact h.allowed hk

/-- Whoever has a client open holds the lock of its device. -/
theorem device_held_of_open {t : Thread} {deviceId : ℤ} (ho : HasClientOpen c t deviceId) :
    .device deviceId ∈ (ls t).held := by
  obtain ⟨client, rfl, hconnect | hopen⟩ := ho
  · exact (allowed_of_nextCall h hconnect).2.1
  · exact h.1.device t client (by rw [← h.1.opened, hopen])

/-- A lock that a thread waits for ranks above every lock it holds. -/
theorem rank_lt_of_wants {t : Thread} {k j : LockId} (hw : wants c t = some k)
    (hj : c.world.holder j = some t) : j.rank < k.rank :=
  (allowed_of_nextCall h (nextCall_of_wants hw)).1 j ((h.1.holder j t).mp hj)

end holds

/-- Per-device exclusion and freedom from deadlock, in every reachable state. -/
theorem exclusion_and_no_deadlock (hr : (machine settings).Reach initial c) :
    (∀ deviceId t u, HasClientOpen c t deviceId → HasClientOpen c u deviceId → t = u) ∧
      (∀ deviceId, nextCall c .poll ≠ some (.acquire (.device deviceId))) ∧
      ∀ t u, ¬ (Waits c t u ∧ Waits c u t) := by
  obtain ⟨ls, h⟩ := ownership_holds hr
  refine ⟨fun deviceId t u ht hu => ?_, fun deviceId hn => ?_, fun t u hw => ?_⟩
  · exact h.1.eq_of_held (device_held_of_open h ht) (device_held_of_open h hu)
  · exact absurd ((allowed_of_nextCall h hn).2 rfl) (by simp [LockId.rank])
  · exact no_deadlock (fun _ _ _ => rank_lt_of_wants h) t (.tail (.single hw.1) hw.2)

/-- A command waits for the device the poll thread has open on the serial bus. -/
theorem exclusion_and_no_deadlock_contended :
    ∃ c, (machine sampleSettings).Reach initial c ∧
      (c.world.opened .poll = some (serialClient 0 1) ∧ wants c .command = some (.device 1)) ∧
      (∀ deviceId t u, HasClientOpen c t deviceId → HasClientOpen c u deviceId → t = u) ∧
      (∀ deviceId, nextCall c .poll ≠ some (.acquire (.device deviceId))) ∧
      ∀ t u, ¬ (Waits c t u ∧ Waits c u t) := by
  let D := obliging sampleSettings
  obtain ⟨c, hr, hc⟩ := Move.reach_of_schedule initial
    [.start .poll _ (entries_runDevice sampleSettings (serialDevice 1)), .steps D .poll 7,
      .start .command _ (entries_executeCommand sampleSettings (writeCommand 1) sampleConfiguration)]
    (fun c => c.world.opened .poll = some (serialClient 0 1) ∧
      wants c .command = some (.device 1)) (by decide)
  exact ⟨c, hr, hc, exclusion_and_no_deadlock hr⟩

end SenseGateway.Poller

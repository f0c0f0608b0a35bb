import Mathlib.Data.List.TakeWhile
import SenseGateway.Poller.Timetable

namespace SenseGateway.Poller

open Python Effects

/-- One call of `run_device`, and the time it reads where it comes to that. -/
structure DeviceCycle (settings : Settings) where
  device : Json
  currentTime : PyFloat
  events : List (Event calls)
  out : PyExcept Unit
  ran : Prog.Trace (runDevice settings device) events (some out)
  clock : ∀ time, (⟨.monotonic, time⟩ : Event calls) ∈ events → time = currentTime

/-- What `time.monotonic()` returns: a double that is not negative. -/
def IsSample (time : PyFloat) : Prop := ∃ q : ℚ, 0 ≤ q ∧ time = .finite q ∧ roundDouble q = .finite q

/-- A list of tags each of which has an id and a positive interval. -/
def WellFormed (device : Json) (tags : List Json) : Prop :=
  ∀ tag ∈ tags, ∃ verdict, turn device tag = .ok verdict ∧
    ∀ key interval, verdict = some (key, interval) → (PyFloat.finite 0).lt interval = true

variable {settings : Settings}

/-- `last_poll_times` after these cycles of a process. -/
def timesAfter (cycles : List (DeviceCycle settings)) : LastPollTimes :=
  never.after (attempts (cycles.flatMap DeviceCycle.events))

/-- The cycles of one process, over well-formed tags and by a clock that never runs backwards. -/
structure PollingProcess (cycles : List (DeviceCycle settings)) : Prop where
  answered : AnsweredFrom never (cycles.flatMap DeviceCycle.events)
  samples : ∀ cycle ∈ cycles, IsSample cycle.currentTime
  forward : (cycles.map DeviceCycle.currentTime).Pairwise fun s t => s.le t = true
  wellFormed : ∀ cycle ∈ cycles, ∃ tags, tagsOf cycle.device = .ok tags ∧
    WellFormed cycle.device tags

/-- The cycle connects, and its device has the tag, which is enabled. -/
structure Scheduled (cycle : DeviceCycle settings) (tag : Json) (key : ℤ × ℤ) (interval : PyFloat) :
    Prop where
  connected : Connected cycle.events
  listed : ∃ tags, tagsOf cycle.device = .ok tags ∧ tag ∈ tags
  turn : turn cycle.device tag = .ok (some (key, interval))

/-- In every cycle that connects, each enabled tag is attempted that never was, or whose interval has
elapsed since. -/
def AttemptsWhenDue (cycles : List (DeviceCycle settings)) : Prop :=
  ∀ before cycle after, cycles = before ++ cycle :: after → ∀ tag key interval,
    Scheduled cycle tag key interval →
    (∀ time, timesAfter before key = some time →
      interval.le (cycle.currentTime.sub time) = true) →
    key ∈ (attempts cycle.events).map Prod.fst

/-- No tag is met for the first time before its interval, or that of another tag with its id, has
elapsed on the clock. -/
def StartsLate (cycles : List (DeviceCycle settings)) : Prop :=
  ∀ before cycle after, cycles = before ++ cycle :: after → ∀ tag key interval,
    Scheduled cycle tag key interval → timesAfter before key = none →
    ∃ tag' interval', Scheduled cycle tag' key interval' ∧
      interval'.le cycle.currentTime = true

section due

variable {before after : List (DeviceCycle settings)} {cycle : DeviceCycle settings} {tag : Json}
  {key : ℤ × ℤ} {interval : PyFloat}

/-- Nothing is out of reach in a well-formed list. -/
theorem WellFormed.reached {device : Json} {tags : List Json} (h : WellFormed device tags) :
    reached device tags = tags := by
  apply List.takeWhile_eq_self_iff.mpr
  intro tag htag
  obtain ⟨verdict, hturn, -⟩ := h tag htag
  rw [hturn]
  rfl

theorem PollingProcess.interval_ne_nan (h : PollingProcess (before ++ cycle :: after))
    (hscheduled : Scheduled cycle tag key interval) : interval ≠ .nan := by
  obtain ⟨tags, htags, hwell⟩ := h.wellFormed cycle (by simp)
  obtain ⟨tags', htags', htag⟩ := hscheduled.listed
  cases htags.symm.trans htags'
  obtain ⟨verdict, hturn, hpositive⟩ := hwell tag htag
  cases hturn.symm.trans hscheduled.turn
  rintro rfl
  cases hpositive key .nan rfl

/-- The keys a cycle of a process attempts. -/
theorem PollingProcess.attempts_iff (h : PollingProcess (before ++ cycle :: after))
    (hconnected : Connected cycle.events) :
    key ∈ (attempts cycle.events).map Prod.fst ↔
      ∃ tag interval, Scheduled cycle tag key interval ∧
        (cycle.currentTime.sub ((timesAfter before key).getD (.finite 0))).lt interval = false := by
  obtain ⟨tags, htags, hwell⟩ := h.wellFormed cycle (by simp)
  have hanswered := h.answered
  rw [List.flatMap_append, List.flatMap_cons, answeredFrom_append, answeredFrom_append] at hanswered
  obtain ⟨time, htime, hkeys, -⟩ :=
    (runDevice_course cycle.ran).attempts_due hconnected htags hanswered.2.1
  rw [hkeys, cycle.clock time htime, hwell.reached]
  constructor
  · rintro ⟨tag, htag, interval, hturn, hdue⟩
    exact ⟨tag, interval, ⟨hconnected, ⟨tags, htags, htag⟩, hturn⟩, hdue⟩
  · rintro ⟨tag, interval, ⟨-, ⟨tags', htags', htag⟩, hturn⟩, hdue⟩
    cases htags.symm.trans htags'
    exact ⟨tag, htag, interval, hturn, hdue⟩

/-- A tag that was never attempted is taken for one attempted at time zero. -/
theorem PollingProcess.never_due_iff (h : PollingProcess (before ++ cycle :: after))
    (hscheduled : Scheduled cycle tag key interval) (hnever : timesAfter before key = none) :
    (cycle.currentTime.sub ((timesAfter before key).getD (.finite 0))).lt interval = false ↔
      interval.le cycle.currentTime = true := by
  obtain ⟨q, -, htime, hdouble⟩ := h.samples cycle (by simp)
  rw [hnever, htime, Option.getD_none, PyFloat.sub_zero_of_round hdouble]
  exact ⟨fun hlt => PyFloat.le_of_not_lt hlt nofun (h.interval_ne_nan hscheduled),
    PyFloat.not_lt_of_le⟩

end due

/-- A process polls each tag as soon as it is due exactly where it meets none before its interval has
elapsed on the clock. -/
theorem attemptsWhenDue_iff_startsLate {cycles : List (DeviceCycle settings)}
    (h : PollingProcess cycles) : AttemptsWhenDue cycles ↔ StartsLate cycles := by
  constructor
  · rintro hdue before cycle after rfl tag key interval hscheduled hnever
    have hattempted := hdue before cycle after rfl tag key interval hscheduled (by simp [hnever])
    obtain ⟨tag', interval', hscheduled', hlt⟩ :=
      (h.attempts_iff hscheduled.connected).mp hattempted
    exact ⟨tag', interval', hscheduled', (h.never_due_iff hscheduled' hnever).mp hlt⟩
  · rintro hlate before cycle after rfl tag key interval hscheduled helapsed
    rw [h.attempts_iff hscheduled.connected]
    cases htime : timesAfter before key with
    | none =>
      obtain ⟨tag', interval', hscheduled', hle⟩ :=
        hlate before cycle after rfl tag key interval hscheduled htime
      rw [← htime]
      exact ⟨tag', interval', hscheduled', (h.never_due_iff hscheduled' htime).mpr hle⟩
    | some time => exact ⟨tag, interval, hscheduled, PyFloat.not_lt_of_le (helapsed time htime)⟩

section boot

/-! A tag that is polled every two seconds, and a process whose first cycle comes so many seconds after
the machine has started. -/

def meter : Json := withTags meterFields [meterTag]

def meterCycle (seconds : ℚ) : DeviceCycle ⟨"", []⟩ where
  device := meter
  currentTime := .finite seconds
  events := timedEvents ⟨"", []⟩ meter never (.finite seconds)
  out := ((runDevice ⟨"", []⟩ meter).eval (timed (.finite seconds)) never).1
  ran := by
    unfold timedEvents
    exact Prog.trace_events _ _ _
  clock _ := clock_timed

theorem meterCycle_process {seconds : ℚ} (hpositive : 0 ≤ seconds)
    (hdouble : roundDouble seconds = .finite seconds) : PollingProcess [meterCycle seconds] where
  answered := by
    rw [List.flatMap_singleton]
    exact answeredFrom_timed _ _ _
  samples cycle hcycle := by
    rw [List.mem_singleton.mp hcycle]
    exact ⟨seconds, hpositive, rfl, hdouble⟩
  forward := List.pairwise_singleton _ _
  wellFormed cycle hcycle := by
    rw [List.mem_singleton.mp hcycle]
    refine ⟨[meterTag], rfl, fun tag htag => ⟨some ((1, 7), .finite 2), ?_, ?_⟩⟩
    · rw [List.mem_singleton.mp htag]
      rfl
    · rintro key interval ⟨⟩
      rfl

theorem scheduled_meterTag {seconds : ℚ} (h : Connected (meterCycle seconds).events) :
    Scheduled (meterCycle seconds) meterTag (1, 7) (.finite 2) :=
  ⟨h, ⟨[meterTag], rfl, List.mem_cons_self⟩, rfl⟩

/-- Long after boot the tag is polled in the first cycle. -/
theorem meter_polled_at_once : AttemptsWhenDue [meterCycle 100] := by
  refine (attemptsWhenDue_iff_startsLate (meterCycle_process (by norm_num) (by decide +kernel))).mpr ?_
  rintro before cycle after hcycles tag key interval hscheduled -
  obtain rfl : cycle = meterCycle 100 := by
    have hmem : cycle ∈ [meterCycle 100] := hcycles ▸ List.mem_append_right _ List.mem_cons_self
    exact List.mem_singleton.mp hmem
  obtain ⟨tags, htags, htag⟩ := hscheduled.listed
  cases htags
  obtain rfl := List.mem_singleton.mp htag
  cases hscheduled.turn
  exact ⟨meterTag, .finite 2, hscheduled, by decide +kernel⟩

/-- One second after boot it is not, although it was never polled before. -/
theorem meter_not_polled_after_boot :
    ¬ ∀ (settings : Settings) (cycles : List (DeviceCycle settings)),
      PollingProcess cycles → AttemptsWhenDue cycles := by
  intro h
  have hconnected : Connected (meterCycle 1).events := by decide +kernel
  have hprocess : PollingProcess [meterCycle 1] := meterCycle_process (by norm_num) (by decide +kernel)
  have hattempted := h _ _ hprocess [] (meterCycle 1) [] rfl meterTag (1, 7) _
    (scheduled_meterTag hconnected) nofun
  have hnone : attempts (meterCycle 1).events = [] := by decide +kernel
  rw [hnone] at hattempted
  cases hattempted

end boot

end SenseGateway.Poller

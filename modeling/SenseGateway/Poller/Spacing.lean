import SenseGateway.Health.DeviceStatus
import SenseGateway.Poller.Timetable

namespace SenseGateway.Poller

open Python Effects

variable {settings : Settings}

/-- The device entries of a configuration. -/
def devicesOf (configuration : Json) : PyExcept (List Json) := do
  (← configuration.getD "devices" (.arr [])).iter

/-- A call of `run_device` in the device loop, with its passes. -/
structure DeviceVisits (settings : Settings) where
  device : Json
  events : List (Event calls)
  visits : List Visit
  seen : VisitsOf settings device events visits

/-- The passes of the tag loops in one turn of the main loop, device by device in the order of its
configuration. -/
def TurnVisits (turn : Health.Cycle settings) (visits : List Visit) : Prop :=
  ∃ polls : List (DeviceVisits settings), turn.events = polls.flatMap DeviceVisits.events ∧
    visits = polls.flatMap DeviceVisits.visits ∧
    (polls = [] ∨ ∃ devices, devicesOf turn.configuration = .ok devices ∧
      polls.map DeviceVisits.device <+: devices)

/-- The passes of the tag loops in a run of the main loop. -/
def RunVisits (run : List (Health.Cycle settings)) (visits : List Visit) : Prop :=
  ∃ parts, List.Forall₂ TurnVisits run parts ∧ visits = parts.flatten

/-- The pass stamps the key. -/
def Visit.Attempts (visit : Visit) (key : ℤ × ℤ) : Prop := key ∈ (attempts visit.events).map Prod.fst

instance (visit : Visit) (key : ℤ × ℤ) : Decidable (visit.Attempts key) :=
  inferInstanceAs (Decidable (key ∈ (attempts visit.events).map Prod.fst))

/-- Two attempts of a key with none in between are at least the interval of the second one's tag
apart, where that is an interval to count. -/
def Spaced (counts : PyFloat → Prop) (visits : List Visit) : Prop :=
  ∀ key before a between b after, visits = before ++ a :: (between ++ b :: after) →
    a.Attempts key → b.Attempts key → (∀ visit ∈ between, ¬ visit.Attempts key) →
    ∃ interval, turn b.device b.tag = .ok (some (key, interval)) ∧
      (counts interval → interval.le (b.time.sub a.time) = true)

section existence

theorem visits_of_handled {device : Json} {es : List (Event calls)} {out : PyExcept Unit}
    (h : Prog.Trace ((runDevice settings device).handle fun _ => do
      let _ ← device.get "device_name"
      return ()) es (some out)) : ∃ visits, VisitsOf settings device es visits := by
  have hhandler : ∀ e : PyError, Prog.Makes (I := calls) (fun _ => False)
      ((Prog.ofExcept (device.get "device_name")).bind fun _ => Prog.pure ()) :=
    fun _ => .bind (.ofExcept _) fun _ => .pure _
  obtain ⟨out', htrace⟩ := Prog.trace_of_handle hhandler h
  exact (runDevice_course htrace).visits

/-- The device loop calls `run_device` for one device after the other. -/
theorem deviceVisits_of_passes {devices : List Json} {passes : List (Json × List (Event calls))}
    {out : PyExcept Unit}
    (h : Prog.Passes (fun device => (runDevice settings device).handle fun _ => do
      let _ ← device.get "device_name"
      return ()) devices passes out) :
    ∃ polls : List (DeviceVisits settings),
      passes.flatMap Prod.snd = polls.flatMap DeviceVisits.events ∧
        polls.map DeviceVisits.device <+: devices := by
  induction h with
  | done => exact ⟨[], rfl, List.nil_prefix⟩
  | @raised device devices es e htrace =>
    obtain ⟨visits, hvisits⟩ := visits_of_handled htrace
    exact ⟨[⟨device, es, visits, hvisits⟩], rfl, by simp⟩
  | @next device devices es passes out htrace _ ih =>
    obtain ⟨visits, hvisits⟩ := visits_of_handled htrace
    obtain ⟨polls, hevents, hdevices⟩ := ih
    refine ⟨⟨device, es, visits, hvisits⟩ :: polls, ?_, ?_⟩
    · rw [List.flatMap_cons, List.flatMap_cons, hevents]
    · exact List.cons_prefix_cons.mpr ⟨rfl, hdevices⟩

theorem turnVisits_exist (turn : Health.Cycle settings) : ∃ visits, TurnVisits turn visits := by
  have hloop : Health.pollConfiguration settings turn.configuration =
      (Prog.ofExcept (devicesOf turn.configuration)).bind (Health.pollDevices settings) := by
    rw [devicesOf, Prog.ofExcept_bind, Prog.bind_assoc]
    rfl
  have hpolled := turn.polled
  rw [hloop] at hpolled
  cases hdevices : devicesOf turn.configuration with
  | error e =>
    rw [hdevices] at hpolled
    have hnone := (Prog.trace_throw.mp hpolled).1
    exact ⟨[], [], hnone, rfl, .inl rfl⟩
  | ok devices =>
    rw [hdevices] at hpolled
    obtain ⟨passes, hpasses, hevents⟩ := Prog.passes_of_trace hpolled
    obtain ⟨polls, hpolls, hprefix⟩ := deviceVisits_of_passes hpasses
    exact ⟨_, polls, hevents.trans hpolls, rfl, .inr ⟨devices, hdevices, hprefix⟩⟩

theorem runVisits_exist (run : List (Health.Cycle settings)) : ∃ visits, RunVisits run visits := by
  induction run with
  | nil => exact ⟨[], [], .nil, rfl⟩
  | cons turn run ih =>
    obtain ⟨visits, hvisits⟩ := turnVisits_exist turn
    obtain ⟨_, parts, hparts, rfl⟩ := ih
    exact ⟨_, visits :: parts, .cons hvisits hparts, rfl⟩

end existence

section spacing

/-- Two lists of calls that stamp and look up the same. -/
structure SameTimetable (es es' : List (Event calls)) : Prop where
  attempts : attempts es = attempts es'
  answered : ∀ times, AnsweredFrom times es ↔ AnsweredFrom times es'

theorem SameTimetable.append {es es' fs fs' : List (Event calls)} (h : SameTimetable es es')
    (h' : SameTimetable fs fs') : SameTimetable (es ++ fs) (es' ++ fs') where
  attempts := by rw [attempts_append, attempts_append, h.attempts, h'.attempts]
  answered times := by
    rw [answeredFrom_append, answeredFrom_append, h.answered, h.attempts, h'.answered]

theorem SameTimetable.flatMap {α : Type} {xs : List α} {f g : α → List (Event calls)}
    (h : ∀ x ∈ xs, SameTimetable (f x) (g x)) : SameTimetable (xs.flatMap f) (xs.flatMap g) := by
  induction xs with
  | nil => exact ⟨rfl, fun _ => Iff.rfl⟩
  | cons x xs ih =>
    rw [List.flatMap_cons, List.flatMap_cons]
    exact (h x List.mem_cons_self).append (ih fun y hy => h y (List.mem_cons_of_mem _ hy))

theorem sameTimetable_nil {es : List (Event calls)} (h : ∀ e ∈ es, ¬ TagCall e.op) :
    SameTimetable es [] where
  attempts := attempts_of_not_tag h
  answered _ := iff_of_true (answeredFrom_of_not_tag h) trivial

/-- A visit is a run of `run_device`'s loop body at a time that the run has read. -/
def Visit.Passes (settings : Settings) (visit : Visit) : Prop :=
  ∃ client out, Prog.Trace (pollTag settings client visit.device visit.time visit.tag) visit.events
    (some out)

theorem VisitsOf.sameTimetable {device : Json} {es : List (Event calls)} {visits : List Visit}
    (h : VisitsOf settings device es visits) : SameTimetable es (visits.flatMap Visit.events) := by
  cases h with
  | none h => exact sameTimetable_nil h
  | @polled client currentTime tags passes out pre post _ _ _ hpre hpost =>
    rw [List.flatMap_map]
    have hmid : SameTimetable (passes.flatMap Prod.snd) (passes.flatMap Prod.snd) :=
      ⟨rfl, fun _ => Iff.rfl⟩
    have hall := (sameTimetable_nil hpre).append (hmid.append (sameTimetable_nil hpost))
    rwa [List.append_nil, List.nil_append] at hall

theorem VisitsOf.passes {device : Json} {es : List (Event calls)} {visits : List Visit}
    (h : VisitsOf settings device es visits) :
    ∀ visit ∈ visits, visit.Passes settings ∧ (⟨.monotonic, visit.time⟩ : Event calls) ∈ es := by
  cases h with
  | none _ => simp
  | polled _ hpasses htime _ _ =>
    intro visit hvisit
    obtain ⟨pass, hpass, rfl⟩ := List.mem_map.mp hvisit
    obtain ⟨-, out, htrace⟩ := hpasses.trace pass hpass
    exact ⟨⟨_, out, htrace⟩, List.mem_append_left _ htime⟩

theorem TurnVisits.sound {turn : Health.Cycle settings} {visits : List Visit}
    (h : TurnVisits turn visits) : SameTimetable turn.events (visits.flatMap Visit.events) ∧
      ∀ visit ∈ visits, visit.Passes settings ∧
        (⟨.monotonic, visit.time⟩ : Event calls) ∈ turn.events := by
  obtain ⟨polls, hevents, rfl, -⟩ := h
  rw [hevents, List.flatMap_assoc]
  refine ⟨.flatMap fun poll _ => poll.seen.sameTimetable, fun visit hvisit => ?_⟩
  obtain ⟨poll, hpoll, hvisit⟩ := List.mem_flatMap.mp hvisit
  obtain ⟨hpass, htime⟩ := poll.seen.passes visit hvisit
  exact ⟨hpass, List.mem_flatMap.mpr ⟨poll, hpoll, htime⟩⟩

theorem RunVisits.sound {run : List (Health.Cycle settings)} {visits : List Visit}
    (h : RunVisits run visits) :
    SameTimetable (run.flatMap Health.Cycle.events) (visits.flatMap Visit.events) ∧
      ∀ visit ∈ visits, visit.Passes settings ∧
        (⟨.monotonic, visit.time⟩ : Event calls) ∈ run.flatMap Health.Cycle.events := by
  obtain ⟨parts, hparts, rfl⟩ := h
  induction hparts with
  | nil => exact ⟨⟨rfl, fun _ => Iff.rfl⟩, by simp⟩
  | @cons turn visits run parts hturn _ ih =>
    obtain ⟨hsame, hpasses⟩ := hturn.sound
    rw [List.flatMap_cons, List.flatten_cons, List.flatMap_append]
    refine ⟨hsame.append ih.1, fun visit hvisit => ?_⟩
    rcases List.mem_append.mp hvisit with hvisit | hvisit
    · exact ⟨(hpasses visit hvisit).1, List.mem_append_left _ (hpasses visit hvisit).2⟩
    · exact ⟨(ih.2 visit hvisit).1, List.mem_append_right _ (ih.2 visit hvisit).2⟩

/-- What an attempt says about the tag and the dictionary. -/
theorem Visit.Passes.attempt {visit : Visit} {times : LastPollTimes} {key : ℤ × ℤ}
    (h : visit.Passes settings) (htimes : AnsweredFrom times visit.events)
    (hkey : visit.Attempts key) :
    attempts visit.events = [(key, visit.time)] ∧
      ∃ interval, turn visit.device visit.tag = .ok (some (key, interval)) ∧
        (visit.time.sub ((times key).getD (.finite 0))).lt interval = false := by
  obtain ⟨client, out, htrace⟩ := h
  have hpass := pollTag_trace htrace htimes
  unfold Visit.Attempts at hkey
  cases hturn : turn visit.device visit.tag with
  | error e =>
    rw [hturn] at hpass
    rw [hpass.2] at hkey
    cases hkey
  | ok verdict =>
    rw [hturn] at hpass
    rcases verdict with _ | ⟨stamped, interval⟩
    · rw [hpass.2] at hkey
      cases hkey
    · by_cases hlt : (visit.time.sub ((times stamped).getD (.finite 0))).lt interval = true
      · have hnone := hpass.2
        rw [if_pos hlt] at hnone
        rw [hnone] at hkey
        cases hkey
      · have hone := hpass.2
        rw [if_neg hlt] at hone
        rw [hone] at hkey
        obtain rfl := List.mem_singleton.mp hkey
        exact ⟨hone, interval, rfl, by simpa using hlt⟩

/-- The dictionary at a pass holds the stamp of the last attempt of a key before it. -/
theorem after_last_attempt {times : LastPollTimes} {a : Visit} {between : List Visit} {key : ℤ × ℤ}
    (ha : attempts a.events = [(key, a.time)]) (hbetween : ∀ visit ∈ between, ¬ visit.Attempts key) :
    (times.after (attempts a.events)).after (attempts (between.flatMap Visit.events)) key =
      some a.time := by
  have hnone : key ∉ (attempts (between.flatMap Visit.events)).map Prod.fst := by
    rw [attempts, List.filterMap_flatMap, List.map_flatMap, List.mem_flatMap]
    rintro ⟨visit, hvisit, hkey⟩
    exact hbetween visit hvisit hkey
  rw [LastPollTimes.after_of_not_mem hnone, ha]
  exact Function.update_self _ _ _

end spacing

/-- In every run of the main loop any two consecutive attempts of a key are at least the interval of
the second one apart, by the clock samples of their cycles, unless that interval is no number. -/
theorem attempts_spaced (run : List (Health.Cycle settings))
    (hanswered : AnsweredFrom never (run.flatMap Health.Cycle.events))
    (hclock : ∀ time, (⟨.monotonic, time⟩ : Event calls) ∈ run.flatMap Health.Cycle.events →
      time.isFinite = true) :
    (∃ visits, RunVisits run visits) ∧
      ∀ visits, RunVisits run visits → Spaced (· ≠ .nan) visits := by
  refine ⟨runVisits_exist run, fun visits hvisits => ?_⟩
  obtain ⟨hsame, hpasses⟩ := hvisits.sound
  rw [hsame.answered] at hanswered
  rintro key before a between b after rfl ha hb hbetween
  simp only [List.flatMap_append, List.flatMap_cons, answeredFrom_append] at hanswered
  obtain ⟨-, htimesA, -, htimesB, -⟩ := hanswered
  have hpassA := (hpasses a (by simp)).1.attempt htimesA ha
  obtain ⟨-, interval, hturn, hlt⟩ := (hpasses b (by simp)).1.attempt htimesB hb
  rw [after_last_attempt hpassA.1 hbetween, Option.getD_some] at hlt
  have hsamples : (b.time.sub a.time) ≠ .nan :=
    PyFloat.sub_ne_nan (hclock _ (hpasses b (by simp)).2) (hclock _ (hpasses a (by simp)).2)
  exact ⟨interval, hturn, fun hnumber => PyFloat.le_of_not_lt hlt hsamples hnumber⟩

section twice

/-! Two turns of the main loop over a device on the serial port that has one tag. -/

def oneTag (tag : Json) : Json := .obj [("devices", .arr [withTags meterFields [tag]])]

def tagTurn (tag : Json) (time : PyFloat) (times : LastPollTimes) : Health.Cycle ⟨"", []⟩ where
  configuration := oneTag tag
  currentTime := time
  events := (Health.pollConfiguration ⟨"", []⟩ (oneTag tag)).events (timed time) times
  out := ((Health.pollConfiguration ⟨"", []⟩ (oneTag tag)).eval (timed time) times).1
  polled := Prog.trace_events (timed time) (Health.pollConfiguration ⟨"", []⟩ (oneTag tag)) times
  fileWrite := .ok ()

/-- What the first of two turns leaves in `last_poll_times`. -/
def timesBetween (tag : Json) (first : PyFloat) : LastPollTimes :=
  never.after (attempts (tagTurn tag first never).events)

def twoTurns (tag : Json) (first second : PyFloat) : List (Health.Cycle ⟨"", []⟩) :=
  [tagTurn tag first never, tagTurn tag second (timesBetween tag first)]

theorem twoTurns_answered (tag : Json) (first second : PyFloat) :
    AnsweredFrom never ((twoTurns tag first second).flatMap Health.Cycle.events) := by
  rw [twoTurns, List.flatMap_cons, List.flatMap_singleton, answeredFrom_append]
  exact ⟨answeredFrom_timed _ _ _, answeredFrom_timed _ _ _⟩

theorem twoTurns_clock {tag : Json} {first second time : PyFloat}
    (h : (⟨.monotonic, time⟩ : Event calls) ∈
      (twoTurns tag first second).flatMap Health.Cycle.events) : time = first ∨ time = second := by
  rw [twoTurns, List.flatMap_cons, List.flatMap_singleton, List.mem_append] at h
  exact h.imp clock_timed clock_timed

/-- Two turns three seconds apart. -/
theorem meter_spaced :
    (∃ visits, RunVisits (twoTurns meterTag (.finite 100) (.finite 103)) visits) ∧
      ∀ visits, RunVisits (twoTurns meterTag (.finite 100) (.finite 103)) visits →
        Spaced (· ≠ .nan) visits := by
  refine attempts_spaced _ (twoTurns_answered _ _ _) fun time htime => ?_
  rcases twoTurns_clock htime with rfl | rfl <;> rfl

def portClient : Client := ⟨0, 1, .serial "COM3" 9600 "N" 1⟩

/-- The calls of `run_device` before and after the one pass. -/
def opening (time : PyFloat) : List (Event calls) :=
  [⟨.tryAcquire (.device 1), true⟩, ⟨.acquire .serialBus, ()⟩, ⟨.acquire .pendingCloses, ()⟩,
    ⟨.filterPendingCloses, (0 : ℕ)⟩, ⟨.release .pendingCloses, ()⟩,
    ⟨.construct 1 portClient.params, (.ok 0 : PyExcept ℕ)⟩, connectedEvent portClient,
    ⟨.setDeviceStatus 1 "connected", ()⟩, ⟨.monotonic, time⟩]

def closing : List (Event calls) :=
  [⟨.acquire .pendingCloses, ()⟩, ⟨.filterPendingCloses, (0 : ℕ)⟩, ⟨.release .pendingCloses, ()⟩,
    ⟨.startClose portClient, ()⟩, ⟨.joinClose portClient, ()⟩, ⟨.closeIsAlive portClient, false⟩,
    ⟨.closeReturned portClient, ()⟩, ⟨.release .serialBus, ()⟩, ⟨.release (.device 1), ()⟩]

def tagVisit (tag : Json) (time : PyFloat) (times : LastPollTimes) : Visit :=
  ⟨withTags meterFields [tag], tag, time,
    (pollTag ⟨"", []⟩ portClient (withTags meterFields [tag]) time tag).events (timed time) times⟩

theorem tagTurn_visits {tag : Json} {time : PyFloat} {times : LastPollTimes}
    (hevents : (tagTurn tag time times).events =
      opening time ++ ((tagVisit tag time times).events ++ closing))
    (hout : ((pollTag ⟨"", []⟩ portClient (withTags meterFields [tag]) time tag).eval (timed time)
      times).1 = .ok ()) :
    TurnVisits (tagTurn tag time times) [tagVisit tag time times] := by
  have htrace := Prog.trace_events (timed time)
    (pollTag ⟨"", []⟩ portClient (withTags meterFields [tag]) time tag) times
  rw [hout] at htrace
  have hseen : VisitsOf ⟨"", []⟩ (withTags meterFields [tag]) (tagTurn tag time times).events
      [tagVisit tag time times] := by
    rw [hevents]
    have hpre : ∀ e ∈ opening time, ¬ TagCall e.op := by simp [opening, TagCall, connectedEvent]
    have hpost : ∀ e ∈ closing, ¬ TagCall e.op := by simp [closing, TagCall]
    have htime : (⟨.monotonic, time⟩ : Event calls) ∈ opening time := by simp [opening]
    have hpolled := VisitsOf.polled (tagsOf_withTags meterFields [tag]) (.next htrace .done) htime hpre
      hpost
    rw [List.flatMap_singleton] at hpolled
    exact hpolled
  exact ⟨[⟨_, _, _, hseen⟩], by simp, by simp, .inr ⟨[withTags meterFields [tag]], rfl, by simp⟩⟩

/-- A tag whose interval is not a number. -/
def nanTag : Json :=
  .obj [("id", .int 7), ("register_address", .int 40), ("poll_interval", .float .nan)]

/-- It is polled in every turn, however soon. -/
theorem nan_interval_not_spaced :
    ¬ ∀ (settings : Settings) (run : List (Health.Cycle settings)) (visits : List Visit),
      AnsweredFrom never (run.flatMap Health.Cycle.events) →
      (∀ time, (⟨.monotonic, time⟩ : Event calls) ∈ run.flatMap Health.Cycle.events →
        time.isFinite = true) →
      RunVisits run visits → Spaced (fun _ => True) visits := by
  intro h
  have hfirst : TurnVisits (tagTurn nanTag (.finite 100) never) [tagVisit nanTag (.finite 100) never] :=
    tagTurn_visits (by decide +kernel) (by decide +kernel)
  have hsecond : TurnVisits (tagTurn nanTag (.finite 101) (timesBetween nanTag (.finite 100)))
      [tagVisit nanTag (.finite 101) (timesBetween nanTag (.finite 100))] :=
    tagTurn_visits (by decide +kernel) (by decide +kernel)
  have hspaced := h _ (twoTurns nanTag (.finite 100) (.finite 101)) _ (twoTurns_answered _ _ _)
    (fun time htime => by rcases twoTurns_clock htime with rfl | rfl <;> rfl)
    ⟨_, .cons hfirst (.cons hsecond .nil), rfl⟩
  obtain ⟨interval, hturn, hle⟩ := hspaced (1, 7) [] _ [] _ [] rfl (by decide +kernel)
    (by decide +kernel) (by simp)
  cases hturn
  cases hle trivial

end twice

end SenseGateway.Poller

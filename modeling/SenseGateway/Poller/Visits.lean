import SenseGateway.Effects.Passes
import SenseGateway.Poller.Footprint

namespace SenseGateway.Poller

open Python Effects Prog

/-- The calls that only a pass of the tag loop makes. -/
def TagCall : Call → Prop
  | .read _ _ | .utcNow | .lastPoll _ | .setLastPoll _ _ | .insertTelemetry _ _ | .insertHistory _ _
  | .setLatestReading _ => True
  | _ => False

/-- The tags `run_device` goes through. -/
def tagsOf (device : Json) : PyExcept (List Json) := do
  (← device.getD "tags" (.arr [])).iter

/-- The event of a client that has been connected. -/
def connectedEvent (client : Client) : Event calls := ⟨.connect client, (.ok true : PyExcept Bool)⟩

/-- A client has been connected. -/
def Connected (es : List (Event calls)) : Prop := ∃ client, connectedEvent client ∈ es

/-- What a run of `run_device` looks like: it connects to no client, the list of tags cannot be
read, or the passes of the tag loop lie between calls that have nothing to do with tags. -/
inductive Course (settings : Settings) (device : Json) : List (Event calls) → Prop
  | unconnected {es} : (∀ e ∈ es, ¬ TagCall e.op) → ¬ Connected es → Course settings device es
  | untagged {es e} : tagsOf device = .error e → (∀ e ∈ es, ¬ TagCall e.op) →
      Course settings device es
  | polled {client currentTime tags passes out pre post} : tagsOf device = .ok tags →
      Passes (pollTag settings client device currentTime) tags passes out →
      (⟨.monotonic, currentTime⟩ : Event calls) ∈ pre → (∀ e ∈ pre, ¬ TagCall e.op) →
      (∀ e ∈ post, ¬ TagCall e.op) →
      Course settings device (pre ++ (passes.flatMap Prod.snd ++ post))

/-- A pass of the tag loop: the device and tag entries, the time the loop has read and the calls. -/
structure Visit where
  device : Json
  tag : Json
  time : PyFloat
  events : List (Event calls)

/-- The passes of the tag loop in a run of `run_device`. -/
inductive VisitsOf (settings : Settings) (device : Json) : List (Event calls) → List Visit → Prop
  | none {es} : (∀ e ∈ es, ¬ TagCall e.op) → VisitsOf settings device es []
  | polled {client currentTime tags passes out pre post} : tagsOf device = .ok tags →
      Passes (pollTag settings client device currentTime) tags passes out →
      (⟨.monotonic, currentTime⟩ : Event calls) ∈ pre → (∀ e ∈ pre, ¬ TagCall e.op) →
      (∀ e ∈ post, ¬ TagCall e.op) →
      VisitsOf settings device (pre ++ (passes.flatMap Prod.snd ++ post))
        (passes.map fun pass => ⟨device, pass.1, currentTime, pass.2⟩)

theorem Course.visits {settings : Settings} {device : Json} {es : List (Event calls)}
    (h : Course settings device es) : ∃ visits, VisitsOf settings device es visits := by
  cases h with
  | unconnected h _ => exact ⟨[], .none h⟩
  | untagged _ h => exact ⟨[], .none h⟩
  | polled htags hpasses htime hpre hpost => exact ⟨_, .polled htags hpasses htime hpre hpost⟩

variable {settings : Settings} {device : Json}

/-- Each is a run of the body of the loop. -/
theorem VisitsOf.pass {es : List (Event calls)} {visits : List Visit}
    (h : VisitsOf settings device es visits) {visit : Visit} (hvisit : visit ∈ visits) :
    ∃ client out, Trace (pollTag settings client device visit.time visit.tag) visit.events
      (some out) := by
  cases h with
  | none _ => cases hvisit
  | polled _ hpasses _ _ _ =>
    obtain ⟨pass, hpass, rfl⟩ := List.mem_map.mp hvisit
    obtain ⟨-, out, htrace⟩ := hpasses.trace pass hpass
    exact ⟨_, out, htrace⟩

/-- Every call that concerns tags is made in one of them. -/
theorem VisitsOf.exists_visit {es : List (Event calls)} {visits : List Visit}
    (h : VisitsOf settings device es visits) {e : Event calls} (he : e ∈ es) (htag : TagCall e.op) :
    ∃ visit ∈ visits, e ∈ visit.events := by
  cases h with
  | none hnone => exact absurd htag (hnone e he)
  | polled _ _ _ hpre hpost =>
    rcases List.mem_append.mp he with he | he
    · exact absurd htag (hpre e he)
    · rcases List.mem_append.mp he with he | he
      · obtain ⟨pass, hpass, he⟩ := List.mem_flatMap.mp he
        exact ⟨_, List.mem_map_of_mem hpass, he⟩
      · exact absurd htag (hpost e he)

/-- Calls that neither concern tags nor connect to a client. -/
def Aside (o : Call) : Prop := ¬ TagCall o ∧ ∀ client, o ≠ .connect client

theorem aside_opening {o : Call} (h : Opening o) : Aside o := by
  refine ⟨?_, fun client => ?_⟩
  · cases o <;> first | exact h.elim | exact not_false
  · rintro rfl
    exact h

theorem aside_closing {client : Client} {o : Call} (h : Closing client o) : Aside o := by
  refine ⟨?_, fun other => ?_⟩
  · cases o <;> first | exact h.elim | exact not_false
  · rintro rfl
    exact h

theorem not_connected_append {es es' : List (Event calls)} (h : ¬ Connected es)
    (hes' : ∀ e ∈ es', Aside e.op) : ¬ Connected (es ++ es') := by
  rintro ⟨client, hmem⟩
  rcases List.mem_append.mp hmem with hmem | hmem
  · exact h ⟨client, hmem⟩
  · exact (hes' _ hmem).2 client rfl

/-- What follows a run and does not concern tags changes nothing about its course. -/
theorem Course.append {es es' : List (Event calls)} (h : Course settings device es)
    (hes' : ∀ e ∈ es', Aside e.op) : Course settings device (es ++ es') := by
  have hall {es : List (Event calls)} (h : ∀ e ∈ es, ¬ TagCall e.op) :
      ∀ e ∈ es ++ es', ¬ TagCall e.op :=
    List.forall_mem_append.mpr ⟨h, fun e he => (hes' e he).1⟩
  cases h with
  | unconnected h hconnected =>
    exact .unconnected (hall h) (not_connected_append hconnected hes')
  | untagged htags h => exact .untagged htags (hall h)
  | polled htags hpasses htime hpre hpost =>
    rw [List.append_assoc, List.append_assoc]
    exact .polled htags hpasses htime hpre (hall hpost)

/-- No call so far concerns tags or has connected to a client. -/
def Preparing (es : List (Event calls)) : Prop := (∀ e ∈ es, ¬ TagCall e.op) ∧ ¬ Connected es

theorem Preparing.course {es : List (Event calls)} (h : Preparing es) : Course settings device es :=
  .unconnected h.1 h.2

theorem Preparing.append {es es' : List (Event calls)} (h : Preparing es)
    (hes' : ∀ e ∈ es', Aside e.op) : Preparing (es ++ es') :=
  ⟨List.forall_mem_append.mpr ⟨h.1, fun e he => (hes' e he).1⟩, not_connected_append h.2 hes'⟩

section wp

variable {α β : Type} {l : List (Event calls)}

theorem wp_preparing {p : PollerM α} (h : Makes (I := calls) Aside p) (hl : Preparing l)  :
    p.wp .history (fun _ => Preparing) (fun _ => Course settings device) l := by
  refine wp_mono ?_ ?_ (wp_history_of_makes h l)
  · rintro a _ ⟨es, rfl, hes⟩
    exact hl.append hes
  · rintro e _ ⟨es, rfl, hes⟩
    exact (hl.append hes).course

theorem wp_course {p : PollerM α} (h : Makes (I := calls) Aside p) (hl : Course settings device l) :
    p.wp .history (fun _ => Course settings device) (fun _ => Course settings device) l := by
  refine wp_mono ?_ ?_ (wp_history_of_makes h l)
  all_goals
    rintro a _ ⟨es, rfl, hes⟩
    exact hl.append hes

theorem wp_ensure_course {p : PollerM α} {f : PollerM Unit} (hf : Makes (I := calls) Aside f)
    (hp : p.wp .history (fun _ => Course settings device) (fun _ => Course settings device) l) :
    (p.ensure f).wp .history (fun _ => Course settings device) (fun _ => Course settings device) l := by
  rw [wp_ensure]
  exact wp_mono (fun a l' hl => wp_course hf hl) (fun e l' hl => wp_course hf hl) hp

theorem pollTags_course (client : Client) (hl : ∀ e ∈ l, ¬ TagCall e.op) :
    (pollTags settings client device).wp .history (fun _ => Course settings device)
      (fun _ => Course settings device) l := by
  refine ⟨trivial, fun currentTime => ?_⟩
  show Prog.wp _ _ _ _ (l ++ [⟨.monotonic, currentTime⟩])
  have hpre : ∀ e ∈ l ++ [(⟨.monotonic, currentTime⟩ : Event calls)], ¬ TagCall e.op :=
    List.forall_mem_append.mpr ⟨hl, by simp [TagCall]⟩
  have hparse : ((Prog.ofExcept (tagsOf device)).bind fun tags =>
      Prog.forEach tags (pollTag settings client device currentTime)).wp .history
      (fun _ => Course settings device) (fun _ => Course settings device)
      (l ++ [⟨.monotonic, currentTime⟩]) := by
    cases htags : tagsOf device with
    | error e => exact .untagged htags hpre
    | ok tags =>
      refine wp_mono ?_ ?_ (wp_history _ _)
      all_goals
        rintro _ _ ⟨es, rfl, htrace⟩
        obtain ⟨passes, hpasses, rfl⟩ := passes_of_trace htrace
        have hcourse : Course settings device
            (l ++ [⟨.monotonic, currentTime⟩] ++ (passes.flatMap Prod.snd ++ [])) :=
          .polled htags hpasses (by simp) hpre (by simp)
        rwa [List.append_nil] at hcourse
  rw [tagsOf, ofExcept_bind, bind_assoc] at hparse
  exact hparse

theorem Preparing.refused {client : Client} {r : PyExcept Bool} (hl : Preparing l)
    (hr : r ≠ .ok true) : Preparing (l ++ [⟨.connect client, r⟩]) := by
  refine ⟨List.forall_mem_append.mpr ⟨hl.1, by simp [TagCall]⟩, ?_⟩
  rintro ⟨other, hmem⟩
  rcases List.mem_append.mp hmem with hmem | hmem
  · exact hl.2 ⟨other, hmem⟩
  · cases List.mem_singleton.mp hmem
    exact hr rfl

/-- A connection attempt either leaves no client connected or starts the part with the tags. -/
theorem connect_course {client : Client} {f : Bool → PollerM α} (hl : Preparing l)
    (hrefused : ∀ l', Preparing l' → (f false).wp .history (fun _ => Course settings device)
      (fun _ => Course settings device) l')
    (hconnected : ∀ l', (∀ e ∈ l', ¬ TagCall e.op) → (f true).wp .history
      (fun _ => Course settings device) (fun _ => Course settings device) l') :
    ((connect client).bind f).wp .history (fun _ => Course settings device)
      (fun _ => Course settings device) l := by
  refine ⟨trivial, fun r => ?_⟩
  match r with
  | .error e => exact (hl.refused (r := .error e) nofun).course
  | .ok false => exact hrefused _ (hl.refused (r := .ok false) nofun)
  | .ok true => exact hconnected _ (List.forall_mem_append.mpr ⟨hl.1, by simp [TagCall]⟩)

theorem pollOnBus_course (settings : Settings) (device connection : Json) (deviceId : ℤ)
    (communicationType : String) (isSerial : Bool) (hl : Preparing l) :
    (pollOnBus settings device connection deviceId communicationType isSerial).wp .history
      (fun _ => Course settings device) (fun _ => Course settings device) l := by
  have aside {γ : Type} {p : PollerM γ} (h : Makes (I := calls) Opening p) :
      Makes (I := calls) Aside p := .mono h fun _ => aside_opening
  have hcreate := aside (createModbusClient_makes settings deviceId communicationType connection)
  refine (wp_bind _ _).mpr (wp_mono ?_ (fun _ _ h => h)
    (wp_preparing (aside (warnOnPendingClose_makes isSerial)) hl))
  intro _ l hl
  refine (wp_bind _ _).mpr (wp_mono ?_ (fun _ _ h => h) (wp_preparing hcreate hl))
  intro client l hl
  refine connect_course hl ?_ ?_
  · intro l hl
    show (((Prog.ofExcept (device.get "device_name")).bind fun name => Prog.throw _).bind _).wp _ _ _ _
    cases device.get "device_name" <;> exact hl.course
  · intro l hl
    refine ⟨trivial, fun _ => ?_⟩
    have hclose : Makes (I := calls) Aside (closeClientWithTimeout client) :=
      .mono (closeClientWithTimeout_makes client) fun _ => aside_closing
    refine wp_ensure_course hclose (pollTags_course client ?_)
    exact List.forall_mem_append.mpr ⟨hl, by simp [TagCall]⟩

theorem pollDevice_course (settings : Settings) (device : Json) (deviceId : ℤ) (hl : Preparing l) :
    (pollDevice settings device deviceId).wp .history (fun _ => Course settings device)
      (fun _ => Course settings device) l := by
  show ((Prog.ofExcept (device.get "connection")).bind fun connection =>
    (Prog.ofExcept (communicationType device)).bind fun _ => _).wp _ _ _ l
  cases device.get "connection" with
  | error e => exact hl.course
  | ok connection =>
    cases communicationType device with
    | error e => exact hl.course
    | ok communicationType =>
      show (if _ then perform (.setDeviceStatus deviceId "failed") else _).wp _ _ _ l
      split
      · exact wp_course (.perform ⟨not_false, nofun⟩) hl.course
      · have hbus := fun {l} hl => pollOnBus_course settings device (connection.orElse (.obj []))
          deviceId communicationType (decide (communicationType ∈ rtuCommunicationTypes)) (l := l) hl
        show (if _ then withLock .serialBus _ else _).wp _ _ _ l
        split
        · have hrelease : Makes (I := calls) Aside (perform (.release .serialBus)) :=
            .perform ⟨not_false, nofun⟩
          refine ⟨trivial, fun _ => wp_ensure_course hrelease (hbus ?_)⟩
          exact hl.append (by simp [Aside, TagCall])
        · exact hbus hl

end wp

/-- Every run of `run_device` has this course. -/
theorem runDevice_course {settings : Settings} {device : Json} {es : List (Event calls)}
    {out : PyExcept Unit} (h : Trace (runDevice settings device) es (some out)) :
    Course settings device es := by
  have hstart : Preparing [] := ⟨by simp, by rintro ⟨_, h⟩; cases h⟩
  have hwp : (runDevice settings device).wp .history (fun _ => Course settings device)
      (fun _ => Course settings device) [] := by
    show ((Prog.ofExcept (device.item "id")).bind fun id =>
      (Prog.ofExcept id.toInt).bind fun _ => _).wp _ _ _ []
    cases device.item "id" with
    | error e => exact hstart.course
    | ok id =>
      show ((Prog.ofExcept id.toInt).bind fun _ => _).wp _ _ _ []
      cases id.toInt with
      | error e => exact hstart.course
      | ok deviceId =>
        refine ⟨trivial, fun taken => ?_⟩
        have hl : Preparing ([] ++ [(⟨.tryAcquire (.device deviceId), taken⟩ : Event calls)]) :=
          hstart.append (by simp [Aside, TagCall])
        cases taken with
        | false => exact hl.course
        | true =>
          have hrelease : Makes (I := calls) Aside (perform (.release (.device deviceId))) :=
            .perform ⟨not_false, nofun⟩
          have hfailed : Makes (I := calls) Aside (perform (.setDeviceStatus deviceId "failed")) :=
            .perform ⟨not_false, nofun⟩
          refine wp_ensure_course hrelease ((wp_handle _ _).mpr ?_)
          refine wp_mono (fun _ _ h => h) ?_ (pollDevice_course settings device deviceId hl)
          intro e l hcourse
          exact wp_course (.bind hfailed fun _ => .throw e) hcourse
  have hend := h.history hwp
  cases out with
  | ok _ => exact hend
  | error _ => exact hend

end SenseGateway.Poller

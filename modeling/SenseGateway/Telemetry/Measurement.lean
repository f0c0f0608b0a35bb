import SenseGateway.Buffer.Wire
import SenseGateway.Poller.Scaling
import SenseGateway.Poller.Timetable
import SenseGateway.Telemetry.Provenance

namespace SenseGateway.Telemetry

open Python Effects Poller Buffer Queues

/-- A device has answered a read with these registers. -/
def Reads (es : List (Event calls)) (registers : List ℤ) : Prop :=
  ∃ client request, (⟨.read client request, .ok (.registers registers)⟩ : Event calls) ∈ es

/-- The pass has read registers of which the saved value is the engineering value. -/
def Measured (settings : Settings) (o : Origin) : Prop :=
  ∃ registers, Reads o.visit.events registers ∧
    engineeringValue settings o.visit.tag registers = .ok o.reading.value

/-- A pass hands a reading to a store only after a read, and what it hands is the value of what was
read last. -/
def readProtocol (settings : Settings) (tag : Json) : Protocol calls (Option (List ℤ)) where
  allowed l o := ∀ reading, Hands reading o →
    ∃ registers, l = some registers ∧ engineeringValue settings tag registers = .ok reading.value
  next
    | _, .read _ _, .ok (.registers registers) => some registers
    | l, _, _ => l

section pass

variable {settings : Settings} {client : Client} {device tag : Json} {l : Option (List ℤ)}

theorem wp_bind_ofExcept {α β : Type} {x : PyExcept α} {f : α → PollerM β}
    {P : Protocol calls (Option (List ℤ))} {Q : β → Option (List ℤ) → Prop}
    (h : ∀ a, x = .ok a → (f a).wp P Q (fun _ _ => True) l) :
    ((Prog.ofExcept x).bind f).wp P Q (fun _ _ => True) l :=
  Prog.wp_bind_ofExcept h fun _ _ => trivial

theorem readModbusRegisters_wp (client : Client) (tag : Json) (slaveId : ℤ) :
    (readModbusRegisters client tag slaveId).wp (readProtocol settings tag)
      (fun registers l' => l' = some registers) (fun _ _ => True) l := by
  refine wp_bind_ofExcept fun _ _ => wp_bind_ofExcept fun functionCode _ => ?_
  refine wp_bind_ofExcept fun _ _ => wp_bind_ofExcept fun address _ => ?_
  refine wp_bind_ofExcept fun _ _ => wp_bind_ofExcept fun count _ => ?_
  split
  · refine ⟨fun _ => False.elim, fun r => ?_⟩
    cases r with
    | error e => exact trivial
    | ok reply =>
      cases reply with
      | error text => exact trivial
      | registers values => exact rfl
  · exact trivial

theorem saveTelemetry_wp {registers : List ℤ} {reading : Poller.Reading}
    (hvalue : engineeringValue settings tag registers = .ok reading.value) :
    (saveTelemetry reading).wp (readProtocol settings tag) (fun _ _ => True) (fun _ _ => True)
      (some registers) := by
  refine Prog.wp_mono (fun _ _ _ => trivial) (fun _ _ _ => trivial)
    (Prog.wp_of_only (saveTelemetry_makes reading) fun o ho => ⟨fun r hr => ⟨registers, rfl, ?_⟩, ?_⟩)
  · obtain rfl : r = reading := by
      cases o <;> first | exact hr.elim | exact hr.symm.trans ho
    exact hvalue
  · intro r
    cases o <;> first | rfl | exact ho.elim

theorem processTag_wp : (processTag settings client device tag).wp (readProtocol settings tag)
    (fun _ _ => True) (fun _ _ => True) l := by
  refine wp_bind_ofExcept fun _ _ => wp_bind_ofExcept fun deviceId _ => ?_
  refine wp_bind_ofExcept fun _ _ => wp_bind_ofExcept fun tagId _ => ?_
  refine wp_bind_ofExcept fun _ _ => wp_bind_ofExcept fun _ _ => wp_bind_ofExcept fun slaveId _ => ?_
  refine (Prog.wp_bind _ _).mpr (Prog.wp_mono ?_ (fun _ _ h => h)
    (readModbusRegisters_wp client tag slaveId))
  rintro registers _ rfl
  refine wp_bind_ofExcept fun value hvalue => ?_
  show (if value.isFinite then _ else _ : PollerM Unit).wp _ _ _ _
  split
  · exact wp_bind_ofExcept fun quality _ => saveTelemetry_wp hvalue
  · exact trivial

theorem pollTag_wp (currentTime : PyFloat) :
    (pollTag settings client device currentTime tag).wp (readProtocol settings tag)
      (fun _ _ => True) (fun _ _ => True) l := by
  rw [pollTag_eq]
  refine wp_bind_ofExcept fun turn _ => ?_
  cases turn with
  | none => exact trivial
  | some turn =>
    obtain ⟨pollKey, pollInterval⟩ := turn
    refine ⟨fun _ => False.elim, fun previous => ?_⟩
    show (if _ then _ else _ : PollerM Unit).wp _ _ _ _
    split
    · exact trivial
    · refine (Prog.wp_ensure _ _).mpr ((Prog.wp_handle _ _).mpr (Prog.wp_mono ?_ ?_ processTag_wp))
      · exact fun _ _ _ => ⟨fun _ => False.elim, fun _ => trivial⟩
      · exact fun _ _ _ => ⟨fun _ => False.elim, fun _ => trivial⟩

theorem next_cases {e : Event calls} {registers : List ℤ}
    (h : (readProtocol settings tag).next l e.op e.answer = some registers) :
    l = some registers ∨ Reads [e] registers := by
  obtain ⟨op, r⟩ := e
  cases op with
  | read client request =>
    cases r with
    | error e => exact .inl h
    | ok reply =>
      cases reply with
      | error text => exact .inl h
      | registers values =>
        obtain rfl : values = registers := Option.some.inj h
        exact .inr ⟨client, request, List.mem_singleton_self _⟩
  | _ => exact .inl h

theorem Reads.of_subset {es es' : List (Event calls)} {registers : List ℤ} (h : Reads es registers)
    (hsub : ∀ e ∈ es, e ∈ es') : Reads es' registers := by
  obtain ⟨client, request, hmem⟩ := h
  exact ⟨client, request, hsub _ hmem⟩

/-- What a pass hands to a store is the value of registers it has read before. -/
theorem read_of_allows {es : List (Event calls)} (h : (readProtocol settings tag).Allows l es)
    {e : Event calls} (he : e ∈ es) {reading : Poller.Reading} (hhands : Hands reading e.op) :
    ∃ registers, (l = some registers ∨ Reads es registers) ∧
      engineeringValue settings tag registers = .ok reading.value := by
  induction es generalizing l with
  | nil => cases he
  | cons first es ih =>
    obtain ⟨hfirst, hrest⟩ := h
    rcases List.mem_cons.mp he with rfl | he
    · obtain ⟨registers, hl, hvalue⟩ := hfirst reading hhands
      exact ⟨registers, .inl hl, hvalue⟩
    · -- the rest starts from the registers of the first call, if that is a read
      obtain ⟨registers, hl | hreads, hvalue⟩ := ih hrest he
      · refine ⟨registers, (next_cases hl).imp_right fun hreads => ?_, hvalue⟩
        exact hreads.of_subset fun e he => List.mem_cons.mpr (.inl (List.mem_singleton.mp he))
      · exact ⟨registers, .inr (hreads.of_subset fun _ => List.mem_cons_of_mem _), hvalue⟩

end pass

theorem roundDecimals_isPyFloat {x y : PyFloat} {n : ℤ} (h : roundDecimals x n = .ok y) :
    IsPyFloat y := by
  rintro q rfl
  obtain ⟨b, -, hround⟩ := roundDecimals_finite h
  exact isDouble_of_roundDouble hround

theorem engineeringValue_isPyFloat {settings : Settings} {tag : Json} {registers : List ℤ}
    {value : PyFloat} (h : engineeringValue settings tag registers = .ok value) : IsPyFloat value := by
  rw [engineeringValue_eq] at h
  obtain ⟨decoded, -, h⟩ := bind_eq_ok.mp h
  obtain ⟨_, -, h⟩ := bind_eq_ok.mp h
  exact roundDecimals_isPyFloat h

/-- An origin whose pass belongs to a run of `run_device` with these settings. -/
structure PolledWith (settings : Settings) (o : Origin) : Prop where
  polled : Polled o
  measured : Measured settings o

theorem polledWith_of_mem {settings : Settings} {device : Json} {es : List (Event calls)}
    {out : PyExcept Unit} {visits : List Visit} {visit : Visit} {reading : Poller.Reading}
    {e : Event calls} (hrun : Prog.Trace (runDevice settings device) es (some out))
    (hvisits : VisitsOf settings device es visits) (hvisit : visit ∈ visits) (he : e ∈ visit.events)
    (hhands : Hands reading e.op) : PolledWith settings ⟨visit, reading⟩ := by
  refine ⟨polled_of_mem hrun hvisits hvisit he hhands, ?_⟩
  obtain ⟨client, out, htrace⟩ := hvisits.pass hvisit
  have hallows := (htrace.wp (pollTag_wp (l := none) visit.time)).1
  obtain ⟨registers, hnone | hreads, hvalue⟩ := read_of_allows hallows he hhands
  · cases hnone
  · exact ⟨registers, hreads, hvalue⟩

/-- A pass of a run of `run_device` stores a reading under a message id that was never used before. -/
def Polls {depth : ℕ} (settings : Settings) (w w' : Line depth) : Prop :=
  ∃ device es out visits visit messageId now createdAt stamp table, ∃ reading : Poller.Reading,
    Prog.Trace (runDevice settings device) es (some out) ∧ VisitsOf settings device es visits ∧
    visit ∈ visits ∧ (⟨.insertTelemetry reading stamp, .ok ()⟩ : Event calls) ∈ visit.events ∧
    messageId ∉ w.enqueued.map Prod.fst ∧
    w.table.enqueueTelemetry messageId now createdAt reading.deviceId reading.tagId reading.value
      reading.quality (some stamp) = .ok table ∧
    w' = { w with table, enqueued := w.enqueued ++ [(messageId, (⟨visit, reading⟩ : Origin).item)] }

/-- The poller, the table of texts, the flush thread and what the cloud reads. -/
def pipeline (settings : Settings) (depth : ℕ) : Machine flushCalls PyError Unit (Line depth) where
  serves _ := Line.serves
  background _ w w' := Polls settings w w' ∨
    ∃ keepLatest, w' = { w with table := w.table.deleteSentMessages keepLatest }
  entry _ p := p = flushPendingBatch

section pipeline

variable {settings : Settings} {depth : ℕ}

/-- A poll stores a reading as the queue expects them: a finite double and a quality. -/
theorem Polls.enqueues {w w' : Line depth} (h : Polls settings w w') :
    w.Enqueues w' ∧
      ∃ o message, PolledWith settings o ∧ w'.enqueued = w.enqueued ++ [(message, o.item)] := by
  obtain ⟨device, es, out, visits, visit, messageId, now, createdAt, stamp, table, reading, hrun,
    hvisits, hvisit, he, hnew, htable, rfl⟩ := h
  have hpolled := polledWith_of_mem hrun hvisits hvisit he rfl
  obtain ⟨registers, -, hvalue⟩ := hpolled.measured
  have hsound := sound_of_polled hpolled.polled
  have hquality : reading.quality ≠ "" := by
    rcases hsound.known with hgood | hout
    · rw [show reading.quality = "good" from hgood]
      decide
    · rw [show reading.quality = "out_of_range" from hout]
      decide
  exact ⟨⟨messageId, now, createdAt, some stamp, (⟨visit, reading⟩ : Origin).item, table, hnew,
    engineeringValue_isPyFloat hvalue, hsound.finite, hquality, htable, rfl⟩, _, _, hpolled, rfl⟩

theorem pipeline_reach {c : Config flushCalls PyError Unit (Line depth)}
    (hr : (pipeline settings depth).Reach (wireStart depth) c) :
    (wire depth).Reach (wireStart depth) c := by
  refine Machine.reach_mono (M := pipeline settings depth) (N := wire depth) (fun _ _ h => h)
    (fun _ _ _ _ _ h => h) ?_ hr
  rintro _ w w' (hpolls | hdeleted)
  · exact .inl hpolls.enqueues.1
  · exact .inr hdeleted

/-- Nothing but a poll enters the table. -/
theorem origins_of_reach {c : Config flushCalls PyError Unit (Line depth)}
    (hr : (pipeline settings depth).Reach (wireStart depth) c) :
    ∃ origins : List Origin, (∀ o ∈ origins, PolledWith settings o) ∧
      c.world.enqueued.map Prod.snd = origins.map Origin.item := by
  induction hr with
  | refl => exact ⟨[], nofun, rfl⟩
  | tail _ hs ih =>
    obtain ⟨origins, horigins, hitems⟩ := ih
    cases hs with
    | call hrun hserve =>
      exact ⟨origins, horigins, (congrArg _ (Line.enqueued_serves hserve)).trans hitems⟩
    | background hb =>
      rcases hb with hpolls | ⟨keepLatest, rfl⟩
      · obtain ⟨-, o, message, ho, henqueued⟩ := hpolls.enqueues
        refine ⟨origins ++ [o], List.forall_mem_append.mpr ⟨horigins, by simpa using ho⟩, ?_⟩
        show List.map Prod.snd (Line.enqueued _) = _
        rw [henqueued, List.map_append, List.map_append, hitems]
        rfl
      · exact ⟨origins, horigins, hitems⟩
    | _ => exact ⟨origins, horigins, hitems⟩

/-- From the registers to the cloud: what has been stored, in this order, are the engineering values of
registers that the devices answered in the polls of their tags, and of them the cloud has read those of
each pair in the order of the polls, each at most once and without a gap; what is missing at the end is
pending. -/
theorem meter_to_cloud (hdepth : 3 ≤ depth) {c : Config flushCalls PyError Unit (Line depth)}
    (hr : (pipeline settings depth).Reach (wireStart depth) c) :
    ∃ origins : List Origin, (∀ o ∈ origins, PolledWith settings o) ∧
      c.world.enqueued.map Prod.snd = origins.map Origin.item ∧
      (∀ pair, lane Item.pair pair c.world.received <+:
        lane Item.pair pair (origins.map Origin.item)) ∧
      (c.running () = none → ∀ pair,
        lane Item.pair pair (c.world.table.queue.pending.map Row.reading) =
          (lane Item.pair pair (origins.map Origin.item)).drop
            (lane Item.pair pair c.world.received).length) := by
  obtain ⟨origins, horigins, hitems⟩ := origins_of_reach hr
  have hfifo := fifo_of_reach hdepth (pipeline_reach hr)
  rw [hitems] at hfifo
  exact ⟨origins, horigins, hitems, hfifo.1, hfifo.2⟩

end pipeline

/-- The device that holds 60 in every register is polled, and its reading is stored. -/
def pollSixty : Move (pipeline ⟨"", []⟩ 3) :=
  .world (fun w =>
      if "m1" ∈ w.enqueued.map Prod.fst then none
      else
        match w.table.enqueueTelemetry "m1" "" "" 1 7 (.finite 60) "out_of_range" (some "") with
        | .ok table =>
          some { w with table, enqueued := w.enqueued ++ [("m1", ⟨1, 7, .finite 60, "out_of_range"⟩)] }
        | .error _ => none) fun _ w w' h => by
    simp only [Option.ite_none_left_eq_some] at h
    obtain ⟨hnew, h⟩ := h
    have hrun := Prog.trace_events holdingSixty (runDevice ⟨"", []⟩ limitedDevice) ()
    obtain ⟨visits, hvisits⟩ := (runDevice_course hrun).visits
    have hcall : (⟨.insertTelemetry ⟨1, 7, .finite 60, "out_of_range"⟩ "", .ok ()⟩ : Event calls) ∈
        (runDevice ⟨"", []⟩ limitedDevice).events holdingSixty () := by decide +kernel
    obtain ⟨visit, hvisit, hmem⟩ := hvisits.exists_visit hcall trivial
    split at h
    · cases h
      exact .inl ⟨_, _, _, visits, visit, "m1", "", "", "", _, _, hrun, hvisits, hvisit, hmem, hnew, ‹_›,
        rfl⟩
    · cases h

/-- The reading is uploaded. -/
theorem meter_to_cloud_sixty :
    ∃ c, (pipeline ⟨"", []⟩ 3).Reach (wireStart 3) c ∧
      c.world.received = [⟨1, 7, .finite 60, "out_of_range"⟩] ∧
      ∃ origins : List Origin, (∀ o ∈ origins, PolledWith ⟨"", []⟩ o) ∧
        c.world.enqueued.map Prod.snd = origins.map Origin.item ∧
        (∀ pair, lane Item.pair pair c.world.received <+:
          lane Item.pair pair (origins.map Origin.item)) ∧
        (c.running () = none → ∀ pair,
          lane Item.pair pair (c.world.table.queue.pending.map Row.reading) =
            (lane Item.pair pair (origins.map Origin.item)).drop
              (lane Item.pair pair c.world.received).length) := by
  let D : Driver (pipeline ⟨"", []⟩ 3) := ⟨(Line.rejecting 3 []).answer, (Line.rejecting 3 []).sound⟩
  obtain ⟨c, hr, hc⟩ := Move.reach_of_schedule (wireStart 3)
    [pollSixty, .start () flushPendingBatch rfl, .steps D () 4]
    (fun c => c.world.received = [⟨1, 7, .finite 60, "out_of_range"⟩]) (by decide +kernel)
  exact ⟨c, hr, hc, meter_to_cloud (by decide) hr⟩

end SenseGateway.Telemetry

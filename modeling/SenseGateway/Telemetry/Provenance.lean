import SenseGateway.Alarms.Evaluator
import SenseGateway.Buffer.StoreForward
import SenseGateway.History.Historian
import SenseGateway.Poller.Visits

namespace SenseGateway.Telemetry

open Python Effects Poller Buffer

/-- The value lies below the minimum of the tag or above its maximum. -/
def OutOfLimits (tag : Json) (value : PyFloat) : Prop :=
  (∃ minimum, (tag.get "minimum_value" >>= Json.toFloat) = .ok minimum ∧ value.lt minimum = true) ∨
    ∃ maximum, (tag.get "maximum_value" >>= Json.toFloat) = .ok maximum ∧ maximum.lt value = true

/-- A finite value with the quality that the limits of the tag give it. -/
structure Sound (tag : Json) (value : PyFloat) (quality : String) : Prop where
  finite : value.isFinite = true
  label : quality = "out_of_range" ↔ OutOfLimits tag value
  known : quality = "good" ∨ quality = "out_of_range"

/-- A reading and the pass of the tag loop that saved it. -/
structure Origin where
  visit : Visit
  reading : Poller.Reading

/-- The reading as the queue has it. -/
def Origin.item (o : Origin) : Item :=
  ⟨o.reading.deviceId, o.reading.tagId, o.reading.value, o.reading.quality⟩

/-- The call hands the reading to a store. -/
def Hands (reading : Poller.Reading) : Call → Prop
  | .insertTelemetry r _ | .insertHistory r _ | .setLatestReading r => r = reading
  | _ => False

/-- The pass belongs to a run of `run_device`, and it has handed the reading to a store. -/
def Polled (o : Origin) : Prop :=
  ∃ settings device es out visits, Prog.Trace (runDevice settings device) es (some out) ∧
    VisitsOf settings device es visits ∧ o.visit ∈ visits ∧ ∃ e ∈ o.visit.events, Hands o.reading e.op

theorem outside_of_beyondLimit {limit : Json} {outside : PyFloat → Bool} {b : Bool}
    (h : beyondLimit limit outside = .ok b) :
    b = true ↔ ∃ x, limit.toFloat = .ok x ∧ outside x = true := by
  cases limit with
  | null =>
    cases h
    simp [Json.toFloat]
  | _ =>
    obtain ⟨x, hx, h⟩ := bind_eq_ok.mp h
    cases h
    simp [hx]

theorem sound_of_labelled {device tag : Json} {reading : Poller.Reading}
    (h : Labelled device tag reading) : Sound tag reading.value reading.quality := by
  obtain ⟨-, -, hfinite, hquality⟩ := h
  obtain ⟨minimum, hminimum, hquality⟩ := bind_eq_ok.mp hquality
  obtain ⟨maximum, hmaximum, hquality⟩ := bind_eq_ok.mp hquality
  obtain ⟨below, hbelow, hquality⟩ := bind_eq_ok.mp hquality
  obtain ⟨above, habove, hquality⟩ := bind_eq_ok.mp hquality
  have hquality : (if below || above then "out_of_range" else "good") = reading.quality :=
    Except.ok.inj hquality
  have hlimits : (below || above) = true ↔ OutOfLimits tag reading.value := by
    rw [Bool.or_eq_true, outside_of_beyondLimit hbelow, outside_of_beyondLimit habove, OutOfLimits,
      hminimum, hmaximum]
    rfl
  generalize (below || above) = outside at hquality hlimits
  rw [← hquality]
  refine ⟨hfinite, ?_, ?_⟩
  · rw [← hlimits]
    cases outside <;> decide
  · cases outside <;> decide

/-- What a pass hands to a store is finite and labelled by the limits of its tag. -/
theorem sound_of_polled {o : Origin} (h : Polled o) :
    Sound o.visit.tag o.reading.value o.reading.quality := by
  obtain ⟨settings, device, es, out, visits, -, hvisits, hvisit, e, he, hhands⟩ := h
  obtain ⟨client, out, htrace⟩ := hvisits.pass hvisit
  have hcall := (pollTag_makes settings client device o.visit.time o.visit.tag).of_trace htrace e he
  generalize e.op = op at hcall hhands
  rcases hcall with (⟨request, rfl⟩ | ⟨reading, hlabelled, hsaves⟩) | ⟨_, _, -, -, rfl | rfl⟩
  · exact hhands.elim
  · obtain rfl : reading = o.reading := by
      cases op <;> first | exact hhands.elim | exact hsaves.symm.trans hhands
    exact sound_of_labelled hlabelled
  · exact hhands.elim
  · exact hhands.elim

/-- The stores and the bodies posted so far. What only counts is the origin of each message by its
id, of each row of the history, and of each reading of the evaluator. -/
structure World where
  queue : Queue
  origins : String → Option Origin
  history : List (History.Row × Origin)
  evaluator : Alarms.Evaluator
  latestOrigins : DictKey × DictKey → Option Origin
  posted : List (List Valid)

namespace World

def initial : World := ⟨.empty, fun _ => none, [], .initial, fun _ => none, []⟩

/-- What a new process finds: it has forgotten the latest readings. -/
def restarted (w : World) : World :=
  { w with evaluator := .initial, latestOrigins := fun _ => none }

/-- A call of a pass of the tag loop that a store takes. Message ids are never used twice. -/
inductive Stores (visit : Visit) (w : World) : World → Prop
  | queued {reading : Poller.Reading} {stamp messageId now createdAt queue} :
      (⟨.insertTelemetry reading stamp, .ok ()⟩ : Event calls) ∈ visit.events →
      w.origins messageId = none →
      w.queue.enqueueTelemetry messageId now createdAt reading.deviceId reading.tagId reading.value
        reading.quality (some stamp) = .ok queue →
      Stores visit w { w with
        queue, origins := Function.update w.origins messageId (some ⟨visit, reading⟩) }
  | recorded {reading : Poller.Reading} {stamp now row} :
      (⟨.insertHistory reading stamp, .ok ()⟩ : Event calls) ∈ visit.events →
      History.recordReading now reading.deviceId reading.tagId reading.value reading.quality stamp
        (w.history.map Prod.fst) = .ok (w.history.map Prod.fst ++ [row]) →
      Stores visit w { w with history := w.history ++ [(row, ⟨visit, reading⟩)] }
  | told {reading : Poller.Reading} {now} :
      (⟨.setLatestReading reading, ()⟩ : Event calls) ∈ visit.events →
      Stores visit w { w with
        evaluator := Alarms.recordLatestReading reading.deviceId reading.tagId reading.value
          reading.quality now w.evaluator
        latestOrigins := Function.update w.latestOrigins
          (.number (.finite reading.deviceId), .number (.finite reading.tagId))
          (some ⟨visit, reading⟩) }

/-- What happens beside a flush: a pass of a run of `run_device` stores something, old rows are
deleted, or the evaluator goes on. -/
inductive Drifts (w : World) : World → Prop
  | stores {settings device es out visits visit w'} :
      Prog.Trace (runDevice settings device) es (some out) → VisitsOf settings device es visits →
      visit ∈ visits → Stores visit w w' → Drifts w w'
  | deleted (keepLatest : ℤ) :
      Drifts w { w with queue := (w.queue.deleteSentMessages keepLatest).1 }
  | pruned {now history} : history.Sublist w.history →
      history.map Prod.fst = (History.pruneOldHistory now (w.history.map Prod.fst)).2 →
      Drifts w { w with history }
  | ruled (alarmRules : Option (List Json)) :
      Drifts w { w with evaluator := Alarms.setCurrentAlarmRules alarmRules w.evaluator }
  | evaluated (mode : Alarms.Mode) (clock : ℕ → ℤ) :
      Drifts w { w with evaluator := (Alarms.evaluateAllRules mode clock w.evaluator).1 }

/-- How a call of a flush is answered; a request may turn out in any way. -/
def serves (w : World) : (o : FlushCall) → o.Answer → World → Prop
  | .getPendingMessages limit, r, w' =>
    (r = w.queue.getPendingMessages limit ∨ ∃ e, r = .error e) ∧ w' = w
  | .markMessageSent messageId, _, w' =>
    ∃ now, w' = { w with queue := w.queue.markMessageSent messageId now }
  | .markMessageFailed messageId errorMessage, _, w' =>
    ∃ now, w' = { w with queue := w.queue.markMessageFailed messageId errorMessage now }
  | .postTelemetryBatch valid, _, w' => w' = { w with posted := w.posted ++ [valid] }

end World

/-- One flush after the other, with the rest of the gateway between any two steps. -/
def gateway : Machine flushCalls PyError Unit World :=
  ⟨fun _ => World.serves, fun _ => World.Drifts, fun _ p => p = flushPendingBatch⟩

abbrev GatewayConfig := Config flushCalls PyError Unit World

/-- What the gateway comes to, over any number of processes. -/
inductive Reached : GatewayConfig → Prop
  | boot : Reached ⟨.initial, fun _ => none⟩
  | step {c c'} : Reached c → gateway.Step c c' → Reached c'
  | restart {c} : Reached c → Reached ⟨c.world.restarted, fun _ => none⟩

/-- The message is a reading that some pass has queued under its id. -/
def World.Carries (w : World) (message : Valid) : Prop :=
  ∃ o, w.origins message.1 = some o ∧ Polled o ∧ message.2 = o.item

/-- Everything that is stored, or on its way to the cloud, comes from a pass of the tag loop. -/
structure Traced (w : World) (l : Progress) : Prop where
  queue : ∀ row ∈ w.queue.rows, row.Intact ∧ w.Carries row.entry
  history : ∀ p ∈ w.history, Polled p.2 ∧ p.1.value = p.2.reading.value ∧
    p.1.quality = p.2.reading.quality
  latest : ∀ key latest, w.evaluator.latestReadings key = some latest →
    ∃ o, w.latestOrigins key = some o ∧ Polled o ∧ latest.value = o.reading.value ∧
      latest.quality = o.reading.quality
  batch : ∀ message ∈ l.batch, w.Carries message
  posted : ∀ valid ∈ w.posted, ∀ message ∈ valid, w.Carries message

/-- The reading of an origin is one that a store was handed. -/
theorem polled_of_mem {settings : Settings} {device : Json} {es : List (Event calls)}
    {out : PyExcept Unit} {visits : List Visit} {visit : Visit} {reading : Poller.Reading}
    {e : Event calls} (hrun : Prog.Trace (runDevice settings device) es (some out))
    (hvisits : VisitsOf settings device es visits) (hvisit : visit ∈ visits) (he : e ∈ visit.events)
    (hhands : Hands reading e.op) : Polled ⟨visit, reading⟩ :=
  ⟨settings, device, es, out, visits, hrun, hvisits, hvisit, e, he, hhands⟩

namespace Traced

variable {w : World} {l : Progress}

theorem initial : Traced .initial ⟨[], []⟩ :=
  ⟨by simp [World.initial, Queue.empty], by simp [World.initial],
    fun _ _ hlatest => absurd hlatest (Option.some_ne_none _).symm, by simp, by simp [World.initial]⟩

/-- The rows of the table may go, or change what does not concern the reading. -/
theorem requeue (h : Traced w l) {queue : Queue}
    (hrows : ∀ row ∈ queue.rows, ∃ old ∈ w.queue.rows,
      row.entry = old.entry ∧ (old.Intact → row.Intact)) : Traced { w with queue } l := by
  refine ⟨fun row hrow => ?_, h.history, h.latest, h.batch, h.posted⟩
  obtain ⟨old, hold, hentry, hintact⟩ := hrows row hrow
  obtain ⟨hold, hcarries⟩ := h.queue old hold
  exact ⟨hintact hold, hentry ▸ hcarries⟩

theorem deleted (h : Traced w l) (keepLatest : ℤ) :
    Traced { w with queue := (w.queue.deleteSentMessages keepLatest).1 } l :=
  h.requeue fun row hrow => ⟨row, (List.mem_filter.mp hrow).1, rfl, id⟩

theorem markedSent (h : Traced w l) (messageId now : String) :
    Traced { w with queue := w.queue.markMessageSent messageId now } l := by
  refine h.requeue fun row hrow => ?_
  obtain ⟨old, hold, rfl⟩ := List.mem_map.mp hrow
  exact ⟨old, hold, old.entry_markSent _ _, fun hintact => hintact.markSent _ _⟩

theorem markedFailed (h : Traced w l) (messageId errorMessage now : String) :
    Traced { w with queue := w.queue.markMessageFailed messageId errorMessage now } l := by
  refine h.requeue fun row hrow => ?_
  obtain ⟨old, hold, rfl⟩ := List.mem_map.mp hrow
  exact ⟨old, hold, old.entry_markFailed _ _ _, fun hintact => hintact.markFailed _ _ _⟩

theorem pruned (h : Traced w l) {history : List (History.Row × Origin)}
    (hhistory : history.Sublist w.history) : Traced { w with history } l :=
  ⟨h.queue, fun p hp => h.history p (hhistory.subset hp), h.latest, h.batch, h.posted⟩

/-- The evaluator goes on and keeps its readings. -/
theorem evaluating (h : Traced w l) {evaluator : Alarms.Evaluator}
    (hsame : evaluator.latestReadings = w.evaluator.latestReadings) :
    Traced { w with evaluator } l := by
  refine ⟨h.queue, h.history, fun key latest hlatest => ?_, h.batch, h.posted⟩
  rw [hsame] at hlatest
  exact h.latest key latest hlatest

/-- A new process starts with nothing on its way. -/
theorem restarted (h : Traced w l) : Traced w.restarted ⟨[], []⟩ :=
  ⟨h.queue, h.history, fun _ _ hlatest => absurd hlatest (Option.some_ne_none _).symm, by simp, h.posted⟩

/-- A message under a new id takes nothing from the others. -/
theorem carries_update {message : Valid} (h : w.Carries message) {messageId : String}
    (hnew : w.origins messageId = none) (queue : Queue) (o : Option Origin) :
    World.Carries { w with queue, origins := Function.update w.origins messageId o } message := by
  obtain ⟨known, hknown, hrest⟩ := h
  have hne : message.1 ≠ messageId := by
    rintro rfl
    cases hnew.symm.trans hknown
  exact ⟨known, (Function.update_of_ne hne _ _).trans hknown, hrest⟩

theorem stored (h : Traced w l) {settings : Settings} {device : Json} {es : List (Event calls)}
    {out : PyExcept Unit} {visits : List Visit} {visit : Visit} {w' : World}
    (hrun : Prog.Trace (runDevice settings device) es (some out))
    (hvisits : VisitsOf settings device es visits) (hvisit : visit ∈ visits)
    (hstores : w.Stores visit w') : Traced w' l := by
  have hpolled {reading : Poller.Reading} {e : Event calls} (he : e ∈ visit.events)
      (hhands : Hands reading e.op) : Polled ⟨visit, reading⟩ :=
    polled_of_mem hrun hvisits hvisit he hhands
  cases hstores with
  | @queued reading stamp messageId now createdAt queue hcall hnew hqueue =>
    have horigin := hpolled hcall rfl
    have hquality : reading.quality ≠ "" := by
      rcases (sound_of_polled horigin).known with hgood | hout
      · rw [show reading.quality = "good" from hgood]
        decide
      · rw [show reading.quality = "out_of_range" from hout]
        decide
    refine ⟨fun row hrow => ?_, h.history, h.latest, fun message hmessage => ?_,
      fun valid hvalid message hmessage => ?_⟩
    · rw [Queue.rows_of_enqueueTelemetry hqueue] at hrow
      rcases List.mem_append.mp hrow with hrow | hrow
      · exact ⟨(h.queue row hrow).1, carries_update (h.queue row hrow).2 hnew queue _⟩
      · rw [List.mem_singleton.mp hrow]
        exact ⟨⟨hquality, rfl⟩, ⟨visit, reading⟩, Function.update_self _ _ _, horigin, rfl⟩
    · exact carries_update (h.batch message hmessage) hnew queue _
    · exact carries_update (h.posted valid hvalid message hmessage) hnew queue _
  | @recorded reading stamp now row hcall hrow =>
    refine ⟨h.queue, fun p hp => ?_, h.latest, h.batch, h.posted⟩
    rcases List.mem_append.mp hp with hp | hp
    · exact h.history p hp
    · rw [List.mem_singleton.mp hp]
      have hrows := (History.recordReading_eq_ok.mp hrow).2.2
      have hrow : row = _ := List.singleton_inj.mp (List.append_cancel_left hrows)
      rw [hrow]
      exact ⟨hpolled hcall rfl, rfl, rfl⟩
  | @told reading now hcall =>
    refine ⟨h.queue, h.history, fun key latest hlatest => ?_, h.batch, h.posted⟩
    by_cases hkey : key = (.number (.finite reading.deviceId), .number (.finite reading.tagId))
    · subst hkey
      simp only [Alarms.recordLatestReading, Function.update_self] at hlatest
      cases hlatest
      exact ⟨⟨visit, reading⟩, Function.update_self _ _ _, hpolled hcall rfl, rfl, rfl⟩
    · simp only [Alarms.recordLatestReading, Function.update_of_ne hkey] at hlatest
      obtain ⟨o, horigin, hrest⟩ := h.latest key latest hlatest
      exact ⟨o, (Function.update_of_ne hkey _ _).trans horigin, hrest⟩

/-- A batch is made of rows of the table. -/
theorem fetched (h : Traced w l) {limit : ℤ} {r : PyExcept (List Message)}
    (hr : r = w.queue.getPendingMessages limit ∨ ∃ e, r = .error e) :
    Traced w (flushProtocol.next l (.getPendingMessages limit) r) := by
  refine ⟨h.queue, h.history, h.latest, ?_, h.posted⟩
  rcases hr with rfl | ⟨e, rfl⟩
  · have hwindow : ∀ row ∈ w.queue.pending.take (max 1 (min limit 1000)).toNat, row ∈ w.queue.rows :=
      fun row hrow => ((w.queue.mem_pending).mp (List.mem_of_mem_take hrow)).1
    obtain ⟨messages, hmessages, hvalid⟩ :=
      validItems_of_intact fun row hrow => (h.queue row (hwindow row hrow)).1
    have hfetch : w.queue.getPendingMessages limit = .ok messages := hmessages
    rw [hfetch]
    simp only [flushProtocol, Progress.next, hvalid]
    intro message hmessage
    obtain ⟨row, hrow, rfl⟩ := List.mem_map.mp hmessage
    exact (h.queue row (hwindow row hrow)).2
  · simp [flushProtocol, Progress.next]

end Traced

/-- The stores and the thread that flushes the queue, in every run. -/
def tracing : Discipline gateway Progress where
  protocol _ := flushProtocol
  idle _ := Progress.Idle
  inv w ls := Traced w (ls ())
  entry_wp := by
    rintro t p l rfl hl
    exact flushPendingBatch_progress hl
  serves_inv := by
    intro t w o r w' ls h hs ha
    obtain rfl : t = () := rfl
    rw [Function.update_self]
    cases o with
    | getPendingMessages limit =>
      obtain ⟨hr, rfl⟩ := hs
      exact h.fetched hr
    | markMessageSent messageId =>
      obtain ⟨now, rfl⟩ := hs
      exact { h.markedSent messageId now with batch := h.batch }
    | markMessageFailed messageId errorMessage =>
      obtain ⟨now, rfl⟩ := hs
      exact h.markedFailed messageId errorMessage now
    | postTelemetryBatch valid =>
      obtain ⟨-, rfl⟩ := ha
      obtain rfl : w' = _ := hs
      have hposted : ∀ batch ∈ w.posted ++ [(ls ()).batch], ∀ message ∈ batch, w.Carries message := by
        intro batch hbatch
        rcases List.mem_append.mp hbatch with hbatch | hbatch
        · exact h.posted batch hbatch
        · rw [List.mem_singleton.mp hbatch]
          exact h.batch
      refine ⟨h.queue, h.history, h.latest, ?_, hposted⟩
      cases r <;> simp [flushProtocol, Progress.next]
  background_inv := by
    rintro _ w w' ls h hdrift
    cases hdrift with
    | stores hrun hvisits hvisit hstores => exact h.stored hrun hvisits hvisit hstores
    | deleted keepLatest => exact h.deleted keepLatest
    | pruned hsub _ => exact h.pruned hsub
    | ruled alarmRules => exact h.evaluating rfl
    | evaluated mode clock => exact h.evaluating (Alarms.latestReadings_evaluateAllRules mode clock _)

/-- In every configuration that the gateway reaches. -/
theorem Reached.holds {c : GatewayConfig} (h : Reached c) : ∃ ls, tracing.Holds c ls := by
  induction h with
  | boot => exact ⟨fun _ => ⟨[], []⟩, Traced.initial, fun _ => rfl⟩
  | step _ hs ih =>
    obtain ⟨ls, hc⟩ := ih
    exact Discipline.step_holds hs hc
  | restart _ ih =>
    obtain ⟨ls, hc⟩ := ih
    exact ⟨fun _ => ⟨[], []⟩, Traced.restarted hc.1, fun _ => rfl⟩

/-- The value and the quality are those of a reading that a pass of the tag loop has saved, finite and
labelled by the limits of the tag that was polled. -/
structure Stems (o : Origin) (value : PyFloat) (quality : String) : Prop where
  polled : Polled o
  sameValue : value = o.reading.value
  sameQuality : quality = o.reading.quality
  sound : Sound o.visit.tag value quality

/-- What is stored and what is posted are readings as they were saved, and no store rejects one. -/
structure ReadingsSound (w : World) : Prop where
  queue : ∀ row ∈ w.queue.rows, ∃ o, w.origins row.messageId = some o ∧
    Stems o row.value row.quality
  history : ∀ p ∈ w.history, Stems p.2 p.1.value p.1.quality
  latest : ∀ key latest, w.evaluator.latestReadings key = some latest →
    ∃ o, w.latestOrigins key = some o ∧ Stems o latest.value latest.quality
  posted : ∀ valid ∈ w.posted, ∀ message ∈ valid, ∃ o, w.origins message.1 = some o ∧
    Stems o message.2.value message.2.quality
  unchanged : ∀ valid ∈ w.posted, ∀ message ∈ valid, ∀ row ∈ w.queue.rows,
    row.messageId = message.1 → message.2 = row.reading
  notNull : ∀ o, Polled o → ∀ messageId now createdAt stamp,
    w.queue.enqueueTelemetry messageId now createdAt o.reading.deviceId o.reading.tagId o.reading.value
      o.reading.quality stamp ≠
        .error ⟨.integrityError, "NOT NULL constraint failed: telemetry_queue.value"⟩
  historyNotNull : ∀ o, Polled o → ∀ now stamp,
    History.recordReading now o.reading.deviceId o.reading.tagId o.reading.value o.reading.quality stamp
      (w.history.map Prod.fst) ≠
        .error ⟨.integrityError, "NOT NULL constraint failed: telemetry_history.value"⟩

theorem Polled.stems {o : Origin} (h : Polled o) {value : PyFloat} {quality : String}
    (hvalue : value = o.reading.value) (hquality : quality = o.reading.quality) :
    Stems o value quality := by
  subst hvalue hquality
  exact ⟨h, rfl, rfl, sound_of_polled h⟩

theorem enqueueTelemetry_not_null (q : Queue) (messageId now createdAt : String) (deviceId tagId : ℤ)
    {value : PyFloat} (hvalue : value.isFinite = true) (quality : String) (stamp : Option String) :
    q.enqueueTelemetry messageId now createdAt deviceId tagId value quality stamp ≠
      .error ⟨.integrityError, "NOT NULL constraint failed: telemetry_queue.value"⟩ := by
  have hnan : value ≠ .nan := by
    rintro rfl
    cases hvalue
  dsimp only [Queue.enqueueTelemetry]
  rw [if_neg hnan]
  split
  · simp
  · split
    · simp
    · simp

/-- In every configuration that the gateway reaches. -/
theorem readings_sound {c : GatewayConfig} (h : Reached c) : ReadingsSound c.world := by
  obtain ⟨ls, htraced, -⟩ := h.holds
  have htraced : Traced c.world (ls ()) := htraced
  refine ⟨fun row hrow => ?_, fun p hp => ?_, fun key latest hlatest => ?_,
    fun valid hvalid message hmessage => ?_, fun valid hvalid message hmessage row hrow hid => ?_,
    fun o ho messageId now createdAt stamp => ?_, fun o ho now stamp => ?_⟩
  · obtain ⟨-, o, horigin, hpolled, hitem⟩ := htraced.queue row hrow
    exact ⟨o, horigin, hpolled.stems (congrArg Item.value hitem) (congrArg Item.quality hitem)⟩
  · obtain ⟨hpolled, hvalue, hquality⟩ := htraced.history p hp
    exact hpolled.stems hvalue hquality
  · obtain ⟨o, horigin, hpolled, hvalue, hquality⟩ := htraced.latest key latest hlatest
    exact ⟨o, horigin, hpolled.stems hvalue hquality⟩
  · obtain ⟨o, horigin, hpolled, hitem⟩ := htraced.posted valid hvalid message hmessage
    exact ⟨o, horigin, hpolled.stems (congrArg Item.value hitem) (congrArg Item.quality hitem)⟩
  · obtain ⟨o, horigin, -, hitem⟩ := htraced.posted valid hvalid message hmessage
    obtain ⟨-, o', horigin', -, hitem'⟩ := htraced.queue row hrow
    have horigin' : c.world.origins row.messageId = some o' := horigin'
    rw [hid, horigin] at horigin'
    cases horigin'
    exact hitem.trans hitem'.symm
  · exact enqueueTelemetry_not_null _ _ _ _ _ _ (sound_of_polled ho).finite _ _
  · exact History.recordReading_not_null (sound_of_polled ho).finite _ _ _ _ _ _

/-- A tag that reads up to 50. -/
def limitedTag : Json :=
  .obj [("id", .int 7), ("register_address", .int 40), ("data_type", .str "uint16"),
    ("maximum_value", .int 50)]

def limitedDevice : Json :=
  .obj [("id", .int 1), ("communication_type", .str "rtu"),
    ("connection", .obj [("serial_port", .str "COM3")]), ("tags", .arr [limitedTag])]

/-- A device that holds 60 in every register, polled at 100 seconds. -/
def holdingSixty : (o : Call) → Unit → o.Answer × Unit
  | .read _ _, _ => (.ok (.registers [60]), ())
  | .monotonic, _ => (.finite 100, ())
  | o, _ => (friendly o, ())

/-- A reading above the maximum is queued with its label. -/
theorem readings_sound_sample :
    ∃ c, Reached c ∧ (c.world.queue.rows.map fun row => (row.value, row.quality)) =
        [(.finite 60, "out_of_range")] ∧ ReadingsSound c.world := by
  let reading : Poller.Reading := ⟨1, 7, .finite 60, "out_of_range"⟩
  have hrun := Prog.trace_events holdingSixty (runDevice ⟨"", []⟩ limitedDevice) ()
  obtain ⟨visits, hvisits⟩ := (runDevice_course hrun).visits
  have hcall : (⟨.insertTelemetry reading "", .ok ()⟩ : Event calls) ∈
      (runDevice ⟨"", []⟩ limitedDevice).events holdingSixty () := by decide +kernel
  obtain ⟨visit, hvisit, hmem⟩ := hvisits.exists_visit hcall trivial
  have htakes : Queue.empty.Takes "m1" 1 7 (.finite 60) :=
    ⟨by decide, by decide, by simp [Queue.empty]⟩
  obtain ⟨queue, hqueue, -, hrows⟩ :=
    Queue.enqueueTelemetry_ok "" "" "out_of_range" (some "") htakes
  have hreached : Reached ⟨{ World.initial with
      queue, origins := Function.update (fun _ => none) "m1" (some ⟨visit, reading⟩) }, fun _ => none⟩ :=
    .step .boot (.background (.stores hrun hvisits hvisit (.queued hmem rfl hqueue)))
  refine ⟨_, hreached, ?_, readings_sound hreached⟩
  rw [show _ = queue.rows from rfl, hrows]
  rfl

end SenseGateway.Telemetry

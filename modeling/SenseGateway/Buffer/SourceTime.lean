import SenseGateway.Buffer.Outcome
import SenseGateway.Poller.Device

namespace SenseGateway.Buffer

open Python Effects

/-- The queue, the bodies posted so far, and the number of calls flushes have made. -/
structure Gateway where
  queue : Queue
  posted : List (List Item)
  calls : ℕ

namespace Gateway

def initial : Gateway := ⟨.empty, [], 0⟩

/-- How the calls of `save_telemetry` are answered, where the reading is taken at
`sourceTimestamp`. Its locks are free. -/
def saveAnswer (messageId sourceTimestamp createdAt : String) (historian : PyExcept Unit) :
    (o : Poller.Call) → Gateway → o.Answer × Gateway
  | .utcNow, g => (sourceTimestamp, g)
  | .insertTelemetry reading timestamp, g =>
    match g.queue.enqueueTelemetry messageId createdAt createdAt reading.deviceId reading.tagId
        reading.value reading.quality (some timestamp) with
    | .ok queue => (.ok (), { g with queue })
    | .error e => (.error e, g)
  | .insertHistory _ _, g => (historian, g)
  | o, g => (Poller.friendly o, g)

/-- How the calls of a flush are answered. -/
def flushAnswer (outcome : List Item → PyExcept Json) (clock : ℕ → String) :
    (o : FlushCall) → Gateway → o.Answer × Gateway
  | .getPendingMessages limit, g => (g.queue.getPendingMessages limit, { g with calls := g.calls + 1 })
  | .markMessageSent messageId, g =>
    ((), ⟨g.queue.markMessageSent messageId (clock g.calls), g.posted, g.calls + 1⟩)
  | .markMessageFailed messageId errorMessage, g =>
    ((), ⟨g.queue.markMessageFailed messageId errorMessage (clock g.calls), g.posted, g.calls + 1⟩)
  | .postTelemetryBatch valid, g =>
    (outcome (valid.map Prod.snd), ⟨g.queue, g.posted ++ [valid.map Prod.snd], g.calls + 1⟩)

end Gateway

/-- What happens to a queue: a reading is saved, the queue is flushed against a cloud that answers
a body by `outcome`, or sent rows are deleted. -/
inductive Event
  | save (reading : Poller.Reading) (messageId sourceTimestamp createdAt : String)
    (historian : PyExcept Unit)
  | flush (outcome : List Item → PyExcept Json) (clock : ℕ → String)
  | cleanup (keepLatest : ℤ)

namespace Event

def apply (g : Gateway) : Event → Gateway
  | save reading messageId sourceTimestamp createdAt historian =>
    ((Poller.saveTelemetry reading).eval
      (Gateway.saveAnswer messageId sourceTimestamp createdAt historian) g).2
  | flush outcome clock => (flushPendingBatch.eval (Gateway.flushAnswer outcome clock) g).2
  | cleanup keepLatest => { g with queue := (g.queue.deleteSentMessages keepLatest).1 }

/-- The same event, where a reading is taken at another time. -/
def retime (sourceTimestamp : String) : Event → Event
  | save reading messageId _ createdAt historian =>
    save reading messageId sourceTimestamp createdAt historian
  | flush outcome clock => flush outcome clock
  | cleanup keepLatest => cleanup keepLatest

def sourceTimestamp : Event → Option String
  | save _ _ sourceTimestamp _ _ => some sourceTimestamp
  | _ => none

end Event

/-- The bodies posted in a history, in order. -/
def posts (history : List Event) : List (List Item) := (history.foldl Event.apply .initial).posted

/-- The history in which the reading of the `i`-th event is taken at `times i`. -/
def retimed (times : ℕ → String) (history : List Event) : List Event :=
  history.mapIdx fun i event => event.retime (times i)

/-- The payload without its source timestamp. -/
def untimedPayload : Json → Json
  | .obj fields => .obj (fields.map fun field =>
      if field.1 = "source_timestamp" then (field.1, .null) else field)
  | x => x

def Row.untimed (row : Row) : Row :=
  { row with sourceTimestamp := "", payloadJson := row.payloadJson.map untimedPayload }

def Message.untimed (message : Message) : Message :=
  ⟨message.row.untimed, untimedPayload message.payload⟩

theorem lookup_untimed {key : String} (hkey : key ≠ "source_timestamp")
    (fields : List (String × Json)) :
    Json.lookup key (fields.map fun field =>
      if field.1 = "source_timestamp" then (field.1, Json.null) else field) =
      Json.lookup key fields := by
  induction fields with
  | nil => rfl
  | cons field fields ih =>
    by_cases htime : field.1 = "source_timestamp"
    · have hne : field.1 ≠ key := fun h => hkey (h.symm.trans htime)
      simp only [Json.lookup, List.map_cons, if_pos htime, List.find?_cons, hne, decide_false] at ih ⊢
      exact ih
    · simp only [Json.lookup, List.map_cons, if_neg htime, List.find?_cons] at ih ⊢
      by_cases hfield : field.1 = key
      · simp only [hfield, decide_true]
      · simp only [hfield, decide_false]
        exact ih

theorem item_untimed {key : String} (hkey : key ≠ "source_timestamp") (payload : Json) :
    (untimedPayload payload).item key = payload.item key := by
  cases payload with
  | obj fields => simp only [untimedPayload, Json.item, lookup_untimed hkey]
  | _ => rfl

theorem get_untimed {key : String} (hkey : key ≠ "source_timestamp") (payload : Json) :
    (untimedPayload payload).get key = payload.get key := by
  cases payload with
  | obj fields => simp only [untimedPayload, Json.get, Json.getD, Json.find, lookup_untimed hkey]
  | _ => rfl

theorem isDict_untimed (payload : Json) : isDict (untimedPayload payload) = isDict payload := by
  cases payload <;> rfl

/-- No item depends on the source timestamp of its payload. -/
theorem buildItem_untimed (payload : Json) :
    buildItem (untimedPayload payload) = buildItem payload := by
  have hitem {key : String} (hkey : key ≠ "source_timestamp") := item_untimed hkey payload
  rw [buildItem, buildItem, hitem (by decide), hitem (by decide), hitem (by decide),
    get_untimed (by decide)]

theorem collectItems_untimed (messages : List Message) :
    collectItems (messages.map Message.untimed) = collectItems messages := by
  induction messages with
  | nil => rfl
  | cons message messages ih =>
    rw [List.map_cons, collectItems, collectItems, ih]
    simp only [Message.untimed, isDict_untimed, buildItem_untimed]
    rfl

theorem message_untimed (row : Row) : row.untimed.message = row.message.map Message.untimed := by
  have huntimed : row.untimed.payloadJson = row.payloadJson.map untimedPayload := rfl
  unfold Row.message
  rw [huntimed]
  cases row.payloadJson with
  | ok payload => rfl
  | error e =>
    by_cases hdecode : e.kind = .jsonDecodeError
    · simp only [Except.map, if_pos hdecode]
      rfl
    · simp only [Except.map, if_neg hdecode]

theorem messages_untimed (rows : List Row) :
    (rows.map Row.untimed).mapM Row.message =
      (rows.mapM Row.message).map (List.map Message.untimed) := by
  induction rows with
  | nil => rfl
  | cons row rows ih =>
    rw [List.map_cons, List.mapM_cons, List.mapM_cons, message_untimed, ih]
    cases row.message with
    | error e => rfl
    | ok message =>
      cases rows.mapM Row.message with
      | error e => rfl
      | ok messages => rfl

/-- Two states that differ at most in source timestamps. -/
structure SameButTimes (g g' : Gateway) : Prop where
  rows : g'.queue.rows.map Row.untimed = g.queue.rows.map Row.untimed
  sequence : g'.queue.sequence = g.queue.sequence
  posted : g'.posted = g.posted
  calls : g'.calls = g.calls

namespace SameButTimes

variable {g g' : Gateway}

theorem refl (g : Gateway) : SameButTimes g g := ⟨rfl, rfl, rfl, rfl⟩

/-- A filter that does not look at times leaves the same rows. -/
theorem filter (h : SameButTimes g g') (p : Row → Bool) (hp : ∀ row, p row.untimed = p row) :
    (g'.queue.rows.filter p).map Row.untimed = (g.queue.rows.filter p).map Row.untimed := by
  have hfilter (rows : List Row) :
      (rows.filter p).map Row.untimed = (rows.map Row.untimed).filter p := by
    have hcomp : p ∘ Row.untimed = p := funext hp
    rw [List.filter_map, hcomp]
  rw [hfilter, hfilter, h.rows]

theorem map_eq {α : Type} (h : SameButTimes g g') (f : Row → α) (hf : ∀ row, f row.untimed = f row) :
    g'.queue.rows.map f = g.queue.rows.map f := by
  have hcomp : f = f ∘ Row.untimed := (funext hf).symm
  rw [hcomp, ← List.map_map, h.rows, List.map_map]

/-- An update that commutes with forgetting times keeps the rows the same. -/
theorem update (h : SameButTimes g g') (f : Row → Row) (hf : ∀ row, (f row).untimed = f row.untimed) :
    (g'.queue.rows.map f).map Row.untimed = (g.queue.rows.map f).map Row.untimed := by
  have hmap (rows : List Row) : (rows.map f).map Row.untimed = (rows.map Row.untimed).map f := by
    have hcomp : Row.untimed ∘ f = f ∘ Row.untimed := funext hf
    rw [List.map_map, hcomp, List.map_map]
  rw [hmap, hmap, h.rows]

theorem pending (h : SameButTimes g g') :
    g'.queue.pending.map Row.untimed = g.queue.pending.map Row.untimed :=
  h.filter _ fun _ => rfl

theorem markSent_untimed (row : Row) (messageId now : String) :
    (row.markSent messageId now).untimed = row.untimed.markSent messageId now := by
  unfold Row.markSent Row.untimed
  by_cases hid : row.messageId = messageId
  · simp only [if_pos hid]
  · simp only [if_neg hid]

theorem markFailed_untimed (row : Row) (messageId errorMessage now : String) :
    (row.markFailed messageId errorMessage now).untimed =
      row.untimed.markFailed messageId errorMessage now := by
  unfold Row.markFailed Row.untimed
  by_cases hid : row.messageId = messageId
  · simp only [if_pos hid]
  · simp only [if_neg hid]

/-- The calls a flush makes once it has its window. -/
def Settles (o : FlushCall) : Prop := ∀ limit, o ≠ .getPendingMessages limit

theorem marksFailed_settles (o : FlushCall) (ho : MarksFailed o) : Settles o := by
  obtain ⟨messageId, errorMessage, rfl⟩ := ho
  intro limit
  simp

theorem flushAnswer (outcome : List Item → PyExcept Json) (clock : ℕ → String) (o : FlushCall)
    (ho : Settles o) (h : SameButTimes g g') :
    (g'.flushAnswer outcome clock o).1 = (g.flushAnswer outcome clock o).1 ∧
      SameButTimes (g.flushAnswer outcome clock o).2 (g'.flushAnswer outcome clock o).2 := by
  cases o with
  | getPendingMessages limit => exact absurd rfl (ho limit)
  | markMessageSent messageId =>
    refine ⟨rfl, ?_, h.sequence, h.posted, congrArg (· + 1) h.calls⟩
    show (g'.queue.rows.map _).map Row.untimed = (g.queue.rows.map _).map Row.untimed
    rw [h.calls]
    exact h.update _ fun row => markSent_untimed row _ _
  | markMessageFailed messageId errorMessage =>
    refine ⟨rfl, ?_, h.sequence, h.posted, congrArg (· + 1) h.calls⟩
    show (g'.queue.rows.map _).map Row.untimed = (g.queue.rows.map _).map Row.untimed
    rw [h.calls]
    exact h.update _ fun row => markFailed_untimed row _ _ _
  | postTelemetryBatch valid =>
    exact ⟨rfl, h.rows, h.sequence, congrArg (· ++ [valid.map Prod.snd]) h.posted,
      congrArg (· + 1) h.calls⟩

theorem settleBatch_settles (valid : List Valid) (r : PyExcept Json) :
    (settleBatch valid r).wp (.only Settles) (fun _ _ => True) (fun _ _ => True) () := by
  have loop (body : Valid → FlushM Unit)
      (hbody : ∀ message, (body message).wp (.only Settles) (fun _ _ => True) (fun _ _ => True) ()) :
      (Prog.forEach valid body).wp (.only Settles) (fun _ _ => True) (fun _ _ => True) () :=
    Prog.wp_forEach (J := fun _ _ => True) (fun message _ _ _ => hbody message) trivial
  cases r with
  | error e =>
    by_cases hrequest : e.isRequestException = true
    · rw [settleBatch, if_pos hrequest]
      exact loop _ fun message => ⟨by simp [Settles, Protocol.only], fun _ => trivial⟩
    · rw [settleBatch, if_neg hrequest]
      trivial
  | ok body =>
    show ((Prog.ofExcept (rejectedPairs body)).bind fun pairs =>
      Prog.forEach valid (settle pairs)).wp _ _ _ ()
    rw [Prog.wp_bind, Prog.wp_ofExcept]
    refine ⟨fun pairs _ => loop _ fun message => ?_, fun _ _ => trivial⟩
    unfold settle
    split
    · exact ⟨by simp [Settles, Protocol.only], fun _ => trivial⟩
    · exact ⟨by simp [Settles, Protocol.only], fun _ => trivial⟩

theorem afterFetch_untimed (fetched : PyExcept (List Message)) :
    afterFetch (fetched.map (List.map Message.untimed)) = afterFetch fetched := by
  cases fetched with
  | error e => rfl
  | ok messages =>
    show afterFetch (.ok (messages.map Message.untimed)) = _
    by_cases hempty : messages = []
    · rw [hempty]
      rfl
    · have hmap : messages.map Message.untimed ≠ [] := mt List.map_eq_nil_iff.mp hempty
      rw [afterFetch_ok hmap, afterFetch_ok hempty, collectItems_untimed]

theorem afterFetch_settles (fetched : PyExcept (List Message)) :
    (afterFetch fetched).wp (.only Settles) (fun _ _ => True) (fun _ _ => True) () := by
  cases fetched with
  | error e => trivial
  | ok messages =>
    by_cases hempty : messages = []
    · rw [hempty, afterFetch_nil]
      trivial
    · have hcollect := Prog.wp_only_mono marksFailed_settles (collectItems_only messages)
      rw [afterFetch_ok hempty, Prog.wp_bind]
      refine Prog.wp_mono (fun valid _ _ => ?_) (fun _ _ _ => trivial) hcollect
      by_cases hnone : valid = []
      · rw [if_pos hnone]
        trivial
      · rw [if_neg hnone]
        exact ⟨fun limit => by simp, fun r => settleBatch_settles valid r⟩

theorem flush (outcome : List Item → PyExcept Json) (clock : ℕ → String) (h : SameButTimes g g') :
    SameButTimes (Event.apply g (.flush outcome clock)) (Event.apply g' (.flush outcome clock)) := by
  let fetched (g : Gateway) : PyExcept (List Message) := (g.queue.pending.take 500).mapM Row.message
  have hfetched : (fetched g').map (List.map Message.untimed) =
      (fetched g).map (List.map Message.untimed) := by
    rw [← messages_untimed, ← messages_untimed, List.map_take, List.map_take, h.pending]
  -- after the fetch both flushes are one and the same program
  have hprogram : afterFetch (fetched g') = afterFetch (fetched g) := by
    rw [← afterFetch_untimed, hfetched, afterFetch_untimed]
  have hstart : SameButTimes { g with calls := g.calls + 1 } { g' with calls := g'.calls + 1 } :=
    ⟨h.rows, h.sequence, h.posted, congrArg (· + 1) h.calls⟩
  show SameButTimes ((afterFetch (fetched g)).eval _ _).2 ((afterFetch (fetched g')).eval _ _).2
  rw [hprogram]
  exact (Prog.eval_related (afterFetch_settles (fetched g))
    (fun o _ _ ho hs => hs.flushAnswer outcome clock o ho) hstart).2

theorem cleanup (h : SameButTimes g g') (keepLatest : ℤ) :
    SameButTimes (Event.apply g (.cleanup keepLatest)) (Event.apply g' (.cleanup keepLatest)) := by
  -- which sent rows stay is decided by their ids alone
  have hsent : g'.queue.keptSent keepLatest = g.queue.keptSent keepLatest := by
    have hfilter := h.filter (fun row => decide (row.status = .sent)) fun _ => rfl
    have hids := congrArg (List.map Row.id) hfilter
    have huntimed : Row.id ∘ Row.untimed = Row.id := rfl
    rw [List.map_map, List.map_map, huntimed] at hids
    rw [Queue.keptSent, Queue.keptSent, List.map_take, List.map_take, List.map_reverse,
      List.map_reverse, hids]
  refine ⟨?_, h.sequence, h.posted, h.calls⟩
  show (g'.queue.rows.filter _).map Row.untimed = (g.queue.rows.filter _).map Row.untimed
  rw [hsent]
  exact h.filter _ fun _ => rfl

theorem apply_save (g : Gateway) (reading : Poller.Reading)
    (messageId sourceTimestamp createdAt : String) (historian : PyExcept Unit) :
    Event.apply g (.save reading messageId sourceTimestamp createdAt historian) =
      match g.queue.enqueueTelemetry messageId createdAt createdAt reading.deviceId reading.tagId
          reading.value reading.quality (some sourceTimestamp) with
      | .ok queue => { g with queue }
      | .error _ => g := by
  -- a refused insert raises before the historian is asked; a historian that fails is only logged
  cases h : g.queue.enqueueTelemetry messageId createdAt createdAt reading.deviceId reading.tagId
      reading.value reading.quality (some sourceTimestamp) with
  | error e =>
    simp [Event.apply, Poller.saveTelemetry, Poller.withLock, Poller.perform, Prog.perform,
      Prog.ensure, Gateway.saveAnswer, h]
  | ok queue =>
    cases historian <;>
      simp [Event.apply, Poller.saveTelemetry, Poller.withLock, Poller.perform, Prog.perform,
        Prog.ensure, Prog.handle, Gateway.saveAnswer, h]

theorem save (h : SameButTimes g g') (reading : Poller.Reading) (messageId t t' createdAt : String)
    (historian : PyExcept Unit) :
    SameButTimes (Event.apply g (.save reading messageId t createdAt historian))
      (Event.apply g' (.save reading messageId t' createdAt historian)) := by
  rw [apply_save, apply_save]
  have htakes : g'.queue.Takes messageId reading.deviceId reading.tagId reading.value ↔
      g.queue.Takes messageId reading.deviceId reading.tagId reading.value := by
    rw [Queue.Takes, Queue.Takes, h.map_eq Row.messageId fun _ => rfl]
  by_cases htake : g.queue.Takes messageId reading.deviceId reading.tagId reading.value
  · obtain ⟨q, hq, hsequence, hrows⟩ :=
      Queue.enqueueTelemetry_ok createdAt createdAt reading.quality (some t) htake
    obtain ⟨q', hq', hsequence', hrows'⟩ :=
      Queue.enqueueTelemetry_ok createdAt createdAt reading.quality (some t') (htakes.mpr htake)
    rw [hq, hq']
    refine ⟨?_, ?_, h.posted, h.calls⟩
    · show q'.rows.map Row.untimed = q.rows.map Row.untimed
      rw [hrows, hrows', List.map_append, List.map_append, h.rows, h.sequence]
      rfl
    · show q'.sequence = q.sequence
      rw [hsequence, hsequence', h.sequence]
  · obtain ⟨e, he⟩ :=
      Queue.enqueueTelemetry_error createdAt createdAt reading.quality (some t) htake
    obtain ⟨e', he'⟩ :=
      Queue.enqueueTelemetry_error createdAt createdAt reading.quality (some t') (mt htakes.mp htake)
    rw [he, he']
    exact h

/-- One event of a history, where at most the time of the reading is another. -/
theorem event (h : SameButTimes g g') (e : Event) (t : String) :
    SameButTimes (e.apply g) ((e.retime t).apply g') := by
  cases e with
  | save reading messageId t₀ createdAt historian =>
    exact h.save reading messageId t₀ t createdAt historian
  | flush outcome clock => exact h.flush outcome clock
  | cleanup keepLatest => exact h.cleanup keepLatest

theorem history (h : SameButTimes g g') (times : ℕ → String) (events : List Event) :
    SameButTimes (events.foldl Event.apply g) ((retimed times events).foldl Event.apply g') := by
  induction events generalizing g g' times with
  | nil => exact h
  | cons e events ih =>
    rw [retimed, List.mapIdx_cons, List.foldl_cons, List.foldl_cons]
    exact ih (h.event e (times 0)) fun i => times (i + 1)

end SameButTimes

/-- Readings taken at any other times are posted in the very same bodies. -/
theorem posts_retimed (times : ℕ → String) (history : List Event) :
    posts (retimed times history) = posts history :=
  ((SameButTimes.refl .initial).history times history).posted

/-- The source timestamps of the readings of a history. -/
def sourceTimestamps (history : List Event) : List String := history.filterMap Event.sourceTimestamp

/-- A reading taken during an outage, and uploaded later. -/
def outageHistory : List Event :=
  [.save ⟨1, 10, .finite 21, "good"⟩ "m1" "2026-08-07T10:00:00+00:00" "" (.ok ()),
    .flush (fun _ => .error ⟨.requestException, "connection refused"⟩) fun _ => "",
    .flush (fun _ => .ok (.obj [("success", .bool true), ("rejected", .arr [])])) fun _ => ""]

/-- Two histories that differ in when the reading was taken post the same bodies. -/
theorem source_time_lost :
    ¬ ∀ (times : ℕ → String) (history : List Event),
      sourceTimestamps (retimed times history) ≠ sourceTimestamps history →
        posts (retimed times history) ≠ posts history := by
  intro h
  refine h (fun _ => "2026-08-07T09:00:00+00:00") outageHistory ?_ ?_
  · decide
  · decide +kernel

end SenseGateway.Buffer

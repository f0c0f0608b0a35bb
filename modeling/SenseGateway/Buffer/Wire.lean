import SenseGateway.Buffer.StoreForward
import SenseGateway.Effects.Refinement
import SenseGateway.Files.Damage
import SenseGateway.Python.JsonStored

namespace SenseGateway.Buffer

open Python Effects Queues

/-- What `json.loads` raises. The text of a decoding error is read by nothing. -/
def loadsError (flaw : Flaw) : PyError :=
  match (Files.ReadFailure.parsing flaw).escaping with
  | none => ⟨.jsonDecodeError, ""⟩
  | some e => e

/-- What `json.dumps` raises. -/
def dumpsError : Flaw → PyError
  | .depth collection =>
    ⟨.runtimeError, "maximum recursion depth exceeded while encoding a JSON " ++ collection⟩
  | _ => ⟨.valueError, "Exceeds the limit (4300 digits) for integer string conversion; " ++
      "use sys.set_int_max_str_digits() to increase the limit"⟩

/-- `json.loads(item["payload_json"])` -/
def readPayload (depth : ℕ) (text : String) : PyExcept Json := (loads depth text).mapError loadsError

theorem loads_of_readPayload {depth : ℕ} {text : String} {payload : Json}
    (h : readPayload depth text = .ok payload) : loads depth text = .ok payload := by
  unfold readPayload at h
  cases hread : loads depth text with
  | error flaw =>
    rw [hread] at h
    cases h
  | ok value =>
    rw [hread] at h
    cases h
    rfl

/-- One pass of the loop of `get_pending_messages`. -/
def readMessage (depth : ℕ) (row : Row) (payloadJson : String) : PyExcept Message :=
  match readPayload depth payloadJson with
  | .ok payload => .ok ⟨row, payload⟩
  | .error e => if e.kind = .jsonDecodeError then .ok ⟨row, .null⟩ else .error e

theorem readMessage_eq {depth : ℕ} {row : Row} {payloadJson : String}
    (h : row.payloadJson = readPayload depth payloadJson) :
    readMessage depth row payloadJson = row.message := by
  cases hread : readPayload depth payloadJson with
  | ok payload => simp only [readMessage, Row.message, h, hread]
  | error e => simp only [readMessage, Row.message, h, hread]

/-- The table with the texts in its payload column. A row's payload is what its text is read as. -/
structure Table (depth : ℕ) where
  queue : Queue
  text : String → String
  reads : ∀ row ∈ queue.rows, row.payloadJson = readPayload depth (text row.messageId)

namespace Table

variable {depth : ℕ}

def empty : Table depth := ⟨.empty, fun _ => "", by simp [Queue.empty]⟩

/-- The new table of `enqueue_telemetry`, which stores the text that `json.dumps` writes. -/
def enqueueTelemetry (t : Table depth) (messageId now createdAt : String) (deviceId tagId : ℤ)
    (value : PyFloat) (quality : String) (sourceTimestamp : Option String) : PyExcept (Table depth) :=
  let timestamp := timestampOf sourceTimestamp now
  match dumps .compact depth (payloadOf messageId deviceId tagId value quality timestamp) with
  | .error flaw => .error (dumpsError flaw)
  | .ok payloadJson =>
    if ¬ (fitsInteger deviceId ∧ fitsInteger tagId) then
      .error ⟨.overflowError, "Python int too large to convert to SQLite INTEGER"⟩
    else if value = .nan then
      .error ⟨.integrityError, "NOT NULL constraint failed: telemetry_queue.value"⟩
    else if hnew : messageId ∈ t.queue.rows.map Row.messageId then
      .error ⟨.integrityError, "UNIQUE constraint failed: telemetry_queue.message_id"⟩
    else
      let row : Row := ⟨t.queue.sequence + 1, messageId, deviceId, tagId, value, quality, timestamp,
        readPayload depth payloadJson, .pending, 0, none, createdAt, none, none⟩
      .ok
        { queue := t.queue.insert row rfl hnew
          text := Function.update t.text messageId payloadJson
          reads := by
            intro r hr
            rcases List.mem_append.mp hr with hold | hlast
            · have hne : r.messageId ≠ messageId := by
                rintro rfl
                exact hnew (List.mem_map_of_mem hold)
              rw [Function.update_of_ne hne]
              exact t.reads r hold
            · obtain rfl := List.mem_singleton.mp hlast
              rw [Function.update_self] }

def getPendingMessages (t : Table depth) (limit : ℤ) : PyExcept (List Message) :=
  (t.queue.pending.take (max 1 (min limit 1000)).toNat).mapM fun row =>
    readMessage depth row (t.text row.messageId)

def markMessageSent (t : Table depth) (messageId now : String) : Table depth where
  queue := t.queue.markMessageSent messageId now
  text := t.text
  reads := by
    intro row hrow
    obtain ⟨old, hold, rfl⟩ := List.mem_map.mp hrow
    rw [Row.markSent_messageId, ← t.reads old hold]
    unfold Row.markSent
    split <;> rfl

def markMessageFailed (t : Table depth) (messageId errorMessage now : String) : Table depth where
  queue := t.queue.markMessageFailed messageId errorMessage now
  text := t.text
  reads := by
    intro row hrow
    obtain ⟨old, hold, rfl⟩ := List.mem_map.mp hrow
    rw [Row.markFailed_messageId, ← t.reads old hold]
    unfold Row.markFailed
    split <;> rfl

def deleteSentMessages (t : Table depth) (keepLatest : ℤ) : Table depth where
  queue := (t.queue.deleteSentMessages keepLatest).1
  text := t.text
  reads row hrow := t.reads row (List.mem_filter.mp hrow).1

theorem mapM_readMessage (t : Table depth) {rows : List Row} (h : ∀ row ∈ rows, row ∈ t.queue.rows) :
    (rows.mapM fun row => readMessage depth row (t.text row.messageId)) = rows.mapM Row.message := by
  induction rows with
  | nil => rfl
  | cons row rows ih =>
    obtain ⟨hrow, hrest⟩ := List.forall_mem_cons.mp h
    rw [List.mapM_cons, List.mapM_cons, readMessage_eq (t.reads row hrow), ih hrest]

theorem getPendingMessages_eq (t : Table depth) (limit : ℤ) :
    t.getPendingMessages limit = t.queue.getPendingMessages limit :=
  t.mapM_readMessage fun _ hrow => ((t.queue.mem_pending).mp (List.mem_of_mem_take hrow)).1

end Table

theorem Queue.fits_of_enqueueTelemetry {q q' : Queue} {messageId now createdAt quality : String}
    {deviceId tagId : ℤ} {value : PyFloat} {sourceTimestamp : Option String}
    (h : q.enqueueTelemetry messageId now createdAt deviceId tagId value quality sourceTimestamp =
      .ok q') : fitsInteger deviceId = true ∧ fitsInteger tagId = true := by
  by_contra hfits
  have htakes : ¬ q.Takes messageId deviceId tagId value := fun htakes => hfits htakes.1
  obtain ⟨e, he⟩ := Queue.enqueueTelemetry_error now createdAt quality sourceTimestamp htakes
  cases h.symm.trans he

theorem fits_int (depth : ℕ) {n : ℤ} (h : fitsInteger n = true) : (Json.int n).Fits depth := by
  refine .int depth ?_
  have hn : n.natAbs < 10 ^ 19 := by
    have hbounds := of_decide_eq_true h
    omega
  exact ((Nat.length_toDigits_le_iff (by decide) (by decide)).mpr hn).trans (by decide)

section payload

variable {deviceId tagId : ℤ} {value : PyFloat}

theorem fits_payloadOf {depth : ℕ} (hdepth : 1 ≤ depth) (messageId quality timestamp : String)
    (hdevice : fitsInteger deviceId = true) (htag : fitsInteger tagId = true)
    (hvalue : IsPyFloat value) :
    (payloadOf messageId deviceId tagId value quality timestamp).Fits depth := by
  obtain ⟨depth, rfl⟩ := Nat.exists_eq_add_of_le' hdepth
  refine .obj (by simp) ?_
  simp only [List.forall_mem_cons]
  exact ⟨.str _ _, fits_int _ hdevice, fits_int _ htag, .float _ hvalue, .str _ _, .str _ _, nofun⟩

/-- What is stored as text is what the queue holds as a value. -/
theorem Table.enqueueTelemetry_queue {depth : ℕ} (hdepth : 1 ≤ depth) {t t' : Table depth}
    {messageId now createdAt quality : String} {sourceTimestamp : Option String}
    (hvalue : IsPyFloat value)
    (h : t.enqueueTelemetry messageId now createdAt deviceId tagId value quality sourceTimestamp =
      .ok t') :
    t.queue.enqueueTelemetry messageId now createdAt deviceId tagId value quality sourceTimestamp =
      .ok t'.queue := by
  unfold Table.enqueueTelemetry at h
  dsimp only at h
  split at h
  · cases h
  rename_i text htext
  split at h
  · cases h
  rename_i hfits
  split at h
  · cases h
  rename_i hnan
  split at h
  · cases h
  rename_i hnew
  cases h
  have hread : readPayload depth text = .ok (payloadOf messageId deviceId tagId value quality
      (timestampOf sourceTimestamp now)) := by
    have hbounds := not_not.mp hfits
    have hwell := (fits_payloadOf hdepth messageId quality (timestampOf sourceTimestamp now) hbounds.1
      hbounds.2 hvalue).wellFormed
    rw [readPayload, loads_dumps le_rfl hwell htext]
    rfl
  simp only [Queue.enqueueTelemetry, if_neg hfits, if_neg hnan, dif_neg hnew, Row.queued, hread]

end payload

/-- An entry of `items`. -/
def Item.json (item : Item) : Json :=
  .obj [("device_id", .int item.deviceId), ("tag_id", .int item.tagId), ("value", .float item.value),
    ("quality", .str item.quality)]

/-- The `json` of `post_telemetry_batch`. -/
def requestOf (items : List Item) : Json := .obj [("items", .arr (items.map Item.json))]

/-- An entry, as whoever reads the request finds it. -/
def Item.ofJson : Json → Option Item
  | .obj fields =>
    match Json.lookup "device_id" fields, Json.lookup "tag_id" fields, Json.lookup "value" fields,
      Json.lookup "quality" fields with
    | some (.int deviceId), some (.int tagId), some (.float value), some (.str quality) =>
      some ⟨deviceId, tagId, value, quality⟩
    | _, _, _, _ => none
  | _ => none

def itemsOf : Json → Option (List Item)
  | .obj fields =>
    match Json.lookup "items" fields with
    | some (.arr entries) => entries.mapM Item.ofJson
    | _ => none
  | _ => none

/-- The items of a request, from the text of its body. -/
def readRequest (depth : ℕ) (body : String) : Option (List Item) :=
  match loads depth body with
  | .ok request => itemsOf request
  | .error _ => none

theorem itemsOf_requestOf (items : List Item) : itemsOf (requestOf items) = some items := by
  show (items.map Item.json).mapM Item.ofJson = some items
  induction items with
  | nil => rfl
  | cons item items ih =>
    rw [List.map_cons, List.mapM_cons, ih]
    rfl

/-- A reading that a row of the table can hold. -/
structure Item.Storable (item : Item) : Prop where
  device : fitsInteger item.deviceId = true
  tag : fitsInteger item.tagId = true
  value : IsPyFloat item.value

theorem fits_requestOf {depth : ℕ} (hdepth : 3 ≤ depth) {items : List Item}
    (h : ∀ item ∈ items, item.Storable) : (requestOf items).Fits depth := by
  obtain ⟨depth, rfl⟩ := Nat.exists_eq_add_of_le' hdepth
  have hentries : ∀ entry ∈ items.map Item.json, entry.Fits (depth + 1) := by
    intro entry hentry
    obtain ⟨item, hitem, rfl⟩ := List.mem_map.mp hentry
    obtain ⟨hdevice, htag, hvalue⟩ := h item hitem
    refine .obj (by simp) ?_
    simp only [List.forall_mem_cons]
    exact ⟨fits_int _ hdevice, fits_int _ htag, .float _ hvalue, .str _ _, nofun⟩
  exact .obj (by simp) (List.forall_mem_singleton.mpr (.arr hentries))

/-- The text of a request gives back its items. -/
theorem exists_request {depth : ℕ} (hdepth : 3 ≤ depth) {items : List Item}
    (h : ∀ item ∈ items, item.Storable) :
    ∃ body, dumps .default depth (requestOf items) = .ok body ∧ readRequest depth body = some items := by
  obtain ⟨body, hbody, hread⟩ := exists_dumps_of_fits .default (fits_requestOf hdepth h)
  exact ⟨body, hbody, by rw [readRequest, hread]; exact itemsOf_requestOf items⟩

/-- The table, and what only counts: the messages stored so far, and the items the cloud has accepted,
as it read them. -/
structure Line (depth : ℕ) where
  table : Table depth
  enqueued : List Valid
  received : List Item

namespace Line

variable {depth : ℕ}

def initial : Line depth := ⟨.empty, [], []⟩

/-- How a request is answered. Its body is text, and the cloud has nothing but this text. -/
def Posts (w : Line depth) (items : List Item) (r : PyExcept Json) (w' : Line depth) : Prop :=
  match dumps .default depth (requestOf items) with
  -- a body without a text is never sent
  | .error flaw => r = .error (dumpsError flaw) ∧ w' = w
  | .ok request =>
    match r with
    | .error e => e.isRequestException = true ∧ w' = w
    | .ok body => ∃ pairs read, Rejects body pairs ∧ readRequest depth request = some read ∧
      w' = { w with received := w.received ++ read.filter fun item => item.pair ∉ pairs }

def serves (w : Line depth) : (o : FlushCall) → o.Answer → Line depth → Prop
  | .getPendingMessages limit, r, w' => r = w.table.getPendingMessages limit ∧ w' = w
  | .markMessageSent messageId, _, w' =>
    ∃ now, w' = { w with table := w.table.markMessageSent messageId now }
  | .markMessageFailed messageId errorMessage, _, w' =>
    ∃ now, w' = { w with table := w.table.markMessageFailed messageId errorMessage now }
  | .postTelemetryBatch valid, r, w' => w.Posts (valid.map Prod.snd) r w'

/-- A reading is stored under a message id that was never used before. -/
def Enqueues (w w' : Line depth) : Prop :=
  ∃ messageId now createdAt sourceTimestamp, ∃ reading : Item, ∃ table,
    messageId ∉ w.enqueued.map Prod.fst ∧ IsPyFloat reading.value ∧ reading.value.isFinite = true ∧
    reading.quality ≠ "" ∧
    w.table.enqueueTelemetry messageId now createdAt reading.deviceId reading.tagId reading.value
      reading.quality sourceTimestamp = .ok table ∧
    w' = { w with table, enqueued := w.enqueued ++ [(messageId, reading)] }

/-- A flush stores no reading. -/
theorem enqueued_serves {w w' : Line depth} {o : FlushCall} {r : o.Answer} (hs : w.serves o r w') :
    w'.enqueued = w.enqueued := by
  cases o with
  | getPendingMessages limit => rw [hs.2]
  | markMessageSent messageId =>
    obtain ⟨now, rfl⟩ := hs
    rfl
  | markMessageFailed messageId errorMessage =>
    obtain ⟨now, rfl⟩ := hs
    rfl
  | postTelemetryBatch valid =>
    change w.Posts (valid.map Prod.snd) r w' at hs
    unfold Posts at hs
    split at hs
    · rw [hs.2]
    · cases r with
      | error e => rw [hs.2]
      | ok body =>
        obtain ⟨pairs, read, -, -, rfl⟩ := hs
        rfl

def Drifts (w w' : Line depth) : Prop :=
  w.Enqueues w' ∨ ∃ keepLatest, w' = { w with table := w.table.deleteSentMessages keepLatest }

/-- What `queue` and `accepted` of the queue of values stand for. -/
structure Shows (w : Line depth) (v : World) : Prop where
  queue : w.table.queue = v.queue
  enqueued : w.enqueued = v.enqueued
  received : w.received = v.accepted.map Prod.snd
  storable : ∀ row ∈ v.queue.rows, row.reading.Storable

namespace Shows

variable {w w' : Line depth} {v : World}

theorem initial : (Line.initial : Line depth).Shows .initial :=
  ⟨rfl, rfl, rfl, by simp [World.initial, Queue.empty]⟩

theorem stored (hdepth : 3 ≤ depth) (h : w.Shows v) (hw : w.Enqueues w') :
    ∃ v', v.Enqueues v' ∧ w'.Shows v' := by
  obtain ⟨messageId, now, createdAt, sourceTimestamp, reading, table, hnew, hvalue, hfinite, hquality,
    htable, rfl⟩ := hw
  have hqueue := Table.enqueueTelemetry_queue (by omega) hvalue htable
  rw [h.queue] at hqueue
  refine ⟨{ v with queue := table.queue, enqueued := v.enqueued ++ [(messageId, reading)] },
    ⟨messageId, now, createdAt, sourceTimestamp, reading, table.queue, h.enqueued ▸ hnew, hfinite,
      hquality, hqueue, rfl⟩, rfl, ?_, h.received, ?_⟩
  · show w.enqueued ++ _ = _
    rw [h.enqueued]
  · intro row hrow
    rw [Queue.rows_of_enqueueTelemetry hqueue] at hrow
    rcases List.mem_append.mp hrow with hold | hlast
    · exact h.storable row hold
    · -- SQLite refuses ids of more than 64 bits, so the new row has none
      obtain rfl := List.mem_singleton.mp hlast
      have hfits := Queue.fits_of_enqueueTelemetry hqueue
      exact ⟨hfits.1, hfits.2, hvalue⟩

theorem storable_of_prefix (h : w.Shows v) {valid : List Valid}
    (hvalid : valid <+: v.queue.pending.map Row.entry) :
    ∀ item ∈ valid.map Prod.snd, item.Storable := by
  intro item hitem
  obtain ⟨message, hmessage, rfl⟩ := List.mem_map.mp hitem
  obtain ⟨row, hrow, rfl⟩ := List.mem_map.mp (hvalid.subset hmessage)
  exact h.storable row ((v.queue.mem_pending).mp hrow).1

/-- A flush posts readings of rows, so its request has a text, and the cloud reads from it what the
rows were stored for. -/
theorem posts (hdepth : 3 ≤ depth) (h : w.Shows v) {valid : List Valid} {r : PyExcept Json}
    (hvalid : valid <+: v.queue.pending.map Row.entry) (hs : w.Posts (valid.map Prod.snd) r w') :
    ∃ v', v.serves (.postTelemetryBatch valid) r v' ∧ w'.Shows v' := by
  obtain ⟨request, hrequest, hread⟩ := exists_request hdepth (h.storable_of_prefix hvalid)
  simp only [Posts, hrequest] at hs
  cases r with
  | error e =>
    obtain ⟨he, rfl⟩ := hs
    exact ⟨v, ⟨he, rfl⟩, h⟩
  | ok body =>
    obtain ⟨pairs, read, hbody, hread', rfl⟩ := hs
    -- the cloud can only have read the items that were sent
    obtain rfl := Option.some.inj (hread.symm.trans hread')
    refine ⟨_, ⟨pairs, hbody, rfl⟩, h.queue, h.enqueued, ?_, h.storable⟩
    show w.received ++ _ = (v.accepted ++ _).map Prod.snd
    rw [h.received, List.map_append, List.filter_map]
    rfl

end Shows

end Line

/-- Store-and-forward over the texts in the table and in the requests. -/
def wire (depth : ℕ) : Machine flushCalls PyError Unit (Line depth) :=
  ⟨fun _ => Line.serves, fun _ => Line.Drifts, fun _ p => p = flushPendingBatch⟩

def wireStart (depth : ℕ) : Config flushCalls PyError Unit (Line depth) := ⟨.initial, fun _ => none⟩

theorem Row.reading_markSent (row : Row) (messageId now : String) :
    (row.markSent messageId now).reading = row.reading :=
  congrArg Prod.snd (row.entry_markSent messageId now)

theorem Row.reading_markFailed (row : Row) (messageId errorMessage now : String) :
    (row.markFailed messageId errorMessage now).reading = row.reading :=
  congrArg Prod.snd (row.entry_markFailed messageId errorMessage now)

namespace Line.Shows

variable {depth : ℕ} {w w' : Line depth} {v : World}

theorem deleted (h : w.Shows v) (keepLatest : ℤ) :
    Line.Shows { w with table := w.table.deleteSentMessages keepLatest }
      { v with queue := (v.queue.deleteSentMessages keepLatest).1 } where
  queue := congrArg (fun q => (Queue.deleteSentMessages q keepLatest).1) h.queue
  enqueued := h.enqueued
  received := h.received
  storable row hrow := h.storable row (List.mem_filter.mp hrow).1

theorem markedSent (h : w.Shows v) (messageId now : String) :
    Line.Shows { w with table := w.table.markMessageSent messageId now }
      { v with queue := v.queue.markMessageSent messageId now } where
  queue := congrArg (fun q => Queue.markMessageSent q messageId now) h.queue
  enqueued := h.enqueued
  received := h.received
  storable := by
    intro row hrow
    obtain ⟨old, hold, rfl⟩ := List.mem_map.mp hrow
    rw [Row.reading_markSent]
    exact h.storable old hold

theorem markedFailed (h : w.Shows v) (messageId errorMessage now : String) :
    Line.Shows { w with table := w.table.markMessageFailed messageId errorMessage now }
      { v with queue := v.queue.markMessageFailed messageId errorMessage now } where
  queue := congrArg (fun q => Queue.markMessageFailed q messageId errorMessage now) h.queue
  enqueued := h.enqueued
  received := h.received
  storable := by
    intro row hrow
    obtain ⟨old, hold, rfl⟩ := List.mem_map.mp hrow
    rw [Row.reading_markFailed]
    exact h.storable old hold

end Line.Shows

/-- The queue over texts does what the queue of values does. -/
def wiring {depth : ℕ} (hdepth : 3 ≤ depth) : Refines (wire depth) keeping where
  rel := Line.Shows
  entry _ _ h := h
  serves := by
    intro t w v o r w' ls h hkept ha hs
    cases o with
    | getPendingMessages limit =>
      obtain ⟨hr, rfl⟩ := hs
      rw [Table.getPendingMessages_eq, h.queue] at hr
      exact ⟨v, ⟨hr, rfl⟩, h⟩
    | markMessageSent messageId =>
      obtain ⟨now, rfl⟩ := hs
      exact ⟨_, ⟨now, rfl⟩, h.markedSent messageId now⟩
    | markMessageFailed messageId errorMessage =>
      obtain ⟨now, rfl⟩ := hs
      exact ⟨_, ⟨now, rfl⟩, h.markedFailed messageId errorMessage now⟩
    | postTelemetryBatch valid =>
      obtain ⟨-, rfl⟩ := ha
      exact h.posts hdepth hkept.batch hs
  background := by
    rintro _ w v w' ls h - (hw | ⟨keepLatest, rfl⟩)
    · obtain ⟨v', hv', h'⟩ := h.stored hdepth hw
      exact ⟨v', .inl hv', h'⟩
    · exact ⟨_, .inr ⟨keepLatest, rfl⟩, h.deleted keepLatest⟩

/-- An environment that is computed: the cloud reads every request and rejects `pairs`. -/
def Line.answer {depth : ℕ} (pairs : List (ℤ × ℤ)) (w : Line depth) :
    (o : FlushCall) → Option (o.Answer × Line depth)
  | .getPendingMessages limit => some (w.table.getPendingMessages limit, w)
  | .markMessageSent messageId => some ((), { w with table := w.table.markMessageSent messageId "" })
  | .markMessageFailed messageId errorMessage =>
    some ((), { w with table := w.table.markMessageFailed messageId errorMessage "" })
  | .postTelemetryBatch valid =>
    match dumps .default depth (requestOf (valid.map Prod.snd)) with
    | .error flaw => some (.error (dumpsError flaw), w)
    | .ok request =>
      (readRequest depth request).map fun read => (.ok (rejectionBody pairs),
        { w with received := w.received ++ read.filter fun item => item.pair ∉ pairs })

def Line.rejecting (depth : ℕ) (pairs : List (ℤ × ℤ)) : Driver (wire depth) where
  answer _ w o := w.answer pairs o
  sound _ w o r w' h := by
    cases o with
    | getPendingMessages limit =>
      cases h
      exact ⟨rfl, rfl⟩
    | markMessageSent messageId =>
      cases h
      exact ⟨"", rfl⟩
    | markMessageFailed messageId errorMessage =>
      cases h
      exact ⟨"", rfl⟩
    | postTelemetryBatch valid =>
      show w.Posts (valid.map Prod.snd) r w'
      unfold Line.Posts
      simp only [Line.answer] at h
      split at h
      · cases h
        exact ⟨rfl, rfl⟩
      · obtain ⟨read, hread, h⟩ := Option.map_eq_some_iff.mp h
        cases h
        exact ⟨pairs, read, rejects_rejectionBody pairs, hread, rfl⟩

/-- A reading is stored under the given message id. -/
def Line.storing (depth : ℕ) (messageId : String) (deviceId tagId : ℤ) {q : ℚ} (hq : IsDouble q) :
    Move (wire depth) :=
  .world (fun w =>
      if messageId ∈ w.enqueued.map Prod.fst then none
      else
        match w.table.enqueueTelemetry messageId "" "" deviceId tagId (.finite q) "good" none with
        | .ok table =>
          some { w with
            table
            enqueued := w.enqueued ++ [(messageId, ⟨deviceId, tagId, .finite q, "good"⟩)] }
        | .error _ => none) fun _ w w' h => by
    simp only [Option.ite_none_left_eq_some] at h
    obtain ⟨hnew, h⟩ := h
    split at h
    · cases h
      refine .inl ⟨messageId, "", "", none, ⟨deviceId, tagId, .finite q, "good"⟩, _, hnew, ?_, rfl,
        by simp, ‹_›, rfl⟩
      rintro _ ⟨⟩
      exact hq
    · cases h

theorem lane_snd (pair : ℤ × ℤ) (messages : List Valid) :
    lane Item.pair pair (messages.map Prod.snd) = (lane pairOf pair messages).map Prod.snd :=
  List.filter_map

theorem map_reading (rows : List Row) : rows.map Row.reading = (rows.map Row.entry).map Prod.snd := by
  rw [List.map_map]
  rfl

section reach

variable {depth : ℕ} {c : Config flushCalls PyError Unit (Line depth)}

/-- In every run over texts the queue of values does the same. -/
theorem shows_of_reach (hdepth : 3 ≤ depth) (hr : (wire depth).Reach (wireStart depth) c) :
    ∃ v ls, c.world.Shows v ∧ buffer.Reach bufferStart ⟨v, c.running⟩ ∧
      keeping.Holds ⟨v, c.running⟩ ls := by
  have hstart : keeping.Holds bufferStart fun _ => ⟨[], []⟩ := ⟨Kept.initial, fun _ => rfl⟩
  exact (wiring hdepth).reach hr Line.Shows.initial hstart

/-- In every lane the cloud has read the first of the stored readings, and the rest is pending. -/
theorem fifo_of_reach (hdepth : 3 ≤ depth) (hr : (wire depth).Reach (wireStart depth) c) :
    (∀ pair, lane Item.pair pair c.world.received <+:
        lane Item.pair pair (c.world.enqueued.map Prod.snd)) ∧
      (c.running () = none → ∀ pair,
        lane Item.pair pair (c.world.table.queue.pending.map Row.reading) =
          (lane Item.pair pair (c.world.enqueued.map Prod.snd)).drop
            (lane Item.pair pair c.world.received).length) := by
  obtain ⟨v, ls, hshows, -, hholds⟩ := shows_of_reach hdepth hr
  have hkept : Kept v (ls ()) := hholds.1
  rw [hshows.received, hshows.enqueued, hshows.queue, map_reading]
  refine ⟨fun pair => ?_, fun hidle pair => ?_⟩
  · rw [lane_snd, lane_snd]
    exact (hkept.order.isPrefix pair).map Prod.snd
  · have hmarks : (ls ()).marks = [] := hholds.idle_of_none hidle
    have horder := hkept.order
    rw [hmarks, World.unsettled_nil] at horder
    rw [lane_snd, lane_snd, lane_snd, List.length_map, ← List.map_drop, horder.drop pair]

/-- Store-and-forward from the readings to the cloud, over the texts that are stored and sent: in
every lane the cloud has read the first of the stored readings, the rest is pending, and every
request is one that it can read. -/
theorem end_to_end_fifo (hdepth : 3 ≤ depth) (hr : (wire depth).Reach (wireStart depth) c) :
    (∀ pair, lane Item.pair pair c.world.received <+:
        lane Item.pair pair (c.world.enqueued.map Prod.snd)) ∧
      (c.running () = none → ∀ pair,
        lane Item.pair pair (c.world.table.queue.pending.map Row.reading) =
          (lane Item.pair pair (c.world.enqueued.map Prod.snd)).drop
            (lane Item.pair pair c.world.received).length) ∧
      (∀ valid k, c.running () = some (.call (.postTelemetryBatch valid) k) →
        valid.map Prod.snd <+: c.world.table.queue.pending.map Row.reading ∧
          ∃ body, dumps .default depth (requestOf (valid.map Prod.snd)) = .ok body ∧
            readRequest depth body = some (valid.map Prod.snd)) ∧
      ∀ row ∈ c.world.table.queue.rows, loads depth (c.world.table.text row.messageId) =
        .ok (payloadOf row.messageId row.deviceId row.tagId row.value row.quality
          row.sourceTimestamp) := by
  obtain ⟨v, ls, hshows, -, hholds⟩ := shows_of_reach hdepth hr
  have hkept : Kept v (ls ()) := hholds.1
  refine ⟨(fifo_of_reach hdepth hr).1, (fifo_of_reach hdepth hr).2, fun valid k hrun => ?_,
    fun row hrow => ?_⟩
  · obtain ⟨-, rfl⟩ := hholds.allowed hrun
    rw [hshows.queue, map_reading]
    exact ⟨hkept.batch.map Prod.snd,
      exists_request hdepth (hshows.storable_of_prefix hkept.batch)⟩
  · have hread := c.world.table.reads row hrow
    rw [(hkept.intact row (hshows.queue ▸ hrow)).2] at hread
    exact loads_of_readPayload hread.symm

end reach

/-- The double that is written as 0.1. -/
theorem isDouble_tenth : IsDouble (3602879701896397 / 36028797018963968) := by decide +kernel

/-- One reading is rejected, and a third is stored while the request is under way. -/
theorem end_to_end_fifo_partial :
    ∃ c, (wire 3).Reach (wireStart 3) c ∧
      (c.world.received.map Item.value = [.finite (43 / 2)] ∧
        c.world.table.queue.pending.map Row.messageId = ["m2", "m3"] ∧
        c.world.table.text "m3" = "\x7b\"message_id\":\"m3\",\"device_id\":1,\"tag_id\":10," ++
          "\"value\":0.1,\"quality\":\"good\",\"source_timestamp\":\"\"\x7d") ∧
      (∀ pair, lane Item.pair pair c.world.received <+:
        lane Item.pair pair (c.world.enqueued.map Prod.snd)) ∧
      (c.running () = none → ∀ pair,
        lane Item.pair pair (c.world.table.queue.pending.map Row.reading) =
          (lane Item.pair pair (c.world.enqueued.map Prod.snd)).drop
            (lane Item.pair pair c.world.received).length) ∧
      (∀ valid k, c.running () = some (.call (.postTelemetryBatch valid) k) →
        valid.map Prod.snd <+: c.world.table.queue.pending.map Row.reading ∧
          ∃ body, dumps .default 3 (requestOf (valid.map Prod.snd)) = .ok body ∧
            readRequest 3 body = some (valid.map Prod.snd)) ∧
      ∀ row ∈ c.world.table.queue.rows, loads 3 (c.world.table.text row.messageId) =
        .ok (payloadOf row.messageId row.deviceId row.tagId row.value row.quality
          row.sourceTimestamp) := by
  obtain ⟨c, hr, hc⟩ := Move.reach_of_schedule (wireStart 3)
    [Line.storing 3 "m1" 1 10 (by decide +kernel : IsDouble (43 / 2)),
      Line.storing 3 "m2" 99 999 (by decide +kernel : IsDouble 1),
      .start () flushPendingBatch rfl, .steps (Line.rejecting 3 [(99, 999)]) () 1,
      Line.storing 3 "m3" 1 10 isDouble_tenth, .steps (Line.rejecting 3 [(99, 999)]) () 4]
    (fun c => c.world.received.map Item.value = [.finite (43 / 2)] ∧
      c.world.table.queue.pending.map Row.messageId = ["m2", "m3"] ∧
      c.world.table.text "m3" = "\x7b\"message_id\":\"m3\",\"device_id\":1,\"tag_id\":10," ++
        "\"value\":0.1,\"quality\":\"good\",\"source_timestamp\":\"\"\x7d")
    (by decide +kernel)
  exact ⟨c, hr, hc, end_to_end_fifo (by decide) hr⟩

end SenseGateway.Buffer

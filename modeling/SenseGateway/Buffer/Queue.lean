import SenseGateway.Python.Value

namespace SenseGateway.Buffer

open Python

inductive Status
  | pending
  | sent
  deriving DecidableEq, Repr

/-- A row of `telemetry_queue`. The payload's text stands as what `json.loads` makes of it. -/
structure Row where
  id : ℕ
  messageId : String
  deviceId : ℤ
  tagId : ℤ
  value : PyFloat
  quality : String
  sourceTimestamp : String
  payloadJson : PyExcept Json
  status : Status
  attempts : ℕ
  lastError : Option String
  createdAt : String
  lastAttemptAt : Option String
  sentAt : Option String

/-- The table in the order of its ids, and the largest id `AUTOINCREMENT` has given out. -/
structure Queue where
  rows : List Row
  sequence : ℕ
  sorted : (rows.map Row.id).Pairwise (· < ·)
  bounded : ∀ row ∈ rows, row.id ≤ sequence
  unique : (rows.map Row.messageId).Nodup

/-- A pending row with its payload, `null` where the text is no JSON. -/
structure Message where
  row : Row
  payload : Json

namespace Queue

/-- The table `initialize_database` creates. -/
def empty : Queue := ⟨[], 0, by simp, by simp, by simp⟩

/-- `INSERT` -/
def insert (q : Queue) (row : Row) (hid : row.id = q.sequence + 1)
    (hnew : row.messageId ∉ q.rows.map Row.messageId) : Queue where
  rows := q.rows ++ [row]
  sequence := q.sequence + 1
  sorted := by
    rw [List.map_append, List.pairwise_append]
    refine ⟨q.sorted, by simp, fun i hi j hj => ?_⟩
    obtain ⟨old, hold, rfl⟩ := List.mem_map.mp hi
    have hle := q.bounded old hold
    have hj : j = q.sequence + 1 := by simpa [hid] using hj
    omega
  bounded := by
    intro old hold
    rcases List.mem_append.mp hold with h | h
    · exact Nat.le_succ_of_le (q.bounded old h)
    · rw [List.mem_singleton.mp h, hid]
  unique := by
    rw [List.map_append, List.nodup_append]
    refine ⟨q.unique, by simp, fun m hm m' hm' => ?_⟩
    have hm' : m' = row.messageId := by simpa using hm'
    rintro rfl
    exact hnew (hm' ▸ hm)

/-- `UPDATE`, which changes neither ids nor message ids -/
def update (q : Queue) (f : Row → Row) (hid : ∀ row, (f row).id = row.id)
    (hmessage : ∀ row, (f row).messageId = row.messageId) : Queue where
  rows := q.rows.map f
  sequence := q.sequence
  sorted := by
    have hids : Row.id ∘ f = Row.id := funext hid
    rw [List.map_map, hids]
    exact q.sorted
  bounded := by
    intro row hrow
    obtain ⟨old, hold, rfl⟩ := List.mem_map.mp hrow
    rw [hid]
    exact q.bounded old hold
  unique := by
    have hmessages : Row.messageId ∘ f = Row.messageId := funext hmessage
    rw [List.map_map, hmessages]
    exact q.unique

/-- `DELETE` of the rows that are not to stay -/
def retain (q : Queue) (stays : Row → Bool) : Queue where
  rows := q.rows.filter stays
  sequence := q.sequence
  sorted := q.sorted.sublist (List.filter_sublist.map Row.id)
  bounded := fun row hrow => q.bounded row (List.mem_filter.mp hrow).1
  unique := q.unique.sublist (List.filter_sublist.map Row.messageId)

end Queue

/-- The payload `enqueue_telemetry` stores. -/
def payloadOf (messageId : String) (deviceId tagId : ℤ) (value : PyFloat)
    (quality timestamp : String) : Json :=
  .obj [("message_id", .str messageId), ("device_id", .int deviceId), ("tag_id", .int tagId),
    ("value", .float value), ("quality", .str quality), ("source_timestamp", .str timestamp)]

/-- `source_timestamp or utc_now_iso()` -/
def timestampOf (sourceTimestamp : Option String) (now : String) : String :=
  match sourceTimestamp with
  | some timestamp => if timestamp = "" then now else timestamp
  | none => now

/-- The row `enqueue_telemetry` inserts. -/
def Row.queued (id : ℕ) (messageId : String) (deviceId tagId : ℤ) (value : PyFloat)
    (quality timestamp createdAt : String) : Row :=
  ⟨id, messageId, deviceId, tagId, value, quality, timestamp,
    .ok (payloadOf messageId deviceId tagId value quality timestamp), .pending, 0, none, createdAt,
    none, none⟩

namespace Queue

/-- `messageId` is the new uuid, and `now` and `createdAt` are what the clock shows. -/
def enqueueTelemetry (q : Queue) (messageId now createdAt : String) (deviceId tagId : ℤ)
    (value : PyFloat) (quality : String) (sourceTimestamp : Option String) : PyExcept Queue :=
  let timestamp := timestampOf sourceTimestamp now
  -- raised when the parameters are bound, before SQLite sees the statement
  if ¬ (fitsInteger deviceId ∧ fitsInteger tagId) then
    .error ⟨.overflowError, "Python int too large to convert to SQLite INTEGER"⟩
  -- SQLite stores a NaN as NULL
  else if value = .nan then
    .error ⟨.integrityError, "NOT NULL constraint failed: telemetry_queue.value"⟩
  else if hnew : messageId ∈ q.rows.map Row.messageId then
    .error ⟨.integrityError, "UNIQUE constraint failed: telemetry_queue.message_id"⟩
  else
    .ok (q.insert (.queued (q.sequence + 1) messageId deviceId tagId value quality timestamp createdAt)
      rfl hnew)

/-- The pending rows, oldest first. -/
def pending (q : Queue) : List Row := q.rows.filter fun row => row.status = .pending

end Queue

def Row.message (row : Row) : PyExcept Message :=
  match row.payloadJson with
  | .ok payload => .ok ⟨row, payload⟩
  | .error e => if e.kind = .jsonDecodeError then .ok ⟨row, .null⟩ else .error e

namespace Row

def markSent (row : Row) (messageId now : String) : Row :=
  if row.messageId = messageId then
    { row with status := .sent, sentAt := some now, lastAttemptAt := some now, lastError := none }
  else row

def markFailed (row : Row) (messageId errorMessage now : String) : Row :=
  if row.messageId = messageId then
    { row with
      attempts := row.attempts + 1
      lastAttemptAt := some now
      lastError := some (String.ofList (errorMessage.toList.take 1000)) }
  else row

variable (row : Row) (messageId errorMessage now : String)

@[simp] theorem markSent_id : (row.markSent messageId now).id = row.id := by
  unfold markSent
  split <;> rfl

@[simp] theorem markSent_messageId : (row.markSent messageId now).messageId = row.messageId := by
  unfold markSent
  split <;> rfl

@[simp] theorem markFailed_id : (row.markFailed messageId errorMessage now).id = row.id := by
  unfold markFailed
  split <;> rfl

@[simp] theorem markFailed_messageId :
    (row.markFailed messageId errorMessage now).messageId = row.messageId := by
  unfold markFailed
  split <;> rfl

@[simp] theorem markFailed_status :
    (row.markFailed messageId errorMessage now).status = row.status := by
  unfold markFailed
  split <;> rfl

theorem markSent_pending :
    (row.markSent messageId now).status = .pending ↔
      row.status = .pending ∧ row.messageId ≠ messageId := by
  unfold markSent
  split <;> simp_all

theorem markSent_of_ne (h : row.messageId ≠ messageId) : row.markSent messageId now = row := if_neg h

end Row

namespace Queue

def getPendingMessages (q : Queue) (limit : ℤ) : PyExcept (List Message) :=
  (q.pending.take (max 1 (min limit 1000)).toNat).mapM Row.message

def markMessageSent (q : Queue) (messageId now : String) : Queue :=
  q.update (fun row => row.markSent messageId now) (fun _ => Row.markSent_id _ _ _)
    fun _ => Row.markSent_messageId _ _ _

def markMessageFailed (q : Queue) (messageId errorMessage now : String) : Queue :=
  q.update (fun row => row.markFailed messageId errorMessage now) (fun _ => Row.markFailed_id _ _ _ _)
    fun _ => Row.markFailed_messageId _ _ _ _

/-- The ids of the newest sent rows. -/
def keptSent (q : Queue) (keepLatest : ℤ) : List ℕ :=
  ((q.rows.filter fun row => row.status = .sent).reverse.take (max 0 keepLatest).toNat).map Row.id

/-- The table afterwards, and the number of rows deleted. -/
def deleteSentMessages (q : Queue) (keepLatest : ℤ) : Queue × ℕ :=
  let left := q.retain fun row => !(row.status = .sent && decide (row.id ∉ q.keptSent keepLatest))
  (left, q.rows.length - left.rows.length)

/-- Whether the table takes the message. -/
def Takes (q : Queue) (messageId : String) (deviceId tagId : ℤ) (value : PyFloat) : Prop :=
  (fitsInteger deviceId ∧ fitsInteger tagId) ∧ value ≠ .nan ∧ messageId ∉ q.rows.map Row.messageId

variable (q : Queue)

theorem mem_pending {row : Row} : row ∈ q.pending ↔ row ∈ q.rows ∧ row.status = .pending := by
  simp [pending]

theorem pending_unique : (q.pending.map Row.messageId).Nodup :=
  q.unique.sublist (List.filter_sublist.map Row.messageId)

section enqueue

variable {q} {messageId : String} (now createdAt : String) {deviceId tagId : ℤ} {value : PyFloat}
  (quality : String) (sourceTimestamp : Option String)

/-- A message that is taken is the last row of the table. -/
theorem enqueueTelemetry_ok (h : q.Takes messageId deviceId tagId value) :
    ∃ q', q.enqueueTelemetry messageId now createdAt deviceId tagId value quality sourceTimestamp =
        .ok q' ∧ q'.sequence = q.sequence + 1 ∧
      q'.rows = q.rows ++ [.queued (q.sequence + 1) messageId deviceId tagId value quality
        (timestampOf sourceTimestamp now) createdAt] := by
  obtain ⟨hfits, hvalue, hnew⟩ := h
  simp only [enqueueTelemetry, if_neg (not_not.mpr hfits), if_neg hvalue, dif_neg hnew]
  exact ⟨_, rfl, rfl, rfl⟩

theorem enqueueTelemetry_error (h : ¬ q.Takes messageId deviceId tagId value) :
    ∃ e, q.enqueueTelemetry messageId now createdAt deviceId tagId value quality sourceTimestamp =
      .error e := by
  dsimp only [enqueueTelemetry]
  by_cases hfits : fitsInteger deviceId ∧ fitsInteger tagId
  · rw [if_neg (not_not.mpr hfits)]
    by_cases hvalue : value = .nan
    · rw [if_pos hvalue]
      exact ⟨_, rfl⟩
    · rw [if_neg hvalue]
      by_cases hknown : messageId ∈ q.rows.map Row.messageId
      · rw [dif_pos hknown]
        exact ⟨_, rfl⟩
      · exact absurd ⟨hfits, hvalue, hknown⟩ h
  · rw [if_pos hfits]
    exact ⟨_, rfl⟩

variable {now createdAt quality sourceTimestamp} in
theorem rows_of_enqueueTelemetry {q' : Queue}
    (h : q.enqueueTelemetry messageId now createdAt deviceId tagId value quality sourceTimestamp =
      .ok q') :
    q'.rows = q.rows ++ [.queued (q.sequence + 1) messageId deviceId tagId value quality
      (timestampOf sourceTimestamp now) createdAt] := by
  by_cases htakes : q.Takes messageId deviceId tagId value
  · obtain ⟨_, hok, -, hrows⟩ := enqueueTelemetry_ok now createdAt quality sourceTimestamp htakes
    cases h.symm.trans hok
    exact hrows
  · obtain ⟨e, he⟩ := enqueueTelemetry_error now createdAt quality sourceTimestamp htakes
    cases h.symm.trans he

end enqueue

theorem pending_deleteSentMessages (keepLatest : ℤ) :
    (q.deleteSentMessages keepLatest).1.pending = q.pending := by
  show (q.rows.filter _).filter _ = q.rows.filter _
  rw [List.filter_filter]
  apply List.filter_congr
  intro row _
  cases row.status <;> simp

theorem pending_markMessageSent (messageId now : String) :
    (q.markMessageSent messageId now).pending =
      q.pending.filter fun row => row.messageId ≠ messageId := by
  show (q.rows.map _).filter _ = (q.rows.filter _).filter _
  rw [List.filter_filter, List.filter_map]
  have hfilter : (q.rows.filter ((fun row => decide (row.status = .pending)) ∘ fun row =>
      row.markSent messageId now)) =
      q.rows.filter fun row =>
        decide (row.messageId ≠ messageId) && decide (row.status = .pending) := by
    apply List.filter_congr
    intro row _
    rw [Bool.eq_iff_iff]
    simp only [Function.comp_apply, decide_eq_true_eq, Row.markSent_pending, Bool.and_eq_true]
    exact and_comm
  rw [hfilter]
  calc _ = (q.rows.filter fun row =>
        decide (row.messageId ≠ messageId) && decide (row.status = .pending)).map id := by
        apply List.map_congr_left
        intro row hrow
        have hne : row.messageId ≠ messageId := by
          have := (List.mem_filter.mp hrow).2
          simp_all
        exact Row.markSent_of_ne _ _ _ hne
    _ = _ := List.map_id _

theorem pending_markMessageFailed (messageId errorMessage now : String) :
    (q.markMessageFailed messageId errorMessage now).pending =
      q.pending.map fun row => row.markFailed messageId errorMessage now := by
  show (q.rows.map _).filter _ = (q.rows.filter _).map _
  rw [List.filter_map]
  apply congrArg
  apply List.filter_congr
  intro row _
  simp

end Queue

end SenseGateway.Buffer

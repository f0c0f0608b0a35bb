import SenseGateway.Buffer.Flush

namespace SenseGateway.Buffer

open Python Effects

/-- What becomes of one message: an entry of `valid_messages`, a failed attempt, or an exception
that ends the flush. -/
def validItem (message : Message) : PyExcept (Option Valid) :=
  if ¬ isDict message.payload then .ok none
  else
    match buildItem message.payload with
    | .ok item => .ok (some (message.row.messageId, item))
    | .error e => if e.isConversionError then .ok none else .error e

theorem validItem_of_build {message : Message} {item : Item} (hdict : isDict message.payload = true)
    (hbuild : buildItem message.payload = .ok item) :
    validItem message = .ok (some (message.row.messageId, item)) := by
  simp [validItem, hdict, hbuild]

/-- The `valid_messages` of a window. -/
def validItems : List Message → PyExcept (List Valid)
  | [] => .ok []
  | message :: messages => do
    match ← validItem message with
    | none => validItems messages
    | some valid => return valid :: (← validItems messages)

def MarksFailed (o : FlushCall) : Prop :=
  ∃ messageId errorMessage, o = .markMessageFailed messageId errorMessage

/-- A failed attempt of a message no item is built for. -/
def Skips (messages : List Message) (o : FlushCall) : Prop :=
  ∃ message ∈ messages, validItem message = .ok none ∧
    ∃ errorMessage, o = .markMessageFailed message.row.messageId errorMessage

theorem Skips.marksFailed {messages : List Message} {o : FlushCall} (h : Skips messages o) :
    MarksFailed o := by
  obtain ⟨message, -, -, errorMessage, rfl⟩ := h
  exact ⟨_, _, rfl⟩

theorem collectItems_skips (messages : List Message) :
    (collectItems messages).wp (.only (Skips messages))
      (fun valid _ => validItems messages = .ok valid)
      (fun e _ => validItems messages = .error e) () := by
  induction messages with
  | nil => exact rfl
  | cons message messages ih =>
    have hlater : ∀ o, Skips messages o → Skips (message :: messages) o := by
      rintro o ⟨other, hother, hskip⟩
      exact ⟨other, List.mem_cons_of_mem _ hother, hskip⟩
    have ih := Prog.wp_only_mono hlater ih
    have skip (errorMessage : String) (hskip : validItem message = .ok none) :
        (do perform (.markMessageFailed message.row.messageId errorMessage); collectItems messages :
          FlushM (List Valid)).wp (.only (Skips (message :: messages)))
          (fun valid _ => validItems (message :: messages) = .ok valid)
          (fun e _ => validItems (message :: messages) = .error e) () := by
      refine ⟨⟨message, List.mem_cons_self, hskip, _, rfl⟩, fun _ => ?_⟩
      rw [validItems, hskip]
      exact ih
    by_cases hdict : isDict message.payload = true
    · cases hbuild : buildItem message.payload with
      | error e =>
        by_cases hconv : e.isConversionError = true
        · have hskip : validItem message = .ok none := by
            simp [validItem, hdict, hbuild, hconv]
          simpa [collectItems, hdict, hbuild, hconv] using skip _ hskip
        · have hraise : validItem message = .error e := by
            simp [validItem, hdict, hbuild, hconv]
          have hstop : validItems (message :: messages) = .error e := by
            rw [validItems, hraise]
            rfl
          simpa [collectItems, hdict, hbuild, hconv] using hstop
      | ok item =>
        have htake : validItem message = .ok (some (message.row.messageId, item)) :=
          validItem_of_build hdict hbuild
        have hrest : ((collectItems messages).bind fun valid =>
            Prog.pure ((message.row.messageId, item) :: valid)).wp
            (.only (Skips (message :: messages)))
            (fun valid _ => validItems (message :: messages) = .ok valid)
            (fun e _ => validItems (message :: messages) = .error e) () := by
          rw [Prog.wp_bind]
          refine Prog.wp_mono ?_ ?_ ih
          · intro valid _ hvalid
            show validItems (message :: messages) = .ok _
            rw [validItems, htake, hvalid]
            rfl
          · intro e _ he
            rw [validItems, htake, he]
            rfl
        simpa [collectItems, hdict, hbuild] using hrest
    · have hskip : validItem message = .ok none := by simp [validItem, hdict]
      simpa [collectItems, hdict] using skip _ hskip

theorem collectItems_only (messages : List Message) :
    (collectItems messages).wp (.only MarksFailed) (fun valid _ => validItems messages = .ok valid)
      (fun e _ => validItems messages = .error e) () :=
  Prog.wp_only_mono (fun _ => Skips.marksFailed) (collectItems_skips messages)

/-- A flush from the point where it has its window. -/
def afterFetch (fetched : PyExcept (List Message)) : FlushM Unit :=
  (Prog.ofExcept fetched).bind fun messages =>
    if messages = [] then Prog.pure () else (collectItems messages).bind fun valid =>
      if valid = [] then Prog.pure () else
        (perform (.postTelemetryBatch valid)).bind (settleBatch valid)

theorem flushPendingBatch_eq :
    flushPendingBatch = .call (.getPendingMessages batchFlushSize) afterFetch := rfl

theorem afterFetch_nil : afterFetch (.ok []) = Prog.pure () := rfl

theorem afterFetch_ok {messages : List Message} (h : messages ≠ []) :
    afterFetch (.ok messages) = (collectItems messages).bind fun valid =>
      if valid = [] then Prog.pure () else
        (perform (.postTelemetryBatch valid)).bind (settleBatch valid) := if_neg h

/-- The body's `rejected` list names exactly these pairs, entry by entry. -/
def Rejects (body : Json) (pairs : List (ℤ × ℤ)) : Prop :=
  ∃ fields entries, body = .obj fields ∧ Json.lookup "rejected" fields = some (.arr entries) ∧
    List.Forall₂ (fun entry pair => ∃ inner, entry = .obj inner ∧
      Json.lookup "device_id" inner = some (.int pair.1) ∧
      Json.lookup "tag_id" inner = some (.int pair.2)) entries pairs

theorem rejectedPair_of_ids {inner : List (String × Json)} {deviceId tagId : ℤ}
    (hdevice : Json.lookup "device_id" inner = some (.int deviceId))
    (htag : Json.lookup "tag_id" inner = some (.int tagId)) :
    rejectedPair (.obj inner) = .ok (some (deviceId, tagId)) := by
  simp [rejectedPair, Json.contains, Json.item, Json.toInt, hdevice, htag, bind, Except.bind, pure,
    Except.pure]

theorem mapM_rejectedPair {entries : List Json} {pairs : List (ℤ × ℤ)}
    (h : List.Forall₂ (fun entry pair => ∃ inner, entry = .obj inner ∧
      Json.lookup "device_id" inner = some (.int pair.1) ∧
      Json.lookup "tag_id" inner = some (.int pair.2)) entries pairs) :
    entries.mapM rejectedPair = .ok (pairs.map some) := by
  induction h with
  | nil => rfl
  | cons hentry _ ih =>
    obtain ⟨inner, rfl, hdevice, htag⟩ := hentry
    rw [List.mapM_cons, rejectedPair_of_ids hdevice htag, ih]
    rfl

theorem rejectedPairs_of_rejects {body : Json} {pairs : List (ℤ × ℤ)} (h : Rejects body pairs) :
    rejectedPairs body = .ok pairs := by
  obtain ⟨fields, entries, rfl, hrejected, hentries⟩ := h
  have hget : Json.get (.obj fields) "rejected" = .ok (.arr entries) := by
    simp [Json.get, Json.getD, Json.find, hrejected, Except.map]
  have hor : (Json.arr entries).orElse (.arr []) = .arr entries := by
    cases entries <;> rfl
  have hids : (pairs.map some).filterMap id = pairs := by
    rw [List.filterMap_map]
    exact List.filterMap_some
  simp only [rejectedPairs, hget, hor, Json.iter, mapM_rejectedPair hentries, bind, Except.bind,
    pure, Except.pure, hids]

/-- A response body that rejects the given pairs. -/
def rejectionBody (pairs : List (ℤ × ℤ)) : Json :=
  .obj [("success", .bool true), ("rejected", .arr (pairs.map fun pair =>
    .obj [("device_id", .int pair.1), ("tag_id", .int pair.2)]))]

theorem rejects_rejectionBody (pairs : List (ℤ × ℤ)) : Rejects (rejectionBody pairs) pairs := by
  refine ⟨_, _, rfl, rfl, ?_⟩
  rw [List.forall₂_map_left_iff]
  exact List.forall₂_same.mpr fun pair _ => ⟨_, rfl, rfl, rfl⟩

/-- A row whose payload is still what `enqueue_telemetry` wrote. -/
def Row.Intact (row : Row) : Prop :=
  row.quality ≠ "" ∧ row.payloadJson = .ok (payloadOf row.messageId row.deviceId row.tagId row.value
    row.quality row.sourceTimestamp)

/-- The reading a row was queued for. -/
def Row.reading (row : Row) : Item := ⟨row.deviceId, row.tagId, row.value, row.quality⟩

def Row.entry (row : Row) : Valid := (row.messageId, row.reading)

/-! Marking a row touches neither its reading nor its payload. -/

@[simp] theorem Row.entry_markSent (row : Row) (messageId now : String) :
    (row.markSent messageId now).entry = row.entry := by
  unfold Row.markSent
  split <;> rfl

@[simp] theorem Row.entry_markFailed (row : Row) (messageId errorMessage now : String) :
    (row.markFailed messageId errorMessage now).entry = row.entry := by
  unfold Row.markFailed
  split <;> rfl

theorem Row.Intact.markSent {row : Row} (h : row.Intact) (messageId now : String) :
    (row.markSent messageId now).Intact := by
  unfold Row.markSent
  split <;> exact h

theorem Row.Intact.markFailed {row : Row} (h : row.Intact) (messageId errorMessage now : String) :
    (row.markFailed messageId errorMessage now).Intact := by
  unfold Row.markFailed
  split <;> exact h

/-- The item of a queued reading is the reading. -/
theorem buildItem_payloadOf (messageId : String) (deviceId tagId : ℤ) (value : PyFloat)
    {quality : String} (timestamp : String) (hq : quality ≠ "") :
    buildItem (payloadOf messageId deviceId tagId value quality timestamp) =
      .ok ⟨deviceId, tagId, value, quality⟩ := by
  simp [buildItem, payloadOf, Json.item, Json.lookup, Json.get, Json.getD, Json.find, Json.toInt,
    Json.toFloat, Json.orElse, Json.truthy, Json.toStr, Except.map, hq, bind, Except.bind, pure,
    Except.pure]

theorem Row.Intact.message {row : Row} (h : row.Intact) :
    ∃ message, row.message = .ok message ∧ validItem message = .ok (some row.entry) := by
  refine ⟨⟨row, _⟩, by rw [Row.message, h.2], ?_⟩
  have hbuild := buildItem_payloadOf row.messageId row.deviceId row.tagId row.value
    row.sourceTimestamp h.1
  exact validItem_of_build rfl hbuild

/-- A window of intact rows holds nothing but valid messages. -/
theorem validItems_of_intact {rows : List Row} (h : ∀ row ∈ rows, row.Intact) :
    ∃ messages, rows.mapM Row.message = .ok messages ∧
      validItems messages = .ok (rows.map Row.entry) := by
  induction rows with
  | nil => exact ⟨[], rfl, rfl⟩
  | cons row rows ih =>
    obtain ⟨message, hmessage, hvalid⟩ := (h row List.mem_cons_self).message
    obtain ⟨messages, hmessages, hvalids⟩ := ih fun r hr => h r (List.mem_cons_of_mem _ hr)
    refine ⟨message :: messages, ?_, ?_⟩
    · rw [List.mapM_cons, hmessage, hmessages]
      rfl
    · rw [validItems, hvalid, hvalids]
      rfl

end SenseGateway.Buffer

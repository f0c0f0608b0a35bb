import SenseGateway.Buffer.Outcome
import SenseGateway.Effects.Schedule
import SenseGateway.Queues.Lanes

namespace SenseGateway.Buffer

open Python Effects Queues

/-- The queue, and what only counts: the messages stored so far and those the cloud has accepted,
in order. -/
structure World where
  queue : Queue
  enqueued : List Valid
  accepted : List Valid

namespace World

def initial : World := ⟨.empty, [], []⟩

/-- How a call of a flush is answered. A request fails with a `RequestException`, or its body
lists the rejected pairs and the other messages it carries are accepted. -/
def serves (w : World) : (o : FlushCall) → o.Answer → World → Prop
  | .getPendingMessages limit, r, w' => r = w.queue.getPendingMessages limit ∧ w' = w
  | .markMessageSent messageId, _, w' =>
    ∃ now, w' = { w with queue := w.queue.markMessageSent messageId now }
  | .markMessageFailed messageId errorMessage, _, w' =>
    ∃ now, w' = { w with queue := w.queue.markMessageFailed messageId errorMessage now }
  | .postTelemetryBatch _, .error e, w' => e.isRequestException = true ∧ w' = w
  | .postTelemetryBatch valid, .ok body, w' => ∃ pairs, Rejects body pairs ∧
    w' = { w with accepted := w.accepted ++ valid.filter fun message => message.2.pair ∉ pairs }

/-- A reading is stored under a message id that was never used before. -/
def Enqueues (w w' : World) : Prop :=
  ∃ messageId now createdAt sourceTimestamp, ∃ reading : Item, ∃ queue,
    messageId ∉ w.enqueued.map Prod.fst ∧ reading.value.isFinite = true ∧ reading.quality ≠ "" ∧
    w.queue.enqueueTelemetry messageId now createdAt reading.deviceId reading.tagId reading.value
      reading.quality sourceTimestamp = .ok queue ∧
    w' = { w with queue, enqueued := w.enqueued ++ [(messageId, reading)] }

/-- What happens beside a flush: a reading is stored, or sent rows are deleted. -/
def Drifts (w w' : World) : Prop :=
  w.Enqueues w' ∨ ∃ keepLatest, w' = { w with queue := (w.queue.deleteSentMessages keepLatest).1 }

end World

abbrev BufferConfig := Config flushCalls PyError Unit World

/-- One flush after the other on its thread, with the rest of the gateway between any two steps. -/
def buffer : Machine flushCalls PyError Unit World :=
  ⟨fun _ => World.serves, fun _ => World.Drifts, fun _ p => p = flushPendingBatch⟩

def bufferStart : BufferConfig := ⟨.initial, fun _ => none⟩

/-- The pair a message is queued for. -/
def pairOf (message : Valid) : ℤ × ℤ := message.2.pair

/-- Where a flush is: the messages it has not posted yet, and those it still has to mark sent. -/
structure Progress where
  batch : List Valid
  marks : List String

/-- The ids a response body leaves to be marked sent. -/
def marksAfter (valid : List Valid) (body : Json) : List String :=
  match rejectedPairs body with
  | .ok pairs => (valid.filter fun message => message.2.pair ∉ pairs).map Prod.fst
  | .error _ => []

namespace Progress

def allowed (l : Progress) : FlushCall → Prop
  | .getPendingMessages _ => l.marks = []
  | .markMessageSent messageId => l.batch = [] ∧ ∃ rest, l.marks = messageId :: rest
  | .markMessageFailed _ _ => True
  | .postTelemetryBatch valid => l.marks = [] ∧ valid = l.batch

def next (l : Progress) : (o : FlushCall) → o.Answer → Progress
  | .getPendingMessages _, .ok messages =>
    match validItems messages with
    | .ok valid => ⟨valid, []⟩
    | .error _ => ⟨[], []⟩
  | .getPendingMessages _, .error _ => ⟨[], []⟩
  | .markMessageSent _, _ => { l with marks := l.marks.tail }
  | .markMessageFailed _ _, _ => l
  | .postTelemetryBatch _, .error _ => ⟨[], []⟩
  | .postTelemetryBatch valid, .ok body => ⟨[], marksAfter valid body⟩

def Idle (l : Progress) : Prop := l.marks = []

end Progress

def flushProtocol : Protocol flushCalls Progress := ⟨Progress.allowed, Progress.next⟩

theorem marksFailed_quiet (l : Progress) (o : FlushCall) (ho : MarksFailed o) :
    flushProtocol.allowed l o ∧ ∀ r, flushProtocol.next l o r = l := by
  obtain ⟨messageId, errorMessage, rfl⟩ := ho
  exact ⟨trivial, fun _ => rfl⟩

/-- What follows a request marks exactly the accepted messages sent. -/
theorem settleBatch_progress (valid : List Valid) (r : PyExcept Json) :
    (settleBatch valid r).wp flushProtocol (fun _ => Progress.Idle) (fun _ => Progress.Idle)
      (flushProtocol.next ⟨valid, []⟩ (.postTelemetryBatch valid) r) := by
  cases r with
  | error e =>
    show (settleBatch valid (.error e)).wp flushProtocol _ _ ⟨[], []⟩
    by_cases hrequest : e.isRequestException = true
    · let J (_ : List Valid) (l : Progress) : Prop := l.Idle
      have hloop : (Prog.forEach valid fun message =>
          perform (.markMessageFailed message.1 e.message)).wp flushProtocol (fun _ => J [])
          (fun _ => Progress.Idle) ⟨[], []⟩ :=
        Prog.wp_forEach (J := J) (fun _ _ _ hl => ⟨trivial, fun _ => hl⟩) rfl
      rw [settleBatch, if_pos hrequest]
      exact hloop
    · rw [settleBatch, if_neg hrequest]
      exact rfl
  | ok body =>
    show ((Prog.ofExcept (rejectedPairs body)).bind fun pairs =>
      Prog.forEach valid (settle pairs)).wp flushProtocol _ _ ⟨[], marksAfter valid body⟩
    rw [Prog.wp_bind, Prog.wp_ofExcept]
    refine ⟨fun pairs hpairs => ?_, fun e he => ?_⟩
    · -- along the loop exactly the accepted messages still to come are left to mark
      let J (rest : List Valid) (l : Progress) : Prop :=
        l = ⟨[], (rest.filter fun message => message.2.pair ∉ pairs).map Prod.fst⟩
      have hstart : J valid ⟨[], marksAfter valid body⟩ := by
        simp only [J, marksAfter, hpairs]
      refine Prog.wp_mono ?_ (fun _ _ h => h) (Prog.wp_forEach (J := J) ?_ hstart)
      · rintro _ l rfl
        rfl
      · rintro message rest l rfl
        by_cases hrejected : message.2.pair ∈ pairs
        · rw [settle, if_pos hrejected]
          refine ⟨trivial, fun _ => ?_⟩
          simp [J, flushProtocol, Progress.next, hrejected]
        · rw [settle, if_neg hrejected]
          refine ⟨⟨rfl, ?_⟩, fun _ => ?_⟩
          · exact ⟨_, by simp [hrejected]; rfl⟩
          · simp [J, flushProtocol, Progress.next, hrejected]
    · simp [Progress.Idle, marksAfter, he]

/-- A flush starts and ends with nothing left to mark. -/
theorem flushPendingBatch_progress {l : Progress} (hl : l.Idle) :
    flushPendingBatch.wp flushProtocol (fun _ => Progress.Idle) (fun _ => Progress.Idle) l := by
  rw [flushPendingBatch_eq]
  refine ⟨hl, fun r => ?_⟩
  cases r with
  | error e => exact rfl
  | ok messages =>
    let l₁ : Progress := flushProtocol.next l (.getPendingMessages batchFlushSize) (.ok messages)
    have hmarks : l₁.marks = [] := by
      simp only [l₁, flushProtocol, Progress.next]
      split <;> rfl
    show (afterFetch (.ok messages)).wp flushProtocol _ _ l₁
    by_cases hempty : messages = []
    · rw [hempty, afterFetch_nil]
      exact hmarks
    · rw [afterFetch_ok hempty, Prog.wp_bind]
      refine Prog.wp_mono ?_ ?_ (Prog.wp_of_only (collectItems_only messages) (marksFailed_quiet l₁))
      · rintro valid _ ⟨rfl, hvalid⟩
        -- what was collected is the batch that the protocol expects to be posted
        have hl₁ : l₁ = ⟨valid, []⟩ := by
          simp only [l₁, flushProtocol, Progress.next, hvalid]
        by_cases hnone : valid = []
        · rw [if_pos hnone]
          exact hmarks
        · rw [if_neg hnone, hl₁]
          exact ⟨⟨rfl, rfl⟩, settleBatch_progress valid⟩
      · rintro e _ ⟨rfl, -⟩
        exact hmarks

/-- A stored reading goes to the end of the pending messages, in a new row that decodes. -/
theorem World.Enqueues.appended {w w' : World} (hw : w.Enqueues w') :
    ∃ message : Valid, message.1 ∉ w.enqueued.map Prod.fst ∧
      w'.enqueued = w.enqueued ++ [message] ∧ w'.accepted = w.accepted ∧
      w'.queue.pending.map Row.entry = w.queue.pending.map Row.entry ++ [message] ∧
      ((∀ row ∈ w.queue.rows, row.Intact) → ∀ row ∈ w'.queue.rows, row.Intact) := by
  obtain ⟨messageId, now, createdAt, sourceTimestamp, reading, queue, hnew, _, hquality, hqueue,
    rfl⟩ := hw
  have hrows := Queue.rows_of_enqueueTelemetry hqueue
  let row : Row := .queued (w.queue.sequence + 1) messageId reading.deviceId reading.tagId
    reading.value reading.quality (timestampOf sourceTimestamp now) createdAt
  have hpending : queue.pending = w.queue.pending ++ [row] := by
    rw [Queue.pending, hrows, List.filter_append]
    rfl
  refine ⟨(messageId, reading), hnew, rfl, rfl, ?_, fun hintact r hr => ?_⟩
  · show queue.pending.map Row.entry = _
    rw [hpending, List.map_append]
    rfl
  · have hr : r ∈ w.queue.rows ++ [row] := hrows ▸ hr
    rcases List.mem_append.mp hr with hr | hr
    · exact hintact r hr
    · rw [List.mem_singleton.mp hr]
      exact ⟨hquality, rfl⟩

theorem nodup_ids_append {messages : List Valid} {message : Valid}
    (hunique : (messages.map Prod.fst).Nodup) (hnew : message.1 ∉ messages.map Prod.fst) :
    ((messages ++ [message]).map Prod.fst).Nodup := by
  rw [List.map_append, List.nodup_append]
  refine ⟨hunique, by simp, fun a ha b hb => ?_⟩
  obtain rfl : b = message.1 := by simpa using hb
  rintro rfl
  exact hnew ha

theorem entries_markMessageFailed (q : Queue) (messageId errorMessage now : String) :
    (q.markMessageFailed messageId errorMessage now).pending.map Row.entry =
      q.pending.map Row.entry := by
  rw [Queue.pending_markMessageFailed, List.map_map]
  exact List.map_congr_left fun row _ => row.entry_markFailed _ _ _

theorem intact_markMessageFailed {q : Queue} (h : ∀ row ∈ q.rows, row.Intact)
    (messageId errorMessage now : String) :
    ∀ row ∈ (q.markMessageFailed messageId errorMessage now).rows, row.Intact := by
  intro row hrow
  obtain ⟨old, hold, rfl⟩ := List.mem_map.mp hrow
  exact (h old hold).markFailed _ _ _

theorem intact_markMessageSent {q : Queue} (h : ∀ row ∈ q.rows, row.Intact)
    (messageId now : String) : ∀ row ∈ (q.markMessageSent messageId now).rows, row.Intact := by
  intro row hrow
  obtain ⟨old, hold, rfl⟩ := List.mem_map.mp hrow
  exact (h old hold).markSent _ _

theorem next_markMessageSent {l : Progress} {messageId : String} {rest : List String}
    (hmarks : l.marks = messageId :: rest) :
    flushProtocol.next l (.markMessageSent messageId) () = { l with marks := rest } := by
  show { l with marks := l.marks.tail } = _
  rw [hmarks]
  rfl

/-- The pending messages that are not yet accepted, where `marks` are accepted but still pending. -/
def World.unsettled (w : World) (marks : List String) : List Valid :=
  (w.queue.pending.map Row.entry).filter fun message => message.1 ∉ marks

theorem World.unsettled_nil (w : World) : w.unsettled [] = w.queue.pending.map Row.entry := by
  simp [World.unsettled]

/-- What holds of the queue and of what the cloud has, wherever a flush is. -/
structure Kept (w : World) (l : Progress) : Prop where
  order : InOrder pairOf w.enqueued w.accepted (w.unsettled l.marks)
  unique : (w.enqueued.map Prod.fst).Nodup
  batch : l.batch <+: w.queue.pending.map Row.entry
  marks : ∀ messageId ∈ l.marks, messageId ∈ w.enqueued.map Prod.fst
  intact : ∀ row ∈ w.queue.rows, row.Intact

namespace Kept

variable {w w' : World} {l : Progress}

theorem initial : Kept .initial ⟨[], []⟩ :=
  ⟨.nil, by simp [World.initial], by simp, by simp, by simp [World.initial, Queue.empty]⟩

theorem deleted (h : Kept w l) (keepLatest : ℤ) :
    Kept { w with queue := (w.queue.deleteSentMessages keepLatest).1 } l := by
  have hpending := w.queue.pending_deleteSentMessages keepLatest
  refine ⟨?_, h.unique, ?_, h.marks, fun row hrow => h.intact row (List.mem_filter.mp hrow).1⟩
  · simpa only [World.unsettled, hpending] using h.order
  · simpa only [hpending] using h.batch

theorem enqueued (h : Kept w l) (hw : w.Enqueues w') : Kept w' l := by
  obtain ⟨message, hnew, henqueued, haccepted, hentries, hintact⟩ := hw.appended
  refine ⟨?_, ?_, ?_, fun id hid => ?_, hintact h.intact⟩
  · -- a new row goes to the end of its lane, whatever the flush is doing
    have hunmarked : message.1 ∉ l.marks := fun hmark => hnew (h.marks message.1 hmark)
    have hunsettled : w'.unsettled l.marks = w.unsettled l.marks ++ [message] := by
      rw [World.unsettled, hentries, List.filter_append]
      simp [World.unsettled, hunmarked]
    rw [henqueued, haccepted, hunsettled]
    exact h.order.enter message
  · rw [henqueued]
    exact nodup_ids_append h.unique hnew
  · rw [hentries]
    exact h.batch.trans (List.prefix_append _ _)
  · rw [henqueued, List.map_append]
    exact List.mem_append_left _ (h.marks id hid)

theorem markedFailed (h : Kept w l) (messageId errorMessage now : String) :
    Kept { w with queue := w.queue.markMessageFailed messageId errorMessage now } l := by
  have hentries := entries_markMessageFailed w.queue messageId errorMessage now
  refine ⟨?_, h.unique, ?_, h.marks, intact_markMessageFailed h.intact _ _ _⟩
  · simpa only [World.unsettled, hentries] using h.order
  · simpa only [hentries] using h.batch

theorem markedSent (h : Kept w l) {messageId : String} {rest : List String} (now : String)
    (hbatch : l.batch = []) (hmarks : l.marks = messageId :: rest) :
    Kept { w with queue := w.queue.markMessageSent messageId now } { l with marks := rest } := by
  have horder := h.order
  rw [hmarks] at horder
  refine ⟨?_, h.unique, ?_, fun id hid => h.marks id (hmarks ▸ List.mem_cons_of_mem _ hid),
    intact_markMessageSent h.intact _ _⟩
  · -- the message leaves the pending rows and the marks together
    have hunsettled : World.unsettled { w with queue := w.queue.markMessageSent messageId now } rest =
        w.unsettled (messageId :: rest) := by
      rw [World.unsettled, World.unsettled, Queue.pending_markMessageSent, List.filter_map,
        List.filter_map, List.filter_filter]
      apply congrArg
      apply List.filter_congr
      intro row _
      by_cases hsent : row.messageId = messageId <;> by_cases hrest : row.messageId ∈ rest <;>
        simp [Row.entry, hsent, hrest]
    rw [hunsettled]
    exact horder
  · show l.batch <+: _
    rw [hbatch]
    exact List.nil_prefix

theorem fetched (h : Kept w l) (hl : l.marks = []) (limit : ℤ) :
    Kept w (flushProtocol.next l (.getPendingMessages limit) (w.queue.getPendingMessages limit)) := by
  -- rows that `enqueue_telemetry` wrote never fail to decode, so the batch is all of the window
  have hwindow : ∀ row ∈ w.queue.pending.take (max 1 (min limit 1000)).toNat, row.Intact :=
    fun row hrow => h.intact row ((w.queue.mem_pending).mp (List.mem_of_mem_take hrow)).1
  obtain ⟨messages, hmessages, hvalid⟩ := validItems_of_intact hwindow
  have hfetch : w.queue.getPendingMessages limit = .ok messages := hmessages
  have horder := h.order
  rw [hl] at horder
  rw [hfetch]
  simp only [flushProtocol, Progress.next, hvalid]
  exact ⟨horder, h.unique, (List.take_prefix _ _).map _, by simp, h.intact⟩

/-- The request brought the batch: what its pair does not reject is accepted, in every lane. -/
theorem posted (h : Kept w l) (hl : l.marks = []) {body : Json} {pairs : List (ℤ × ℤ)}
    (hbody : Rejects body pairs) :
    Kept { w with accepted := w.accepted ++ l.batch.filter fun message => message.2.pair ∉ pairs }
      ⟨[], marksAfter l.batch body⟩ := by
  let keep (p : ℤ × ℤ) : Bool := decide (p ∉ pairs)
  have hmarks : marksAfter l.batch body = (l.batch.filter fun message => keep (pairOf message)).map
      Prod.fst := by
    rw [marksAfter, rejectedPairs_of_rejects hbody]
    rfl
  obtain ⟨rest, hrest⟩ := h.batch
  have horder := h.order
  rw [hl, World.unsettled_nil, ← hrest] at horder
  have hids : ((l.batch ++ rest).map Prod.fst).Nodup := by
    rw [hrest, List.map_map]
    exact w.queue.pending_unique
  refine ⟨?_, h.unique, List.nil_prefix, fun id hid => ?_, h.intact⟩
  · have hunsettled : World.unsettled { w with accepted := w.accepted ++ l.batch.filter fun message =>
        message.2.pair ∉ pairs } (marksAfter l.batch body) =
        (l.batch.filter fun message => !keep (pairOf message)) ++ rest := by
      rw [hmarks, World.unsettled, ← hrest]
      exact filter_not_mem_map hids
    rw [hunsettled]
    exact horder.take keep
  · rw [hmarks] at hid
    obtain ⟨message, hmem, rfl⟩ := List.mem_map.mp hid
    have hwaiting : message ∈ l.batch ++ rest :=
      List.mem_append_left _ (List.mem_filter.mp hmem).1
    exact List.mem_map_of_mem (horder.waiting_mem_entered hwaiting)

end Kept

/-- The queue and the thread that flushes it, in every run. -/
def keeping : Discipline buffer Progress where
  protocol _ := flushProtocol
  idle _ := Progress.Idle
  inv w ls := Kept w (ls ())
  entry_wp := by
    rintro t p l rfl hl
    exact flushPendingBatch_progress hl
  serves_inv := by
    intro t w o r w' ls h hs ha
    obtain rfl : t = () := rfl
    rw [Function.update_self]
    cases o with
    | getPendingMessages limit =>
      obtain ⟨rfl, rfl⟩ := hs
      exact h.fetched ha limit
    | markMessageSent messageId =>
      obtain ⟨now, rfl⟩ := hs
      obtain ⟨hbatch, rest, hmarks⟩ := ha
      rw [next_markMessageSent hmarks]
      exact h.markedSent now hbatch hmarks
    | markMessageFailed messageId errorMessage =>
      obtain ⟨now, rfl⟩ := hs
      exact h.markedFailed messageId errorMessage now
    | postTelemetryBatch valid =>
      obtain ⟨hmarks, rfl⟩ := ha
      -- a failed request leaves the rows pending, to be posted again by the next flush
      cases r with
      | error e =>
        obtain ⟨-, rfl⟩ := hs
        have horder := h.order
        rw [hmarks] at horder
        exact ⟨horder, h.unique, List.nil_prefix, by simp [flushProtocol, Progress.next], h.intact⟩
      | ok body =>
        obtain ⟨pairs, hbody, rfl⟩ := hs
        exact h.posted hmarks hbody
  background_inv := by
    rintro _ w w' ls h (hw | ⟨keepLatest, rfl⟩)
    · exact h.enqueued hw
    · exact h.deleted keepLatest

theorem keeping_holds {c : BufferConfig} (hr : buffer.Reach bufferStart c) :
    ∃ ls, keeping.Holds c ls := by
  have hstart : keeping.Holds bufferStart fun _ => ⟨[], []⟩ := ⟨Kept.initial, fun _ => rfl⟩
  exact Discipline.reach_holds hr hstart

/-- An environment that is computed: every request is answered, and `pairs` are rejected. -/
def World.answer (pairs : List (ℤ × ℤ)) (w : World) : (o : FlushCall) → o.Answer × World
  | .getPendingMessages limit => (w.queue.getPendingMessages limit, w)
  | .markMessageSent messageId => ((), { w with queue := w.queue.markMessageSent messageId "" })
  | .markMessageFailed messageId errorMessage =>
    ((), { w with queue := w.queue.markMessageFailed messageId errorMessage "" })
  | .postTelemetryBatch valid => (.ok (rejectionBody pairs),
      { w with accepted := w.accepted ++ valid.filter fun message => message.2.pair ∉ pairs })

def rejecting (pairs : List (ℤ × ℤ)) : Driver buffer where
  answer _ w o := some (w.answer pairs o)
  sound _ w o r w' h := by
    have hanswer : w.serves o (w.answer pairs o).1 (w.answer pairs o).2 := by
      cases o with
      | getPendingMessages limit => exact ⟨rfl, rfl⟩
      | markMessageSent messageId => exact ⟨"", rfl⟩
      | markMessageFailed messageId errorMessage => exact ⟨"", rfl⟩
      | postTelemetryBatch valid => exact ⟨pairs, rejects_rejectionBody pairs, rfl⟩
    rw [Option.some.inj h] at hanswer
    exact hanswer

/-- A reading of 1 is stored under the given message id. -/
def storing (messageId : String) (deviceId tagId : ℤ) : Move buffer :=
  .world (fun w =>
      if messageId ∈ w.enqueued.map Prod.fst then none
      else
        match w.queue.enqueueTelemetry messageId "" "" deviceId tagId (.finite 1) "good" none with
        | .ok queue =>
          some { w with
            queue
            enqueued := w.enqueued ++ [(messageId, ⟨deviceId, tagId, .finite 1, "good"⟩)] }
        | .error _ => none) fun _ w w' h => by
    simp only [Option.ite_none_left_eq_some] at h
    obtain ⟨hnew, h⟩ := h
    split at h
    · cases h
      exact .inl ⟨messageId, "", "", none, ⟨deviceId, tagId, .finite 1, "good"⟩, _, hnew, rfl, by simp,
        ‹_›, rfl⟩
    · cases h

/-- Every sent row is deleted. -/
def deleting : Move buffer :=
  .world (fun w => some { w with queue := (w.queue.deleteSentMessages 0).1 }) fun _ w w' h => by
    cases h
    exact .inr ⟨0, rfl⟩

/-- Store-and-forward is a first-in-first-out queue for each pair, without loss and without
duplicates, in every reachable state. -/
theorem store_and_forward_fifo {c : BufferConfig} (hr : buffer.Reach bufferStart c) :
    (∀ pair, lane pairOf pair c.world.accepted <+: lane pairOf pair c.world.enqueued) ∧
      (c.world.accepted.map Prod.fst).Nodup ∧
      (c.running () = none → ∀ pair, lane pairOf pair (c.world.queue.pending.map Row.entry) =
        (lane pairOf pair c.world.enqueued).drop (lane pairOf pair c.world.accepted).length) ∧
      ∀ message ∈ c.world.enqueued, (∀ row ∈ c.world.queue.rows, row.messageId ≠ message.1) →
        message ∈ c.world.accepted := by
  obtain ⟨ls, h⟩ := keeping_holds hr
  have hkept : Kept c.world (ls ()) := h.1
  refine ⟨hkept.order.isPrefix, hkept.order.nodup_map hkept.unique, fun hidle pair => ?_,
    fun message hmessage hgone => ?_⟩
  · have hmarks : (ls ()).marks = [] := h.idle_of_none hidle
    have horder := hkept.order
    rw [hmarks, World.unsettled_nil] at horder
    exact horder.drop pair
  · refine (hkept.order.mem_or_mem hmessage).resolve_right fun hwaiting => ?_
    obtain ⟨row, hrow, rfl⟩ := List.mem_map.mp (List.mem_filter.mp hwaiting).1
    exact hgone row ((c.world.queue.mem_pending).mp hrow).1 rfl

/-- One message is accepted and deleted, one is rejected, and a third is stored during the flush. -/
theorem store_and_forward_fifo_partial :
    ∃ c, buffer.Reach bufferStart c ∧
      (c.world.accepted.map Prod.fst = ["m1"] ∧
        c.world.queue.pending.map Row.messageId = ["m2", "m3"] ∧
        c.world.queue.rows.length = 2) ∧
      (∀ pair, lane pairOf pair c.world.accepted <+: lane pairOf pair c.world.enqueued) ∧
      (c.world.accepted.map Prod.fst).Nodup ∧
      (c.running () = none → ∀ pair, lane pairOf pair (c.world.queue.pending.map Row.entry) =
        (lane pairOf pair c.world.enqueued).drop (lane pairOf pair c.world.accepted).length) ∧
      ∀ message ∈ c.world.enqueued, (∀ row ∈ c.world.queue.rows, row.messageId ≠ message.1) →
        message ∈ c.world.accepted := by
  let D := rejecting [(99, 999)]
  obtain ⟨c, hr, hc⟩ := Move.reach_of_schedule bufferStart
    [storing "m1" 1 10, storing "m2" 99 999, .start () flushPendingBatch rfl, .steps D () 1,
      storing "m3" 1 10, .steps D () 4, deleting]
    (fun c => c.world.accepted.map Prod.fst = ["m1"] ∧
      c.world.queue.pending.map Row.messageId = ["m2", "m3"] ∧ c.world.queue.rows.length = 2)
    (by decide +kernel)
  exact ⟨c, hr, hc, store_and_forward_fifo hr⟩

end SenseGateway.Buffer

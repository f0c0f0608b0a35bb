import SenseGateway.Buffer.Outcome
import SenseGateway.Effects.Runs
import SenseGateway.Queues.Lanes
import SenseGateway.Queues.Window

namespace SenseGateway.Buffer

open Python Effects Queues

/-- A cloud that answers every request with success and rejects exactly the pairs in `R`. Its
replies may differ from request to request in everything else. -/
structure Backend (R : Set (ℤ × ℤ)) where
  reply : ℕ → List Item → Json
  rejects : ∀ n items, ∃ pairs, Rejects (reply n items) pairs ∧
    ∀ item ∈ items, item.pair ∈ pairs ↔ item.pair ∈ R

/-- The queue and the number of calls made so far, by which the clock and the cloud go. -/
structure Uplink where
  queue : Queue
  calls : ℕ

namespace Uplink

variable {R : Set (ℤ × ℤ)} (backend : Backend R) (clock : ℕ → String)

/-- `requests` encodes no body that holds an infinity or a NaN. -/
def answer : (o : FlushCall) → Uplink → o.Answer × Uplink
  | .getPendingMessages limit, s => (s.queue.getPendingMessages limit, ⟨s.queue, s.calls + 1⟩)
  | .markMessageSent messageId, s =>
    ((), ⟨s.queue.markMessageSent messageId (clock s.calls), s.calls + 1⟩)
  | .markMessageFailed messageId errorMessage, s =>
    ((), ⟨s.queue.markMessageFailed messageId errorMessage (clock s.calls), s.calls + 1⟩)
  | .postTelemetryBatch valid, s =>
    (if valid.all fun message => message.2.value.isFinite then
        .ok (backend.reply s.calls (valid.map Prod.snd))
      else .error ⟨.requestException, "Out of range float values are not JSON compliant"⟩,
      ⟨s.queue, s.calls + 1⟩)

/-- One call of `flush_pending_batch`, whether it returns or raises. -/
def flush (s : Uplink) : Uplink := (flushPendingBatch.eval (answer backend clock) s).2

end Uplink

/-- What a flush makes of a row it comes to. -/
def Row.upload (row : Row) : PyExcept (Option Valid) := row.message >>= validItem

section fate

variable (R : Set (ℤ × ℤ)) [DecidablePred (· ∈ R)]

/-- Whether an item is built for the row, for a pair outside `R`. -/
def deliverable (upload : PyExcept (Option Valid)) : Bool :=
  match upload with
  | .ok (some valid) => decide (valid.2.pair ∉ R)
  | _ => false

/-- Whether the row makes every flush fail that comes to it. -/
def poisonous (upload : PyExcept (Option Valid)) : Bool :=
  match upload with
  | .ok (some valid) => !valid.2.value.isFinite
  | .ok none => false
  | .error _ => true

end fate

/-- What a row keeps while it is pending: its message id and what a flush makes of it. -/
def Row.essence (row : Row) : String × PyExcept (Option Valid) := (row.messageId, row.upload)

theorem Row.message_row {row : Row} {message : Message} (h : row.message = .ok message) :
    message.row = row := by
  unfold Row.message at h
  split at h
  · cases h
    rfl
  · split at h
    · cases h
      rfl
    · cases h

theorem validItem_fst {message : Message} {valid : Valid} (h : validItem message = .ok (some valid)) :
    valid.1 = message.row.messageId := by
  unfold validItem at h
  split at h
  · cases h
  · split at h
    · cases h
      rfl
    · split at h <;> cases h

theorem Row.upload_fst {row : Row} {valid : Valid} (h : row.upload = .ok (some valid)) :
    valid.1 = row.messageId := by
  obtain ⟨message, hmessage, hvalid⟩ := bind_eq_ok.mp h
  rw [validItem_fst hvalid, Row.message_row hmessage]

theorem Row.upload_congr {row row' : Row} (hid : row'.messageId = row.messageId)
    (hpayload : row'.payloadJson = row.payloadJson) : row'.upload = row.upload := by
  have hvalid (payload : Json) : validItem ⟨row', payload⟩ = validItem ⟨row, payload⟩ := by
    simp only [validItem, hid]
  unfold Row.upload Row.message
  rw [hpayload]
  cases row.payloadJson with
  | ok payload => exact hvalid payload
  | error e =>
    by_cases hdecode : e.kind = .jsonDecodeError
    · simp only [if_pos hdecode]
      exact hvalid .null
    · simp only [if_neg hdecode]

theorem Row.essence_markFailed (row : Row) (messageId errorMessage now : String) :
    (row.markFailed messageId errorMessage now).essence = row.essence := by
  have hupload : (row.markFailed messageId errorMessage now).upload = row.upload := by
    apply Row.upload_congr (Row.markFailed_messageId _ _ _ _)
    unfold Row.markFailed
    split <;> rfl
  rw [Row.essence, Row.essence, hupload, Row.markFailed_messageId]

/-- The pending rows, as far as flushes tell them apart. -/
def Queue.backlog (q : Queue) : List (String × PyExcept (Option Valid)) := q.pending.map Row.essence

theorem Queue.backlog_unique (q : Queue) : (q.backlog.map Prod.fst).Nodup := by
  rw [Queue.backlog, List.map_map]
  exact q.pending_unique

theorem Queue.backlog_markMessageFailed (q : Queue) (messageId errorMessage now : String) :
    (q.markMessageFailed messageId errorMessage now).backlog = q.backlog := by
  rw [Queue.backlog, Queue.pending_markMessageFailed, List.map_map]
  exact List.map_congr_left fun row _ => Row.essence_markFailed row _ _ _

theorem Queue.backlog_markMessageSent (q : Queue) (messageId now : String) :
    (q.markMessageSent messageId now).backlog = q.backlog.filter fun e => e.1 ≠ messageId := by
  rw [Queue.backlog, Queue.pending_markMessageSent, Queue.backlog, List.filter_map]
  rfl

section window

/-! What a flush finds in its window. -/

theorem poison_of_message_error {rows : List Row} {e : PyError}
    (h : rows.mapM Row.message = .error e) : ∃ row ∈ rows, poisonous row.upload = true := by
  induction rows with
  | nil => cases h
  | cons row rows ih =>
    rw [List.mapM_cons] at h
    rcases bind_eq_error.mp h with hmessage | ⟨message, -, h⟩
    · refine ⟨row, List.mem_cons_self, ?_⟩
      rw [Row.upload, hmessage]
      rfl
    · rcases bind_eq_error.mp h with hrest | ⟨messages, -, h⟩
      · obtain ⟨row', hrow', hpoison⟩ := ih hrest
        exact ⟨row', List.mem_cons_of_mem _ hrow', hpoison⟩
      · cases h

/-- The messages a flush collects from rows none of which ends it. -/
def batchOf (rows : List Row) : List Valid := rows.filterMap fun row => row.upload.toOption.join

theorem batchOf_cons_none {row : Row} {rows : List Row} (h : row.upload = .ok none) :
    batchOf (row :: rows) = batchOf rows := by
  rw [batchOf, List.filterMap_cons, h]
  rfl

theorem batchOf_cons_some {row : Row} {rows : List Row} {valid : Valid}
    (h : row.upload = .ok (some valid)) : batchOf (row :: rows) = valid :: batchOf rows := by
  rw [batchOf, List.filterMap_cons, h]
  rfl

theorem mem_batchOf {rows : List Row} {valid : Valid} :
    valid ∈ batchOf rows ↔ ∃ row ∈ rows, row.upload = .ok (some valid) := by
  rw [batchOf, List.mem_filterMap]
  apply exists_congr
  intro row
  apply and_congr_right
  intro _
  cases row.upload with
  | error e => simp [Except.toOption]
  | ok verdict => simp [Except.toOption]

/-- The valid messages of a window, or a row that ends the flush. -/
theorem validItems_window {rows : List Row} {messages : List Message}
    (h : rows.mapM Row.message = .ok messages) :
    match validItems messages with
    | .ok valid => (∀ row ∈ rows, ∃ verdict, row.upload = .ok verdict) ∧ valid = batchOf rows
    | .error _ => ∃ row ∈ rows, poisonous row.upload = true := by
  induction rows generalizing messages with
  | nil =>
    cases h
    exact ⟨by simp, rfl⟩
  | cons row rows ih =>
    rw [List.mapM_cons] at h
    obtain ⟨message, hmessage, h⟩ := bind_eq_ok.mp h
    obtain ⟨rest, hrest, h⟩ := bind_eq_ok.mp h
    cases h
    have hupload : row.upload = validItem message := by
      rw [Row.upload, hmessage]
      rfl
    have ih := ih hrest
    rw [validItems]
    cases hverdict : validItem message with
    | error e =>
      refine ⟨row, List.mem_cons_self, ?_⟩
      rw [hupload, hverdict]
      rfl
    | ok verdict =>
      cases hvalid : validItems rest with
      | error e =>
        rw [hvalid] at ih
        obtain ⟨row', hrow', hpoison⟩ := ih
        cases verdict <;>
          exact ⟨row', List.mem_cons_of_mem _ hrow', hpoison⟩
      | ok valid =>
        rw [hvalid] at ih
        obtain ⟨hall, rfl⟩ := ih
        have hall' : ∀ row' ∈ row :: rows, ∃ verdict, row'.upload = .ok verdict := by
          rw [List.forall_mem_cons]
          exact ⟨⟨verdict, hupload.trans hverdict⟩, hall⟩
        cases verdict with
        | none => exact ⟨hall', (batchOf_cons_none (hupload.trans hverdict)).symm⟩
        | some v => exact ⟨hall', (batchOf_cons_some (hupload.trans hverdict)).symm⟩

/-- A window without valid messages has no deliverable row. -/
theorem undeliverable_of_not_valid {R : Set (ℤ × ℤ)} [DecidablePred (· ∈ R)] {rows : List Row}
    (h : ∀ row ∈ rows, ∃ verdict, row.upload = .ok verdict) (hnone : batchOf rows = []) {row : Row}
    (hrow : row ∈ rows) : deliverable R row.upload = false := by
  obtain ⟨verdict, hverdict⟩ := h row hrow
  cases verdict with
  | none =>
    rw [hverdict]
    rfl
  | some valid =>
    have hmem : valid ∈ batchOf rows := mem_batchOf.mpr ⟨row, hrow, hverdict⟩
    rw [hnone] at hmem
    cases hmem

/-- A window that is collected is poisonous exactly where it holds a value that cannot be
encoded. -/
theorem poison_iff_infinite {rows : List Row}
    (h : ∀ row ∈ rows, ∃ verdict, row.upload = .ok verdict) :
    (∃ row ∈ rows, poisonous row.upload = true) ↔
      ∃ message ∈ batchOf rows, message.2.value.isFinite = false := by
  constructor
  · rintro ⟨row, hrow, hpoison⟩
    obtain ⟨verdict, hverdict⟩ := h row hrow
    rw [hverdict] at hpoison
    cases verdict with
    | none => cases hpoison
    | some message =>
      refine ⟨message, mem_batchOf.mpr ⟨row, hrow, hverdict⟩, ?_⟩
      simpa [poisonous] using hpoison
  · rintro ⟨message, hmessage, hvalue⟩
    obtain ⟨row, hrow, hupload⟩ := mem_batchOf.mp hmessage
    refine ⟨row, hrow, ?_⟩
    rw [hupload]
    simpa [poisonous] using hvalue

/-- The ids of the messages accepted are those of the deliverable rows of the window. -/
theorem accepted_ids (R : Set (ℤ × ℤ)) [DecidablePred (· ∈ R)] {pairs : List (ℤ × ℤ)}
    {rows : List Row}
    (h : ∀ row ∈ rows, ∃ verdict, row.upload = .ok verdict)
    (hpairs : ∀ valid ∈ batchOf rows, valid.2.pair ∈ pairs ↔ valid.2.pair ∈ R) :
    ((batchOf rows).filter fun valid => valid.2.pair ∉ pairs).map Prod.fst =
      ((rows.map Row.essence).filter fun e => deliverable R e.2).map Prod.fst := by
  induction rows with
  | nil => rfl
  | cons row rows ih =>
    obtain ⟨⟨verdict, hverdict⟩, hrows⟩ := List.forall_mem_cons.mp h
    have hessence : row.essence = (row.messageId, .ok verdict) := by rw [Row.essence, hverdict]
    cases verdict with
    | none =>
      rw [batchOf_cons_none hverdict] at hpairs ⊢
      rw [ih hrows hpairs, List.map_cons, hessence, List.filter_cons_of_neg (by simp [deliverable])]
    | some valid =>
      rw [batchOf_cons_some hverdict] at hpairs ⊢
      obtain ⟨hfirst, hrest⟩ := List.forall_mem_cons.mp hpairs
      have ih := ih hrows hrest
      rw [List.map_cons, hessence]
      by_cases hin : valid.2.pair ∈ R
      · rw [List.filter_cons_of_neg (by simp [hfirst.mpr hin]),
          List.filter_cons_of_neg (by simp [deliverable, hin]), ih]
      · rw [List.filter_cons_of_pos (by simp [mt hfirst.mp hin]),
          List.filter_cons_of_pos (by simp [deliverable, hin]), List.map_cons, List.map_cons, ih,
          Row.upload_fst hverdict]

end window

section flush

variable {R : Set (ℤ × ℤ)} (backend : Backend R) (clock : ℕ → String)

def Uplink.serves (s : Uplink) (o : FlushCall) (r : o.Answer) (s' : Uplink) : Prop :=
  s.answer backend clock o = (r, s')

theorem settle_backlog (pairs : List (ℤ × ℤ)) (valid : List Valid) (s : Uplink) :
    (Prog.forEach valid (settle pairs)).wlp (Uplink.serves backend clock) (fun out s' => out = .ok () ∧
      s'.queue.backlog = s.queue.backlog.filter fun e =>
        e.1 ∉ (valid.filter fun message => message.2.pair ∉ pairs).map Prod.fst) s := by
  let ids (rest : List Valid) : List String :=
    (rest.filter fun message => message.2.pair ∉ pairs).map Prod.fst
  let J (rest : List Valid) (s' : Uplink) : Prop :=
    (s'.queue.backlog.filter fun e => e.1 ∉ ids rest) = s.queue.backlog.filter fun e => e.1 ∉ ids valid
  refine Prog.wlp_mono ?_ (Prog.wlp_forEach (J := J) ?_ rfl)
  · rintro out s' ⟨hout, hJ⟩
    refine ⟨hout, ?_⟩
    have hnone : (s'.queue.backlog.filter fun e => e.1 ∉ ids []) = s'.queue.backlog := by simp [ids]
    rw [← hnone]
    exact hJ
  · intro message rest s₁ hJ
    by_cases hrejected : message.2.pair ∈ pairs
    · rw [settle, if_pos hrejected]
      rintro r s₂ hs
      obtain ⟨-, rfl⟩ := Prod.mk.inj hs
      refine ⟨rfl, ?_⟩
      have hids : ids (message :: rest) = ids rest := by simp [ids, hrejected]
      simpa only [J, hids, Queue.backlog_markMessageFailed] using hJ
    · rw [settle, if_neg hrejected]
      rintro r s₂ hs
      obtain ⟨-, rfl⟩ := Prod.mk.inj hs
      refine ⟨rfl, ?_⟩
      have hids : ids (message :: rest) = message.1 :: ids rest := by simp [ids, hrejected]
      simp only [J, hids] at hJ ⊢
      rw [Queue.backlog_markMessageSent, List.filter_filter, ← hJ]
      apply List.filter_congr
      intro e _
      by_cases hsent : e.1 = message.1
      · simp [hsent]
      · simp [hsent]

/-- A failed attempt leaves the backlog as it is. -/
theorem markFailed_backlog (valid : List Valid) (errorMessage : String) (s : Uplink) :
    (Prog.forEach valid fun message => perform (.markMessageFailed message.1 errorMessage)).wlp
      (Uplink.serves backend clock)
      (fun out s' => out = .ok () ∧ s'.queue.backlog = s.queue.backlog) s := by
  let J (_ : List Valid) (s' : Uplink) : Prop := s'.queue.backlog = s.queue.backlog
  refine Prog.wlp_forEach (J := J) ?_ rfl
  intro message rest s₁ hJ r s₂ hs
  obtain ⟨-, rfl⟩ := Prod.mk.inj hs
  exact ⟨rfl, (Queue.backlog_markMessageFailed _ _ _ _).trans hJ⟩

variable [DecidablePred (· ∈ R)]

variable (R) in
/-- The backlog after a flush. -/
def Queue.swept (q : Queue) : List (String × PyExcept (Option Valid)) :=
  sweep (fun e => deliverable R e.2) (fun e => poisonous e.2) 500 q.backlog

theorem take_backlog (q : Queue) : q.backlog.take 500 = (q.pending.take 500).map Row.essence :=
  List.map_take.symm

theorem swept_of_poison {q : Queue} (h : ∃ row ∈ q.pending.take 500, poisonous row.upload = true) :
    q.swept R = q.backlog := by
  obtain ⟨row, hrow, hpoison⟩ := h
  apply sweep_eq_self
  refine .inl ⟨row.essence, ?_, hpoison⟩
  rw [take_backlog]
  exact List.mem_map_of_mem hrow

theorem swept_of_undeliverable {q : Queue}
    (h : ∀ row ∈ q.pending.take 500, deliverable R row.upload = false) : q.swept R = q.backlog := by
  apply sweep_eq_self
  refine .inr fun e he => ?_
  rw [take_backlog] at he
  obtain ⟨row, hrow, rfl⟩ := List.mem_map.mp he
  exact h row hrow

/-- Marking the deliverable rows of a harmless window sent is a sweep. -/
theorem swept_of_harmless {q : Queue}
    (h : ¬ ∃ row ∈ q.pending.take 500, poisonous row.upload = true) :
    (q.backlog.filter fun e =>
        e.1 ∉ ((q.backlog.take 500).filter fun e => deliverable R e.2).map Prod.fst) = q.swept R := by
  have hclear : ¬ (q.backlog.take 500).any (fun e => poisonous e.2) = true := by
    rw [take_backlog, List.any_map, List.any_eq_true]
    exact h
  -- marking by id removes no row behind the window, since ids are unique
  have hunique := q.backlog_unique
  rw [← List.take_append_drop 500 q.backlog] at hunique
  have hleft : ((q.backlog.take 500 ++ q.backlog.drop 500).filter fun e =>
      e.1 ∉ ((q.backlog.take 500).filter fun e => deliverable R e.2).map Prod.fst) = _ :=
    filter_not_mem_map hunique
  rw [List.take_append_drop] at hleft
  rw [hleft, Queue.swept, sweep, if_neg hclear, kept]

/-- The request of a flush and what follows it, once the window's valid messages are collected. -/
theorem request_backlog {q : Queue} {s : Uplink} (hs : s.queue.backlog = q.backlog)
    (h : ∀ row ∈ q.pending.take 500, ∃ verdict, row.upload = .ok verdict) :
    ((perform (.postTelemetryBatch (batchOf (q.pending.take 500)))).bind
      (settleBatch (batchOf (q.pending.take 500)))).wlp
      (Uplink.serves backend clock) (fun _ s' => s'.queue.backlog = q.swept R) s := by
  have hpoison := poison_iff_infinite h
  rintro r s₁ hr
  obtain ⟨rfl, rfl⟩ := Prod.mk.inj hr
  by_cases hfinite :
      ((batchOf (q.pending.take 500)).all fun message => message.2.value.isFinite) = true
  · obtain ⟨pairs, hrejects, hpairs⟩ :=
      backend.rejects s.calls ((batchOf (q.pending.take 500)).map Prod.snd)
    have hharmless : ¬ ∃ row ∈ q.pending.take 500, poisonous row.upload = true := by
      rw [hpoison]
      simpa using hfinite
    have hids : ((batchOf (q.pending.take 500)).filter fun message =>
        message.2.pair ∉ pairs).map Prod.fst =
        ((q.backlog.take 500).filter fun e => deliverable R e.2).map Prod.fst := by
      rw [take_backlog]
      exact accepted_ids R h fun message hmessage => hpairs message.2 (List.mem_map_of_mem hmessage)
    rw [if_pos hfinite]
    show ((Prog.ofExcept (rejectedPairs (backend.reply s.calls _))).bind
      fun pairs => Prog.forEach _ (settle pairs)).wlp _ _ _
    rw [rejectedPairs_of_rejects hrejects]
    refine Prog.wlp_mono ?_ (settle_backlog backend clock pairs _ _)
    rintro _ s' ⟨-, hs'⟩
    rw [hs', hids, ← swept_of_harmless hharmless]
    show (s.queue.backlog.filter _) = _
    rw [hs]
  · -- the value that cannot be encoded comes from a row of the window
    have hfatal : ∃ row ∈ q.pending.take 500, poisonous row.upload = true := by
      rw [hpoison]
      simpa using hfinite
    rw [if_neg hfinite]
    show (Prog.forEach _ _).wlp _ _ _
    refine Prog.wlp_mono ?_ (markFailed_backlog backend clock _ _ _)
    rintro _ s' ⟨-, hs'⟩
    rw [hs', swept_of_poison hfatal]
    exact hs

/-- A flush sweeps its window. -/
theorem flush_backlog (s : Uplink) :
    (s.flush backend clock).queue.backlog = s.queue.swept R := by
  have hspec : flushPendingBatch.wlp (Uplink.serves backend clock)
      (fun _ s' => s'.queue.backlog = s.queue.swept R) s := by
    rw [flushPendingBatch_eq]
    intro r s₁ hr
    obtain ⟨rfl, rfl⟩ := Prod.mk.inj hr
    let J (s' : Uplink) : Prop := s'.queue.backlog = s.queue.backlog
    show (afterFetch ((s.queue.pending.take 500).mapM Row.message)).wlp _ _ _
    cases hmessages : (s.queue.pending.take 500).mapM Row.message with
    | error e =>
      -- an error that is no JSONDecodeError leaves the fetch, before any mark is made
      exact (swept_of_poison (poison_of_message_error hmessages)).symm
    | ok messages =>
      have hwindow := validItems_window hmessages
      by_cases hempty : messages = []
      · subst hempty
        obtain ⟨hall, hnone⟩ := hwindow
        rw [afterFetch_nil]
        refine (swept_of_undeliverable fun row hrow => ?_).symm
        exact undeliverable_of_not_valid hall hnone.symm hrow
      · have hmark (s₁ : Uplink) (o : FlushCall) (r : o.Answer) (s₂ : Uplink) (ho : MarksFailed o)
            (hJ : J s₁) (hs : s₁.serves backend clock o r s₂) : J s₂ := by
          obtain ⟨messageId, errorMessage, rfl⟩ := ho
          obtain ⟨-, rfl⟩ := Prod.mk.inj hs
          exact (Queue.backlog_markMessageFailed _ _ _ _).trans hJ
        rw [afterFetch_ok hempty]
        refine Prog.wlp_bind (Prog.wlp_mono ?_
          (Prog.wlp_of_only (J := J) (collectItems_only messages) hmark rfl))
        rintro (e | valid) s₁ ⟨hJ, hout⟩
        · rw [hout] at hwindow
          exact hJ.trans (swept_of_poison hwindow).symm
        · rw [hout] at hwindow
          obtain ⟨hall, hvalid⟩ := hwindow
          show (if valid = [] then Prog.pure () else _).wlp _ _ _
          by_cases hnone : valid = []
          · rw [if_pos hnone]
            refine hJ.trans (swept_of_undeliverable fun row hrow => ?_).symm
            exact undeliverable_of_not_valid hall (hvalid.symm.trans hnone) hrow
          · rw [if_neg hnone, hvalid]
            exact request_backlog backend clock hJ hall
  exact (Prog.runs_eval (fun _ _ => rfl) flushPendingBatch s).wlp hspec

theorem iterate_flush_backlog (s : Uplink) (n : ℕ) :
    ((Uplink.flush backend clock)^[n] s).queue.backlog =
      (sweep (fun e => deliverable R e.2) (fun e => poisonous e.2) 500)^[n] s.queue.backlog := by
  have hcomm : Function.Semiconj (fun s : Uplink => s.queue.backlog) (Uplink.flush backend clock)
      (sweep (fun e => deliverable R e.2) (fun e => poisonous e.2) 500) := flush_backlog backend clock
  exact hcomm.iterate_right n s

/-- No message with a valid payload and a pair outside `R` is still pending. -/
def Delivered (R : Set (ℤ × ℤ)) [DecidablePred (· ∈ R)] (q : Queue) : Prop :=
  ∀ row ∈ q.pending, deliverable R row.upload = false

/-- As many flushes as there are pending rows deliver everything deliverable exactly where nothing
blocks the queue: while a deliverable row is still to come, fewer than 500 undeliverable ones are
ahead, and no row the next flush comes to makes it fail. -/
theorem delivered_iff_unblocked (q : Queue) (calls : ℕ) :
    (∃ n ≤ q.pending.length, Delivered R ((Uplink.flush backend clock)^[n] ⟨q, calls⟩).queue) ↔
      Unblocked (fun row : Row => deliverable R row.upload) (fun row => poisonous row.upload) 500
        q.pending := by
  rw [← cleared_iff_unblocked]
  apply exists_congr
  intro n
  have hbacklog : ((Uplink.flush backend clock)^[n] ⟨q, calls⟩).queue.pending.map Row.essence =
      ((sweep (fun row : Row => deliverable R row.upload) (fun row => poisonous row.upload) 500)^[n]
        q.pending).map Row.essence :=
    (iterate_flush_backlog backend clock ⟨q, calls⟩ n).trans
      (iterate_sweep_map Row.essence n q.pending)
  have hrows (rows : List Row) : (∀ row ∈ rows, deliverable R row.upload = false) ↔
      ∀ e ∈ rows.map Row.essence, deliverable R e.2 = false := by
    rw [List.forall_mem_map]
    rfl
  rw [Delivered, hrows, hbacklog, ← hrows]

theorem iterate_flush_stuck {s : Uplink} (h : s.queue.swept R = s.queue.backlog) (n : ℕ) :
    ((Uplink.flush backend clock)^[n] s).queue.backlog = s.queue.backlog := by
  rw [iterate_flush_backlog]
  exact Function.iterate_fixed h n

end flush

section outage

/-! A tag was deleted in the cloud during an outage: after `size` readings of it comes one of a tag
that is still there. -/

variable (size : ℕ)

def outageRow (i : ℕ) : Row :=
  .queued (i + 1) (String.ofList (List.replicate i '0')) 1 (if i < size then 10 else 11) (.finite 1)
    "good" "" ""

def outage : Queue where
  rows := (List.range (size + 1)).map (outageRow size)
  sequence := size + 1
  sorted := by
    rw [List.map_map]
    exact List.pairwise_map.mpr (List.pairwise_lt_range.imp fun h => Nat.succ_lt_succ h)
  bounded := by
    intro row hrow
    obtain ⟨i, hi, rfl⟩ := List.mem_map.mp hrow
    exact List.mem_range.mp hi
  unique := by
    rw [List.map_map]
    refine List.nodup_range.map fun i j h => ?_
    have hlength := congrArg List.length (String.ofList_inj.mp h)
    simpa using hlength

def deletedTag : Set (ℤ × ℤ) := {(1, 10)}

instance : DecidablePred (· ∈ deletedTag) := fun pair => decidable_of_iff (pair = (1, 10)) Iff.rfl

/-- A cloud that rejects the readings of the deleted tag. -/
def deletingCloud : Backend deletedTag where
  reply _ _ := rejectionBody [(1, 10)]
  rejects _ _ := ⟨[(1, 10)], rejects_rejectionBody _, fun item _ => by simp [deletedTag]⟩

theorem outageRow_deliverable (i : ℕ) :
    deliverable deletedTag (outageRow size i).upload = decide (size ≤ i) := by
  have hintact : (outageRow size i).Intact := ⟨by simp [outageRow, Row.queued], rfl⟩
  obtain ⟨message, hmessage, hvalid⟩ := hintact.message
  have hupload : (outageRow size i).upload = .ok (some (outageRow size i).entry) := by
    rw [Row.upload, hmessage]
    exact hvalid
  rw [hupload]
  by_cases hi : i < size
  · simp [deliverable, Row.entry, Row.reading, Item.pair, outageRow, Row.queued, hi, deletedTag]
  · simp [deliverable, Row.entry, Row.reading, Item.pair, outageRow, Row.queued, hi, deletedTag]
    omega

theorem pending_outage : (outage size).pending = (List.range (size + 1)).map (outageRow size) := by
  apply List.filter_eq_self.mpr
  intro row hrow
  obtain ⟨i, -, rfl⟩ := List.mem_map.mp hrow
  rfl

theorem outage_swept (h : 500 ≤ size) : (outage size).swept deletedTag = (outage size).backlog := by
  apply swept_of_undeliverable
  intro row hrow
  rw [pending_outage, ← List.map_take, List.take_range] at hrow
  obtain ⟨i, hi, rfl⟩ := List.mem_map.mp hrow
  have hi := List.mem_range.mp hi
  rw [outageRow_deliverable, decide_eq_false_iff_not]
  omega

theorem outage_stays (h : 500 ≤ size) (clock : ℕ → String) (calls n : ℕ) :
    ¬ Delivered deletedTag ((Uplink.flush deletingCloud clock)^[n] ⟨outage size, calls⟩).queue := by
  intro hn
  have hlast : (outageRow size size).essence ∈ (outage size).backlog := by
    rw [Queue.backlog, pending_outage]
    exact List.mem_map_of_mem (List.mem_map_of_mem (List.mem_range.mpr (Nat.lt_succ_self size)))
  have hstuck : ((Uplink.flush deletingCloud clock)^[n] ⟨outage size, calls⟩).queue.backlog =
      (outage size).backlog := iterate_flush_stuck deletingCloud clock (outage_swept size h) n
  rw [← hstuck] at hlast
  obtain ⟨row, hrow, hessence⟩ := List.mem_map.mp hlast
  have hdelivered := hn row hrow
  have hupload : row.upload = (outageRow size size).upload := congrArg Prod.snd hessence
  rw [hupload, outageRow_deliverable, decide_eq_false_iff_not] at hdelivered
  exact hdelivered le_rfl

/-- A full window of rejected readings keeps the reading behind it waiting for ever. -/
theorem blocked_by_deleted_tag :
    ¬ ∀ (R : Set (ℤ × ℤ)) [DecidablePred (· ∈ R)] (backend : Backend R) (clock : ℕ → String)
      (q : Queue) (calls : ℕ), ∃ n ≤ q.pending.length,
        Delivered R ((Uplink.flush backend clock)^[n] ⟨q, calls⟩).queue := by
  intro h
  obtain ⟨n, -, hn⟩ := h deletedTag deletingCloud (fun _ => "") (outage 500) 0
  exact outage_stays 500 le_rfl (fun _ => "") 0 n hn

end outage

end SenseGateway.Buffer

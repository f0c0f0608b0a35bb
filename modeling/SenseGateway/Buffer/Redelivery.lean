import SenseGateway.Buffer.StoreForward
import SenseGateway.Effects.Lapses
import SenseGateway.Queues.Succession

namespace SenseGateway.Buffer

open Python Effects Queues

/-- The response says nothing about the messages of the batch: the request failed, or the list of
rejected pairs cannot be read. -/
def Inconclusive : PyExcept Json → Prop
  | .error _ => True
  | .ok body => ∃ e, rejectedPairs body = .error e

/-- The queue over a network and a process that fail. `world.accepted` is what the cloud has taken
in, in the order of arrival; a batch whose request came to no conclusion may still be under way.
The counters only count: batches that arrived after their request was given up, and the ends of
the process. -/
structure Relay where
  world : World
  underWay : List (List Valid)
  late : ℕ
  ended : ℕ

namespace Relay

def initial : Relay := ⟨.initial, [], 0, 0⟩

/-- A request that came to no conclusion was lost, or its batch is under way. -/
def Strays (w : Relay) : (o : FlushCall) → o.Answer → Relay → Prop
  | .postTelemetryBatch valid, r, w' =>
    Inconclusive r ∧ (w' = w ∨ w' = { w with underWay := w.underWay ++ [valid] })
  | _, _, _ => False

def serves (w : Relay) (o : FlushCall) (r : o.Answer) (w' : Relay) : Prop :=
  (∃ world, w.world.serves o r world ∧ w' = { w with world }) ∨ w.Strays o r w'

/-- The backend takes in what it does not reject of a batch. -/
def takeIn (w : Relay) (batch : List Valid) (pairs : List (ℤ × ℤ)) : Relay :=
  let accepted := w.world.accepted ++ batch.filter fun message => message.2.pair ∉ pairs
  { w with world := { w.world with accepted } }

/-- A batch that was under way arrives. -/
def Arrives (w w' : Relay) : Prop :=
  ∃ before batch after pairs, w.underWay = before ++ batch :: after ∧
    w' = { w.takeIn batch pairs with underWay := before ++ after, late := w.late + 1 }

/-- What happens beside a flush: the queue is used as before, or a batch arrives late. -/
def Drifts (w w' : Relay) : Prop :=
  (∃ world, w.world.Drifts world ∧ w' = { w with world }) ∨ w.Arrives w'

/-- The process ends: the queue is a file and stays, and so does what is under way. -/
def kill (w : Relay) : Relay := { w with ended := w.ended + 1 }

end Relay

abbrev RelayConfig := Config flushCalls PyError Unit Relay

def relay : Machine flushCalls PyError Unit Relay :=
  ⟨fun _ => Relay.serves, fun _ => Relay.Drifts, fun _ p => p = flushPendingBatch⟩

def relayStart : RelayConfig := ⟨.initial, fun _ => none⟩

/-- The pending messages, oldest first. -/
def World.waiting (w : World) : List Valid := w.queue.pending.map Row.entry

theorem World.waiting_markMessageSent (w : World) (messageId now : String) :
    World.waiting { w with queue := w.queue.markMessageSent messageId now } =
      w.waiting.filter fun message => message.1 ≠ messageId := by
  rw [waiting, waiting, Queue.pending_markMessageSent, List.filter_map]
  rfl

/-- What holds of the queue, of what is under way and of what the cloud has. -/
structure Conveyed (w : Relay) : Prop where
  unique : (w.world.enqueued.map Prod.fst).Nodup
  intact : ∀ row ∈ w.world.queue.rows, row.Intact
  last : ∀ pair, lane pairOf pair w.world.waiting <:+ lane pairOf pair w.world.enqueued
  taken : ∀ message ∈ w.world.enqueued, message ∉ w.world.waiting → message ∈ w.world.accepted
  known : w.world.accepted ⊆ w.world.enqueued
  succession : InSuccession pairOf w.world.enqueued w.world.accepted
  underWay : ∀ batch ∈ w.underWay,
    Continues pairOf w.world.enqueued w.world.accepted batch ∧ (batch.map Prod.fst).Nodup

/-- How often the cloud has taken in a message. -/
def Relay.taken (w : Relay) (messageId : String) : ℕ :=
  (w.world.accepted.map Prod.fst).count messageId

/-- What holds wherever a flush is: what it still marks was taken in, and a message that it will
leave pending was only taken in by mishap. -/
structure Covered (w : Relay) (l : Progress) : Prop extends Conveyed w where
  batch : l.batch <+: w.world.waiting
  marks : ∃ marked : List Valid, marked.map Prod.fst = l.marks ∧ marked ⊆ w.world.accepted ∧
    ∀ pair, lane pairOf pair marked <+: lane pairOf pair w.world.waiting
  counted : ∀ messageId, w.taken messageId ≤ w.late + w.ended + 1
  unsettled : ∀ messageId ∈ w.world.waiting.map Prod.fst, messageId ∉ l.marks →
    w.taken messageId ≤ w.late + w.ended

namespace Conveyed

variable {w : Relay}

theorem initial : Conveyed .initial where
  unique := by simp [Relay.initial, World.initial]
  intact := by simp [Relay.initial, World.initial, Queue.empty]
  last _ := List.suffix_refl _
  taken := by simp [Relay.initial, World.initial]
  known := List.Subset.refl _
  succession := .nil
  underWay := by simp [Relay.initial]

/-- A change of the queue that leaves the pending messages as they are. -/
theorem sameWaiting (h : Conveyed w) {queue : Queue}
    (hwaiting : queue.pending.map Row.entry = w.world.waiting)
    (hintact : ∀ row ∈ queue.rows, row.Intact) :
    Conveyed { w with world := { w.world with queue } } := by
  have hsame : World.waiting { w.world with queue } = w.world.waiting := hwaiting
  refine { h with intact := hintact, last := ?_, taken := ?_ }
  · simpa only [hsame] using h.last
  · simpa only [hsame] using h.taken

/-- What is taken from the front of the pending messages goes on where it should. -/
theorem continues (h : Conveyed w) {batch : List Valid} (hbatch : batch <+: w.world.waiting) :
    Continues pairOf w.world.enqueued w.world.accepted batch :=
  .of_front h.unique.of_map h.last h.taken hbatch

theorem waiting_unique : (w.world.waiting.map Prod.fst).Nodup := by
  rw [World.waiting, List.map_map]
  exact w.world.queue.pending_unique

/-- What is stored goes to the end of its lane. -/
theorem enqueued (h : Conveyed w) {world : World} (hw : w.world.Enqueues world) :
    Conveyed { w with world } := by
  obtain ⟨message, hnew, henqueued, haccepted, hwaiting, hintact⟩ := hw.appended
  have hfresh : message ∉ w.world.accepted := fun hm =>
    hnew (List.mem_map_of_mem (h.known hm))
  refine ⟨?_, hintact h.intact, fun pair => ?_, fun m hm hnot => ?_, fun m hm => ?_, ?_,
    fun batch hbatch => ⟨?_, (h.underWay batch hbatch).2⟩⟩
  · rw [henqueued]
    exact nodup_ids_append h.unique hnew
  · obtain ⟨ahead, hahead⟩ := h.last pair
    rw [World.waiting, hwaiting, henqueued]
    refine ⟨ahead, ?_⟩
    rw [lane_append, lane_append, ← List.append_assoc, ← World.waiting, hahead]
  · rw [World.waiting, hwaiting, List.mem_append, not_or] at hnot
    rw [henqueued] at hm
    rw [haccepted]
    rcases List.mem_append.mp hm with hm | hm
    · exact h.taken m hm hnot.1
    · exact absurd hm hnot.2
  · rw [haccepted] at hm
    rw [henqueued]
    exact List.mem_append_left _ (h.known hm)
  · rw [henqueued, haccepted]
    exact h.succession.enter hfresh
  · rw [henqueued, haccepted]
    exact (h.underWay batch hbatch).1.enter _

/-- Once the oldest message of a lane is marked, the lanes lose just this message. -/
theorem lanes_without {oldest : Valid} {marked : List Valid}
    (hfront : ∀ pair, lane pairOf pair (oldest :: marked) <+: lane pairOf pair w.world.waiting)
    (pair : ℤ × ℤ) : lane pairOf pair w.world.waiting = lane pairOf pair [oldest] ++
      lane pairOf pair (w.world.waiting.filter fun message => message.1 ≠ oldest.1) := by
  have hlane : lane pairOf (pairOf oldest) (oldest :: marked) =
      [oldest] ++ lane pairOf (pairOf oldest) marked := by simp [lane]
  have hfirst : [oldest] <+: lane pairOf (pairOf oldest) w.world.waiting :=
    (hlane ▸ List.prefix_append _ _ : [oldest] <+: _).trans (hfront (pairOf oldest))
  exact lane_without_first waiting_unique hfirst pair

/-- An accepted message may go, where it is the oldest of its lane. -/
theorem markedSent (h : Conveyed w) {oldest : Valid} (now : String)
    (haccepted : oldest ∈ w.world.accepted)
    (hlanes : ∀ pair, lane pairOf pair w.world.waiting = lane pairOf pair [oldest] ++
      lane pairOf pair (w.world.waiting.filter fun message => message.1 ≠ oldest.1)) :
    Conveyed { w with world := { w.world with
      queue := w.world.queue.markMessageSent oldest.1 now } } := by
  have hwaiting := w.world.waiting_markMessageSent oldest.1 now
  refine { h with
    intact := intact_markMessageSent h.intact _ _
    last := fun pair => ?_
    taken := fun message hm hnot => ?_ }
  · rw [hwaiting]
    exact List.IsSuffix.trans ⟨_, (hlanes pair).symm⟩ (h.last pair)
  · rw [hwaiting] at hnot
    by_cases hin : message ∈ w.world.waiting
    · have hid : message.1 = oldest.1 := by simpa [hin] using hnot
      obtain rfl : message = oldest := List.inj_on_of_nodup_map h.unique hm (h.known haccepted) hid
      exact haccepted
    · exact h.taken message hm hin

/-- Whatever arrives, the pairs of the backend decide over whole lanes. -/
theorem takeIn (h : Conveyed w) {batch : List Valid} (pairs : List (ℤ × ℤ))
    (hbatch : Continues pairOf w.world.enqueued w.world.accepted batch) :
    Conveyed (w.takeIn batch pairs) := by
  have hkept : Continues pairOf w.world.enqueued w.world.accepted
      (batch.filter fun message => message.2.pair ∉ pairs) :=
    hbatch.filter_key fun pair => decide (pair ∉ pairs)
  exact { h with
    taken := fun message hm hnot => List.mem_append_left _ (h.taken message hm hnot)
    known := List.append_subset.mpr ⟨h.known, fun message hm => hkept.mem_entered hm⟩
    succession := h.succession.append h.unique.of_map hkept
    underWay := fun other hother =>
      ⟨(h.underWay other hother).1.mono (List.subset_append_left _ _), (h.underWay other hother).2⟩ }

end Conveyed

theorem Relay.taken_takeIn (w : Relay) (batch : List Valid) (pairs : List (ℤ × ℤ))
    (messageId : String) : (w.takeIn batch pairs).taken messageId = w.taken messageId +
      ((batch.filter fun message => message.2.pair ∉ pairs).map Prod.fst).count messageId := by
  rw [taken, taken, takeIn, List.map_append, List.count_append]

/-- A batch counts once for each of its messages. -/
theorem Relay.taken_takeIn_le (w : Relay) {batch : List Valid} (pairs : List (ℤ × ℤ))
    (hbatch : (batch.map Prod.fst).Nodup) (messageId : String) :
    (w.takeIn batch pairs).taken messageId ≤ w.taken messageId + 1 := by
  have hkept : ((batch.filter fun message => message.2.pair ∉ pairs).map Prod.fst).Nodup :=
    hbatch.sublist (List.filter_sublist.map _)
  rw [taken_takeIn]
  exact Nat.add_le_add_left (List.nodup_iff_count_le_one.mp hkept messageId) _

namespace Covered

variable {w : Relay} {l : Progress}

theorem initial : Covered .initial ⟨[], []⟩ where
  toConveyed := .initial
  batch := List.nil_prefix
  marks := ⟨[], rfl, List.nil_subset _, fun _ => List.nil_prefix⟩
  counted := by simp [Relay.taken, Relay.initial, World.initial]
  unsettled := by simp [Relay.taken, Relay.initial, World.initial]

/-- The end of the process forgets what was to be marked. -/
theorem killed (h : Covered w l) : Covered w.kill ⟨[], []⟩ where
  toConveyed := { h.toConveyed with }
  batch := List.nil_prefix
  marks := ⟨[], rfl, List.nil_subset _, fun _ => List.nil_prefix⟩
  counted messageId := (h.counted messageId).trans (Nat.le_succ _)
  unsettled messageId _ _ := h.counted messageId

theorem sameWaiting (h : Covered w l) {queue : Queue}
    (hwaiting : queue.pending.map Row.entry = w.world.waiting)
    (hintact : ∀ row ∈ queue.rows, row.Intact) :
    Covered { w with world := { w.world with queue } } l := by
  have hsame : World.waiting { w.world with queue } = w.world.waiting := hwaiting
  refine ⟨h.toConveyed.sameWaiting hwaiting hintact, ?_, ?_, h.counted, fun id hid hno => ?_⟩
  · simpa only [hsame] using h.batch
  · simpa only [hsame] using h.marks
  · exact h.unsettled id (hsame ▸ hid) hno

theorem deleted (h : Covered w l) (keepLatest : ℤ) :
    Covered { w with world := { w.world with
      queue := (w.world.queue.deleteSentMessages keepLatest).1 } } l :=
  h.sameWaiting (congrArg _ (w.world.queue.pending_deleteSentMessages keepLatest))
    fun row hrow => h.intact row (List.mem_filter.mp hrow).1

theorem markedFailed (h : Covered w l) (messageId errorMessage now : String) :
    Covered { w with world := { w.world with
      queue := w.world.queue.markMessageFailed messageId errorMessage now } } l :=
  h.sameWaiting (entries_markMessageFailed _ _ _ _) (intact_markMessageFailed h.intact _ _ _)

theorem enqueued (h : Covered w l) {world : World} (hw : w.world.Enqueues world) :
    Covered { w with world } l := by
  obtain ⟨message, hnew, -, haccepted, hwaiting, -⟩ := hw.appended
  have hfresh : message.1 ∉ w.world.accepted.map Prod.fst := fun hm =>
    hnew (List.map_subset _ h.known hm)
  have htaken (id : String) : Relay.taken { w with world } id = w.taken id := by
    rw [Relay.taken, Relay.taken, haccepted]
  obtain ⟨marked, hmarked, hmarks, hfront⟩ := h.marks
  refine ⟨h.toConveyed.enqueued hw, ?_, ⟨marked, hmarked, ?_, fun pair => ?_⟩, fun id => ?_,
    fun id hid hno => ?_⟩
  · rw [World.waiting, hwaiting]
    exact h.batch.trans (List.prefix_append _ _)
  · rwa [haccepted]
  · rw [World.waiting, hwaiting, lane_append]
    exact (hfront pair).trans (List.prefix_append _ _)
  · rw [htaken]
    exact h.counted id
  · rw [World.waiting, hwaiting, List.map_append, List.mem_append] at hid
    rw [htaken]
    rcases hid with hid | hid
    · exact h.unsettled id hid hno
    · -- a new message has not been taken in at all
      obtain rfl : id = message.1 := by simpa using hid
      exact (List.count_eq_zero.mpr hfresh).le.trans (Nat.zero_le _)

theorem fetched (h : Covered w l) (hl : l.marks = []) (limit : ℤ) :
    Covered w (flushProtocol.next l (.getPendingMessages limit)
      (w.world.queue.getPendingMessages limit)) := by
  -- rows that `enqueue_telemetry` wrote never fail to decode, so the batch is all of the window
  have hwindow : ∀ row ∈ w.world.queue.pending.take (max 1 (min limit 1000)).toNat, row.Intact :=
    fun row hrow => h.intact row ((w.world.queue.mem_pending).mp (List.mem_of_mem_take hrow)).1
  obtain ⟨messages, hmessages, hvalid⟩ := validItems_of_intact hwindow
  have hfetch : w.world.queue.getPendingMessages limit = .ok messages := hmessages
  have hmarks := h.marks
  have hunsettled := h.unsettled
  rw [hl] at hmarks hunsettled
  rw [hfetch]
  simp only [flushProtocol, Progress.next, hvalid]
  exact { h with batch := (List.take_prefix _ _).map _, marks := hmarks, unsettled := hunsettled }

/-- The message that is marked first is the oldest of its lane. -/
theorem markedSent (h : Covered w l) {messageId : String} {rest : List String} (now : String)
    (hbatch : l.batch = []) (hmarks : l.marks = messageId :: rest) :
    Covered { w with world := { w.world with
      queue := w.world.queue.markMessageSent messageId now } } { l with marks := rest } := by
  obtain ⟨marked, hmarked, haccepted, hfront⟩ := h.marks
  rw [hmarks] at hmarked
  cases marked with
  | nil => cases hmarked
  | cons oldest marked =>
    obtain ⟨rfl, rfl⟩ := List.cons.inj hmarked
    have hwaiting := w.world.waiting_markMessageSent oldest.1 now
    have hlanes := Conveyed.lanes_without hfront
    refine ⟨h.toConveyed.markedSent now (haccepted List.mem_cons_self) hlanes, ?_,
      ⟨marked, rfl, fun _ hm => haccepted (List.mem_cons_of_mem _ hm), fun pair => ?_⟩,
      h.counted, fun id hid hno => ?_⟩
    · show l.batch <+: _
      rw [hbatch]
      exact List.nil_prefix
    · have hpair := hfront pair
      have hcut : lane pairOf pair (oldest :: marked) =
          lane pairOf pair [oldest] ++ lane pairOf pair marked := lane_append pair [oldest] marked
      rw [hlanes pair, hcut] at hpair
      rw [hwaiting]
      exact (List.prefix_append_right_inj _).mp hpair
    · -- what is still pending and not to be marked was neither before
      rw [hwaiting] at hid
      obtain ⟨message, hm, rfl⟩ := List.mem_map.mp hid
      obtain ⟨hm, hne⟩ := List.mem_filter.mp hm
      refine h.unsettled _ (List.mem_map_of_mem hm) fun hmark => ?_
      rw [hmarks] at hmark
      rcases List.mem_cons.mp hmark with heq | hrest
      · exact of_decide_eq_true hne heq
      · exact hno hrest

/-- The response came, and says of which pairs the backend took nothing in. -/
theorem posted (h : Covered w l) (hl : l.marks = []) {body : Json} {pairs : List (ℤ × ℤ)}
    (hbody : Rejects body pairs) :
    Covered (w.takeIn l.batch pairs) ⟨[], marksAfter l.batch body⟩ := by
  let kept : List Valid := l.batch.filter fun message => message.2.pair ∉ pairs
  have hmarks : marksAfter l.batch body = kept.map Prod.fst := by
    rw [marksAfter, rejectedPairs_of_rejects hbody]
  have hunsettled : ∀ id ∈ w.world.waiting.map Prod.fst, w.taken id ≤ w.late + w.ended :=
    fun id hid => h.unsettled id hid (by simp [hl])
  have hsub : kept ⊆ w.world.waiting := fun message hm =>
    h.batch.subset (List.mem_filter.mp hm).1
  refine ⟨h.takeIn pairs (h.continues h.batch), List.nil_prefix, ⟨kept, hmarks.symm,
    List.subset_append_right _ _, fun pair => ?_⟩, fun id => ?_, fun id hid hno => ?_⟩
  · have hlane : lane pairOf pair kept =
        if decide (pair ∉ pairs) then lane pairOf pair l.batch else [] :=
      lane_filter_key (fun pair => decide (pair ∉ pairs)) pair l.batch
    rw [hlane]
    split
    · exact h.batch.filter _
    · exact List.nil_prefix
  · -- what counts once more was pending and not marked
    by_cases hid : id ∈ kept.map Prod.fst
    · have hids : (l.batch.map Prod.fst).Nodup :=
        Conveyed.waiting_unique.sublist (h.batch.sublist.map _)
      exact (w.taken_takeIn_le pairs hids id).trans
        (Nat.succ_le_succ (hunsettled id (List.map_subset _ hsub hid)))
    · rw [Relay.taken_takeIn, List.count_eq_zero.mpr hid]
      exact h.counted id
  · rw [hmarks] at hno
    rw [Relay.taken_takeIn, List.count_eq_zero.mpr hno]
    exact hunsettled id hid

/-- The request came to no conclusion: nothing is marked, and the batch may be under way. -/
theorem strayed (h : Covered w l) (hl : l.marks = []) {w' : Relay}
    (hw : w' = w ∨ w' = { w with underWay := w.underWay ++ [l.batch] }) : Covered w' ⟨[], []⟩ := by
  have hmarks := h.marks
  have hunsettled := h.unsettled
  rw [hl] at hmarks hunsettled
  rcases hw with rfl | rfl
  · exact { h with batch := List.nil_prefix, marks := hmarks, unsettled := hunsettled }
  · have hids : (l.batch.map Prod.fst).Nodup :=
      Conveyed.waiting_unique.sublist (h.batch.sublist.map _)
    have hunderWay : ∀ batch ∈ w.underWay ++ [l.batch],
        Continues pairOf w.world.enqueued w.world.accepted batch ∧ (batch.map Prod.fst).Nodup := by
      intro batch hbatch
      rcases List.mem_append.mp hbatch with hbatch | hbatch
      · exact h.underWay batch hbatch
      · rw [List.mem_singleton.mp hbatch]
        exact ⟨h.continues h.batch, hids⟩
    exact { h with
      underWay := hunderWay
      batch := List.nil_prefix
      marks := hmarks
      unsettled := hunsettled }

theorem arrived (h : Covered w l) {w' : Relay} (hw : w.Arrives w') : Covered w' l := by
  obtain ⟨before, batch, after, pairs, hunderWay, rfl⟩ := hw
  have hsub : before ++ after ⊆ w.underWay := by
    rw [hunderWay]
    exact List.append_subset.mpr ⟨List.subset_append_left _ _,
      fun _ hm => List.mem_append_right _ (List.mem_cons_of_mem _ hm)⟩
  obtain ⟨hbatch, hids⟩ := h.underWay batch (by simp [hunderWay])
  have hconveyed := h.takeIn pairs hbatch
  have hcount (id : String) : (w.takeIn batch pairs).taken id ≤ w.taken id + 1 :=
    w.taken_takeIn_le pairs hids id
  obtain ⟨marked, hmarked, haccepted, hfront⟩ := h.marks
  refine ⟨{ hconveyed with underWay := fun other hother => hconveyed.underWay other (hsub hother) },
    h.batch, ⟨marked, hmarked, fun _ hm => List.mem_append_left _ (haccepted hm), hfront⟩,
    fun id => ?_, fun id hid hno => ?_⟩
  · have hcounted := h.counted id
    exact (hcount id).trans (by show _ ≤ w.late + 1 + w.ended + 1; omega)
  · have hunsettled := h.unsettled id hid hno
    exact (hcount id).trans (by show _ ≤ w.late + 1 + w.ended; omega)

end Covered

/-- The queue, the network and the thread that flushes, in every run. -/
def covering : Discipline relay Progress where
  protocol _ := flushProtocol
  idle _ := Progress.Idle
  inv w ls := Covered w (ls ())
  entry_wp := by
    rintro t p l rfl hl
    exact flushPendingBatch_progress hl
  serves_inv := by
    intro t w o r w' ls h hs ha
    obtain rfl : t = () := rfl
    rw [Function.update_self]
    rcases hs with ⟨world, hs, rfl⟩ | hs
    · cases o with
      | getPendingMessages limit =>
        obtain ⟨rfl, rfl⟩ := hs
        exact h.fetched ha limit
      | markMessageSent messageId =>
        obtain ⟨now, rfl⟩ := hs
        obtain ⟨hbatch, rest, hmarks⟩ := ha
        rw [next_markMessageSent hmarks]
        exact h.markedSent now hbatch hmarks
      | markMessageFailed messageId errorMessage =>
        obtain ⟨now, rfl⟩ := hs
        exact h.markedFailed messageId errorMessage now
      | postTelemetryBatch valid =>
        obtain ⟨hmarks, rfl⟩ := ha
        cases r with
        | error e =>
          obtain ⟨-, rfl⟩ := hs
          exact h.strayed hmarks (.inl rfl)
        | ok body =>
          obtain ⟨pairs, hbody, rfl⟩ := hs
          exact h.posted hmarks hbody
    · cases o with
      | postTelemetryBatch valid =>
        obtain ⟨hmarks, rfl⟩ := ha
        obtain ⟨hvague, hw⟩ := hs
        have hnext : flushProtocol.next (ls ()) (.postTelemetryBatch (ls ()).batch) r = ⟨[], []⟩ := by
          cases r with
          | error e => rfl
          | ok body =>
            obtain ⟨e, he⟩ := hvague
            simp only [flushProtocol, Progress.next, marksAfter, he]
        rw [hnext]
        exact h.strayed hmarks hw
      | getPendingMessages limit => exact hs.elim
      | markMessageSent messageId => exact hs.elim
      | markMessageFailed messageId errorMessage => exact hs.elim
  background_inv := by
    rintro _ w w' ls h (⟨world, hw | ⟨keepLatest, rfl⟩, rfl⟩ | hw)
    · exact h.enqueued hw
    · exact h.deleted keepLatest
    · exact h.arrived hw

theorem covering_holds {c : RelayConfig} (hr : relay.Outlives Relay.kill relayStart c) :
    ∃ ls, covering.Holds c ls := by
  have hstart : covering.Holds relayStart fun _ => ⟨[], []⟩ := ⟨Covered.initial, fun _ => rfl⟩
  have hended : ∀ w (ls : Unit → Progress), covering.inv w ls →
      ∃ ls', covering.inv w.kill ls' ∧ ∀ t, covering.idle t (ls' t) :=
    fun w ls h => ⟨fun _ => ⟨[], []⟩, Covered.killed h, fun _ => rfl⟩
  exact Discipline.outlives_holds hended hr hstart

/-- Over a network that loses and delays requests and responses, and over any number of ends of the
process: nothing is lost, nothing is made up, of each pair the readings arrive in the order they
were taken, and one arrives once more only for a late batch or an end of the process. -/
theorem at_least_once {c : RelayConfig} (hr : relay.Outlives Relay.kill relayStart c) :
    (∀ message ∈ c.world.world.enqueued,
        message ∈ c.world.world.accepted ∨ message ∈ c.world.world.waiting) ∧
      c.world.world.accepted ⊆ c.world.world.enqueued ∧
      InSuccession pairOf c.world.world.enqueued c.world.world.accepted ∧
      ∀ messageId, c.world.taken messageId ≤ 1 + c.world.late + c.world.ended := by
  obtain ⟨ls, h⟩ := covering_holds hr
  have hcovered : Covered c.world (ls ()) := h.1
  refine ⟨fun message hm => ?_, hcovered.known, hcovered.succession, fun messageId => ?_⟩
  · by_cases hwaiting : message ∈ c.world.world.waiting
    · exact .inr hwaiting
    · exact .inl (hcovered.taken message hm hwaiting)
  · have hcounted := hcovered.counted messageId
    omega

/-- Every request is answered and nothing is rejected. -/
def answering : Driver relay where
  answer _ w o := some ((w.world.answer [] o).1, { w with world := (w.world.answer [] o).2 })
  sound _ w o r w' h := by
    obtain ⟨rfl, rfl⟩ := Prod.mk.inj (Option.some.inj h)
    exact .inl ⟨_, (rejecting []).sound () w.world o _ _ rfl, rfl⟩

/-- Every request fails with a timeout, and its batch is under way. -/
def timingOut : Driver relay where
  answer
    | _, w, .postTelemetryBatch valid =>
      some (.error ⟨.requestException, "timeout"⟩, { w with underWay := w.underWay ++ [valid] })
    | t, w, o => answering.answer t w o
  sound t w o r w' h := by
    cases o with
    | postTelemetryBatch valid =>
      obtain ⟨rfl, rfl⟩ := Prod.mk.inj (Option.some.inj h)
      exact .inr ⟨trivial, .inr rfl⟩
    | getPendingMessages limit => exact answering.sound t w _ r w' h
    | markMessageSent messageId => exact answering.sound t w _ r w' h
    | markMessageFailed messageId errorMessage => exact answering.sound t w _ r w' h

/-- A reading of 1 is queued for tag 10 of device 1. -/
def queueing (messageId : String) : Move relay :=
  .world (fun w =>
      if messageId ∈ w.world.enqueued.map Prod.fst then none
      else
        (w.world.queue.enqueueTelemetry messageId "" "" 1 10 (.finite 1) "good" none).toOption.map
          fun queue =>
            let enqueued := w.world.enqueued ++ [(messageId, ⟨1, 10, .finite 1, "good"⟩)]
            { w with world := { w.world with queue, enqueued } }) fun _ w w' h => by
    simp only [Option.ite_none_left_eq_some, Option.map_eq_some_iff] at h
    obtain ⟨hnew, queue, hqueue, rfl⟩ := h
    have hok : w.world.queue.enqueueTelemetry messageId "" "" 1 10 (.finite 1) "good" none =
        .ok queue := by
      cases hresult : w.world.queue.enqueueTelemetry messageId "" "" 1 10 (.finite 1) "good" none with
      | ok other => simpa [hresult, Except.toOption] using hqueue
      | error e => simp [hresult, Except.toOption] at hqueue
    exact .inl ⟨_, .inl ⟨messageId, "", "", none, ⟨1, 10, .finite 1, "good"⟩, queue, hnew, rfl, by simp,
      hok, rfl⟩, rfl⟩

/-- The first batch under way arrives. -/
def arriving : Move relay :=
  .world (fun w =>
      match w.underWay with
      | [] => none
      | batch :: rest => some { w.takeIn batch [] with underWay := rest, late := w.late + 1 })
    fun _ w w' h => by
      split at h
      · cases h
      · rename_i batch rest hunderWay
        cases h
        exact .inr ⟨[], batch, rest, [], hunderWay, rfl⟩

/-- One batch arrives late and is posted again, and the process ends before the second one is
marked. -/
theorem at_least_once_twice :
    ∃ c, relay.Outlives Relay.kill relayStart c ∧
      (c.world.world.accepted.map Prod.fst = ["m1", "m1", "m2", "m1", "m2"] ∧
        c.world.late = 1 ∧ c.world.ended = 1) ∧
      (∀ message ∈ c.world.world.enqueued,
        message ∈ c.world.world.accepted ∨ message ∈ c.world.world.waiting) ∧
      c.world.world.accepted ⊆ c.world.world.enqueued ∧
      InSuccession pairOf c.world.world.enqueued c.world.world.accepted ∧
      ∀ messageId, c.world.taken messageId ≤ 1 + c.world.late + c.world.ended := by
  obtain ⟨c, hr, hc⟩ := Move.outlives_of_schedules Relay.kill relayStart
    [queueing "m1", .start () flushPendingBatch rfl, .steps timingOut () 4, arriving,
      queueing "m2", .start () flushPendingBatch rfl, .steps answering () 2]
    [.start () flushPendingBatch rfl, .steps answering () 4]
    (fun c => c.world.world.accepted.map Prod.fst = ["m1", "m1", "m2", "m1", "m2"] ∧
      c.world.late = 1 ∧ c.world.ended = 1)
    (by decide +kernel)
  exact ⟨c, hr, hc, at_least_once hr⟩

end SenseGateway.Buffer

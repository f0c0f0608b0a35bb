import SenseGateway.Buffer.Backlog

namespace SenseGateway.Buffer

open Python Effects

section rows

variable {q : Queue} {messageId : String} {row : Row}

/-- The row of a message. -/
def Queue.rowOf (q : Queue) (messageId : String) : Option Row :=
  q.rows.find? fun row => row.messageId = messageId

theorem Queue.messageId_of_rowOf (h : q.rowOf messageId = some row) : row.messageId = messageId := by
  simpa using List.find?_some h

theorem Queue.rowOf_messageId (h : row ∈ q.rows) : q.rowOf row.messageId = some row := by
  have hsome : (q.rows.find? fun other => other.messageId = row.messageId).isSome :=
    List.find?_isSome.mpr ⟨row, h, by simp⟩
  obtain ⟨found, hfound⟩ := Option.isSome_iff_exists.mp hsome
  have hid : found.messageId = row.messageId := Queue.messageId_of_rowOf hfound
  have hsame : found = row :=
    List.inj_on_of_nodup_map q.unique (List.mem_of_find?_eq_some hfound) h hid
  rw [Queue.rowOf, hfound, hsame]

theorem Queue.rowOf_update (h : q.rowOf messageId = some row) (f : Row → Row)
    (hid : ∀ row, (f row).id = row.id) (hmessage : ∀ row, (f row).messageId = row.messageId) :
    (q.update f hid hmessage).rowOf messageId = some (f row) := by
  show (q.rows.map f).find? _ = _
  rw [List.find?_map]
  simp only [Function.comp_def, hmessage]
  exact congrArg (Option.map f) h

theorem Queue.rowOf_markMessageSent (h : q.rowOf messageId = some row) (marked now : String) :
    (q.markMessageSent marked now).rowOf messageId = some (row.markSent marked now) :=
  Queue.rowOf_update h _ _ _

theorem Queue.rowOf_markMessageFailed (h : q.rowOf messageId = some row)
    (marked errorMessage now : String) :
    (q.markMessageFailed marked errorMessage now).rowOf messageId =
      some (row.markFailed marked errorMessage now) :=
  Queue.rowOf_update h _ _ _

theorem Row.markFailed_of_ne (row : Row) {messageId : String} (errorMessage now : String)
    (h : row.messageId ≠ messageId) : row.markFailed messageId errorMessage now = row := if_neg h

end rows

section body

/-! What a response body says. -/

/-- Whether the body is an object that reports success. -/
def Succeeds (body : Json) : Prop :=
  ∃ fields success, body = .obj fields ∧ Json.lookup "success" fields = some success ∧
    success.truthy = true

/-- An entry of the body's `rejected` list is the pair. -/
def Lists (body : Json) (pair : ℤ × ℤ) : Prop :=
  ∃ fields entries inner deviceId tagId, body = .obj fields ∧
    Json.lookup "rejected" fields = some (.arr entries) ∧ Json.obj inner ∈ entries ∧
    Json.lookup "device_id" inner = some deviceId ∧ Json.lookup "tag_id" inner = some tagId ∧
    deviceId.toInt = .ok pair.1 ∧ tagId.toInt = .ok pair.2

/-- An entry that has both ids is an object and has them as integers. -/
def ReadableEntry (entry : Json) : Prop :=
  match entry with
  | .obj fields => ∀ deviceId tagId, Json.lookup "device_id" fields = some deviceId →
      Json.lookup "tag_id" fields = some tagId →
      (∃ n, deviceId.toInt = .ok n) ∧ ∃ n, tagId.toInt = .ok n
  | .arr _ | .str _ =>
    ¬ (entry.contains "device_id" = .ok true ∧ entry.contains "tag_id" = .ok true)
  | _ => False

/-- A body whose `rejected` is missing, empty or made of readable entries. -/
def Readable (body : Json) : Prop :=
  ∃ fields, body = .obj fields ∧
    ∀ rejected, Json.lookup "rejected" fields = some rejected → rejected.truthy = true →
      match rejected with
      | .arr entries => ∀ entry ∈ entries, ReadableEntry entry
      | .obj inner => ∀ field ∈ inner, ReadableEntry (.str field.1)
      | .str _ => True
      | _ => False

/-- An entry that is searched for the ids but has no items by name. -/
theorem rejectedPair_of_item {entry : Json} {e : PyError}
    (hitem : ∀ key, entry.item key = .error e) (hcontains : ∀ key, ∃ b, entry.contains key = .ok b) :
    (∃ pair, rejectedPair entry = .ok pair) ↔
      ¬ (entry.contains "device_id" = .ok true ∧ entry.contains "tag_id" = .ok true) := by
  obtain ⟨device, hdevice⟩ := hcontains "device_id"
  obtain ⟨tag, htag⟩ := hcontains "tag_id"
  cases device <;> cases tag <;>
    simp [rejectedPair, hdevice, htag, hitem, bind, Except.bind, pure, Except.pure]

theorem rejectedPair_ok_iff (entry : Json) :
    (∃ pair, rejectedPair entry = .ok pair) ↔ ReadableEntry entry := by
  cases entry with
  | obj fields =>
    cases hdevice : Json.lookup "device_id" fields with
    | none => simp [rejectedPair, Json.contains, ReadableEntry, hdevice, bind, Except.bind, pure,
        Except.pure]
    | some deviceId =>
      cases htag : Json.lookup "tag_id" fields with
      | none => simp [rejectedPair, Json.contains, ReadableEntry, hdevice, htag, bind, Except.bind,
          pure, Except.pure]
      | some tagId =>
        cases hd : deviceId.toInt <;> cases ht : tagId.toInt <;>
          simp [rejectedPair, Json.contains, Json.item, ReadableEntry, hdevice, htag, hd, ht, bind,
            Except.bind, pure, Except.pure]
  | arr items =>
    exact rejectedPair_of_item (fun _ => rfl) (fun _ => ⟨_, rfl⟩)
  | str s =>
    exact rejectedPair_of_item (fun _ => rfl) (fun _ => ⟨_, rfl⟩)
  | _ => simp [rejectedPair, Json.contains, ReadableEntry, bind, Except.bind]

theorem rejectedPair_eq_some {entry : Json} {pair : ℤ × ℤ} :
    rejectedPair entry = .ok (some pair) ↔
      ∃ inner deviceId tagId, entry = .obj inner ∧ Json.lookup "device_id" inner = some deviceId ∧
        Json.lookup "tag_id" inner = some tagId ∧ deviceId.toInt = .ok pair.1 ∧
        tagId.toInt = .ok pair.2 := by
  constructor
  · intro h
    obtain ⟨device, hdevice, h⟩ := bind_eq_ok.mp h
    cases device with
    | false => cases h
    | true =>
      obtain ⟨tag, htag, h⟩ := bind_eq_ok.mp h
      cases tag with
      | false => cases h
      | true =>
        obtain ⟨d, hd, h⟩ := bind_eq_ok.mp h
        obtain ⟨m, hm, h⟩ := bind_eq_ok.mp h
        obtain ⟨t, ht, h⟩ := bind_eq_ok.mp h
        obtain ⟨n, hn, h⟩ := bind_eq_ok.mp h
        cases h
        obtain ⟨inner, rfl, hdevice'⟩ := Json.item_eq_ok_iff.mp hd
        obtain ⟨_, heq, htag'⟩ := Json.item_eq_ok_iff.mp ht
        cases heq
        exact ⟨inner, d, t, rfl, hdevice', htag', hm, hn⟩
  · rintro ⟨inner, d, t, rfl, hd, ht, hm, hn⟩
    simp [rejectedPair, Json.contains, Json.item, hd, ht, hm, hn, bind, Except.bind, pure,
      Except.pure]

/-- The entries `flush_pending_batch` goes through. -/
def rejectedEntries (rejected : Option Json) : PyExcept (List Json) :=
  ((rejected.getD .null).orElse (.arr [])).iter

theorem rejectedPairs_eq_ok {body : Json} {pairs : List (ℤ × ℤ)} :
    rejectedPairs body = .ok pairs ↔ ∃ fields entries verdicts, body = .obj fields ∧
      rejectedEntries (Json.lookup "rejected" fields) = .ok entries ∧
      entries.mapM rejectedPair = .ok verdicts ∧ verdicts.filterMap id = pairs := by
  constructor
  · intro h
    obtain ⟨_, hget, h⟩ := bind_eq_ok.mp h
    obtain ⟨fields, rfl, rfl⟩ := Json.get_eq_ok_iff.mp hget
    obtain ⟨entries, hentries, h⟩ := bind_eq_ok.mp h
    obtain ⟨verdicts, hverdicts, h⟩ := bind_eq_ok.mp h
    exact ⟨fields, entries, verdicts, rfl, hentries, hverdicts, Except.ok.inj h⟩
  · rintro ⟨fields, entries, verdicts, rfl, hentries, hverdicts, rfl⟩
    refine bind_eq_ok.mpr ⟨_, Json.get_eq_ok_iff.mpr ⟨fields, rfl, rfl⟩, ?_⟩
    refine bind_eq_ok.mpr ⟨entries, hentries, ?_⟩
    exact bind_eq_ok.mpr ⟨verdicts, hverdicts, rfl⟩

theorem rejectedEntries_readable (rejected : Option Json) :
    (∃ entries, rejectedEntries rejected = .ok entries ∧ ∀ entry ∈ entries, ReadableEntry entry) ↔
      ∀ x, rejected = some x → x.truthy = true → match x with
        | .arr entries => ∀ entry ∈ entries, ReadableEntry entry
        | .obj inner => ∀ field ∈ inner, ReadableEntry (.str field.1)
        | .str _ => True
        | _ => False := by
  cases rejected with
  | none => simp [rejectedEntries, Json.orElse, Json.truthy, Json.iter]
  | some x =>
    simp only [Option.some.injEq, forall_eq']
    cases htruthy : x.truthy with
    | false => simp [rejectedEntries, Json.orElse, Json.iter, htruthy]
    | true =>
      have hself : rejectedEntries (some x) = x.iter := by
        simp [rejectedEntries, Json.orElse, htruthy]
      rw [hself]
      cases x with
      | str s =>
        -- no single character holds a key
        have hchar (c : Char) : ReadableEntry (.str (String.ofList [c])) := by
          simp [ReadableEntry, Json.contains, Json.isSubstring]
        simpa [Json.iter] using fun c _ => hchar c
      | obj inner =>
        show (∃ entries, Except.ok (inner.map fun field => Json.str field.1) = .ok entries ∧ _) ↔ _
        simp only [Except.ok.injEq, exists_eq_left', List.forall_mem_map, forall_const]
      | _ => simp [Json.iter]

theorem rejectedEntries_arr (entries : List Json) :
    rejectedEntries (some (.arr entries)) = .ok entries := by
  cases entries <;> rfl

/-- Only a list has objects among its entries. -/
theorem eq_arr_of_rejectedEntries {rejected : Option Json} {entries : List Json}
    {inner : List (String × Json)} (h : rejectedEntries rejected = .ok entries)
    (hinner : .obj inner ∈ entries) : rejected = some (.arr entries) := by
  have hnil : Json.iter (.arr []) ≠ .ok entries := by
    rintro ⟨rfl⟩
    cases hinner
  cases rejected with
  | none => exact absurd h hnil
  | some x =>
    unfold rejectedEntries Json.orElse at h
    split at h
    · cases x with
      | arr entries' => exact congrArg (some ∘ Json.arr) (Except.ok.inj h)
      | obj fields =>
        obtain rfl := Except.ok.inj h
        simp at hinner
      | str s =>
        obtain rfl := Except.ok.inj h
        simp at hinner
      | _ => cases h
    · exact absurd h hnil

/-- The bodies the flush finds its pairs in. -/
theorem readable_iff (body : Json) : (∃ pairs, rejectedPairs body = .ok pairs) ↔ Readable body := by
  constructor
  · rintro ⟨pairs, h⟩
    obtain ⟨fields, entries, verdicts, rfl, hentries, hverdicts, -⟩ := rejectedPairs_eq_ok.mp h
    refine ⟨fields, rfl, (rejectedEntries_readable _).mp ⟨entries, hentries, ?_⟩⟩
    intro entry hentry
    exact (rejectedPair_ok_iff entry).mp (exists_mapM_eq_ok.mp ⟨_, hverdicts⟩ entry hentry)
  · rintro ⟨fields, rfl, h⟩
    obtain ⟨entries, hentries, hreadable⟩ := (rejectedEntries_readable _).mpr h
    obtain ⟨verdicts, hverdicts⟩ := exists_mapM_eq_ok.mpr fun entry hentry =>
      (rejectedPair_ok_iff entry).mpr (hreadable entry hentry)
    exact ⟨_, rejectedPairs_eq_ok.mpr ⟨fields, entries, verdicts, rfl, hentries, hverdicts, rfl⟩⟩

/-- The pairs found are the pairs listed. -/
theorem mem_rejectedPairs {body : Json} {pairs : List (ℤ × ℤ)} (h : rejectedPairs body = .ok pairs)
    (pair : ℤ × ℤ) : pair ∈ pairs ↔ Lists body pair := by
  obtain ⟨fields, entries, verdicts, rfl, hentries, hverdicts, rfl⟩ := rejectedPairs_eq_ok.mp h
  have hpair : pair ∈ verdicts.filterMap id ↔
      ∃ entry ∈ entries, rejectedPair entry = .ok (some pair) := by
    rw [← mem_of_mapM hverdicts]
    simp
  rw [hpair]
  constructor
  · rintro ⟨entry, hentry, h⟩
    obtain ⟨inner, d, t, rfl, hd, ht, hm, hn⟩ := rejectedPair_eq_some.mp h
    exact ⟨fields, entries, inner, d, t, rfl, eq_arr_of_rejectedEntries hentries hentry, hentry, hd,
      ht, hm, hn⟩
  · rintro ⟨_, entries', inner, d, t, heq, hrejected, hinner, hd, ht, hm, hn⟩
    cases heq
    rw [hrejected, rejectedEntries_arr] at hentries
    obtain rfl := Except.ok.inj hentries
    exact ⟨_, hinner, rejectedPair_eq_some.mpr ⟨inner, d, t, rfl, hd, ht, hm, hn⟩⟩

end body

/-- The queue and the messages posted from it. -/
structure Upload where
  queue : Queue
  posted : List Valid

namespace Upload

/-- A flush that is alone with its queue and whose request is answered with the body. `requests`
encodes no body that holds an infinity or a NaN. -/
def serves (body : Json) (s : Upload) (o : FlushCall) (r : o.Answer) (s' : Upload) : Prop :=
  match o with
  | .getPendingMessages limit => r = s.queue.getPendingMessages limit ∧ s' = s
  | .markMessageSent messageId =>
    ∃ now, s' = ⟨s.queue.markMessageSent messageId now, s.posted⟩
  | .markMessageFailed messageId errorMessage =>
    ∃ now, s' = ⟨s.queue.markMessageFailed messageId errorMessage now, s.posted⟩
  | .postTelemetryBatch valid =>
    if valid.all fun message => message.2.value.isFinite then r = .ok body ∧ s' = ⟨s.queue, valid⟩
    else (∃ e : PyError, r = .error e ∧ e.isRequestException = true) ∧ s' = s

/-- Such a flush, where the clock stands still. -/
def answer (body : Json) : (o : FlushCall) → Upload → o.Answer × Upload
  | .getPendingMessages limit, s => (s.queue.getPendingMessages limit, s)
  | .markMessageSent messageId, s => ((), ⟨s.queue.markMessageSent messageId "", s.posted⟩)
  | .markMessageFailed messageId errorMessage, s =>
    ((), ⟨s.queue.markMessageFailed messageId errorMessage "", s.posted⟩)
  | .postTelemetryBatch valid, s =>
    if valid.all fun message => message.2.value.isFinite then (.ok body, ⟨s.queue, valid⟩)
    else (.error ⟨.requestException, "Out of range float values are not JSON compliant"⟩, s)

theorem serves_answer (body : Json) (o : FlushCall) (s : Upload) :
    s.serves body o (answer body o s).1 (answer body o s).2 := by
  cases o with
  | getPendingMessages limit => exact ⟨rfl, rfl⟩
  | markMessageSent messageId => exact ⟨"", rfl⟩
  | markMessageFailed messageId errorMessage => exact ⟨"", rfl⟩
  | postTelemetryBatch valid =>
    by_cases hfinite : (valid.all fun message => message.2.value.isFinite) = true
    · simp only [serves, answer, if_pos hfinite, and_self]
    · simp only [serves, answer, if_neg hfinite]
      exact ⟨⟨_, rfl, rfl⟩, trivial⟩

end Upload

/-- The messages a flush of the queue posts: those of the 500 oldest pending rows, unless one of
these makes it fail. -/
def Queue.posts (q : Queue) : List Valid :=
  if (q.pending.take 500).any fun row => poisonous row.upload then []
  else batchOf (q.pending.take 500)

/-- What the flush owes a message it has posted. -/
structure Accounted (body : Json) (message : Valid) (before after : Row) : Prop where
  marked : after.status = .sent ∨ after.attempts = before.attempts + 1 ∧ after.lastError ≠ none
  accepted : after.status = .sent → Succeeds body ∧ ¬ Lists body message.2.pair

def Accounts (body : Json) (q : Queue) (s : Upload) : Prop :=
  ∀ message ∈ s.posted, ∃ before after, q.rowOf message.1 = some before ∧
    s.queue.rowOf message.1 = some after ∧ Accounted body message before after

/-- What becomes of the row of a posted message. -/
def Settled (verdict : PyExcept (List (ℤ × ℤ))) (message : Valid) (before after : Row) : Prop :=
  match verdict with
  | .error _ => after = before
  | .ok pairs =>
    if message.2.pair ∈ pairs then
      ∃ errorMessage now, after = before.markFailed message.1 errorMessage now
    else ∃ now, after = before.markSent message.1 now

section settle

variable {q : Queue} (body : Json) {pairs : List (ℤ × ℤ)} {valid : List Valid}

/-- One pass of the last loop settles the row of its message and touches no other. -/
theorem settle_rows (pairs : List (ℤ × ℤ)) (message : Valid) (s : Upload) :
    (settle pairs message).wlp (Upload.serves body) (fun out s' => out = .ok () ∧
      s'.posted = s.posted ∧ ∀ messageId row, s.queue.rowOf messageId = some row →
        ∃ row', s'.queue.rowOf messageId = some row' ∧
          if messageId = message.1 then Settled (.ok pairs) message row row' else row' = row) s := by
  by_cases hrejected : message.2.pair ∈ pairs
  · rw [settle, if_pos hrejected]
    rintro r s' ⟨now, rfl⟩
    refine ⟨rfl, rfl, fun messageId row hrow => ⟨_, Queue.rowOf_markMessageFailed hrow _ _ _, ?_⟩⟩
    by_cases hid : messageId = message.1
    · rw [if_pos hid, Settled, if_pos hrejected]
      exact ⟨_, now, rfl⟩
    · rw [if_neg hid, Row.markFailed_of_ne]
      rwa [Queue.messageId_of_rowOf hrow]
  · rw [settle, if_neg hrejected]
    rintro r s' ⟨now, rfl⟩
    refine ⟨rfl, rfl, fun messageId row hrow => ⟨_, Queue.rowOf_markMessageSent hrow _ _, ?_⟩⟩
    by_cases hid : messageId = message.1
    · rw [if_pos hid, Settled, if_neg hrejected]
      exact ⟨now, rfl⟩
    · rw [if_neg hid, Row.markSent_of_ne]
      rwa [Queue.messageId_of_rowOf hrow]

/-- The rows of the posted messages, while the messages in `rest` are still to be settled. -/
def Settling (q : Queue) (pairs : List (ℤ × ℤ)) (valid rest : List Valid) (s : Upload) : Prop :=
  s.posted = valid ∧ ∀ message ∈ valid, ∃ before after, q.rowOf message.1 = some before ∧
    before.status = .pending ∧ s.queue.rowOf message.1 = some after ∧
    if message ∈ rest then after = before else Settled (.ok pairs) message before after

theorem settle_settling (hunique : (valid.map Prod.fst).Nodup) {message : Valid} {rest : List Valid}
    (hrest : (message :: rest).Sublist valid) {s : Upload}
    (h : Settling q pairs valid (message :: rest) s) :
    (settle pairs message).wlp (Upload.serves body)
      (fun out s' => out = .ok () ∧ Settling q pairs valid rest s') s := by
  refine Prog.wlp_mono ?_ (settle_rows body pairs message s)
  rintro out s' ⟨hout, hposted, hrows⟩
  refine ⟨hout, hposted.trans h.1, fun other hother => ?_⟩
  obtain ⟨before, after, hbefore, hpending, hafter, hstate⟩ := h.2 other hother
  obtain ⟨after', hafter', hstep⟩ := hrows _ _ hafter
  refine ⟨before, after', hbefore, hpending, hafter', ?_⟩
  have hnodup : (message :: rest).Nodup := (hunique.of_map).sublist hrest
  by_cases hsame : other = message
  · subst hsame
    have hleft : other ∉ rest := (List.nodup_cons.mp hnodup).1
    rw [if_pos List.mem_cons_self] at hstate
    subst hstate
    rw [if_pos rfl] at hstep
    rwa [if_neg hleft]
  · have hid : other.1 ≠ message.1 := fun hid => hsame
      (List.inj_on_of_nodup_map hunique hother (hrest.subset List.mem_cons_self) hid)
    rw [if_neg hid] at hstep
    subst hstep
    simpa [hsame] using hstate

theorem settle_all (hunique : (valid.map Prod.fst).Nodup) {s : Upload}
    (h : Settling q pairs valid valid s) :
    (Prog.forEach valid (settle pairs)).wlp (Upload.serves body)
      (fun _ s' => Settling q pairs valid [] s') s := by
  let J (rest : List Valid) (s : Upload) : Prop :=
    rest.Sublist valid ∧ Settling q pairs valid rest s
  refine Prog.wlp_mono (fun _ _ h => h.2.2)
    (Prog.wlp_forEach (J := J) ?_ ⟨List.Sublist.refl _, h⟩)
  rintro message rest s₁ ⟨hrest, hsettling⟩
  refine Prog.wlp_mono ?_ (settle_settling body hunique hrest hsettling)
  rintro out s₂ ⟨hout, hnext⟩
  exact ⟨hout, (List.sublist_cons_self _ _).trans hrest, hnext⟩

end settle

section flush

variable {q : Queue} (body : Json)

/-- How a flush of the queue ends. -/
def Fate (body : Json) (q : Queue) (s : Upload) : Prop :=
  s.posted = q.posts ∧ ∀ message ∈ q.posts, ∃ before after, q.rowOf message.1 = some before ∧
    before.status = .pending ∧ s.queue.rowOf message.1 = some after ∧
    Settled (rejectedPairs body) message before after

theorem fate_of_nothing {s : Upload} (hposts : q.posts = []) (hposted : s.posted = []) :
    Fate body q s := by
  rw [Fate, hposts]
  exact ⟨hposted, by simp⟩

theorem posts_of_poison (h : ∃ row ∈ q.pending.take 500, poisonous row.upload = true) :
    q.posts = [] := if_pos (List.any_eq_true.mpr h)

theorem batchOf_window_row {message : Valid} (h : message ∈ batchOf (q.pending.take 500)) :
    ∃ row ∈ q.pending.take 500, row.upload = .ok (some message) ∧ row.messageId = message.1 ∧
      row.status = .pending ∧ q.rowOf message.1 = some row := by
  obtain ⟨row, hrow, hupload⟩ := mem_batchOf.mp h
  obtain ⟨hmem, hpending⟩ := q.mem_pending.mp (List.mem_of_mem_take hrow)
  have hid : row.messageId = message.1 := (Row.upload_fst hupload).symm
  exact ⟨row, hrow, hupload, hid, hpending, hid ▸ Queue.rowOf_messageId hmem⟩

theorem batchOf_ids (rows : List Row) :
    ((batchOf rows).map Prod.fst).Sublist (rows.map Row.messageId) := by
  induction rows with
  | nil => exact List.Sublist.refl _
  | cons row rows ih =>
    cases hupload : row.upload with
    | error e =>
      have hskip : batchOf (row :: rows) = batchOf rows := by
        rw [batchOf, List.filterMap_cons, hupload]
        rfl
      rw [hskip]
      exact ih.cons _
    | ok verdict =>
      cases verdict with
      | none =>
        rw [batchOf_cons_none hupload]
        exact ih.cons _
      | some valid =>
        rw [batchOf_cons_some hupload, List.map_cons, List.map_cons, Row.upload_fst hupload]
        exact ih.cons_cons _

theorem batchOf_window_unique : ((batchOf (q.pending.take 500)).map Prod.fst).Nodup :=
  (q.pending_unique.sublist ((List.take_sublist _ _).map _)).sublist (batchOf_ids _)

/-- The rows the first loop marks are not those of the messages it collects. -/
theorem skipped_other {messages : List Message}
    (h : (q.pending.take 500).mapM Row.message = .ok messages) {message : Valid}
    (hmessage : message ∈ batchOf (q.pending.take 500)) {skipped : Message}
    (hskipped : skipped ∈ messages) (hskip : validItem skipped = .ok none) :
    message.1 ≠ skipped.row.messageId := by
  obtain ⟨row, hrow, hrowMessage⟩ := (mem_of_mapM h).mp hskipped
  obtain ⟨row', hrow', hupload, hid, -⟩ := batchOf_window_row hmessage
  rw [Row.message_row hrowMessage, ← hid]
  intro heq
  have hsame : row' = row := List.inj_on_of_nodup_map q.pending_unique (List.mem_of_mem_take hrow')
    (List.mem_of_mem_take hrow) heq
  have hnone : row.upload = .ok none := by
    rw [Row.upload, hrowMessage]
    exact hskip
  rw [hsame, hnone] at hupload
  cases hupload

theorem posts_of_finite (h : ∀ row ∈ q.pending.take 500, ∃ verdict, row.upload = .ok verdict)
    (hfinite : ((batchOf (q.pending.take 500)).all fun message =>
      message.2.value.isFinite) = true) : q.posts = batchOf (q.pending.take 500) := by
  refine if_neg ?_
  rw [List.any_eq_true, poison_iff_infinite h]
  simpa using hfinite

/-- A batch that goes out is answered with the body, and each of its rows settled by that. -/
theorem answered_fate {s : Upload} (hposts : q.posts = batchOf (q.pending.take 500))
    (hposted : s.posted = batchOf (q.pending.take 500))
    (hrows : ∀ message ∈ batchOf (q.pending.take 500),
      s.queue.rowOf message.1 = q.rowOf message.1) :
    (settleBatch (batchOf (q.pending.take 500)) (.ok body)).wlp (Upload.serves body)
      (fun _ s' => Fate body q s') s := by
  show ((Prog.ofExcept (rejectedPairs body)).bind
    fun pairs => Prog.forEach _ (settle pairs)).wlp _ _ _
  have hrow (message : Valid) (hmessage : message ∈ batchOf (q.pending.take 500)) :
      ∃ row, q.rowOf message.1 = some row ∧ row.status = .pending ∧
        s.queue.rowOf message.1 = some row := by
    obtain ⟨row, -, -, -, hpending, hrow⟩ := batchOf_window_row hmessage
    exact ⟨row, hrow, hpending, (hrows message hmessage).trans hrow⟩
  cases hpairs : rejectedPairs body with
  | error e =>
    refine ⟨hposted.trans hposts.symm, fun message hmessage => ?_⟩
    rw [hposts] at hmessage
    obtain ⟨row, hrow, hpending, hrow'⟩ := hrow message hmessage
    rw [hpairs]
    exact ⟨row, row, hrow, hpending, hrow', rfl⟩
  | ok pairs =>
    have hstart : Settling q pairs (batchOf (q.pending.take 500)) (batchOf (q.pending.take 500))
        s := by
      refine ⟨hposted, fun message hmessage => ?_⟩
      obtain ⟨row, hrow, hpending, hrow'⟩ := hrow message hmessage
      exact ⟨row, row, hrow, hpending, hrow', by rw [if_pos hmessage]⟩
    refine Prog.wlp_mono ?_ (settle_all body batchOf_window_unique hstart)
    rintro _ s₂ ⟨hposted, hall⟩
    rw [Fate, hposts, hpairs]
    refine ⟨hposted, fun message hmessage => ?_⟩
    simpa using hall message hmessage

/-- A batch that does not go out stays pending as a whole, and nothing is posted. -/
theorem unanswered_fate {s : Upload} (hposts : q.posts = []) (hposted : s.posted = [])
    {valid : List Valid} {e : PyError} (he : e.isRequestException = true) :
    (settleBatch valid (.error e)).wlp (Upload.serves body) (fun _ s' => Fate body q s') s := by
  rw [settleBatch, if_pos he]
  let J (_ : List Valid) (s : Upload) : Prop := s.posted = []
  refine Prog.wlp_mono (fun _ s₂ h => fate_of_nothing body hposts h.2)
    (Prog.wlp_forEach (J := J) ?_ hposted)
  rintro message rest s₂ hJ _ s₃ ⟨now, rfl⟩
  exact ⟨rfl, hJ⟩

/-- The request of a flush and what follows it. -/
theorem request_fate {s : Upload} (hposted : s.posted = [])
    (hrows : ∀ message ∈ batchOf (q.pending.take 500),
      s.queue.rowOf message.1 = q.rowOf message.1)
    (h : ∀ row ∈ q.pending.take 500, ∃ verdict, row.upload = .ok verdict) :
    ((perform (.postTelemetryBatch (batchOf (q.pending.take 500)))).bind
      (settleBatch (batchOf (q.pending.take 500)))).wlp (Upload.serves body)
      (fun _ s' => Fate body q s') s := by
  intro r s₁ hr
  by_cases hfinite :
      ((batchOf (q.pending.take 500)).all fun message => message.2.value.isFinite) = true
  · obtain ⟨rfl, rfl⟩ : r = .ok body ∧ s₁ = ⟨s.queue, batchOf (q.pending.take 500)⟩ := by
      simpa only [Upload.serves, if_pos hfinite] using hr
    exact answered_fate body (posts_of_finite h hfinite) rfl hrows
  · obtain ⟨⟨e, rfl, he⟩, rfl⟩ : (∃ e : PyError, r = .error e ∧ e.isRequestException = true) ∧
        s₁ = s := by simpa only [Upload.serves, if_neg hfinite] using hr
    have hfatal : ∃ row ∈ q.pending.take 500, poisonous row.upload = true := by
      rw [poison_iff_infinite h]
      simpa using hfinite
    exact unanswered_fate body (posts_of_poison hfatal) hposted he

theorem flush_fate : flushPendingBatch.wlp (Upload.serves body) (fun _ s => Fate body q s) ⟨q, []⟩ := by
  rw [flushPendingBatch_eq]
  rintro _ _ ⟨rfl, rfl⟩
  show (afterFetch ((q.pending.take 500).mapM Row.message)).wlp _ _ _
  cases hmessages : (q.pending.take 500).mapM Row.message with
  | error e => exact fate_of_nothing body (posts_of_poison (poison_of_message_error hmessages)) rfl
  | ok messages =>
    have hwindow := validItems_window hmessages
    have hempty (hnone : batchOf (q.pending.take 500) = []) : q.posts = [] := by
      rw [Queue.posts, hnone, ite_self]
    by_cases hnil : messages = []
    · subst hnil
      exact fate_of_nothing body (hempty hwindow.2.symm) rfl
    · let J (s : Upload) : Prop := s.posted = [] ∧ ∀ message ∈ batchOf (q.pending.take 500),
        s.queue.rowOf message.1 = q.rowOf message.1
      have hmark (s : Upload) (o : FlushCall) (r : o.Answer) (s' : Upload) (ho : Skips messages o)
          (hJ : J s) (hs : s.serves body o r s') : J s' := by
        obtain ⟨skipped, hskipped, hskip, errorMessage, rfl⟩ := ho
        obtain ⟨now, rfl⟩ := hs
        refine ⟨hJ.1, fun message hmessage => ?_⟩
        obtain ⟨row, -, -, hid, -, hrow⟩ := batchOf_window_row hmessage
        have hother := skipped_other hmessages hmessage hskipped hskip
        have hrow' : s.queue.rowOf message.1 = some row := (hJ.2 message hmessage).trans hrow
        rw [Queue.rowOf_markMessageFailed hrow', Row.markFailed_of_ne, hrow]
        rwa [hid]
      rw [afterFetch_ok hnil]
      refine Prog.wlp_bind (Prog.wlp_mono ?_
        (Prog.wlp_of_only (J := J) (collectItems_skips messages) hmark ⟨rfl, fun _ _ => rfl⟩))
      rintro (e | valid) s ⟨hJ, hout⟩
      · rw [hout] at hwindow
        exact fate_of_nothing body (posts_of_poison hwindow) hJ.1
      · rw [hout] at hwindow
        obtain ⟨hall, hvalid⟩ := hwindow
        show (if valid = [] then Prog.pure () else _).wlp _ _ _
        by_cases hnone : valid = []
        · rw [if_pos hnone]
          exact fate_of_nothing body (hempty (hvalid.symm.trans hnone)) hJ.1
        · rw [if_neg hnone, hvalid]
          exact request_fate body hJ.1 hJ.2 hall

theorem Settled.accounted {pairs : List (ℤ × ℤ)} (hpairs : rejectedPairs body = .ok pairs)
    {message : Valid} {before after : Row} (hpending : before.status = .pending)
    (hid : before.messageId = message.1) (h : Settled (.ok pairs) message before after) :
    Accounted body message before after ↔ Succeeds body ∨ Lists body message.2.pair := by
  by_cases hlisted : message.2.pair ∈ pairs
  · rw [Settled, if_pos hlisted] at h
    obtain ⟨errorMessage, now, rfl⟩ := h
    have hfailed : before.markFailed message.1 errorMessage now = { before with
        attempts := before.attempts + 1, lastAttemptAt := some now,
        lastError := some (String.ofList (errorMessage.toList.take 1000)) } := if_pos hid
    rw [hfailed]
    refine iff_of_true ⟨.inr ⟨rfl, by simp⟩, ?_⟩ (.inr ((mem_rejectedPairs hpairs _).mp hlisted))
    intro hsent
    cases hpending.symm.trans hsent
  · rw [Settled, if_neg hlisted] at h
    obtain ⟨now, rfl⟩ := h
    have hsent : (before.markSent message.1 now).status = .sent := by
      rw [Row.markSent, if_pos hid]
    have hunlisted : ¬ Lists body message.2.pair := mt (mem_rejectedPairs hpairs _).mpr hlisted
    constructor
    · exact fun h => .inl (h.accepted hsent).1
    · rintro (hsuccess | hlists)
      · exact ⟨.inl hsent, fun _ => ⟨hsuccess, hunlisted⟩⟩
      · exact absurd hlists hunlisted

/-- A row that no mark has reached is not accounted for. -/
theorem not_accounted_self {message : Valid} {row : Row} (hpending : row.status = .pending) :
    ¬ Accounted body message row row := by
  rintro ⟨hsent | ⟨hattempts, -⟩, -⟩
  · cases hpending.symm.trans hsent
  · exact absurd hattempts (Nat.ne_of_lt (Nat.lt_succ_self _))

theorem Fate.accounted_iff {s : Upload} (h : Fate body q s) {message : Valid}
    (hmessage : message ∈ q.posts) :
    (∃ before after, q.rowOf message.1 = some before ∧ s.queue.rowOf message.1 = some after ∧
      Accounted body message before after) ↔
      Readable body ∧ (Succeeds body ∨ Lists body message.2.pair) := by
  obtain ⟨before, after, hbefore, hpending, hafter, hsettled⟩ := h.2 message hmessage
  have hrows : (∃ before after, q.rowOf message.1 = some before ∧
      s.queue.rowOf message.1 = some after ∧ Accounted body message before after) ↔
      Accounted body message before after := by
    rw [hbefore, hafter]
    simp
  rw [hrows, ← readable_iff]
  cases hpairs : rejectedPairs body with
  | error e =>
    rw [hpairs] at hsettled
    obtain rfl : after = before := hsettled
    exact iff_of_false (not_accounted_self body hpending) (by simp)
  | ok pairs =>
    rw [hpairs] at hsettled
    rw [hsettled.accounted body hpairs hpending (Queue.messageId_of_rowOf hbefore)]
    simp

theorem Fate.accounts_iff {s : Upload} (h : Fate body q s) :
    Accounts body q s ↔ q.posts = [] ∨
      Readable body ∧ (Succeeds body ∨ ∀ message ∈ q.posts, Lists body message.2.pair) := by
  have hall : Accounts body q s ↔
      ∀ message ∈ q.posts, Readable body ∧ (Succeeds body ∨ Lists body message.2.pair) := by
    rw [Accounts, h.1]
    exact forall₂_congr fun message hmessage => h.accounted_iff body hmessage
  rw [hall]
  cases q.posts with
  | nil => simp
  | cons message messages =>
    simp only [reduceCtorEq, false_or, List.forall_mem_cons]
    grind

/-- A flush accounts for every message it posts exactly where it posts nothing, or where the body
can be read to its end and reports success, or else lists every pair posted. -/
theorem flush_accounts_iff (q : Queue) (body : Json) :
    (∀ out s, Prog.Runs (Upload.serves body) flushPendingBatch ⟨q, []⟩ out s → Accounts body q s) ↔
      q.posts = [] ∨
        Readable body ∧ (Succeeds body ∨ ∀ message ∈ q.posts, Lists body message.2.pair) := by
  constructor
  · intro h
    have hrun := Prog.runs_eval (Upload.serves_answer body) flushPendingBatch ⟨q, []⟩
    exact (hrun.wlp (flush_fate body)).accounts_iff.mp (h _ _ hrun)
  · exact fun h out s hrun => (hrun.wlp (flush_fate body)).accounts_iff.mpr h

/-- A cloud that took nothing, and says so. -/
def failureBody : Json := .obj [("success", .bool false), ("error", .str "database unavailable")]

theorem posts_outage : (outage 0).posts = [("", ⟨1, 11, .finite 1, "good"⟩)] := by
  rfl

/-- A message is marked sent although the body reports a failure. -/
theorem failure_marked_sent :
    ¬ ∀ (q : Queue) (body : Json) (out : PyExcept Unit) (s : Upload),
      Prog.Runs (Upload.serves body) flushPendingBatch ⟨q, []⟩ out s → Accounts body q s := by
  intro h
  have hrun := Prog.runs_eval (Upload.serves_answer failureBody) flushPendingBatch ⟨outage 0, []⟩
  have haccounts := (hrun.wlp (flush_fate failureBody)).accounts_iff.mp (h _ _ _ _ hrun)
  rw [posts_outage] at haccounts
  rcases haccounts with hnone | ⟨-, hsuccess | hlists⟩
  · cases hnone
  · obtain ⟨fields, success, hbody, hlookup, htruthy⟩ := hsuccess
    cases hbody
    cases hlookup
    cases htruthy
  · obtain ⟨fields, entries, inner, d, t, hbody, hlookup, -⟩ := hlists _ List.mem_cons_self
    cases hbody
    cases hlookup

end flush

end SenseGateway.Buffer

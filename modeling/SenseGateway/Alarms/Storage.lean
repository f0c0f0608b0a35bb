import SenseGateway.Alarms.Evaluator
import SenseGateway.Diagnose.Parity
import SenseGateway.Poller.Timetable

namespace SenseGateway.Alarms

open Python Effects Poller Diagnose Signals

/-- One poll of a tag and what it meets: what the device replies, how queueing the reading and
recording it in the history end, and the time at which the evaluator is told. -/
structure Poll where
  client : Client
  device : Json
  tag : Json
  pollKey : ℤ × ℤ
  currentTime : PyFloat
  reply : ReadRequest → PyExcept ReadReply
  enqueued : PyExcept Unit
  recorded : PyExcept Unit
  now : ℤ

/-- The same poll where storage works. -/
def Poll.stored (poll : Poll) : Poll := { poll with enqueued := .ok (), recorded := .ok () }

/-- The answers to the calls of the poll; `record_latest_reading` goes to the evaluator. -/
def Poll.serve (poll : Poll) : (o : Call) → Evaluator → o.Answer × Evaluator
  | .read _ request, s => (poll.reply request, s)
  | .insertTelemetry _ _, s => (poll.enqueued, s)
  | .insertHistory _ _, s => (poll.recorded, s)
  | .setLatestReading reading, s =>
    ((), recordLatestReading reading.deviceId reading.tagId reading.value reading.quality poll.now s)
  | o, s => (friendly o, s)

/-- The evaluator after the poll, which the tag loop of `run_device` attempts. -/
def Poll.step (settings : Settings) (poll : Poll) (s : Evaluator) : Evaluator :=
  ((attemptTag settings poll.client poll.device poll.tag poll.pollKey poll.currentTime).eval
    poll.serve s).2

def pollAll (settings : Settings) (polls : List Poll) : Evaluator :=
  polls.foldl (fun s poll => poll.step settings s) .initial

/-- After each poll the evaluator holds what it holds in the run where storage works. -/
def UnaffectedByStorage (settings : Settings) (polls : List Poll) : Prop :=
  ∀ before, before <+: polls → (pollAll settings before).latestReadings =
    (pollAll settings (before.map Poll.stored)).latestReadings

/-- What `process_tag` saves of a value it has decoded, if anything. -/
def readingToSave (tag : Json) (deviceId tagId : ℤ) (value : PyFloat) : PyExcept (Option Reading) := do
  let decimalPlaces ← ((← tag.get "decimal_places").orElse (.int 0)).toInt
  let finalValue ← roundDecimals value decimalPlaces
  if finalValue.isFinite then
    let quality ← readingQuality tag finalValue
    return some ⟨deviceId, tagId, finalValue, quality⟩
  else return none

/-- The reading of the poll. -/
def Poll.reading (settings : Settings) (poll : Poll) : PyExcept (Option Reading) := do
  let planned ← plannedRead poll.device poll.tag
  let registers ← poll.reply planned.2.2 >>= registersOf
  let value ← polled settings poll.tag registers
  readingToSave poll.tag planned.1 planned.2.1 value

/-- The entry of `_latest_readings` that the poll has for the evaluator, and its key. -/
def Poll.entry (settings : Settings) (poll : Poll) : Option ((DictKey × DictKey) × LatestReading) :=
  match poll.reading settings with
  | .ok (some reading) =>
    some ((.number (.finite reading.deviceId), .number (.finite reading.tagId)),
      ⟨reading.value, reading.quality, poll.now⟩)
  | _ => none

/-- The last entry that the polls have for a key. -/
def lastEntry (settings : Settings) (polls : List Poll) (key : DictKey × DictKey) :
    Option LatestReading := (ofKey key (polls.filterMap (Poll.entry settings))).getLast?

theorem saveReading_eq (tag : Json) (deviceId tagId : ℤ) (value : PyFloat) :
    saveReading tag deviceId tagId value =
      (Prog.ofExcept (readingToSave tag deviceId tagId value)).bind fun
        | some reading => saveTelemetry reading
        | none => Prog.pure () := by
  simp only [saveReading, readingToSave, Prog.bind_eq, Prog.liftM_eq, Prog.ofExcept_bind,
    Prog.bind_assoc, Prog.pure_eq]
  refine congrArg (Prog.bind _) (funext fun raw => congrArg (Prog.bind _) (funext fun places =>
    congrArg (Prog.bind _) (funext fun finalValue => ?_)))
  split
  · rw [Prog.ofExcept_bind, Prog.bind_assoc]
    rfl
  · rfl

/-- `process_tag`: one read, what its reply comes to, and saving that. -/
theorem processTag_eq_save (settings : Settings) (client : Client) (device tag : Json) :
    processTag settings client device tag =
      (Prog.ofExcept (plannedRead device tag)).bind fun planned =>
        (perform (.read client planned.2.2)).bind fun answer =>
          (Prog.ofExcept (answer >>= registersOf >>= fun registers =>
            polled settings tag registers >>= fun value =>
              readingToSave tag planned.1 planned.2.1 value)).bind fun
            | some reading => saveTelemetry reading
            | none => Prog.pure () := by
  rw [processTag_eq, polledReading_eq]
  simp only [saveReading_eq, Prog.bind_assoc, Prog.ofExcept_bind, Prog.pure_bind,
    Prog.ofExcept_ok, Pure.pure, Except.pure]

section step

variable {settings : Settings} {poll : Poll} {s : Evaluator}

/-- Saving a reading: the evaluator is told where the reading could be queued. -/
theorem eval_saveTelemetry (reading : Reading) (s : Evaluator) :
    ((saveTelemetry reading).eval poll.serve s) =
      match poll.enqueued with
      | .ok () => (.ok (), recordLatestReading reading.deviceId reading.tagId reading.value
          reading.quality poll.now s)
      | .error e => (.error e, s) := by
  obtain ⟨client, device, tag, pollKey, currentTime, reply, enqueued, recorded, now⟩ := poll
  -- the historian's outcome is caught, the queue's is not
  cases enqueued with
  | ok _ => cases recorded <;> rfl
  | error e => cases recorded <;> rfl

theorem eval_processTag (s : Evaluator) :
    ((processTag settings poll.client poll.device poll.tag).eval poll.serve s).2 =
      match poll.reading settings, poll.enqueued with
      | .ok (some reading), .ok () => recordLatestReading reading.deviceId reading.tagId
          reading.value reading.quality poll.now s
      | _, _ => s := by
  rw [processTag_eq_save]
  unfold Poll.reading
  cases plannedRead poll.device poll.tag with
  | error e => rfl
  | ok planned =>
    -- the read answers what the device replies, and leaves the evaluator alone
    show (((Prog.ofExcept (poll.reply planned.2.2 >>= registersOf >>= fun registers =>
      polled settings poll.tag registers >>= fun value =>
        readingToSave poll.tag planned.1 planned.2.1 value)).bind fun
          | some reading => saveTelemetry reading
          | none => Prog.pure ()).eval poll.serve s).2 =
      match poll.reply planned.2.2 >>= registersOf >>= fun registers =>
        polled settings poll.tag registers >>= fun value =>
          readingToSave poll.tag planned.1 planned.2.1 value, poll.enqueued with
      | .ok (some reading), .ok () => _
      | _, _ => s
    rcases poll.reply planned.2.2 >>= registersOf >>= fun registers =>
      polled settings poll.tag registers >>= fun value =>
        readingToSave poll.tag planned.1 planned.2.1 value with e | _ | reading
    · rfl
    · rfl
    · refine (congrArg Prod.snd (eval_saveTelemetry reading s)).trans ?_
      cases poll.enqueued <;> rfl

/-- One poll: the evaluator takes its entry where the reading could be queued. -/
theorem latestReadings_step (key : DictKey × DictKey) :
    (poll.step settings s).latestReadings key =
      match poll.entry settings, poll.enqueued with
      | some (key', latest), .ok () => if key = key' then some latest else s.latestReadings key
      | _, _ => s.latestReadings key := by
  have hstamp (s : Evaluator) :
      ((perform (.setLastPoll poll.pollKey poll.currentTime)).eval poll.serve s).2 = s := rfl
  have hstep : poll.step settings s =
      ((processTag settings poll.client poll.device poll.tag).eval poll.serve s).2 := by
    refine (Prog.eval_ensure_snd _ hstamp _ s).trans ?_
    rw [Prog.eval_handle]
    generalize (processTag settings poll.client poll.device poll.tag).eval poll.serve s = r
    rcases r with ⟨e | a, s'⟩ <;> rfl
  rw [hstep, eval_processTag]
  unfold Poll.entry
  rcases poll.reading settings with e | _ | reading
  · rfl
  · rfl
  · cases poll.enqueued with
    | error e => rfl
    | ok _ => exact Function.update_apply _ _ _ key

end step

section runs

variable {settings : Settings}

theorem pollAll_concat (polls : List Poll) (poll : Poll) :
    pollAll settings (polls ++ [poll]) = poll.step settings (pollAll settings polls) := by
  simp [pollAll]

theorem lastEntry_concat (polls : List Poll) (poll : Poll) (key : DictKey × DictKey) :
    lastEntry settings (polls ++ [poll]) key =
      match poll.entry settings with
      | some (key', latest) => if key = key' then some latest else lastEntry settings polls key
      | none => lastEntry settings polls key := by
  rw [lastEntry, List.filterMap_append, ofKey_append]
  cases hentry : poll.entry settings with
  | none => simp [hentry, ofKey, lastEntry]
  | some entry =>
    obtain ⟨key', latest⟩ := entry
    by_cases hkey : key = key'
    · subst hkey
      simp [hentry, ofKey_singleton_self]
    · simp [hentry, ofKey_singleton_ne (Ne.symm hkey), hkey, lastEntry]

/-- Where storage works the evaluator holds the last entry for each key. -/
theorem latestReadings_stored (polls : List Poll) (key : DictKey × DictKey) :
    (pollAll settings (polls.map Poll.stored)).latestReadings key = lastEntry settings polls key := by
  induction polls using List.reverseRecOn with
  | nil => rfl
  | append_singleton polls poll ih =>
    rw [List.map_append, List.map_singleton, pollAll_concat, latestReadings_step, lastEntry_concat, ih]
    have hentry : poll.stored.entry settings = poll.entry settings := rfl
    rw [hentry]
    cases poll.entry settings <;> rfl

/-- The evaluator is unaffected by storage exactly where each poll that fails to queue its reading
has the entry that the evaluator already holds, down to the time. -/
theorem unaffectedByStorage_iff (settings : Settings) (polls : List Poll) :
    UnaffectedByStorage settings polls ↔
      ∀ before poll, before ++ [poll] <+: polls → poll.enqueued ≠ .ok () →
        ∀ key latest, poll.entry settings = some (key, latest) →
          lastEntry settings before key = some latest := by
  constructor
  · intro h before poll hprefix hfailed key latest hentry
    have hbefore := congrFun (h before ((List.prefix_append _ _).trans hprefix)) key
    have hafter := congrFun (h _ hprefix) key
    rw [latestReadings_stored] at hbefore hafter
    rw [pollAll_concat, latestReadings_step, lastEntry_concat, hentry] at hafter
    cases henqueued : poll.enqueued with
    | ok _ => exact absurd henqueued hfailed
    | error e =>
      rw [henqueued, hbefore] at hafter
      simpa using hafter
  · intro h before
    induction before using List.reverseRecOn with
    | nil => exact fun _ => rfl
    | append_singleton before poll ih =>
      intro hprefix
      have hbefore := ih ((List.prefix_append _ _).trans hprefix)
      funext key
      have hheld : (pollAll settings before).latestReadings key = lastEntry settings before key :=
        (congrFun hbefore key).trans (latestReadings_stored before key)
      rw [latestReadings_stored, pollAll_concat, latestReadings_step, lastEntry_concat, hheld]
      cases hentry : poll.entry settings with
      | none => rfl
      | some entry =>
        obtain ⟨key', latest⟩ := entry
        cases henqueued : poll.enqueued with
        | ok _ => rfl
        | error e =>
          have hsame := h before poll hprefix (by simp [henqueued]) key' latest hentry
          dsimp only
          split
          · rename_i hkey
            rw [hkey, hsame]
          · rfl

end runs

/-- A tag with an integer register. -/
def counterTag : Json :=
  .obj [("id", .int 7), ("register_address", .int 40), ("data_type", .str "uint16")]

/-- A poll that reads 60 while the disk is full. -/
def pollOnFullDisk : Poll where
  client := ⟨0, 1, .serial "COM3" 9600 "N" 1⟩
  device := withTags meterFields [counterTag]
  tag := counterTag
  pollKey := (1, 7)
  currentTime := .finite 100
  reply _ := .ok (.registers [60])
  enqueued := .error ⟨.other, "database or disk is full"⟩
  recorded := .ok ()
  now := 0

/-- A reading that cannot be queued never reaches the evaluator. -/
theorem full_disk_blinds_evaluator : ¬ ∀ settings polls, UnaffectedByStorage settings polls := by
  intro h
  have hheld := congrFun (h ⟨"", []⟩ [pollOnFullDisk] [pollOnFullDisk] List.prefix_rfl)
    (.number (.finite 1), .number (.finite 7))
  revert hheld
  decide +kernel

end SenseGateway.Alarms

import SenseGateway.Alarms.Faults
import SenseGateway.Python.RoundingOrder

namespace SenseGateway.Alarms

open Python Signals

/-- A numeric value that a program can hold: a float is a double. -/
def Numeric (value : Json) (x : PyFloat) : Prop :=
  value.number = some x ∧ ∀ q, value = .float (.finite q) → roundDouble q = .finite q

/-- A rule of the type `communication_loss` with a numeric threshold, and the keys of its id and of
the tag it looks at. -/
structure CommunicationLoss (rule : Json) (key : DictKey) (tag : DictKey × DictKey)
    (threshold : PyFloat) : Prop where
  alarmType : rule.get "alarm_type" = .ok (.str "communication_loss")
  threshold : ∃ value, rule.get "threshold_value" = .ok value ∧ Numeric value threshold
  deviceId : ∃ value, rule.get "device_id" = .ok value ∧ value.hashKey = .ok tag.1
  tagId : ∃ value, rule.get "tag_id" = .ok value ∧ value.hashKey = .ok tag.2
  id : ruleKey rule = .ok key

/-- The time of a request that records a reading of the tag. -/
def recordedAt (tag : DictKey × DictKey) : Request → Option ℤ
  | .recordLatestReading deviceId tagId _ _ now =>
    if (DictKey.number (.finite deviceId), DictKey.number (.finite tagId)) = tag then some now
    else none
  | _ => none

/-- The time of the last recorded reading of the tag. -/
def lastRecorded (tag : DictKey × DictKey) (requests : List Request) : Option ℤ :=
  (requests.filterMap (recordedAt tag)).getLast?

/-- At the time `now` at least `threshold` seconds have gone by since `time`. -/
def Elapsed (threshold : PyFloat) (time now : ℤ) : Prop :=
  threshold.le (.finite (((now - time : ℤ) : ℚ) / 1000000)) = true

/-- The rules of a pass with the times at which it looks at them. -/
def timed (clock : ℕ → ℤ) (rules : List Json) : List TimedRule :=
  rules.zipIdx.map fun p => (clock p.2, p.1)

/-- A pass after these requests that is to report the tag: the rule has been in the list
throughout, and the pass happens long enough after the start of the evaluator and after the last
recorded reading. -/
structure Silent (mode : Mode) (start : ℤ) (rule : Json) (tag : DictKey × DictKey)
    (threshold : PyFloat) (requests : List Request) (clock : ℕ → ℤ) : Prop where
  listed : rule ∈ (run mode requests).alarmRules
  throughout : ∀ alarmRules, .setCurrentAlarmRules alarmRules ∈ requests → rule ∈ alarmRules.getD []
  started : ∀ i < (run mode requests).alarmRules.length, Elapsed threshold start (clock i)
  unread : ∀ time, lastRecorded tag requests = some time →
    ∀ i < (run mode requests).alarmRules.length, Elapsed threshold time (clock i)

/-- After every such pass the rule is active. -/
def ReportsSilence (mode : Mode) (start : ℤ) (rule : Json) (key : DictKey) (tag : DictKey × DictKey)
    (threshold : PyFloat) (requests : List Request) : Prop :=
  ∀ before clock, before ++ [.evaluateAllRules clock] <+: requests →
    Silent mode start rule tag threshold before clock →
      (run mode (before ++ [.evaluateAllRules clock])).activeState key = some true

/-- The turn of the rule comes: there is a reading of its tag, and no rule ahead raises. -/
def Reached (s : Evaluator) (tag : DictKey × DictKey) (before : List TimedRule) : Prop :=
  s.latestReadings tag ≠ none ∧ before.any (raises s.latestReadings) = false

/-- The rule is heard in the pass: its turn comes, and no later rule with its id is judged to be
false last. Or its turn never comes, and its id stands at true without it. -/
def Heard (s : Evaluator) (rule : Json) (key : DictKey) (tag : DictKey × DictKey)
    (rules : List TimedRule) : Prop :=
  (∃ before now after, rules = before ++ (now, rule) :: after ∧ Reached s tag before ∧
      (judgements s.latestReadings (judged s.latestReadings after) key).getLastD true = true) ∨
    (∀ before now after, rules = before ++ (now, rule) :: after → ¬ Reached s tag before) ∧
      standing s (judged s.latestReadings rules) key = true

/-- Times of `datetime`, in microseconds from the beginning of the year 1. -/
def IsDatetime (time : ℤ) : Prop := 0 ≤ time ∧ time < 3652059 * 86400 * 1000000

/-- The clock of a run. -/
structure Dated (requests : List Request) : Prop where
  recorded : ∀ deviceId tagId value quality now,
    .recordLatestReading deviceId tagId value quality now ∈ requests → IsDatetime now
  passed : ∀ clock, .evaluateAllRules clock ∈ requests → ∀ i, IsDatetime (clock i)

section readings

theorem lastRecorded_concat (tag : DictKey × DictKey) (requests : List Request)
    (request : Request) : lastRecorded tag (requests ++ [request]) =
      (recordedAt tag request).or (lastRecorded tag requests) := by
  rw [lastRecorded, List.filterMap_append]
  cases h : recordedAt tag request <;> simp [h, lastRecorded]

/-- The evaluator holds the last reading that was recorded. -/
theorem latestReadings_run (mode : Mode) (requests : List Request) (tag : DictKey × DictKey) :
    ((run mode requests).latestReadings tag).map LatestReading.timestamp =
      lastRecorded tag requests := by
  induction requests using List.reverseRecOn with
  | nil => rfl
  | append_singleton requests request ih =>
    rw [run_concat, lastRecorded_concat, ← ih]
    cases request with
    | setCurrentAlarmRules alarmRules => rfl
    | evaluateAllRules clock =>
      rw [Evaluator.step, latestReadings_evaluateAllRules]
      rfl
    | recordLatestReading deviceId tagId value quality now =>
      by_cases htag : (DictKey.number (.finite deviceId), DictKey.number (.finite tagId)) = tag
      · subst htag
        simp [Evaluator.step, recordLatestReading, recordedAt]
      · have hother : (Evaluator.step mode (run mode requests)
            (.recordLatestReading deviceId tagId value quality now)).latestReadings tag =
              (run mode requests).latestReadings tag := Function.update_of_ne (Ne.symm htag) _ _
        rw [hother, recordedAt, if_neg htag]
        rfl

theorem exists_recorded {tag : DictKey × DictKey} {requests : List Request} {time : ℤ}
    (h : lastRecorded tag requests = some time) : ∃ deviceId tagId value quality,
      .recordLatestReading deviceId tagId value quality time ∈ requests := by
  obtain ⟨request, hmem, hrequest⟩ := List.mem_filterMap.mp (List.mem_of_getLast? h)
  cases request with
  | recordLatestReading deviceId tagId value quality now =>
    obtain ⟨-, rfl⟩ : _ ∧ now = time := by simpa [recordedAt] using hrequest
    exact ⟨deviceId, tagId, value, quality, hmem⟩
  | setCurrentAlarmRules alarmRules => cases hrequest
  | evaluateAllRules clock => cases hrequest

end readings

section rounding

variable {value : Json} {threshold : PyFloat} {time now : ℤ}

theorem finite_le_finite {p q : ℚ} : (PyFloat.finite p).le (.finite q) = true ↔ p ≤ q := by
  simp [PyFloat.le, PyFloat.lt, PyFloat.eq, le_iff_lt_or_eq]

/-- Rounding does not take a number below a double that it has reached. -/
theorem le_roundDouble {p q : ℚ} (hp : roundDouble p = .finite p) (h : p ≤ q) :
    (PyFloat.finite p).le (roundDouble q) = true := by
  rw [← hp]
  exact roundDouble_mono h

/-- The same of an integer, also one that is no double. -/
theorem intCast_le_roundDouble {n : ℤ} {q : ℚ} (hq : |q| < 2 ^ 52) (h : (n : ℚ) ≤ q) :
    (PyFloat.finite n).le (roundDouble q) = true := by
  obtain ⟨hlow, hhigh⟩ := abs_lt.mp hq
  have hn : n < 2 ^ 52 := by exact_mod_cast h.trans_lt hhigh
  rcases lt_or_ge (-2 ^ 52) n with hn' | hn'
  · exact le_roundDouble (roundDouble_intCast (by omega)) h
  · have hbound : roundDouble (-2 ^ 52 : ℤ) = .finite (-2 ^ 52 : ℤ) := roundDouble_intCast (by decide)
    refine PyFloat.le_trans_finite (finite_le_finite.mpr ?_) (le_roundDouble hbound ?_)
    · exact_mod_cast hn'
    · push_cast
      exact hlow.le

/-- The exact time that has gone by, and what `total_seconds` makes of it: rounding never takes it
below the threshold. -/
theorem Elapsed.le_totalSeconds (h : Elapsed threshold time now) (hvalue : Numeric value threshold)
    (htime : IsDatetime time) (hnow : IsDatetime now) :
    threshold.le (totalSeconds (now - time)) = true := by
  obtain ⟨hnumber, hdouble⟩ := hvalue
  have hrange : |((now - time : ℤ) : ℚ) / 1000000| < 2 ^ 52 := by
    obtain ⟨ht, ht'⟩ := htime
    obtain ⟨hn, hn'⟩ := hnow
    have habs : |now - time| < 2 ^ 52 * 1000000 := abs_lt.mpr ⟨by omega, by omega⟩
    rw [abs_div, abs_of_pos (by norm_num : (0 : ℚ) < 1000000), div_lt_iff₀ (by norm_num)]
    exact_mod_cast habs
  unfold Elapsed at h
  unfold totalSeconds
  generalize ((now - time : ℤ) : ℚ) / 1000000 = q at h hrange ⊢
  cases value with
  | bool b =>
    obtain rfl : PyFloat.finite (if b then 1 else 0) = threshold := by simpa [Json.number] using hnumber
    have hcast : (if b then 1 else 0 : ℚ) = ((if b then 1 else 0 : ℤ) : ℚ) := by cases b <;> simp
    rw [hcast] at h ⊢
    exact intCast_le_roundDouble hrange (finite_le_finite.mp h)
  | int n =>
    obtain rfl : PyFloat.finite n = threshold := by simpa [Json.number] using hnumber
    exact intCast_le_roundDouble hrange (finite_le_finite.mp h)
  | float x =>
    obtain rfl : x = threshold := by simpa [Json.number] using hnumber
    cases x with
    | finite p => exact le_roundDouble (hdouble p rfl) (finite_le_finite.mp h)
    | infinity s =>
      -- every time reaches a threshold of minus infinity
      obtain rfl : s = true := by simpa [PyFloat.le, PyFloat.lt, PyFloat.eq] using h
      cases hround : roundDouble q with
      | finite r => rfl
      | infinity t => cases t <;> rfl
      | nan => exact absurd hround (roundDouble_ne_nan q)
    | nan => simp [PyFloat.le, PyFloat.lt, PyFloat.eq] at h
  | _ => simp [Json.number] at hnumber

end rounding

section pass

variable {mode : Mode} {s : Evaluator} {rule : Json} {key : DictKey} {tag : DictKey × DictKey}
  {threshold : PyFloat}

theorem readingOf_eq (h : CommunicationLoss rule key tag threshold)
    (readings : DictKey × DictKey → Option LatestReading) :
    readingOf readings rule = .ok (readings tag) := by
  obtain ⟨device, hdevice, hkey⟩ := h.deviceId
  obtain ⟨tagId, htag, hkey'⟩ := h.tagId
  simp only [readingOf, hdevice, htag, bind, Except.bind, hkey, hkey', pure, Except.pure]

theorem evaluateCondition_eq (h : CommunicationLoss rule key tag threshold) (value : PyFloat)
    (time now : ℤ) :
    evaluateCondition rule value time now = .ok (threshold.le (totalSeconds (now - time))) := by
  obtain ⟨limit, hlimit, hnumber, -⟩ := h.threshold
  have hcompare : compareThreshold ">=" (fun x => x.le (totalSeconds (now - time))) limit =
      .ok (threshold.le (totalSeconds (now - time))) := by
    cases limit <;> simp_all [compareThreshold, Json.number]
  simp [evaluateCondition, h.alarmType, hlimit, bind, Except.bind, hcompare]

/-- The rule is judged by the age of the reading. -/
theorem judgeRule_eq (h : CommunicationLoss rule key tag threshold)
    {readings : DictKey × DictKey → Option LatestReading} {reading : LatestReading}
    (hreading : readings tag = some reading) (now : ℤ) :
    judgeRule readings now rule =
      .ok (some (key, threshold.le (totalSeconds (now - reading.timestamp)), reading.value)) := by
  obtain ⟨id, hid, hkey⟩ := bind_eq_ok.mp h.id
  simp only [judgeRule, readingOf_eq h, hreading, evaluateCondition_eq h, bind, Except.bind, hid,
    hkey]
  rfl

theorem map_snd_timed (clock : ℕ → ℤ) (rules : List Json) :
    (timed clock rules).map Prod.snd = rules := by
  simp [timed, Function.comp_def]

theorem ticks_timed (clock : ℕ → ℤ) (rules : List Json) : Ticks clock 0 (timed clock rules) := by
  intro j hj
  simp only [timed, List.length_map, List.length_zipIdx] at hj
  simp [clockOf, timed, Function.comp_def, List.getD_eq_getElem?_getD, hj]

theorem exists_of_mem_timed {clock : ℕ → ℤ} {rules : List Json} {now : ℤ}
    (h : (now, rule) ∈ timed clock rules) : ∃ i < rules.length, now = clock i := by
  obtain ⟨⟨rule', i⟩, hmem, heq⟩ := List.mem_map.mp h
  obtain ⟨-, hi, -⟩ := List.mem_zipIdx hmem
  cases heq
  exact ⟨i, by simpa using hi, rfl⟩

theorem activeState_pass (hmode : ∀ outcome, mode = .live outcome → Caught outcome)
    (clock : ℕ → ℤ) (s : Evaluator) (key : DictKey) :
    (evaluateAllRules mode clock s).1.activeState key = some true ↔
      standing s (judged s.latestReadings (timed clock s.alarmRules)) key = true := by
  have hactive := @evaluateRules_active mode s.latestReadings s hmode clock 0
    (timed clock s.alarmRules) (ticks_timed clock s.alarmRules) key
  have hsome (entry : Option Bool) : entry = some true ↔ entry.getD false = true := by
    rcases entry with _ | _ | _ <;> simp
  rw [map_snd_timed] at hactive
  rw [evaluateAllRules, hactive, hsome, getD_entryAfter]
  rfl

/-- A pass in which every look at the rule finds it overdue leaves its id as it is heard. -/
theorem standing_iff_heard (h : CommunicationLoss rule key tag threshold) {rules : List TimedRule}
    (hoverdue : ∀ reading, s.latestReadings tag = some reading → ∀ now, (now, rule) ∈ rules →
      threshold.le (totalSeconds (now - reading.timestamp)) = true) :
    standing s (judged s.latestReadings rules) key = true ↔ Heard s rule key tag rules := by
  have hreached : ∀ before now after, rules = before ++ (now, rule) :: after →
      Reached s tag before → standing s (judged s.latestReadings rules) key =
        (judgements s.latestReadings (judged s.latestReadings after) key).getLastD true := by
    -- the turn of the rule opens the alarm, and only judgements behind it can close that again
    rintro before now after rfl ⟨hreading, hbefore⟩
    obtain ⟨reading, hreading⟩ := Option.ne_none_iff_exists'.mp hreading
    have hjudge := judgeRule_eq h hreading now
    rw [hoverdue reading hreading now (by simp)] at hjudge
    have hquiet : raises s.latestReadings (now, rule) = false := by simp [raises, hjudge]
    have hsplit : judged s.latestReadings (before ++ (now, rule) :: after) =
        before ++ (now, rule) :: judged s.latestReadings after := by
      refine (List.takeWhile_append_of_pos fun r hr => ?_).trans ?_
      · simpa using List.any_eq_false.mp hbefore r hr
      · rw [List.takeWhile_cons_of_pos (by simp [hquiet])]
        rfl
    have hown : judgements s.latestReadings [(now, rule)] key = [true] := by
      simp [judgements, judgement, hjudge, ofKey]
    rw [hsplit, standing, judgements_append, judgements_cons, hown, getLastD_append, getLastD_append]
    rfl
  constructor
  · intro hstanding
    by_cases hsome : ∃ before now after, rules = before ++ (now, rule) :: after ∧ Reached s tag before
    · obtain ⟨before, now, after, hsplit, hturn⟩ := hsome
      refine .inl ⟨before, now, after, hsplit, hturn, ?_⟩
      rwa [← hreached before now after hsplit hturn]
    · refine .inr ⟨fun before now after hsplit hturn => ?_, hstanding⟩
      exact hsome ⟨before, now, after, hsplit, hturn⟩
  · rintro (⟨before, now, after, hsplit, hturn, hlast⟩ | ⟨-, hstanding⟩)
    · rwa [hreached before now after hsplit hturn]
    · exact hstanding

/-- Every silent pass reports the tag exactly where the rule is heard in every silent pass. -/
theorem reportsSilence_iff_heard (hmode : ∀ outcome, mode = .live outcome → Caught outcome)
    (h : CommunicationLoss rule key tag threshold) {requests : List Request}
    (hdated : Dated requests) (start : ℤ) :
    ReportsSilence mode start rule key tag threshold requests ↔
      ∀ before clock, before ++ [.evaluateAllRules clock] <+: requests →
        Silent mode start rule tag threshold before clock →
          Heard (run mode before) rule key tag (timed clock (run mode before).alarmRules) := by
  refine forall₄_congr fun before clock hpast hsilent => ?_
  rw [run_concat, Evaluator.step, activeState_pass hmode]
  refine standing_iff_heard h fun reading hreading now hnow => ?_
  obtain ⟨i, hi, rfl⟩ := exists_of_mem_timed hnow
  have hlast : lastRecorded tag before = some reading.timestamp := by
    rw [← latestReadings_run mode, hreading]
    rfl
  obtain ⟨value, -, hvalue⟩ := h.threshold
  obtain ⟨deviceId, tagId, value', quality, hrecorded⟩ := exists_recorded hlast
  refine (hsilent.unread _ hlast i hi).le_totalSeconds hvalue ?_ ?_
  · exact hdated.recorded _ _ _ _ _ (hpast.subset (List.mem_append_left _ hrecorded))
  · exact hdated.passed clock (hpast.subset (by simp)) i

end pass

def lossRule : Json :=
  .obj [("id", .int 7), ("device_id", .int 10), ("tag_id", .int 20),
    ("alarm_type", .str "communication_loss"), ("threshold_value", .int 60)]

theorem lossRule_communicationLoss : CommunicationLoss lossRule (.number (.finite 7))
    (.number (.finite 10), .number (.finite 20)) (.finite 60) where
  alarmType := rfl
  threshold := ⟨.int 60, rfl, rfl, nofun⟩
  deviceId := ⟨.int 10, rfl, rfl⟩
  tagId := ⟨.int 20, rfl, rfl⟩
  id := rfl

/-- The device answers once and goes silent. -/
def goneSilent : List Request :=
  [.setCurrentAlarmRules (some [lossRule]), .recordLatestReading 10 20 (.finite 50) "good" 0,
    .evaluateAllRules fun _ => 100000000]

theorem goneSilent_reported :
    ReportsSilence .shadow 0 lossRule (.number (.finite 7))
      (.number (.finite 10), .number (.finite 20)) (.finite 60) goneSilent := by
  have hdated : Dated goneSilent := by
    constructor
    · intro deviceId tagId value quality now hmem
      obtain ⟨-, -, -, -, rfl⟩ : _ ∧ _ ∧ _ ∧ _ ∧ now = 0 := by simpa [goneSilent] using hmem
      simp [IsDatetime]
    · simp [goneSilent, IsDatetime]
  refine (reportsSilence_iff_heard (by rintro outcome ⟨⟩) lossRule_communicationLoss hdated 0).mpr ?_
  rintro before clock ⟨after, hsplit⟩ -
  match before, hsplit with
  | [], hsplit => cases hsplit
  | [_], hsplit => cases hsplit
  | [_, _], hsplit =>
    cases hsplit
    refine .inl ⟨[], 100000000, [], rfl, ⟨?_, rfl⟩, rfl⟩
    decide
  | _ :: _ :: _ :: before, hsplit =>
    have hlength := congrArg List.length hsplit
    simp [goneSilent] at hlength

/-- The device is dead when the gateway starts. -/
def deadAtStart : List Request :=
  [.setCurrentAlarmRules (some [lossRule]), .evaluateAllRules fun _ => 100000000]

theorem deadAtStart_unreported :
    ¬ ∀ mode, (∀ outcome, mode = .live outcome → Caught outcome) → ∀ start rule key tag threshold
      requests, CommunicationLoss rule key tag threshold → Dated requests →
        ReportsSilence mode start rule key tag threshold requests := by
  intro h
  have hdated : Dated deadAtStart := by
    constructor
    · simp [deadAtStart]
    · simp [deadAtStart, IsDatetime]
  have hreports := h .shadow (by rintro outcome ⟨⟩) 0 lossRule _ _ _ deadAtStart
    lossRule_communicationLoss hdated
  have hsilent : Silent .shadow 0 lossRule (.number (.finite 10), .number (.finite 20))
      (.finite 60) (deadAtStart.take 1) fun _ => 100000000 := by
    refine ⟨by decide, by simp [deadAtStart], fun i _ => ?_, nofun⟩
    norm_num [Elapsed, PyFloat.le, PyFloat.lt, PyFloat.eq]
  have hactive := hreports (deadAtStart.take 1) _ List.prefix_rfl hsilent
  revert hactive
  decide +kernel

end SenseGateway.Alarms

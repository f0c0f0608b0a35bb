import SenseGateway.Alarms.Evaluator

namespace SenseGateway.Alarms

open Python Signals

def Action.edge : Action → Edge
  | .opened => .rising
  | .closed => .falling

/-- The events of a run: the rule and what becomes of it. -/
def events (s : Evaluator) : List (DictKey × Action) := s.emitted.map fun e => (e.key, e.action)

/-- The evaluator's state and the events so far are those of an exact edge detector. -/
def Detects (s : Evaluator) : Prop :=
  Exact s.activeState s.evaluated ((events s).map fun e => (e.1, e.2.edge))

theorem changeState_detects {mode : Mode} {rule : Json} {key : DictKey} {value : PyFloat}
    {action : Action} {s : Evaluator} (h : Detects s)
    (hchange : decide (action = .opened) ≠ (s.activeState key).getD false) :
    Detects (changeState mode rule key value action
      { s with evaluated := s.evaluated ++ [(key, decide (action = .opened))] }).1 := by
  have hedge : Edge.of (decide (action = .opened)) = action.edge := by cases action <;> rfl
  have hnext := Exact.change h hchange
  rw [hedge] at hnext
  simpa only [Detects, changeState, events, List.map_append, List.map_cons, List.map_nil] using hnext

/-- One rule: either nothing is evaluated, or one sample reaches the detector. -/
theorem evaluateRule_detects (mode : Mode) (readings : DictKey × DictKey → Option LatestReading)
    (now : ℤ) (rule : Json) {s : Evaluator} (h : Detects s) :
    Detects (evaluateRule mode readings now rule s).1 := by
  rcases evaluateRule_cases mode readings now rule s with
    ⟨e, -, heq⟩ | ⟨-, heq⟩ | ⟨key, triggered, value, -, ⟨hsame, heq⟩ | ⟨hchange, heq⟩⟩
  · rw [heq]
    exact h
  · rw [heq]
    exact h
  · rw [heq]
    exact Exact.same h hsame
  · have haction : decide ((if triggered then Action.opened else .closed) = .opened) = triggered := by
      cases triggered <;> rfl
    have hnext := @changeState_detects mode rule key value
      (if triggered then .opened else .closed) s h (by rwa [haction])
    rw [haction] at hnext
    rw [heq]
    exact hnext

theorem evaluateRules_detects {mode : Mode} {readings : DictKey × DictKey → Option LatestReading}
    {clock : ℕ → ℤ} {i : ℕ} {rules : List Json} {s : Evaluator} (h : Detects s) :
    Detects (evaluateRules mode readings clock i rules s).1 :=
  evaluateRules_preserves (fun now rule _ hs => evaluateRule_detects mode readings now rule hs)
    clock i rules h

theorem step_detects {mode : Mode} {s : Evaluator} (h : Detects s) (request : Request) :
    Detects (s.step mode request) := by
  cases request with
  | setCurrentAlarmRules alarmRules => exact h
  | recordLatestReading deviceId tagId value quality now => exact h
  | evaluateAllRules clock => exact evaluateRules_detects h

theorem foldl_detects {mode : Mode} {s : Evaluator} (h : Detects s) (requests : List Request) :
    Detects (requests.foldl (Evaluator.step mode) s) := by
  induction requests generalizing s with
  | nil => exact h
  | cons request requests ih => exact ih (step_detects h request)

/-- The two modes side by side: they differ in where the events go. -/
structure Agrees (s s' : Evaluator) : Prop where
  alarmRules : s.alarmRules = s'.alarmRules
  latestReadings : s.latestReadings = s'.latestReadings
  activeState : s.activeState = s'.activeState
  events : events s = events s'

/-- Requests fail with what `requests` raises. -/
def Caught (outcome : ℕ → PyExcept Unit) : Prop :=
  ∀ n e, outcome n = .error e → e.isRequestException = true

theorem pushStateChange_caught {outcome : ℕ → PyExcept Unit} (h : Caught outcome) (n : ℕ) :
    pushStateChange (outcome n) = .ok () := by
  unfold pushStateChange
  split
  · rfl
  · rename_i e he
    rw [if_pos (h n e he)]

/-- Emitting a state change never raises, where failed requests are caught. -/
theorem changeState_ok {mode : Mode} (hmode : ∀ outcome, mode = .live outcome → Caught outcome)
    (rule : Json) (key : DictKey) (value : PyFloat) (action : Action) (s : Evaluator) :
    (changeState mode rule key value action s).2 = .ok () := by
  cases mode with
  | shadow => rfl
  | live outcome => exact pushStateChange_caught (hmode outcome rfl) _

section modes

variable {outcome : ℕ → PyExcept Unit} {s s' : Evaluator}

theorem changeState_agrees (hpush : Caught outcome) (h : Agrees s s') (rule : Json) (key : DictKey)
    (value : PyFloat) (action : Action) :
    Agrees (changeState .shadow rule key value action s).1
        (changeState (.live outcome) rule key value action s').1 ∧
      (changeState .shadow rule key value action s).2 =
        (changeState (.live outcome) rule key value action s').2 := by
  refine ⟨⟨h.alarmRules, h.latestReadings, ?_, ?_⟩, (pushStateChange_caught hpush _).symm⟩
  · simp only [changeState, h.activeState]
  · have hevents := h.events
    unfold Alarms.events at hevents
    simp only [changeState, Alarms.events, List.map_append, hevents, List.map_cons, List.map_nil]

theorem evaluateRule_agrees (hpush : Caught outcome) (h : Agrees s s')
    (readings : DictKey × DictKey → Option LatestReading) (now : ℤ) (rule : Json) :
    Agrees (evaluateRule .shadow readings now rule s).1
        (evaluateRule (.live outcome) readings now rule s').1 ∧
      (evaluateRule .shadow readings now rule s).2 =
        (evaluateRule (.live outcome) readings now rule s').2 := by
  unfold evaluateRule
  cases judgeRule readings now rule with
  | error e => exact ⟨h, rfl⟩
  | ok judged =>
    rcases judged with _ | ⟨key, triggered, value⟩
    · exact ⟨h, rfl⟩
    · have hsampled : Agrees { s with evaluated := s.evaluated ++ [(key, triggered)] }
          { s' with evaluated := s'.evaluated ++ [(key, triggered)] } :=
        ⟨h.alarmRules, h.latestReadings, h.activeState, h.events⟩
      have hwas : (s.activeState key).getD false = (s'.activeState key).getD false := by
        rw [h.activeState]
      simp only [hwas]
      split
      · exact changeState_agrees hpush hsampled rule key value .opened
      · split
        · exact changeState_agrees hpush hsampled rule key value .closed
        · exact ⟨hsampled, rfl⟩

theorem evaluateRules_agrees (hpush : Caught outcome) (h : Agrees s s')
    (readings : DictKey × DictKey → Option LatestReading) (clock : ℕ → ℤ) (i : ℕ)
    (rules : List Json) :
    Agrees (evaluateRules .shadow readings clock i rules s).1
      (evaluateRules (.live outcome) readings clock i rules s').1 := by
  induction rules generalizing i s s' with
  | nil => exact h
  | cons rule rules ih =>
    obtain ⟨hstate, hresult⟩ := evaluateRule_agrees hpush h readings (clock i) rule
    unfold evaluateRules
    -- both modes go on with the next rule or both stop at the same error
    generalize evaluateRule .shadow readings (clock i) rule s = r at hstate hresult ⊢
    generalize evaluateRule (.live outcome) readings (clock i) rule s' = r' at hstate hresult ⊢
    obtain ⟨s₁, result⟩ := r
    obtain ⟨s₂, result'⟩ := r'
    obtain rfl : result = result' := hresult
    cases result with
    | ok _ => exact ih hstate (i + 1)
    | error e => exact hstate

theorem step_agrees (hpush : Caught outcome) (h : Agrees s s') (request : Request) :
    Agrees (s.step .shadow request) (s'.step (.live outcome) request) := by
  cases request with
  | setCurrentAlarmRules alarmRules =>
    exact ⟨rfl, h.latestReadings, h.activeState, h.events⟩
  | recordLatestReading deviceId tagId value quality now =>
    refine ⟨h.alarmRules, ?_, h.activeState, h.events⟩
    simp only [Evaluator.step, recordLatestReading, h.latestReadings]
  | evaluateAllRules clock =>
    simp only [Evaluator.step, evaluateAllRules, h.latestReadings, h.alarmRules]
    exact evaluateRules_agrees hpush h _ clock 0 _

theorem foldl_agrees (hpush : Caught outcome) (h : Agrees s s') (requests : List Request) :
    Agrees (requests.foldl (Evaluator.step .shadow) s)
      (requests.foldl (Evaluator.step (.live outcome)) s') := by
  induction requests generalizing s s' with
  | nil => exact h
  | cons request requests ih => exact ih (step_agrees hpush h request)

end modes

/-- Well-typed rules: an integer id, integer device and tag ids, and a number or nothing as the
threshold. -/
structure WellTyped (rule : Json) : Prop where
  alarmType : ∃ alarmType, rule.get "alarm_type" = .ok alarmType
  id : ∃ n, rule.item "id" = .ok (.int n)
  deviceId : ∃ n, rule.get "device_id" = .ok (.int n)
  tagId : ∃ n, rule.get "tag_id" = .ok (.int n)
  threshold : ∃ threshold, rule.get "threshold_value" = .ok threshold ∧
    (threshold = .null ∨ threshold.number ≠ none)

theorem compareThreshold_ok {threshold : Json} (h : threshold = .null ∨ threshold.number ≠ none)
    (operator : String) (holds : PyFloat → Bool) :
    ∃ c, compareThreshold operator holds threshold = .ok c := by
  rcases h with rfl | h
  · exact ⟨false, rfl⟩
  · cases threshold <;> simp_all [compareThreshold, Json.number]

theorem evaluateCondition_ok {rule : Json} (h : WellTyped rule) (value : PyFloat)
    (readingTimestamp now : ℤ) :
    ∃ triggered, evaluateCondition rule value readingTimestamp now = .ok triggered := by
  obtain ⟨alarmType, htype⟩ := h.alarmType
  obtain ⟨threshold, hthreshold, hnumber⟩ := h.threshold
  have hcompare := compareThreshold_ok hnumber
  unfold evaluateCondition
  rw [htype, hthreshold]
  simp only [bind, Except.bind]
  split
  · exact hcompare _ _
  · split
    · exact hcompare _ _
    · split
      · exact ⟨_, rfl⟩
      · split
        · exact ⟨_, rfl⟩
        · split
          · exact hcompare _ _
          · exact ⟨_, rfl⟩

theorem judgeRule_ok {rule : Json} (h : WellTyped rule)
    (readings : DictKey × DictKey → Option LatestReading) (now : ℤ) :
    ∃ judged, judgeRule readings now rule = .ok judged := by
  obtain ⟨id, hid⟩ := h.id
  obtain ⟨deviceId, hdevice⟩ := h.deviceId
  obtain ⟨tagId, htag⟩ := h.tagId
  have hreading : readingOf readings rule =
      .ok (readings (.number (.finite deviceId), .number (.finite tagId))) := by
    simp only [readingOf, hdevice, htag]
    rfl
  unfold judgeRule
  rw [hreading]
  cases readings (.number (.finite deviceId), .number (.finite tagId)) with
  | none => exact ⟨none, rfl⟩
  | some reading =>
    obtain ⟨triggered, htriggered⟩ := evaluateCondition_ok h reading.value reading.timestamp now
    refine ⟨some (.number (.finite id), triggered, reading.value), ?_⟩
    change (evaluateCondition rule reading.value reading.timestamp now >>= _) = _
    rw [htriggered]
    change (rule.item "id" >>= _) = _
    rw [hid]
    rfl

/-- No pass over well-typed rules raises. -/
theorem evaluateRules_ok {mode : Mode} (hmode : ∀ outcome, mode = .live outcome → Caught outcome)
    (readings : DictKey × DictKey → Option LatestReading) (clock : ℕ → ℤ) (i : ℕ)
    {rules : List Json} (hrules : ∀ rule ∈ rules, WellTyped rule) (s : Evaluator) :
    (evaluateRules mode readings clock i rules s).2 = .ok () := by
  have one (rule : Json) (hrule : WellTyped rule) (now : ℤ) (s : Evaluator) :
      (evaluateRule mode readings now rule s).2 = .ok () := by
    obtain ⟨judged, hjudged⟩ := judgeRule_ok hrule readings now
    rcases evaluateRule_cases mode readings now rule s with
      ⟨e, hraised, -⟩ | ⟨-, heq⟩ | ⟨key, triggered, value, -, ⟨-, heq⟩ | ⟨-, heq⟩⟩
    · rw [hjudged] at hraised
      cases hraised
    · rw [heq]
    · rw [heq]
    · rw [heq]
      exact changeState_ok hmode _ _ _ _ _
  induction rules generalizing i s with
  | nil => rfl
  | cons rule rules ih =>
    have hrule := one rule (hrules rule List.mem_cons_self) (clock i) s
    have hrest := ih (i + 1) (fun r hr => hrules r (List.mem_cons_of_mem _ hr))
    unfold evaluateRules
    split
    · exact hrest _
    · rename_i s' e heq
      rw [heq] at hrule
      exact hrule

/-- Edge alarms are exact edge detection, rule by rule and in both modes, and shadow mode emits
the events that live mode emits. -/
theorem edge_alarms_exact {outcome : ℕ → PyExcept Unit} (hpush : Caught outcome)
    (requests : List Request) :
    (∀ mode key,
      (ofKey key (events (run mode requests))).map Action.edge =
          edges false (ofKey key (run mode requests).evaluated) ∧
        (ofKey key (events (run mode requests))).IsChain (· ≠ ·) ∧
        (ofKey key (events (run mode requests))).head? ≠ some .closed ∧
        ((run mode requests).activeState key).getD false =
          (ofKey key (run mode requests).evaluated).getLastD false) ∧
      events (run .shadow requests) = events (run (.live outcome) requests) ∧
      (run .shadow requests).activeState = (run (.live outcome) requests).activeState := by
  have hagree : Agrees (run .shadow requests) (run (.live outcome) requests) :=
    foldl_agrees hpush ⟨rfl, rfl, rfl, rfl⟩ requests
  refine ⟨fun mode key => ?_, hagree.events, hagree.activeState⟩
  have hinitial : Detects .initial := Exact.nil
  have hdetects : Detects (run mode requests) := foldl_detects hinitial requests
  have hkey := hdetects key
  rw [ofKey_map] at hkey
  -- the edges of any sequence of samples alternate, and the first one from false is a rise
  obtain ⟨hchain, hhead⟩ := edges_alternate false (ofKey key (run mode requests).evaluated)
  rw [← hkey.1] at hchain hhead
  refine ⟨hkey.1, ?_, fun hclosed => ?_, hkey.2⟩
  · exact (List.isChain_map _).mp hchain |>.imp fun a b hne heq => hne (congrArg Action.edge heq)
  · apply hhead
    rw [List.head?_map, hclosed]
    rfl

def highRule : Json :=
  .obj [("id", .int 1), ("device_id", .int 10), ("tag_id", .int 20),
    ("alarm_name", .str "Test High Alarm"), ("alarm_type", .str "high"),
    ("threshold_value", .float (.finite 50))]

/-- A value crosses the threshold of a rule and falls back. -/
def crossing : List Request :=
  [.setCurrentAlarmRules (some [highRule]), .recordLatestReading 10 20 (.finite 10) "good" 0,
    .evaluateAllRules fun _ => 1, .recordLatestReading 10 20 (.finite 60) "good" 2,
    .evaluateAllRules fun _ => 3, .evaluateAllRules fun _ => 4,
    .recordLatestReading 10 20 (.finite 10) "good" 5, .evaluateAllRules fun _ => 6]

/-- Every request after the first fails. -/
def flaky (n : ℕ) : PyExcept Unit :=
  if n = 0 then .ok () else .error ⟨.requestException, "connection refused"⟩

theorem edge_alarms_exact_crossing :
    (ofKey (.number (.finite 1)) (run (.live flaky) crossing).evaluated =
        [false, true, true, false] ∧
      events (run (.live flaky) crossing) =
        [(.number (.finite 1), .opened), (.number (.finite 1), .closed)]) ∧
      events (run .shadow crossing) = events (run (.live flaky) crossing) := by
  have hcaught : Caught flaky := by
    intro n e h
    unfold flaky at h
    split at h
    · cases h
    · cases h
      rfl
  exact ⟨by decide +kernel, (edge_alarms_exact hcaught crossing).2.1⟩

end SenseGateway.Alarms

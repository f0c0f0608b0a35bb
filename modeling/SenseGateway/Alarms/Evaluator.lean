import SenseGateway.Python.Value
import SenseGateway.Signals.Edges

namespace SenseGateway.Alarms

open Python Signals

/-- An entry of `_latest_readings`. Times are in microseconds. -/
structure LatestReading where
  value : PyFloat
  quality : String
  timestamp : ℤ
  deriving DecidableEq, Repr

inductive Action
  | opened
  | closed
  deriving DecidableEq, Repr

/-- One state change as the evaluator emits it: into the log in shadow mode, and to the cloud
otherwise. `key` is the rule's id as a dictionary key. -/
structure Emission where
  key : DictKey
  action : Action
  rule : Json
  triggerValue : PyFloat
  pushed : Bool
  deriving DecidableEq, Repr

/-- `EDGE_ALARM_SHADOW_MODE`, and where it is off, how the requests turn out, one after another. -/
inductive Mode
  | shadow
  | live (outcome : ℕ → PyExcept Unit)

def Mode.pushes : Mode → Bool
  | .shadow => false
  | .live _ => true

/-- The module's state. The last two fields record the run: the results of `_evaluate_condition`
and the emissions, in order. -/
structure Evaluator where
  alarmRules : List Json
  latestReadings : DictKey × DictKey → Option LatestReading
  activeState : DictKey → Option Bool
  evaluated : List (DictKey × Bool)
  emitted : List Emission

def Evaluator.initial : Evaluator := ⟨[], fun _ => none, fun _ => none, [], []⟩

def setCurrentAlarmRules (alarmRules : Option (List Json)) (s : Evaluator) : Evaluator :=
  { s with alarmRules := alarmRules.getD [] }

def recordLatestReading (deviceId tagId : ℤ) (value : PyFloat) (quality : String) (now : ℤ)
    (s : Evaluator) : Evaluator :=
  { s with
    latestReadings := Function.update s.latestReadings
      (.number (.finite deviceId), .number (.finite tagId)) (some ⟨value, quality, now⟩) }

/-- `threshold is not None and value <operator> threshold`, where `holds` is the comparison. -/
def compareThreshold (operator : String) (holds : PyFloat → Bool) (threshold : Json) :
    PyExcept Bool :=
  match threshold with
  | .null => .ok false
  | threshold =>
    match threshold.number with
    | some x => .ok (holds x)
    | none => .error ⟨.typeError, "'" ++ operator ++ "' not supported between instances of " ++
        "'float' and '" ++ threshold.typeName ++ "'"⟩

/-- `timedelta.total_seconds()` -/
def totalSeconds (microseconds : ℤ) : PyFloat := roundDouble (microseconds / 1000000)

def evaluateCondition (rule : Json) (value : PyFloat) (readingTimestamp now : ℤ) : PyExcept Bool := do
  let alarmType ← rule.get "alarm_type"
  let threshold ← rule.get "threshold_value"
  if alarmType ∈ [.str "high", .str "high_high"] then
    compareThreshold ">=" (fun x => x.le value) threshold
  else if alarmType ∈ [.str "low", .str "low_low"] then
    compareThreshold "<=" (fun x => value.le x) threshold
  else if alarmType = .str "digital_on" then return value.eq (.finite 1)
  else if alarmType = .str "digital_off" then return value.eq (.finite 0)
  else if alarmType = .str "communication_loss" then
    compareThreshold ">=" (fun x => x.le (totalSeconds (now - readingTimestamp))) threshold
  else return false

/-- Only a failed request is caught. -/
def pushStateChange (outcome : PyExcept Unit) : PyExcept Unit :=
  match outcome with
  | .ok () => .ok ()
  | .error e => if e.isRequestException then .ok () else .error e

/-- The reading a rule looks at, if there is one. -/
def readingOf (readings : DictKey × DictKey → Option LatestReading) (rule : Json) :
    PyExcept (Option LatestReading) := do
  let deviceKey ← (← rule.get "device_id").hashKey
  let tagKey ← (← rule.get "tag_id").hashKey
  return readings (deviceKey, tagKey)

/-- The state change of a rule, and how emitting it ends. -/
def changeState (mode : Mode) (rule : Json) (key : DictKey) (value : PyFloat) (action : Action)
    (s : Evaluator) : Evaluator × PyExcept Unit :=
  -- the state changes before the request is made, so its outcome cannot matter to it
  ({ s with
    activeState := Function.update s.activeState key (some (action = .opened))
    emitted := s.emitted ++ [⟨key, action, rule, value, mode.pushes⟩] },
  match mode with
  | .shadow => .ok ()
  | .live outcome => pushStateChange (outcome s.emitted.length))

/-- What one pass of the rule loop finds out before it touches the state: nothing where the rule
has no reading, else the rule's id, whether it is triggered, and the value read. -/
def judgeRule (readings : DictKey × DictKey → Option LatestReading) (now : ℤ) (rule : Json) :
    PyExcept (Option (DictKey × Bool × PyFloat)) := do
  match ← readingOf readings rule with
  | none => return none
  | some reading =>
    let triggered ← evaluateCondition rule reading.value reading.timestamp now
    let key ← (← rule.item "id").hashKey
    return some (key, triggered, reading.value)

def evaluateRule (mode : Mode) (readings : DictKey × DictKey → Option LatestReading) (now : ℤ)
    (rule : Json) (s : Evaluator) : Evaluator × PyExcept Unit :=
  match judgeRule readings now rule with
  | .error e => (s, .error e)
  | .ok none => (s, .ok ())
  | .ok (some (key, triggered, value)) =>
    let wasActive := (s.activeState key).getD false
    let s := { s with evaluated := s.evaluated ++ [(key, triggered)] }
    if triggered && !wasActive then changeState mode rule key value .opened s
    else if !triggered && wasActive then changeState mode rule key value .closed s
    else (s, .ok ())

/-- What one rule can do: its judgement raises, or finds no reading, or it is a sample that leaves
the state of the rule as it is or changes it. -/
theorem evaluateRule_cases (mode : Mode) (readings : DictKey × DictKey → Option LatestReading)
    (now : ℤ) (rule : Json) (s : Evaluator) :
    (∃ e, judgeRule readings now rule = .error e ∧
      evaluateRule mode readings now rule s = (s, .error e)) ∨
    (judgeRule readings now rule = .ok none ∧
      evaluateRule mode readings now rule s = (s, .ok ())) ∨
    ∃ key triggered value, judgeRule readings now rule = .ok (some (key, triggered, value)) ∧
      (triggered = (s.activeState key).getD false ∧
          evaluateRule mode readings now rule s =
            ({ s with evaluated := s.evaluated ++ [(key, triggered)] }, .ok ()) ∨
        triggered ≠ (s.activeState key).getD false ∧
          evaluateRule mode readings now rule s =
            changeState mode rule key value (if triggered then .opened else .closed)
              { s with evaluated := s.evaluated ++ [(key, triggered)] }) := by
  unfold evaluateRule
  rcases judgeRule readings now rule with e | _ | ⟨key, triggered, value⟩
  · exact .inl ⟨e, rfl, rfl⟩
  · exact .inr (.inl ⟨rfl, rfl⟩)
  · refine .inr (.inr ⟨key, triggered, value, rfl, ?_⟩)
    dsimp only
    cases (s.activeState key).getD false <;> cases triggered
    · exact .inl ⟨rfl, rfl⟩
    · exact .inr ⟨by simp, rfl⟩
    · exact .inr ⟨by simp, rfl⟩
    · exact .inl ⟨rfl, rfl⟩

/-- The rule loop over a snapshot. `clock i` is the time when the rule at place `i` is looked at;
what a rule raises ends the pass. -/
def evaluateRules (mode : Mode) (readings : DictKey × DictKey → Option LatestReading)
    (clock : ℕ → ℤ) : ℕ → List Json → Evaluator → Evaluator × PyExcept Unit
  | _, [], s => (s, .ok ())
  | i, rule :: rules, s =>
    match evaluateRule mode readings (clock i) rule s with
    | (s, .ok ()) => evaluateRules mode readings clock (i + 1) rules s
    | (s, .error e) => (s, .error e)

/-- What every rule preserves, a pass preserves. -/
theorem evaluateRules_preserves {mode : Mode} {readings : DictKey × DictKey → Option LatestReading}
    {P : Evaluator → Prop}
    (hrule : ∀ now rule s, P s → P (evaluateRule mode readings now rule s).1) (clock : ℕ → ℤ)
    (i : ℕ) (rules : List Json) {s : Evaluator} (h : P s) :
    P (evaluateRules mode readings clock i rules s).1 := by
  induction rules generalizing i s with
  | nil => exact h
  | cons rule rules ih =>
    have hnext := hrule (clock i) rule s h
    unfold evaluateRules
    split
    · rename_i s' heq
      rw [heq] at hnext
      exact ih (i + 1) hnext
    · rename_i s' e heq
      rwa [heq] at hnext

/-- A pass changes nothing but the states of the rules and the record of the run. -/
theorem evaluateRules_frame {α : Type} {f : Evaluator → α}
    (hf : ∀ s activeState evaluated emitted, f { s with activeState, evaluated, emitted } = f s)
    (mode : Mode) (readings : DictKey × DictKey → Option LatestReading) (clock : ℕ → ℤ) (i : ℕ)
    (rules : List Json) (s : Evaluator) : f (evaluateRules mode readings clock i rules s).1 = f s := by
  have one (now : ℤ) (rule : Json) (s : Evaluator) :
      f (evaluateRule mode readings now rule s).1 = f s := by
    rcases evaluateRule_cases mode readings now rule s with
      ⟨e, -, heq⟩ | ⟨-, heq⟩ | ⟨key, triggered, value, -, ⟨-, heq⟩ | ⟨-, heq⟩⟩ <;> rw [heq]
    · exact hf s s.activeState _ s.emitted
    · exact hf s _ _ _
  refine evaluateRules_preserves (P := fun s' => f s' = f s) ?_ clock i rules rfl
  exact fun now rule s' hsame => (one now rule s').trans hsame

def evaluateAllRules (mode : Mode) (clock : ℕ → ℤ) (s : Evaluator) : Evaluator × PyExcept Unit :=
  evaluateRules mode s.latestReadings clock 0 s.alarmRules s

/-- A pass works on a snapshot of the readings and leaves them alone. -/
theorem latestReadings_evaluateAllRules (mode : Mode) (clock : ℕ → ℤ) (s : Evaluator) :
    (evaluateAllRules mode clock s).1.latestReadings = s.latestReadings :=
  evaluateRules_frame (fun _ _ _ _ => rfl) mode _ clock 0 _ s

/-- The calls other threads make into the evaluator. -/
inductive Request
  | setCurrentAlarmRules (alarmRules : Option (List Json))
  | recordLatestReading (deviceId tagId : ℤ) (value : PyFloat) (quality : String) (now : ℤ)
  | evaluateAllRules (clock : ℕ → ℤ)

/-- One call; the worker logs what a pass raises and goes on. -/
def Evaluator.step (mode : Mode) (s : Evaluator) : Request → Evaluator
  | .setCurrentAlarmRules alarmRules => setCurrentAlarmRules alarmRules s
  | .recordLatestReading deviceId tagId value quality now =>
    recordLatestReading deviceId tagId value quality now s
  | .evaluateAllRules clock => (evaluateAllRules mode clock s).1

def run (mode : Mode) (requests : List Request) : Evaluator :=
  requests.foldl (Evaluator.step mode) .initial

end SenseGateway.Alarms

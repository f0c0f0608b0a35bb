import SenseGateway.Alarms.EdgeDetection
import SenseGateway.Effects.Reduction
import SenseGateway.Effects.Schedule

namespace SenseGateway.Alarms

open Python Effects Queues

/-- What a pass of the evaluator does one after the other. `triggered` is what it has just found
out, and is only recorded. -/
inductive EvaluatorCall
  | copyRules
  | copyReadings
  | now
  | getActive (key : DictKey) (triggered : Bool)
  | setActive (key : DictKey) (active : Bool)
  | emit (key : DictKey) (action : Action) (rule : Json) (triggerValue : PyFloat)

abbrev EvaluatorCall.Answer : EvaluatorCall → Type
  | .copyRules => List Json
  | .copyReadings => DictKey × DictKey → Option LatestReading
  | .now => ℤ
  | .getActive _ _ => Bool
  | .setActive _ _ => Unit
  | .emit _ _ _ _ => PyExcept Unit

abbrev evaluatorCalls : Interface := ⟨EvaluatorCall, EvaluatorCall.Answer⟩

abbrev EvaluatorM := Prog evaluatorCalls PyError

namespace Threaded

def perform (o : EvaluatorCall) : EvaluatorM o.Answer := Prog.perform (I := evaluatorCalls) o

/-- Only `communication_loss` with a threshold looks at the clock. -/
def evaluateCondition (rule : Json) (value : PyFloat) (readingTimestamp : ℤ) :
    EvaluatorM Bool := do
  let alarmType ← rule.get "alarm_type"
  let threshold ← rule.get "threshold_value"
  if alarmType = .str "communication_loss" ∧ threshold ≠ .null then
    let now ← perform .now
    compareThreshold ">=" (fun x => x.le (totalSeconds (now - readingTimestamp))) threshold
  else Alarms.evaluateCondition rule value readingTimestamp 0

def judgeRule (readings : DictKey × DictKey → Option LatestReading) (rule : Json) :
    EvaluatorM (Option (DictKey × Bool × PyFloat)) := do
  match ← Prog.ofExcept (readingOf readings rule) with
  | none => return none
  | some reading =>
    let triggered ← evaluateCondition rule reading.value reading.timestamp
    let key ← Prog.ofExcept (rule.item "id" >>= Json.hashKey)
    return some (key, triggered, reading.value)

/-- What is emitted is a line of the log in shadow mode, and otherwise a request. -/
def changeState (mode : Mode) (rule : Json) (key : DictKey) (value : PyFloat) (action : Action) :
    EvaluatorM Unit := do
  perform (.setActive key (action = .opened))
  let outcome ← perform (.emit key action rule value)
  match mode with
  | .shadow => return
  | .live _ => pushStateChange outcome

def evaluateRule (mode : Mode) (readings : DictKey × DictKey → Option LatestReading) (rule : Json) :
    EvaluatorM Unit := do
  match ← judgeRule readings rule with
  | none => return
  | some (key, triggered, value) =>
    let wasActive ← perform (.getActive key triggered)
    if triggered && !wasActive then changeState mode rule key value .opened
    else if !triggered && wasActive then changeState mode rule key value .closed

/-- The two copies are taken under two locks, one after the other. -/
def evaluateAllRules (mode : Mode) : EvaluatorM Unit := do
  let rules ← perform .copyRules
  let readings ← perform .copyReadings
  Prog.forEach rules (evaluateRule mode readings)

end Threaded

/-- How the request of the next emission turns out. -/
def Mode.answer (mode : Mode) (n : ℕ) : PyExcept Unit :=
  match mode with
  | .shadow => .ok ()
  | .live outcome => outcome n

def Evaluator.serves (mode : Mode) (s : Evaluator) : (o : EvaluatorCall) → o.Answer → Evaluator → Prop
  | .copyRules, r, s' => r = s.alarmRules ∧ s' = s
  | .copyReadings, r, s' => r = s.latestReadings ∧ s' = s
  | .now, _, s' => s' = s
  | .getActive key triggered, r, s' => r = (s.activeState key).getD false ∧
      s' = { s with evaluated := s.evaluated ++ [(key, triggered)] }
  | .setActive key active, _, s' =>
      s' = { s with activeState := Function.update s.activeState key (some active) }
  | .emit key action rule value, r, s' => r = mode.answer s.emitted.length ∧
      s' = { s with emitted := s.emitted ++ [⟨key, action, rule, value, mode.pushes⟩] }

/-- What the other threads call: each holds one lock, and does all its work under it. -/
inductive Update
  | rules (alarmRules : Option (List Json))
  | reading (deviceId tagId : ℤ) (value : PyFloat) (quality : String) (now : ℤ)
  deriving DecidableEq

/-- The two locks. -/
inductive Lock
  | rules
  | state
  deriving DecidableEq

namespace Update

def lock : Update → Lock
  | .rules _ => .rules
  | .reading .. => .state

def apply : Update → Evaluator → Evaluator
  | .rules alarmRules => setCurrentAlarmRules alarmRules
  | .reading deviceId tagId value quality now => recordLatestReading deviceId tagId value quality now

end Update

def Update.request : Update → Request
  | .rules alarmRules => .setCurrentAlarmRules alarmRules
  | .reading deviceId tagId value quality now => .recordLatestReading deviceId tagId value quality now

/-- The update a request is, if it is no pass. -/
def Request.update : Request → Option Update
  | .setCurrentAlarmRules alarmRules => some (.rules alarmRules)
  | .recordLatestReading deviceId tagId value quality now =>
    some (.reading deviceId tagId value quality now)
  | .evaluateAllRules _ => none

section computed

def Evaluator.reply (mode : Mode) (s : Evaluator) : (o : EvaluatorCall) → o.Answer × Evaluator
  | .copyRules => (s.alarmRules, s)
  | .copyReadings => (s.latestReadings, s)
  | .now => ((0 : ℤ), s)
  | .getActive key triggered => ((s.activeState key).getD false,
      { s with evaluated := s.evaluated ++ [(key, triggered)] })
  | .setActive key active => ((),
      { s with activeState := Function.update s.activeState key (some active) })
  | .emit key action rule value => (mode.answer s.emitted.length,
      { s with emitted := s.emitted ++ [⟨key, action, rule, value, mode.pushes⟩] })

end computed

end SenseGateway.Alarms

import SenseGateway.Buffer.Outcome
import SenseGateway.Commands.Outline
import SenseGateway.Configuration.Refresh
import SenseGateway.Effects.Cadence
import SenseGateway.Python.RoundingOrder

namespace SenseGateway.Loops

open Python Effects

/-- `current_time - last >= interval` -/
def isDue (interval : ℤ) (last currentTime : PyFloat) : Bool :=
  (PyFloat.finite interval).le (currentTime.sub last)

/-- What `run_config_refresh_loop` does outside plain computation, once it is due. The request answers
with the body of the response. -/
inductive RefreshCall
  | requestConfiguration
  | setCurrentConfiguration (configuration : Json)
  | writeConfigCache (configuration : Json)
  | setCurrentAlarmRules (alarmRules : Json)
  deriving DecidableEq

abbrev RefreshCall.Answer : RefreshCall → Type
  | .requestConfiguration => PyExcept Json
  | .setCurrentConfiguration _ => Unit
  | .writeConfigCache _ => PyExcept Unit
  | .setCurrentAlarmRules _ => PyExcept Unit

abbrev refreshCalls : Interface := ⟨RefreshCall, RefreshCall.Answer⟩

abbrev RefreshM := Prog refreshCalls PyError

def perform (o : RefreshCall) : RefreshM o.Answer := Prog.perform (I := refreshCalls) o

/-- The `try` block of `run_config_refresh_loop`. -/
def refreshConfiguration : RefreshM Unit := do
  let configuration ← Configuration.downloadConfiguration (← perform .requestConfiguration)
  perform (.setCurrentConfiguration configuration)
  Prog.ofExcept (← perform (.writeConfigCache configuration))
  let alarmRules ← configuration.get "alarm_rules"
  Prog.ofExcept (← perform (.setCurrentAlarmRules alarmRules))

section refresh

open SenseGateway.Configuration

/-- The answers of the surroundings to the calls of a refresh, on what the threads share. -/
def serve (iteration : Iteration) : (o : RefreshCall) → Gateway → o.Answer × Gateway
  | .requestConfiguration, s => (iteration.response, s)
  | .setCurrentConfiguration configuration, s => ((), { s with currentConfiguration := configuration })
  | .writeConfigCache configuration, s =>
    (Configuration.writeConfigCache iteration.cacheWrite configuration s).swap
  | .setCurrentAlarmRules alarmRules, s =>
    match rulesToHold alarmRules with
    | .ok rules => (.ok (), { s with evaluator := Alarms.setCurrentAlarmRules (some rules) s.evaluator })
    | .error e => (.error e, s)

/-- The block makes of the shared state what `refresh` says. -/
theorem refreshConfiguration_eval (iteration : Iteration) (s : Gateway) :
    refreshConfiguration.eval (serve iteration) s = (refresh iteration s).swap := by
  unfold refresh
  show Prog.eval _ ((Prog.ofExcept (downloadConfiguration iteration.response)).bind
    fun configuration => _) s = _
  cases downloadConfiguration iteration.response with
  | error e => rfl
  | ok configuration =>
    cases hwrite : iteration.cacheWrite with
    | error e => simp [perform, Prog.perform, serve, hwrite, writeConfigCache]
    | ok _ =>
      cases hget : configuration.get "alarm_rules" with
      | error e =>
        simp [perform, Prog.perform, serve, hwrite, writeConfigCache, bind, Except.bind, hget]
      | ok alarmRules =>
        cases hrules : rulesToHold alarmRules <;>
          simp [perform, Prog.perform, serve, hwrite, writeConfigCache, bind, Except.bind, hget, hrules]

end refresh

section spacing

/-- A clock reading in seconds. -/
def seconds : PyFloat → ℚ
  | .finite q => q
  | _ => 0

end spacing

section requests

def asksForCommands (o : Poller.Call) : Bool := decide (o = .getPendingCommands)

theorem quiet_once (o : Poller.Call) (ho : Commands.Quiet o) (made : Bool) :
    (Protocol.once (I := Poller.calls) asksForCommands).allowed made o ∧
      ∀ r, (Protocol.once (I := Poller.calls) asksForCommands).next made o r = made := by
  have hq : asksForCommands o = false := by
    refine decide_eq_false ?_
    rintro rfl
    exact ho
  exact ⟨fun h => absurd h (by simp [hq]), fun _ => by simp [Protocol.once, hq]⟩

/-- A command makes no request for further ones. -/
theorem executeCommand_once (settings : Poller.Settings) (command configuration : Json) {made : Bool}
    (hmade : made = true) :
    (Commands.executeCommand settings command configuration).wp
      (.once (I := Poller.calls) asksForCommands) (fun _ l => l = true) (fun _ l => l = true) made := by
  have other {o : Poller.Call} (ho : asksForCommands o = false) {l : Bool} (hl : l = true) :
      (Protocol.once (I := Poller.calls) asksForCommands).allowed l o ∧
        ∀ r, (Protocol.once (I := Poller.calls) asksForCommands).next l o r = true :=
    ⟨fun h => absurd h (by simp [ho]), fun _ => by simp [Protocol.once, hl]⟩
  refine Prog.wp_mono (fun _ _ h => h) ?_ (Commands.executeCommand_stages (· = true) quiet_once
    (fun _ _ _ _ => other rfl hmade) fun order _ => ⟨⟨(· = true), (· = true), (· = true), (· = true),
      quiet_once, fun _ h => h, fun l client request hl _ _ => ?_, fun _ _ _ => other rfl,
      fun _ _ => other rfl⟩, hmade, fun _ h => h⟩)
  · rintro e l (hl | ⟨rfl, -⟩)
    · exact hl
    · exact hmade
  · obtain ⟨ha, hn⟩ := other (o := .write client request) rfl hl
    exact ⟨ha, hn _, fun r _ => hn r⟩

section flush

variable {ok : Buffer.FlushCall → Prop}
  (hsent : ∀ messageId, ok (.markMessageSent messageId))
  (hfailed : ∀ messageId errorMessage, ok (.markMessageFailed messageId errorMessage))
include hfailed

include hsent

end flush

end requests

section pace

variable {σ : Type}

/-- The clock of a run answers with finite numbers. -/
def Ticks (time : σ → PyFloat) (looks : List σ) : Prop := ∀ s ∈ looks, (time s).isFinite = true

/-- An interval that less than a millisecond can be taken off without rounding. -/
def Exact (interval : ℤ) : Prop :=
  roundDouble (interval - 1 / 1024) = .finite (interval - 1 / 1024) ∧ (0 : ℚ) ≤ interval - 1 / 1024

variable {interval : ℤ} {due : PyFloat → σ → Bool} {time : σ → PyFloat} {R : Bool → Prop}
  {looks requests : List σ} {out : Option (PyExcept Unit)}

/-- A backend that answers every request for the configuration with an error. -/
def unreachable : (o : RefreshCall) → o.Answer
  | .requestConfiguration => .error ⟨.requestException, "Connection refused"⟩
  | .setCurrentConfiguration _ => ()
  | .writeConfigCache _ => .ok ()
  | .setCurrentAlarmRules _ => .ok ()

end pace

end SenseGateway.Loops

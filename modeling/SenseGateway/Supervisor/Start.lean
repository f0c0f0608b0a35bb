import SenseGateway.Effects.Prog
import SenseGateway.Python.Value

namespace SenseGateway.Supervisor

open Python Effects

/-- The entries of `components`. -/
inductive Component
  | telemetryPoller
  | healthReporter
  deriving DecidableEq, Repr

def components : List Component := [.telemetryPoller, .healthReporter]

/-- What the supervisor does outside plain computation. A process is named by its handle. -/
inductive StartCall
  | scriptExists (c : Component)
  | popen (c : Component)
  | setProcess (c : Component) (process : ℕ)
  | getProcess (c : Component)
  | poll (process : ℕ)
  | bumpRestartCount (c : Component)
  | testRunning
  | clearRunning
  | sleep
  | terminate (process : ℕ)
  | wait (process : ℕ)
  deriving DecidableEq, Repr

abbrev StartCall.Answer : StartCall → Type
  | .scriptExists _ => Bool
  | .popen _ => PyExcept ℕ
  | .getProcess _ => Option ℕ
  | .poll _ => Option ℤ
  | .testRunning => Bool
  | .terminate _ => PyExcept Unit
  | .wait _ => PyExcept ℤ
  | _ => Unit

abbrev startCalls : Interface := ⟨StartCall, StartCall.Answer⟩

abbrev StartM := Prog startCalls PyError

def perform (o : StartCall) : StartM o.Answer := Prog.perform (I := startCalls) o

def startProcess (component : Component) : StartM Unit := do
  if ← perform (.scriptExists component) then
    let process ← Prog.ofExcept (← perform (.popen component))
    perform (.setProcess component process)

/-- One pass of the loop of `check_components`. -/
def checkComponent (component : Component) : StartM Unit := do
  match ← perform (.getProcess component) with
  | none => return ()
  | some process =>
    match ← perform (.poll process) with
    | none => return ()
    | some _ => do
      perform (.bumpRestartCount component)
      startProcess component

def checkComponents : StartM Unit := Prog.forEach components checkComponent

/-- What `stop_handler` does to one child in its first loop. An exception is only logged. -/
def terminateChild (component : Component) : StartM Unit := do
  match ← perform (.getProcess component) with
  | none => return ()
  | some process => do
    match ← perform (.terminate process) with
    | .ok () => return ()
    | .error _ => return ()

/-- What it does in its second loop. A timeout is only logged. -/
def awaitChild (component : Component) : StartM Unit := do
  match ← perform (.getProcess component) with
  | none => return ()
  | some process => do
    match ← perform (.wait process) with
    | .ok _ => return ()
    | .error _ => return ()

def stopHandler : StartM Unit := do
  perform .clearRunning
  Prog.forEach components terminateChild
  Prog.forEach components awaitChild

/-- Not an exception of the source: where a run is cut off after a number of rounds. -/
def cutOff : PyError := ⟨.other, "cut off"⟩

/-- The watchdog loop of `main`, for at most `rounds` rounds. -/
def watch : (rounds : ℕ) → StartM Unit
  | 0 => Prog.throw cutOff
  | rounds + 1 => do
    if ← perform .testRunning then do
      perform .sleep
      if ← perform .testRunning then checkComponents
      watch rounds

/-- `main` from the point where the signal handlers are installed. -/
def main (rounds : ℕ) : StartM Unit := do
  Prog.forEach components startProcess
  watch rounds

end SenseGateway.Supervisor

import SenseGateway.Commands.Acknowledgement
import SenseGateway.Effects.Runs

namespace SenseGateway.Commands

open Python Effects Poller

/-- The id under which an element of the fetched list is acknowledged, where it is an object. -/
def objectId : Json → Option Json
  | .obj fields => some ((Json.lookup "command_id" fields).getD .null)
  | _ => none

/-- A cycle as the world sees it: the backend has these commands, the poller this configuration,
and the acknowledgements attempted so far are `attempts`. A request can fail, but in no other way
than with a `RequestException`. -/
def batchServes (commands : List Json) (configuration : Json) (attempts : List Ack) :
    (o : Call) → o.Answer → List Ack → Prop
  | .postAck ack, answer, attempts' =>
    attempts' = attempts ++ [ack] ∧ ∀ e, answer = .error e → e.isRequestException = true
  | .getPendingCommands, reply, attempts' => attempts' = attempts ∧ commandsIn reply = .ok commands
  | .currentConfiguration _, current, attempts' => attempts' = attempts ∧ current = configuration
  | _, _, attempts' => attempts' = attempts

/-- Every cycle over the list attempts one acknowledgement for each element that is an object. -/
def AllAcknowledged (settings : Settings) (commands : List Json) (configuration : Json) : Prop :=
  ∀ out attempts,
    Prog.Runs (batchServes commands configuration) (commandsCycle settings) [] out attempts →
      out = .ok () ∧ attempts.map Ack.commandId = commands.filterMap objectId

/-- An element that no handler of `execute_command` is there for: it is no object, an id is one
that `int` refuses with an exception other than the three expected, or its type is supported and
the search for its tag raises or ends at a device entry whose id cannot be read. -/
def Jams (configuration command : Json) : Prop :=
  objectId command = none ∨
    (∃ e, commandIds command = .error e ∧ e.isConversionError = false) ∨
    ∃ deviceId tagId commandType, commandIds command = .ok (deviceId, tagId) ∧
      commandTypeOf command = .ok commandType ∧ commandType ∈ validCommandTypes ∧
      ((∃ e, findWritableTag configuration deviceId tagId = .error e) ∨
        ∃ device tag e, findWritableTag configuration deviceId tagId = .ok (some (device, tag)) ∧
          entryDeviceId device = .error e)

/-- No object comes at or after the first element that jams. -/
def Unjammed (configuration : Json) (commands : List Json) : Prop :=
  ∃ before rest, commands = before ++ rest ∧ (∀ command ∈ before, ¬ Jams configuration command) ∧
    ∀ command ∈ rest, objectId command = none

section batch

variable {commands : List Json} {configuration : Json} {attempts : List Ack}

/-- The ids a cycle acknowledges: those before the first element that jams. -/
def reached (configuration : Json) : List Json → List Json
  | [] => []
  | command :: commands =>
    match screen command configuration with
    | .ok verdict => verdict.commandId :: reached configuration commands
    | .error _ => []

theorem ackCommand_wlp (commandId : Json) (status : String) (error : Option String) :
    (ackCommand commandId status error).wlp (batchServes commands configuration)
      (fun out attempts' => out = .ok () ∧
        ∃ ack : Ack, ack.commandId = commandId ∧ attempts' = attempts ++ [ack]) attempts := by
  rintro executedAt _ rfl answer _ ⟨rfl, hfails⟩
  cases answer with
  | ok _ => exact ⟨rfl, _, rfl, rfl⟩
  | error e =>
    change Prog.wlp _ (if e.isRequestException then Prog.pure () else Prog.throw e) _ _
    rw [if_pos (hfails e rfl)]
    exact ⟨rfl, _, rfl, rfl⟩

/-- Calls that neither write nor acknowledge make no attempt. -/
theorem quiet_attempts {o : Call} {r : o.Answer} {attempts' : List Ack} (ho : Quiet o)
    (h : batchServes commands configuration attempts o r attempts') : attempts' = attempts := by
  cases o with
  | write client request => exact ho.elim
  | postAck ack => exact ho.elim
  | getPendingCommands => exact ho.elim
  | currentConfiguration command => exact ho.elim
  | _ => exact h

theorem closeClient_wlp (client : Option Client) :
    (match client with
      | some client => closeClientWithTimeout client
      | none => Prog.pure () : PollerM Unit).wlp (batchServes commands configuration)
      (fun out attempts' => out = .ok () ∧ attempts' = attempts) attempts := by
  cases client with
  | none => exact ⟨rfl, rfl⟩
  | some client =>
    refine Prog.wlp_mono ?_ (Prog.wlp_of_only (J := (· = attempts))
      (closeClientWithTimeout_quiet client) ?_ rfl)
    · rintro out attempts' ⟨hsame, hout⟩
      cases out with
      | ok _ => exact ⟨rfl, hsame⟩
      | error e => exact hout.elim
    · rintro _ o r attempts' ho rfl hs
      exact quiet_attempts ho hs

/-- The attempts of a run of a command are those of its journal. -/
theorem journal_attempts (base : List Ack) (w : List Ack) (l : Journal) (o : Call) (r : o.Answer)
    (w' : List Ack) (hw : w = base ++ l.acked) (hs : batchServes commands configuration w o r w') :
    w' = base ++ (journal.next l o r).acked := by
  subst hw
  cases o with
  | postAck ack => simpa [journal] using hs.1
  | getPendingCommands => exact hs.1
  | currentConfiguration command => exact hs.1
  | _ => exact hs

theorem writeToDevice_wlp (settings : Settings) (order : Order) :
    (writeToDevice settings order.device order.tag order.deviceId order.commandType
      order.value).wlp (batchServes commands configuration)
      (fun out attempts' => attempts' = attempts ∧ ∃ conclusion, out = .ok conclusion) attempts := by
  let S : Stages journal settings order := journalStages (A := fun _ _ => True) fun _ _ _ _ => trivial
  have hwp := S.writeToDevice_wp (l := Journal.mk [] []) rfl
  refine Prog.wlp_mono ?_ (Prog.wlp_of_wp hwp (journal_attempts attempts) (by simp))
  rintro out attempts' ⟨l, rfl, hout⟩
  cases out with
  | error e => exact hout.elim
  | ok conclusion =>
    refine ⟨?_, conclusion, rfl⟩
    obtain ⟨client, result⟩ := conclusion
    cases result with
    | ok _ =>
      obtain ⟨_, _, -, rfl⟩ := hout
      simp
    | error e =>
      obtain ⟨hacked, -⟩ := hout
      simp [hacked]

/-- A failure is acknowledged at once; a success is not acknowledged yet. -/
theorem concludeWrite_wlp (commandId : Json) (client : Option Client) (result : PyExcept Unit) :
    (concludeWrite commandId client result).wlp (batchServes commands configuration)
      (fun out attempts' => out = .ok true ∧ attempts' = attempts ∨
        out = .ok false ∧ ∃ ack : Ack, ack.commandId = commandId ∧ attempts' = attempts ++ [ack])
      attempts := by
  refine Prog.wlp_ensure ?_
  cases result with
  | ok _ =>
    refine Prog.wlp_pure.mpr (Prog.wlp_mono ?_ (closeClient_wlp client))
    rintro out attempts' ⟨rfl, rfl⟩
    exact ⟨rfl, .inl ⟨rfl, rfl⟩⟩
  | error e =>
    refine Prog.wlp_bind (Prog.wlp_mono ?_ (ackCommand_wlp commandId "failed" (some e.message)))
    rintro out attempts' ⟨rfl, hack⟩
    refine Prog.wlp_pure.mpr (Prog.wlp_mono ?_ (closeClient_wlp client))
    rintro out attempts'' ⟨rfl, rfl⟩
    exact ⟨rfl, .inr ⟨rfl, hack⟩⟩

theorem withLock_wlp {α : Type} {lock : LockId} {body : PollerM α}
    {Q : PyExcept α → List Ack → Prop}
    (h : body.wlp (batchServes commands configuration) Q attempts) :
    (withLock lock body).wlp (batchServes commands configuration) Q attempts := by
  rintro _ _ rfl
  refine Prog.wlp_ensure (Prog.wlp_mono ?_ h)
  rintro out attempts' hQ _ _ rfl
  exact ⟨rfl, hQ⟩

/-- An order is acknowledged once and raises nothing, whatever the device does. -/
theorem executeOrder_wlp (settings : Settings) (order : Order) :
    (executeOrder settings order).wlp (batchServes commands configuration)
      (fun out attempts' => out = .ok () ∧
        ∃ ack : Ack, ack.commandId = order.commandId ∧ attempts' = attempts ++ [ack]) attempts := by
  let Q (out : PyExcept Bool) (attempts' : List Ack) : Prop :=
    out = .ok true ∧ attempts' = attempts ∨ out = .ok false ∧
      ∃ ack : Ack, ack.commandId = order.commandId ∧ attempts' = attempts ++ [ack]
  refine Prog.wlp_bind (Prog.wlp_mono ?_ (withLock_wlp (Q := Q)
    (Prog.wlp_bind (Prog.wlp_mono ?_ (writeToDevice_wlp settings order)))))
  · rintro out attempts' (⟨rfl, rfl⟩ | ⟨rfl, hack⟩)
    · exact ackCommand_wlp order.commandId "success" none
    · exact ⟨rfl, hack⟩
  · rintro out attempts' ⟨rfl, ⟨client, result⟩, rfl⟩
    exact concludeWrite_wlp order.commandId client result

theorem executeCommand_wlp (settings : Settings) (command : Json) :
    (executeCommand settings command configuration).wlp (batchServes commands configuration)
      (fun out attempts' => match screen command configuration with
        | .ok verdict => out = .ok () ∧
          ∃ ack : Ack, ack.commandId = verdict.commandId ∧ attempts' = attempts ++ [ack]
        | .error e => out = .error e ∧ attempts' = attempts) attempts := by
  rw [executeCommand_eq]
  refine Prog.wlp_bind (Prog.wlp_ofExcept.mpr ?_)
  cases screen command configuration with
  | error e => exact ⟨rfl, rfl⟩
  | ok verdict =>
    cases verdict with
    | rejected commandId message => exact ackCommand_wlp commandId "failed" (some message)
    | accepted order => exact executeOrder_wlp settings order

/-- The loop acknowledges the commands it reaches, and no other. -/
theorem commandsLoop_wlp (settings : Settings) (pending : List Json) :
    (Prog.forEach pending fun command => do
      let configuration ← perform (.currentConfiguration command)
      executeCommand settings command configuration).wlp (batchServes commands configuration)
      (fun _ attempts' => attempts'.map Ack.commandId =
        attempts.map Ack.commandId ++ reached configuration pending) attempts := by
  induction pending generalizing attempts with
  | nil => simp [Prog.forEach, Prog.wlp, reached]
  | cons command pending ih =>
    refine Prog.wlp_bind ?_
    rintro current _ ⟨rfl, rfl⟩
    refine Prog.wlp_mono ?_ (executeCommand_wlp settings command)
    intro out attempts' hout
    cases hscreen : screen command current with
    | error e =>
      -- the exception leaves the loop, and what comes behind is not reached
      rw [hscreen] at hout
      obtain ⟨rfl, rfl⟩ := hout
      simp [reached, hscreen]
    | ok verdict =>
      rw [hscreen] at hout
      obtain ⟨rfl, ack, hid, rfl⟩ := hout
      refine Prog.wlp_mono ?_ ih
      intro out attempts'' hattempts
      simp [hattempts, reached, hscreen, hid]

/-- A cycle acknowledges the commands it reaches, and ends without raising. -/
theorem commandsCycle_wlp (settings : Settings) :
    (commandsCycle settings).wlp (batchServes commands configuration)
      (fun out attempts => out = .ok () ∧ attempts.map Ack.commandId = reached configuration commands)
      [] := by
  refine Prog.wlp_handle (Prog.wlp_bind ?_)
  rintro reply _ ⟨rfl, hreply⟩
  refine Prog.wlp_ofExcept.mpr ?_
  rw [hreply]
  refine Prog.wlp_mono ?_ (commandsLoop_wlp settings commands)
  intro out attempts hattempts
  cases out with
  | ok _ => exact ⟨rfl, by simpa using hattempts⟩
  | error e => exact ⟨rfl, by simpa using hattempts⟩

theorem objectId_of_screen {command : Json} {verdict : Verdict}
    (h : screen command configuration = .ok verdict) : objectId command = some verdict.commandId := by
  have hid := screen_commandId h
  cases command with
  | obj fields => exact congrArg some (Except.ok.inj hid)
  | _ => cases hid

/-- The elements that jam are those on which the checks before the device lock raise. -/
theorem jams_iff_screen {command : Json} :
    Jams configuration command ↔ ∃ e, screen command configuration = .error e := by
  cases command with
  | obj fields =>
    have hid : (Json.obj fields).get "command_id" = .ok _ := rfl
    have htype : commandTypeOf (.obj fields) = .ok _ := rfl
    have hvalue : (Json.obj fields).get "value" = .ok _ := rfl
    simp only [Jams, objectId, screen, hid, htype, hvalue, bind, Except.bind]
    cases commandIds (.obj fields) with
    | error e =>
      cases hkind : e.isConversionError <;>
        simp [hkind, pure, Except.pure, throw, throwThe, MonadExceptOf.throw]
    | ok ids =>
      obtain ⟨deviceId, tagId⟩ := ids
      by_cases hvalid : (((Json.lookup "command_type" fields).getD .null).orElse (.str "")).toStr ∈
        validCommandTypes
      · cases hfind : findWritableTag configuration deviceId tagId with
        | error e => simp [hvalid, hfind]
        | ok found =>
          rcases found with _ | ⟨device, tag⟩
          · simp [hvalid, hfind, pure, Except.pure]
          · cases hentry : entryDeviceId device <;>
              simp [hvalid, hfind, hentry, pure, Except.pure]
      · simp [hvalid, pure, Except.pure]
  -- what is no object has no `get`
  | _ => exact ⟨fun _ => ⟨_, rfl⟩, fun _ => .inl rfl⟩

theorem reached_of_no_object (h : ∀ command ∈ commands, objectId command = none) :
    reached configuration commands = [] := by
  cases commands with
  | nil => rfl
  | cons command commands =>
    cases hscreen : screen command configuration with
    | error e => simp [reached, hscreen]
    | ok verdict =>
      have hnone := h command List.mem_cons_self
      rw [objectId_of_screen hscreen] at hnone
      cases hnone

/-- All objects are reached exactly where none comes after a jam. -/
theorem reached_eq_iff :
    reached configuration commands = commands.filterMap objectId ↔
      Unjammed configuration commands := by
  constructor
  · intro h
    induction commands with
    | nil => exact ⟨[], [], rfl, by simp, by simp⟩
    | cons command commands ih =>
      cases hscreen : screen command configuration with
      | error e =>
        have hnone : (command :: commands).filterMap objectId = [] := by
          simpa [reached, hscreen] using h.symm
        exact ⟨[], command :: commands, rfl, by simp, List.filterMap_eq_nil_iff.mp hnone⟩
      | ok verdict =>
        have hid := objectId_of_screen hscreen
        obtain ⟨before, rest, rfl, hbefore, hrest⟩ := ih (by simpa [reached, hscreen, hid] using h)
        refine ⟨command :: before, rest, rfl, fun c hc => ?_, hrest⟩
        rcases List.mem_cons.mp hc with rfl | hc
        · intro hjams
          obtain ⟨e, he⟩ := jams_iff_screen.mp hjams
          simp [hscreen] at he
        · exact hbefore c hc
  · rintro ⟨before, rest, rfl, hbefore, hrest⟩
    induction before with
    | nil => simp [reached_of_no_object hrest, List.filterMap_eq_nil_iff.mpr hrest]
    | cons command before ih =>
      have hih := ih fun c hc => hbefore c (List.mem_cons_of_mem _ hc)
      cases hscreen : screen command configuration with
      | error e => exact absurd (jams_iff_screen.mpr ⟨e, hscreen⟩) (hbefore command List.mem_cons_self)
      | ok verdict => simpa [reached, hscreen, objectId_of_screen hscreen] using hih

end batch

/-- The world in which nothing fails. -/
def batchAnswer (commands : List Json) (configuration : Json) :
    (o : Call) → List Ack → o.Answer × List Ack
  | .postAck ack, attempts => (.ok (), attempts ++ [ack])
  | .getPendingCommands, attempts =>
    (.payload (.obj [("success", .bool true), ("commands", .arr commands)]), attempts)
  | .currentConfiguration _, attempts => (configuration, attempts)
  | o, attempts => (friendly o, attempts)

theorem batchServes_batchAnswer (commands : List Json) (configuration : Json) (o : Call)
    (attempts : List Ack) :
    batchServes commands configuration attempts o (batchAnswer commands configuration o attempts).1
      (batchAnswer commands configuration o attempts).2 := by
  cases o with
  | postAck ack => exact ⟨rfl, fun e he => nomatch he⟩
  | getPendingCommands => exact ⟨rfl, rfl⟩
  | currentConfiguration command => exact ⟨rfl, rfl⟩
  | _ => rfl

/-- A cycle attempts one acknowledgement for every object of the list exactly where no object comes
at or after an element that jams. -/
theorem allAcknowledged_iff_unjammed (settings : Settings) (commands : List Json)
    (configuration : Json) :
    AllAcknowledged settings commands configuration ↔ Unjammed configuration commands := by
  rw [← reached_eq_iff]
  constructor
  · intro h
    have hrun := Prog.runs_eval (batchServes_batchAnswer commands configuration)
      (commandsCycle settings) []
    obtain ⟨-, hreached⟩ := hrun.wlp (commandsCycle_wlp settings)
    exact hreached.symm.trans (h _ _ hrun).2
  · intro h out attempts hrun
    obtain ⟨hout, hreached⟩ := hrun.wlp (commandsCycle_wlp settings)
    exact ⟨hout, hreached.trans h⟩

/-- A command whose device id is the number `1e999`, which is read as infinity. -/
def infiniteCommand : Json :=
  .obj [("command_id", .int 8), ("command_type", .str "write_register"),
    ("device_id", .float (.infinity false)), ("tag_id", .int 7), ("value", .int 5)]

/-- It keeps the sound command behind it from being acknowledged. -/
theorem sound_command_held_up :
    ¬ AllAcknowledged sampleSettings [infiniteCommand, writeCommand 1] sampleConfiguration := by
  intro h
  have hrun := Prog.runs_eval
    (batchServes_batchAnswer [infiniteCommand, writeCommand 1] sampleConfiguration)
    (commandsCycle sampleSettings) []
  have hnone : ((commandsCycle sampleSettings).eval
      (batchAnswer [infiniteCommand, writeCommand 1] sampleConfiguration) []).2 = [] := by decide
  have hids := (h _ _ hrun).2
  rw [hnone] at hids
  revert hids
  decide

end SenseGateway.Commands

import SenseGateway.Commands.Outline
import SenseGateway.Effects.Schedule

namespace SenseGateway.Commands

open Python Effects Poller

/-- The id of a command as the acknowledgement's address spells it. -/
def commandText (command : Json) : String :=
  match command.get "command_id" with
  | .ok id => id.toStr
  | .error _ => ""

/-- What the backend has issued and what it has received an acknowledgement for. The last three
fields only count: the command the gateway is at, and for each id the successful writes and the
success acknowledgements that were lost. -/
structure Backend where
  issued : List Json
  acked : List String
  current : Option String
  written : String → ℕ
  lost : String → ℕ

namespace Backend

def initial : Backend := ⟨[], [], none, fun _ => 0, fun _ => 0⟩

/-- The commands the backend has received no acknowledgement for. -/
def pending (w : Backend) : List Json := w.issued.filter fun command => commandText command ∉ w.acked

def countWrite (w : Backend) : Backend :=
  match w.current with
  | some id => { w with written := Function.update w.written id (w.written id + 1) }
  | none => w

def receive (w : Backend) (ack : Ack) : Backend :=
  { w with acked := ack.commandId.toStr :: w.acked }

def lose (w : Backend) (ack : Ack) : Backend :=
  if ack.status = "success" then
    { w with lost := Function.update w.lost ack.commandId.toStr (w.lost ack.commandId.toStr + 1) }
  else w

/-- How a call is answered: a fetch that succeeds returns every pending command, in any order;
an acknowledgement is received or, where the gateway sees an error, may be lost. -/
def serves (w : Backend) : (o : Call) → o.Answer → Backend → Prop
  | .getPendingCommands, .payload body, w' =>
    (∃ commands, commands.Perm w.pending ∧
      body = .obj [("success", .bool true), ("commands", .arr commands)]) ∧ w' = w
  | .currentConfiguration command, _, w' => w' = { w with current := some (commandText command) }
  | .write _ _, .ok .done, w' => w' = w.countWrite
  | .postAck ack, r, w' => w' = w.receive ack ∨ r ≠ .ok () ∧ w' = w.lose ack
  | _, _, w' => w' = w

/-- The backend issues a command with an id it has not used before. -/
def issues (w w' : Backend) : Prop :=
  ∃ command, commandText command ∉ w.issued.map commandText ∧
    w' = { w with issued := w.issued ++ [command] }

end Backend

/-- The command loop against the backend: cycle after cycle, while commands are issued. -/
def deliveryMachine (settings : Settings) : Machine calls PyError Unit Backend :=
  ⟨fun _ => Backend.serves, fun _ => Backend.issues, fun _ p => p = commandsCycle settings⟩

def deliveryStart : Config calls PyError Unit Backend := ⟨.initial, fun _ => none⟩

/-- How far the command at hand is: not yet written or refused, or written and not yet
acknowledged. -/
inductive Stage
  | between
  | acting (id : String)
  | written (id : String)
  deriving DecidableEq

/-- The ids still to come in this cycle, and the stage of the command at hand. -/
structure Turn where
  left : List String
  stage : Stage

def Turn.Idle (l : Turn) : Prop := ∀ id, l.stage ≠ .written id

def Turn.allowed (l : Turn) : Call → Prop
  | .currentConfiguration command => l.Idle ∧ ∃ rest, l.left = commandText command :: rest
  | .write _ _ => ∃ id, l.stage = .acting id
  | .postAck ack =>
    if ack.status = "success" then l.stage = .written ack.commandId.toStr
    else l.stage = .acting ack.commandId.toStr
  | .getPendingCommands => l.Idle
  | _ => True

/-- The ids of the commands a reply brings. -/
def idsIn (reply : PendingReply) : List String :=
  match commandsIn reply with
  | .ok commands => commands.map commandText
  | .error _ => []

def Turn.next (l : Turn) : (o : Call) → o.Answer → Turn
  | .getPendingCommands, reply => ⟨idsIn reply, .between⟩
  | .currentConfiguration command, _ => ⟨l.left.tail, .acting (commandText command)⟩
  | .write _ _, .ok .done =>
    match l.stage with
    | .acting id => ⟨l.left, .written id⟩
    | _ => l
  | .postAck _, _ => ⟨l.left, .between⟩
  | _, _ => l

def turnProtocol : Protocol calls Turn := ⟨Turn.allowed, Turn.next⟩

theorem turnProtocol_quiet (o : Call) (ho : Quiet o) (l : Turn) :
    turnProtocol.allowed l o ∧ ∀ r, turnProtocol.next l o r = l := by
  cases o with
  | write client request => exact ho.elim
  | postAck ack => exact ho.elim
  | getPendingCommands => exact ho.elim
  | currentConfiguration command => exact ho.elim
  | _ => exact ⟨trivial, fun _ => rfl⟩

theorem commandText_of_screen {command configuration : Json} {verdict : Verdict}
    (h : screen command configuration = .ok verdict) :
    commandText command = verdict.commandId.toStr := by
  simp [commandText, screen_commandId h]

/-- The ids still to come do not change under a command, and it does not end in `written`. -/
theorem executeCommand_turn (settings : Settings) (command configuration : Json)
    (left : List String) :
    (executeCommand settings command configuration).wp turnProtocol
      (fun _ l => l.left = left ∧ l.Idle) (fun _ l => l.left = left ∧ l.Idle)
      ⟨left, .acting (commandText command)⟩ := by
  let Over (l : Turn) : Prop := l = ⟨left, .between⟩
  have idle_over (l : Turn) (h : Over l) : l.left = left ∧ l.Idle := by
    rw [h]
    exact ⟨rfl, fun id => by simp⟩
  have failed (commandId : Json) (executedAt message : String) (l : Turn)
      (hl : l = ⟨left, .acting commandId.toStr⟩) :
      turnProtocol.allowed l (.postAck ⟨commandId, "failed", executedAt, some message⟩) ∧
        ∀ r, Over
          (turnProtocol.next l (.postAck ⟨commandId, "failed", executedAt, some message⟩) r) := by
    subst hl
    exact ⟨rfl, fun r => rfl⟩
  refine Prog.wp_mono (fun _ => idle_over) ?_
    (executeCommand_stages Over turnProtocol_quiet ?_ fun order hscreen => ?_)
  · rintro e l (hover | ⟨rfl, -⟩)
    · exact idle_over l hover
    · exact ⟨rfl, fun id => by simp⟩
  · intro commandId message hscreen executedAt
    exact failed commandId executedAt message _ (by rw [commandText_of_screen hscreen]; rfl)
  · have htext : commandText command = order.commandId.toStr := commandText_of_screen hscreen
    refine ⟨⟨fun l => l = ⟨left, .acting order.commandId.toStr⟩,
      fun l => l = ⟨left, .written order.commandId.toStr⟩,
      fun l => l = ⟨left, .acting order.commandId.toStr⟩, Over, turnProtocol_quiet, fun _ h => h,
      fun l client request hl _ _ => ?_, fun l executedAt message => failed _ executedAt message l,
      fun l executedAt hl => ?_⟩, by rw [htext], fun _ h => h⟩
    · subst hl
      refine ⟨⟨_, rfl⟩, rfl, fun r hr => ?_⟩
      rcases r with e | text | _
      · rfl
      · rfl
      · exact absurd rfl hr
    · subst hl
      exact ⟨rfl, fun r => rfl⟩

/-- A cycle takes the commands it fetched one by one. -/
theorem commandsCycle_turn (settings : Settings) {l : Turn} (hl : l.Idle) :
    (commandsCycle settings).wp turnProtocol (fun _ => Turn.Idle) (fun _ => Turn.Idle) l := by
  refine (Prog.wp_handle _ _).mpr ((Prog.wp_bind _ _).mpr ⟨hl, fun reply => ?_⟩)
  have idle (left : List String) : Turn.Idle ⟨left, .between⟩ := fun id => by simp
  refine (Prog.wp_ofExcept _).mpr ⟨fun commands hcommands => ?_, fun _ _ => idle _⟩
  let J (commands : List Json) (l : Turn) : Prop := l.left = commands.map commandText ∧ l.Idle
  have hstart : J commands (turnProtocol.next l .getPendingCommands reply) := by
    refine ⟨?_, idle _⟩
    have hids : commandsIn reply = .ok commands := hcommands
    change idsIn reply = _
    rw [idsIn, hids]
  refine Prog.wp_mono (fun _ l' h => h.2) (fun _ _ h => h) (Prog.wp_forEach (J := J) ?_ hstart)
  rintro command rest l₁ ⟨hleft, hidle⟩
  refine ⟨⟨hidle, rest.map commandText, hleft⟩, fun configuration => ?_⟩
  have hnext : turnProtocol.next l₁ (.currentConfiguration command) configuration =
      ⟨rest.map commandText, .acting (commandText command)⟩ := by
    change Turn.mk l₁.left.tail _ = _
    rw [hleft]
    rfl
  rw [hnext]
  exact Prog.wp_mono (fun _ _ h => h) (fun _ _ h => h.2)
    (executeCommand_turn settings command configuration _)

/-- What the backend and the gateway know of each other. -/
structure Delivered (w : Backend) (l : Turn) : Prop where
  unique : (w.issued.map commandText).Nodup
  left_nodup : l.left.Nodup
  left_unacked : ∀ id ∈ l.left, id ∉ w.acked
  current : ∀ id, l.stage = .acting id ∨ l.stage = .written id →
    w.current = some id ∧ id ∉ l.left ∧ id ∉ w.acked
  count : ∀ id, w.written id ≤
    w.lost id + (if id ∈ w.acked then 1 else 0) + (if l.stage = .written id then 1 else 0)

namespace Delivered

variable {w w' : Backend} {l : Turn}

theorem initial : Delivered .initial ⟨[], .between⟩ :=
  ⟨List.nodup_nil, List.nodup_nil, by simp, by simp, by simp [Backend.initial]⟩

theorem issues (h : Delivered w l) (hb : w.issues w') : Delivered w' l := by
  obtain ⟨command, hnew, rfl⟩ := hb
  refine ⟨?_, h.left_nodup, h.left_unacked, h.current, h.count⟩
  have hnodup : (w.issued.map commandText ++ [commandText command]).Nodup := by
    refine List.nodup_append.mpr ⟨h.unique, by simp, fun a ha b hb => ?_⟩
    obtain rfl : b = commandText command := by simpa using hb
    rintro rfl
    exact hnew ha
  simpa using hnodup

theorem fetched (h : Delivered w l) (hl : l.Idle) {commands : List Json}
    (hc : commands.Perm w.pending) : Delivered w ⟨commands.map commandText, .between⟩ := by
  refine ⟨h.unique, ?_, ?_, by simp, fun id => ?_⟩
  · have hsub : (w.pending.map commandText).Nodup :=
      h.unique.sublist (List.filter_sublist.map commandText)
    exact ((hc.map commandText).nodup_iff).mpr hsub
  · intro id hid
    obtain ⟨command, hmem, rfl⟩ := List.mem_map.mp hid
    simpa using (List.mem_filter.mp (hc.mem_iff.mp hmem)).2
  · have hcount := h.count id
    rw [if_neg (hl id)] at hcount
    simpa using hcount

/-- A fetch that brings nothing. -/
theorem emptied (h : Delivered w l) (hl : l.Idle) : Delivered w ⟨[], .between⟩ := by
  refine ⟨h.unique, List.nodup_nil, by simp, by simp, fun id => ?_⟩
  have hcount := h.count id
  rw [if_neg (hl id)] at hcount
  simpa using hcount

theorem taken (h : Delivered w l) (hl : l.Idle) {id : String} {rest : List String}
    (hleft : l.left = id :: rest) :
    Delivered { w with current := some id } ⟨rest, .acting id⟩ := by
  have hnodup := h.left_nodup
  have hunacked := h.left_unacked
  rw [hleft] at hnodup hunacked
  obtain ⟨hnot, hrest⟩ := List.nodup_cons.mp hnodup
  refine ⟨h.unique, hrest, fun other ho => hunacked other (List.mem_cons_of_mem _ ho), ?_,
    fun other => ?_⟩
  · rintro other (hs | hs)
    · obtain rfl : id = other := by simpa using hs
      exact ⟨rfl, hnot, hunacked id List.mem_cons_self⟩
    · simp at hs
  · have hcount := h.count other
    rw [if_neg (hl other)] at hcount
    simpa using hcount

/-- The first successful write of a command that is neither written nor acknowledged. -/
theorem write (h : Delivered w l) {id : String} (hl : l.stage = .acting id) :
    Delivered w.countWrite ⟨l.left, .written id⟩ := by
  obtain ⟨hcur, hnot, hunacked⟩ := h.current id (.inl hl)
  have hw : w.countWrite =
      { w with written := Function.update w.written id (w.written id + 1) } := by
    simp [Backend.countWrite, hcur]
  rw [hw]
  refine ⟨h.unique, h.left_nodup, h.left_unacked, ?_, fun other => ?_⟩
  · rintro other (hs | hs)
    · simp at hs
    · obtain rfl : id = other := by simpa using hs
      exact ⟨hcur, hnot, hunacked⟩
  · have hcount := h.count other
    have hnone : l.stage ≠ .written other := by simp [hl]
    rw [if_neg hnone] at hcount
    -- an unacknowledged command was written at most as often as its acknowledgement was lost
    by_cases ho : other = id
    · subst ho
      rw [if_neg hunacked] at hcount
      simp only [Function.update_self, if_neg hunacked, if_true]
      omega
    · have hne : id ≠ other := fun h => ho h.symm
      simpa [ho, hne] using hcount

/-- The backend receives an acknowledgement of the command at hand. -/
theorem receive (h : Delivered w l) {ack : Ack} (ha : l.allowed (.postAck ack)) :
    Delivered (w.receive ack) ⟨l.left, .between⟩ := by
  have hstage : l.stage = .acting ack.commandId.toStr ∨ l.stage = .written ack.commandId.toStr := by
    by_cases hs : ack.status = "success"
    · exact .inr (by simpa [Turn.allowed, hs] using ha)
    · exact .inl (by simpa [Turn.allowed, hs] using ha)
  obtain ⟨hcur, hnot, hunacked⟩ := h.current _ hstage
  refine ⟨h.unique, h.left_nodup, ?_, by simp, fun other => ?_⟩
  · intro other ho
    have hne : other ≠ ack.commandId.toStr := by
      rintro rfl
      exact hnot ho
    simpa [Backend.receive, hne] using h.left_unacked other ho
  · have hcount := h.count other
    -- the write under way and the acknowledgement trade places in the count
    by_cases ho : other = ack.commandId.toStr
    · subst ho
      rw [if_neg hunacked] at hcount
      simp only [Backend.receive, List.mem_cons, true_or, if_true]
      split at hcount <;> simp <;> omega
    · have hne : l.stage ≠ .written other := by
        rintro hs
        rcases hstage with hs' | hs' <;> simp [hs] at hs'
        exact ho hs'
      rw [if_neg hne] at hcount
      simpa [Backend.receive, ho] using hcount

/-- An acknowledgement is lost; if it is one of success, the command may be written again. -/
theorem lose (h : Delivered w l) {ack : Ack} (ha : l.allowed (.postAck ack)) :
    Delivered (w.lose ack) ⟨l.left, .between⟩ := by
  by_cases hs : ack.status = "success"
  · have hstage : l.stage = .written ack.commandId.toStr := by simpa [Turn.allowed, hs] using ha
    have hw : w.lose ack = { w with
        lost := Function.update w.lost ack.commandId.toStr (w.lost ack.commandId.toStr + 1) } :=
      if_pos hs
    rw [hw]
    refine ⟨h.unique, h.left_nodup, h.left_unacked, by simp, fun other => ?_⟩
    have hcount := h.count other
    by_cases ho : other = ack.commandId.toStr
    · subst ho
      simp only [hstage, if_true] at hcount
      simp only [Function.update_self, reduceCtorEq, if_false]
      omega
    · have hne : l.stage ≠ .written other := by
        rw [hstage]
        exact fun h => ho (Stage.written.inj h).symm
      rw [if_neg hne] at hcount
      simpa [ho] using hcount
  · have hstage : l.stage = .acting ack.commandId.toStr := by simpa [Turn.allowed, hs] using ha
    have hw : w.lose ack = w := if_neg hs
    rw [hw]
    refine ⟨h.unique, h.left_nodup, h.left_unacked, by simp, fun other => ?_⟩
    have hcount := h.count other
    rw [hstage] at hcount
    simpa using hcount

theorem serves (h : Delivered w l) {o : Call} {r : o.Answer} (hs : w.serves o r w')
    (ha : l.allowed o) : Delivered w' (l.next o r) := by
  cases o with
  | getPendingCommands =>
    cases r with
    | payload body =>
      obtain ⟨⟨commands, hperm, rfl⟩, rfl⟩ := hs
      exact h.fetched ha hperm
    | _ =>
      obtain rfl := hs
      exact h.emptied ha
  | currentConfiguration command =>
    obtain rfl := hs
    obtain ⟨hidle, rest, hleft⟩ := ha
    have hnext := h.taken hidle hleft
    simpa [Turn.next, hleft] using hnext
  | write client request =>
    obtain ⟨id, hid⟩ := ha
    rcases r with e | text | _
    · obtain rfl := hs
      exact h
    · obtain rfl := hs
      exact h
    · obtain rfl := hs
      have hwritten := h.write hid
      simpa [Turn.next, hid] using hwritten
  | postAck ack =>
    rcases hs with rfl | ⟨-, rfl⟩
    · exact h.receive ha
    · exact h.lose ha
  | construct d p =>
    cases r <;> (obtain rfl := hs; exact h)
  | connect c =>
    obtain rfl := hs
    exact h
  | _ =>
    obtain rfl := hs
    exact h

end Delivered

/-- The discipline of the command loop. -/
def deliveryDiscipline (settings : Settings) : Discipline (deliveryMachine settings) Turn where
  protocol _ := turnProtocol
  idle _ := Turn.Idle
  inv w ls := Delivered w (ls ())
  entry_wp _ _ _ hp hl := hp ▸ commandsCycle_turn settings hl
  serves_inv := by
    intro _ w o r w' ls h hs ha
    have hnext : Delivered w' (turnProtocol.next (ls ()) o r) := h.serves hs ha
    simpa using hnext
  background_inv _ _ _ _ h hb := h.issues hb

/-- However commands are issued and acknowledgements are lost, a command is successfully written
at most once more than success acknowledgements for it were lost. -/
theorem written_le_lost (settings : Settings) {c : Config calls PyError Unit Backend}
    (hr : (deliveryMachine settings).Reach deliveryStart c) (id : String) :
    c.world.written id ≤ 1 + c.world.lost id := by
  have h₀ : (deliveryDiscipline settings).Holds deliveryStart fun _ => ⟨[], .between⟩ :=
    ⟨Delivered.initial, fun _ id => by simp⟩
  obtain ⟨ls, hinv, -⟩ := Discipline.reach_holds hr h₀
  have hcount := hinv.count id
  have hcurrent := (hinv.current id ∘ .inr)
  -- a command is never acknowledged and in the stage `written` at once
  by_cases hacked : id ∈ c.world.acked
  · have hne : (ls ()).stage ≠ .written id := fun hs => (hcurrent hs).2.2 hacked
    rw [if_pos hacked, if_neg hne] at hcount
    omega
  · rw [if_neg hacked] at hcount
    split at hcount <;> omega

/-- A backend that loses the first success acknowledgement of each command. -/
def forgetful (w : Backend) : (o : Call) → Option (o.Answer × Backend)
  | .getPendingCommands =>
    some (.payload (.obj [("success", .bool true), ("commands", .arr w.pending)]), w)
  | .currentConfiguration command =>
    some (sampleConfiguration, { w with current := some (commandText command) })
  | .write _ _ => some (.ok .done, w.countWrite)
  | .postAck ack =>
    if w.lost ack.commandId.toStr = 0 then
      some (.error ⟨.requestException, "timed out"⟩, w.lose ack)
    else some (.ok (), w.receive ack)
  | o => some (friendly o, w)

theorem serves_of_forgetful {w w' : Backend} {o : Call} {r : o.Answer}
    (h : forgetful w o = some (r, w')) : w.serves o r w' := by
  cases o with
  | getPendingCommands =>
    cases h
    exact ⟨⟨w.pending, .refl _, rfl⟩, rfl⟩
  | write client request =>
    cases h
    rfl
  | postAck ack =>
    simp only [forgetful] at h
    split at h
    · cases h
      exact .inr ⟨by simp, rfl⟩
    · cases h
      exact .inl rfl
  | _ =>
    cases h
    rfl

def forgetfulDriver (settings : Settings) : Driver (deliveryMachine settings) :=
  ⟨fun _ => forgetful, fun _ _ _ _ _ => serves_of_forgetful⟩

def issueMove (settings : Settings) (command : Json) : Move (deliveryMachine settings) :=
  .world (fun w =>
    if commandText command ∉ w.issued.map commandText then
      some { w with issued := w.issued ++ [command] }
    else none) fun _ w w' h => by
      simp only [Option.ite_none_right_eq_some, Option.some.injEq] at h
      exact ⟨command, h.1, h.2.symm⟩

/-- A command is issued and carried out, its acknowledgement is lost, and the next cycle fetches
it again. -/
def redelivery : List (Move (deliveryMachine sampleSettings)) :=
  [issueMove sampleSettings (writeCommand 1),
    .start () _ rfl, .steps (forgetfulDriver sampleSettings) () 22,
    .start () _ rfl, .steps (forgetfulDriver sampleSettings) () 22]

theorem written_le_lost_redelivered :
    ∃ c, (deliveryMachine sampleSettings).Reach deliveryStart c ∧
      (c.world.written "9" = 2 ∧ c.world.acked = ["9"]) ∧
      c.world.written "9" ≤ 1 + c.world.lost "9" := by
  obtain ⟨c, hr, hc⟩ := Move.reach_of_schedule deliveryStart redelivery
    (fun c => c.world.written "9" = 2 ∧ c.world.acked = ["9"]) (by decide +kernel)
  exact ⟨c, hr, hc, written_le_lost sampleSettings hr "9"⟩

/-- One command is successfully written twice. -/
theorem command_written_twice :
    ¬ ∀ c, (deliveryMachine sampleSettings).Reach deliveryStart c →
      ∀ id, c.world.written id ≤ 1 := by
  intro honce
  obtain ⟨c, hr, hc⟩ := Move.reach_of_schedule deliveryStart redelivery
    (fun c => c.world.written "9" = 2) (by decide +kernel)
  have hle := honce c hr "9"
  omega

end SenseGateway.Commands

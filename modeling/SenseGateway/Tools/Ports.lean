import SenseGateway.Effects.Handles
import SenseGateway.Tools.Gui

namespace SenseGateway.Tools

open Python Effects Poller Diagnose

/-- The ports the console and the raw probe have open. -/
def toolPorts : Handles toolCalls PortClient where
  opens
    | .connect client => some client
    | _ => none
  opened
    | .connect _, connected => decide (connected = .ok true)
    | _, _ => false
  closes
    | .close client => some client
    | _ => none

/-- The ports the test window has open. -/
def guiPorts : Handles guiCalls PortClient where
  opens
    | .connect client => some client
    | _ => none
  opened
    | .connect _, connected => decide (connected = .ok true)
    | _, _ => false
  closes
    | .close client => some client
    | _ => none

/-- The ports a configuration scan has open. -/
def scanPorts : Handles scanCalls ScanClient where
  opens
    | .connect client => some client
    | _ => none
  opened
    | .connect _, connected => decide (connected = .ok true)
    | _, _ => false
  closes
    | .close client => some client
    | _ => none

section gui

namespace Gui

/-- The window has no port open but that of its client, and has given that up when it is gone. -/
structure Holds (g : Gui) (l : Option PortClient) : Prop where
  held : l = none ∨ l = g.client
  gone : g.destroyed = true → g.client = none

variable {g : Gui} {l : Option PortClient} {α : Type} {R : α → Prop}

/-- A part of a handler that leaves the connection and the fields alone. -/
abbrev Idle (g : Gui) (p : GuiM α) (R : α → Prop) : Prop :=
  guiPorts.Leaves p R fun raised => raised.1 = g

theorem get_idle (x : PyExcept α) : Idle g (g.get x) fun _ => True := by
  refine .ofExcept (fun _ _ => trivial) fun raised hraised => ?_
  cases x with
  | ok a => cases hraised
  | error e => exact (congrArg Prod.fst (Except.error.inj hraised)).symm

theorem display_idle (what : Display) : Idle g (g.display what) fun _ => True :=
  .bind (.perform ⟨rfl, rfl⟩) fun shown _ => get_idle shown

theorem catching_idle {p : GuiM α} {h : PyError → GuiM α} (hp : Idle g p R) (hh : ∀ e, Idle g (h e) R) :
    Idle g (catching p h) R := .handle hp fun raised _ => hh raised.2

theorem readOneRegister_idle (slaveId address count : Json) (functionCode : ℤ) :
    Idle g (g.readOneRegister slaveId address count functionCode) fun _ => True := by
  unfold readOneRegister
  cases g.client with
  | none => exact get_idle _
  | some client => exact .bind (.perform ⟨rfl, rfl⟩) fun reply _ => get_idle reply

theorem knock_idle (d : Discovery) (slaveId : ℤ) : Idle g (g.knock d slaveId) fun _ => True := by
  refine catching_idle (.bind (readOneRegister_idle _ _ _ _) fun reply _ => ?_) fun _ => .pure trivial
  cases reply with
  | error text => exact .bind (display_idle _) fun _ _ => .pure trivial
  | registers registers => exact .bind (display_idle _) fun _ _ => .pure trivial

theorem over_idle : Idle g (Prog.pure g) (· = g) := .pure rfl

theorem listPorts_idle : Idle g g.listPorts (· = g) := by
  refine .bind (.perform ⟨rfl, rfl⟩) fun found _ => .bind (get_idle found) fun ports _ => ?_
  refine .ite (.bind (display_idle _) fun _ _ => over_idle) ?_
  exact .bind (display_idle _) fun _ _ => .bind (.forEach fun p => display_idle _) fun _ _ => over_idle

theorem deviceAt_idle (i : ℕ) : Idle g (g.deviceAt i) fun _ => True := by
  unfold deviceAt
  split
  · exact .pure trivial
  · exact get_idle _

theorem onDeviceSelect_idle : Idle g g.onDeviceSelect (· = g) := by
  refine .bind (.perform ⟨rfl, rfl⟩) fun selection _ => ?_
  cases selection with
  | none => exact over_idle
  | some i =>
    refine .bind (deviceAt_idle i) fun device _ => .bind (get_idle _) fun conn _ => ?_
    refine .bind (get_idle _) fun _ _ => .bind (get_idle _) fun _ _ => .bind (get_idle _) fun _ _ => ?_
    refine .bind (get_idle _) fun _ _ => .bind (display_idle _) fun _ _ => ?_
    exact .bind (get_idle _) fun _ _ => .bind (display_idle _) fun _ _ => over_idle

theorem scanTag_idle (slaveId tag : Json) : Idle g (g.scanTag slaveId tag) fun _ => True := by
  refine .bind (get_idle _) fun address _ => .bind (get_idle _) fun _ _ => ?_
  refine .bind (get_idle _) fun functionCode _ => .bind (get_idle _) fun name _ => ?_
  refine catching_idle (.bind (readOneRegister_idle _ _ _ _) fun reply _ => ?_) fun _ => display_idle _
  cases reply with
  | error text => exact display_idle _
  | registers registers =>
    exact .bind (get_idle _) fun _ _ => .bind (get_idle _) fun _ _ => display_idle _

theorem scanDevice_idle : Idle g g.scanDevice (· = g) := by
  refine .bind (.perform ⟨rfl, rfl⟩) fun selection _ => ?_
  cases selection with
  | none => exact .bind (display_idle _) fun _ _ => over_idle
  | some i =>
    refine .ite (.bind (display_idle _) fun _ _ => over_idle) ?_
    refine .bind (deviceAt_idle i) fun device _ => .bind (get_idle _) fun conn _ => ?_
    refine .bind (get_idle _) fun expectedPort _ => .bind (get_idle _) fun name _ => ?_
    refine .bind (.perform ⟨rfl, rfl⟩) fun port _ => ?_
    refine .ite (.bind (display_idle _) fun _ _ => over_idle) ?_
    refine .bind (display_idle _) fun _ _ => .bind (get_idle _) fun slaveId _ => ?_
    refine .bind (display_idle _) fun _ _ => .bind (get_idle _) fun tags _ => ?_
    exact .bind (.forEach (scanTag_idle slaveId)) fun _ _ => .bind (display_idle _) fun _ _ => over_idle

theorem readSingle_idle : Idle g g.readSingle (· = g) := by
  refine .ite (.bind (display_idle _) fun _ _ => over_idle) ?_
  refine .bind (.perform ⟨rfl, rfl⟩) fun address _ =>
    .ite (.bind (display_idle _) fun _ _ => over_idle) ?_
  refine .bind (catching_idle ?_ fun _ => display_idle _) fun _ _ => over_idle
  have number {field : Entry} {f : ℤ → GuiM Unit} (h : ∀ n, Idle g (f n) fun _ => True) :
      Idle g ((perform (.entry field)).bind fun text => (g.get (intOf text)).bind f) fun _ => True :=
    .bind (.perform ⟨rfl, rfl⟩) fun _ _ => .bind (get_idle _) fun n _ => h n
  refine number fun slaveId => number fun address => number fun count => number fun functionCode => ?_
  refine .bind (.perform ⟨rfl, rfl⟩) fun started _ =>
    .bind (readOneRegister_idle _ _ _ _) fun reply _ => ?_
  refine .bind (.perform ⟨rfl, rfl⟩) fun ended _ => ?_
  cases reply with
  | error text => exact display_idle _
  | registers registers =>
    refine .bind (.perform ⟨rfl, rfl⟩) fun _ _ => .bind (.perform ⟨rfl, rfl⟩) fun _ _ => ?_
    refine .bind (.perform ⟨rfl, rfl⟩) fun _ _ => ?_
    generalize Diagnose.decodeRegisters registers _ _ _ = decoded
    exact .bind (get_idle decoded) fun _ _ => display_idle _

/-- What holds between the handlers holds at their end, whichever way they end. -/
def Keeps (p : GuiM Gui) (l : Option PortClient) : Prop :=
  p.wp guiPorts.exclusive Holds (fun raised => Holds raised.1) l

theorem keeps_of_idle {p : GuiM Gui} (h : Idle g p (· = g)) (hl : Holds g l) : Keeps p l := by
  refine Prog.wp_mono ?_ ?_ h.wp
  · rintro _ _ ⟨rfl, rfl⟩
    exact hl
  · rintro raised _ ⟨rfl, h⟩
    rwa [h]

theorem bind_idle {β : Type} {p : GuiM α} {f : α → GuiM β} {Q : β → Option PortClient → Prop}
    (hp : Idle g p R) (hl : Holds g l)
    (hf : ∀ a, R a → (f a).wp guiPorts.exclusive Q (fun raised => Holds raised.1) l) :
    (p.bind f).wp guiPorts.exclusive Q (fun raised => Holds raised.1) l := by
  refine hp.wp_bind (fun raised hraised => ?_) hf
  rwa [hraised]

/-- A window whose client has been closed. -/
theorem Holds.closed (hl : Holds g l) : Holds g none := ⟨.inl rfl, hl.gone⟩

/-- A connection that is given up is closed first. -/
theorem disconnect_wp (hl : Holds g l) : g.disconnect.wp guiPorts.exclusive
    (fun g' l' => l' = none ∧ g' = { g with client := none }) (fun raised => Holds raised.1) l := by
  unfold disconnect
  have finish {g' : Gui} (h : Holds g' none) (hg' : g' = { g with client := none }) :
      ((g'.display (.status "Not connected")).bind fun _ => Prog.pure g').wp guiPorts.exclusive
        (fun g' l' => l' = none ∧ g' = { g with client := none }) (fun raised => Holds raised.1) none :=
    bind_idle (display_idle _) h fun _ _ => ⟨rfl, hg'⟩
  have hnone : Holds { g with client := none } none := ⟨.inl rfl, fun _ => rfl⟩
  refine (Prog.wp_bind _ _).mpr ?_
  cases hclient : g.client with
  | none =>
    obtain rfl : l = none := by simpa [hclient] using hl.held
    exact finish hl (by rw [← hclient])
  | some client =>
    -- the port is given up even where `close` raises, and then the field still has the client
    refine Handles.wp_close ⟨rfl, rfl⟩ (hclient ▸ hl.held) fun closed => ?_
    show ((g.get closed).bind fun _ => _).wp _ _ _ none
    refine bind_idle (get_idle closed) hl.closed fun _ _ => ?_
    exact bind_idle (display_idle _) hnone fun _ _ => finish hnone rfl

theorem openPort_keeps (hg : Holds g none) (halive : g.destroyed = false) : Keeps g.openPort none := by
  have told {g : Gui} {l : Option PortClient} (hl : Holds g l) (status log : String) :
      Keeps ((g.display (.status status)).bind fun _ =>
        (g.display (.log log)).bind fun _ => Prog.pure g) l :=
    bind_idle (display_idle _) hl fun _ _ => bind_idle (display_idle _) hl fun _ _ => hl
  -- from then on the new client is the window's
  have hopen (client : PortClient) : Holds { g with client := some client } (some client) :=
    ⟨.inr rfl, fun hgone => absurd (halive.symm.trans hgone) Bool.false_ne_true⟩
  refine bind_idle (.perform ⟨rfl, rfl⟩) hg fun port _ =>
    bind_idle (.perform ⟨rfl, rfl⟩) hg fun baud _ => ?_
  refine bind_idle (get_idle _) hg fun baudrate _ =>
    bind_idle (.perform ⟨rfl, rfl⟩) hg fun parity _ => ?_
  refine bind_idle (.perform ⟨rfl, rfl⟩) hg fun stopbits _ => ?_
  generalize normalizeStopBits (.str stopbits) = normalized
  refine bind_idle (get_idle normalized) hg fun stopbits _ => ?_
  refine bind_idle (.perform ⟨rfl, rfl⟩) hg fun made _ => bind_idle (get_idle made) hg fun uid _ => ?_
  refine ⟨fun _ => rfl, fun connected => ?_⟩
  rcases connected with e | _ | _
  · exact hg
  · exact told hg _ _
  · exact told (hopen _) _ _

theorem connect_keeps (hl : Holds g l) (halive : g.destroyed = false) : Keeps g.connect l := by
  show (if g.client.isSome then g.disconnect.bind openPort else g.openPort).wp _ _ _ l
  split
  · refine (Prog.wp_bind _ _).mpr (Prog.wp_mono ?_ (fun _ _ h => h) (disconnect_wp hl))
    rintro g' _ ⟨rfl, rfl⟩
    exact openPort_keeps ⟨.inl rfl, fun _ => rfl⟩ halive
  · rename_i hnone
    have hclient : g.client = none := by simpa using hnone
    obtain rfl : l = none := by simpa [hclient] using hl.held
    exact openPort_keeps hl halive

theorem disconnect_keeps (hl : Holds g l) : Keeps g.disconnect l := by
  refine Prog.wp_mono ?_ (fun _ _ h => h) (disconnect_wp hl)
  rintro g' _ ⟨rfl, rfl⟩
  exact ⟨.inl rfl, fun _ => rfl⟩

theorem onClose_keeps (hl : Holds g l) : Keeps g.onClose l := by
  refine (Prog.wp_bind _ _).mpr (Prog.wp_mono ?_ (fun _ _ h => h) (disconnect_wp hl))
  rintro g' _ ⟨rfl, rfl⟩
  exact Handles.wp_other ⟨rfl, rfl⟩ fun _ => ⟨.inl rfl, fun _ => rfl⟩

section scan

variable {pump : Gui → GuiM Gui} (hpump : ∀ g l, Holds g l → Keeps (pump g) l)
include hpump

theorem knockAll_keeps (d : Discovery) (slaveIds : List ℤ) (foundAny : Bool) (hl : Holds g l) :
    (knockAll pump d slaveIds g foundAny).wp guiPorts.exclusive (fun r => Holds r.1)
      (fun raised => Holds raised.1) l := by
  induction slaveIds generalizing g l foundAny with
  | nil => exact hl
  | cons slaveId slaveIds ih =>
    refine bind_idle (knock_idle d slaveId) hl fun answered _ => (Prog.wp_bind _ _).mpr ?_
    exact Prog.wp_mono (fun g' l' hl' => ih _ hl') (fun _ _ h => h) (hpump g l hl)

theorem scanSlaveIds_keeps (hl : Holds g l) : Keeps (scanSlaveIds pump g) l := by
  have note {g : Gui} {l : Option PortClient} (hl : Holds g l) (text : String) :
      Keeps ((g.display (.log text)).bind fun _ => Prog.pure g) l :=
    bind_idle (display_idle _) hl fun _ _ => hl
  unfold scanSlaveIds
  split
  · exact note hl _
  · have hdiscovery : Idle g discovery fun _ => True :=
      .bind (.perform ⟨rfl, rfl⟩) fun _ _ => .bind (.perform ⟨rfl, rfl⟩) fun _ _ =>
        .bind (.perform ⟨rfl, rfl⟩) fun _ _ => .bind (.perform ⟨rfl, rfl⟩) fun _ _ =>
          .bind (.perform ⟨rfl, rfl⟩) fun _ _ => .pure trivial
    refine bind_idle hdiscovery hl fun fields _ => ?_
    cases fields with
    | error e =>
      show (if e.kind = .valueError then _ else _ : GuiM Gui).wp _ _ _ l
      split
      · exact note hl _
      · exact hl
    | ok d =>
      refine bind_idle (display_idle _) hl fun _ _ => bind_idle (.perform ⟨rfl, rfl⟩) hl fun idle _ => ?_
      refine bind_idle (get_idle idle) hl fun _ _ => bind_idle (get_idle _) hl fun slaveIds _ => ?_
      refine (Prog.wp_bind _ _).mpr (Prog.wp_mono ?_ (fun _ _ h => h)
        (knockAll_keeps hpump d slaveIds false hl))
      rintro ⟨g', foundAny⟩ l' hl'
      have complete := note hl' "Slave ID scan complete."
      cases foundAny with
      | false => exact bind_idle (display_idle _) hl' fun _ _ => complete
      | true => exact complete

/-- Whatever the user does. -/
theorem handleEvent_keeps (event : UserEvent) (hl : Holds g l) (halive : g.destroyed = false) :
    Keeps (handleEvent pump event g) l := by
  cases event with
  | connect => exact connect_keeps hl halive
  | disconnect => exact disconnect_keeps hl
  | listPorts => exact keeps_of_idle listPorts_idle hl
  | scanSlaveIds => exact scanSlaveIds_keeps hpump hl
  | selectDevice => exact keeps_of_idle onDeviceSelect_idle hl
  | scanDevice => exact keeps_of_idle scanDevice_idle hl
  | readSingle => exact keeps_of_idle readSingle_idle hl
  | closeWindow => exact onClose_keeps hl

end scan

/-- An exception that is reported ends in the fields it leaves behind. -/
theorem reported_keeps {p : GuiM Gui} (h : Keeps p l) :
    Keeps (reported p) l := (Prog.wp_handle _ _).mpr h

theorem handleEvents_keeps {handler : UserEvent → Gui → GuiM Gui}
    (h : ∀ event g l, Holds g l → g.destroyed = false → Keeps (handler event g) l)
    (events : List UserEvent) (hl : Holds g l) :
    Keeps (events.foldlM
      (fun g event => if g.destroyed then Prog.pure g else reported (handler event g)) g) l := by
  induction events generalizing g l with
  | nil => exact hl
  | cons event events ih =>
    rw [List.foldlM_cons]
    refine (Prog.wp_bind _ _).mpr (Prog.wp_mono (fun _ _ h => ih h) (fun _ _ h => h) ?_)
    cases hgone : g.destroyed with
    | true => exact hl
    | false => exact reported_keeps (h event g l hl hgone)

/-- Whichever handlers interrupt a scan, and whichever those are interrupted by. -/
theorem pump_keeps (depth : ℕ) (hl : Holds g l) : Keeps (pump depth g) l := by
  -- a handler at one depth is interrupted by those of the depth below
  induction depth generalizing g l with
  | zero => exact Handles.wp_other ⟨rfl, rfl⟩ fun _ => hl
  | succ depth ih =>
    unfold pump
    split
    · exact hl
    · refine Handles.wp_other ⟨rfl, rfl⟩ fun events =>
        handleEvents_keeps (fun event g l hl halive => ?_) events hl
      exact handleEvent_keeps (fun g l hl => ih hl) event hl halive

theorem mainloop_keeps (depth events : ℕ) (hl : Holds g l) : Keeps (mainloop depth events g) l := by
  induction events generalizing g l with
  | zero => exact hl
  | succ events ih =>
    unfold mainloop
    split
    · exact hl
    · rename_i halive
      refine Handles.wp_other ⟨rfl, rfl⟩ fun event => ?_
      show Prog.wp _
        ((reported (handleEvent (pump depth) event g)).bind fun g => mainloop depth events g) _ _ l
      refine (Prog.wp_bind _ _).mpr ?_
      refine Prog.wp_mono (fun _ _ h => ih h) (fun _ _ h => h) (reported_keeps ?_)
      exact handleEvent_keeps (fun g l hl => pump_keeps depth hl) event hl (by simpa using halive)

theorem loadDevices_idle (cachePath : String) : Idle ⟨none, [], false⟩ (loadDevices cachePath)
    fun g => g.client = none ∧ g.destroyed = false := by
  refine .bind (display_idle _) fun _ _ => .bind (.perform ⟨rfl, rfl⟩) fun found _ => .ite ?_ ?_
  · exact .bind (display_idle _) fun _ _ => .pure ⟨rfl, rfl⟩
  · refine .bind (.perform ⟨rfl, rfl⟩) fun cache _ => .bind (get_idle cache) fun config _ => ?_
    refine .bind (get_idle _) fun devices _ => .bind (.forEach fun device => ?_) fun _ _ => ?_
    · refine .bind (get_idle _) fun conn _ => .bind (get_idle _) fun name _ => ?_
      exact .bind (get_idle _) fun _ _ => .bind (get_idle _) fun _ _ => display_idle _
    · exact .bind (display_idle _) fun _ _ => .pure ⟨rfl, rfl⟩

theorem main_keeps (cachePath : String) (depth events : ℕ) :
    Keeps (main cachePath depth events) none := by
  refine (Prog.wp_bind _ _).mpr (Prog.wp_mono ?_ ?_ (loadDevices_idle cachePath).wp)
  · rintro g _ ⟨rfl, hclient, halive⟩
    exact mainloop_keeps depth events ⟨.inl rfl, fun _ => hclient⟩
  · rintro raised _ ⟨rfl, hraised⟩
    exact ⟨.inl rfl, fun _ => by rw [hraised]⟩

end Gui

end gui

section console

variable {l : Option PortClient} {α : Type} {R : α → Prop}

/-- A part of a tool that leaves the port alone. -/
abbrev Idle (p : ToolM α) (R : α → Prop) : Prop := toolPorts.Leaves p R fun _ => True

theorem ofExcept_idle (x : PyExcept α) : Idle (.ofExcept x) fun _ => True :=
  .ofExcept (fun _ _ => trivial) fun _ _ => trivial

/-- A computation that can raise, as it stands in a `do` block. -/
theorem lift_idle (x : PyExcept α) : Idle (liftM x) fun _ => True := ofExcept_idle x

theorem print_idle (text : String) : Idle (perform (.print text)) fun _ => True := .perform ⟨rfl, rfl⟩

theorem ask_idle (prompt default : String) : Idle (ask prompt default) fun _ => True :=
  .bind (.perform ⟨rfl, rfl⟩) fun typed _ => .bind (ofExcept_idle typed) fun _ _ => .pure trivial

theorem readOneRegister_idle (client : PortClient) (slaveId address count functionCode : ℤ) :
    Idle (readOneRegister client slaveId address count functionCode) fun _ => True :=
  .ite (.bind (.perform ⟨rfl, rfl⟩) fun reply _ => ofExcept_idle reply)
    (.bind (.perform ⟨rfl, rfl⟩) fun reply _ => ofExcept_idle reply)

theorem readAndPrint_idle (client : PortClient) (slaveId address count functionCode : ℤ)
    (typed : Typed) :
    Idle (readAndPrint client slaveId address count functionCode typed) fun _ => True := by
  refine .handle (.bind (readOneRegister_idle _ _ _ _ _) fun reply _ => ?_) fun _ _ => print_idle _
  cases reply with
  | error text => exact print_idle _
  | registers registers =>
    dsimp only
    split
    · exact print_idle _
    · exact print_idle _

theorem readAddresses_idle (client : PortClient) (addressInput : String) (typed : Typed) :
    Idle (readAddresses client addressInput typed) fun _ => True := by
  have number {text : String} {f : ℤ → ToolM Unit} (h : ∀ n, Idle (f n) fun _ => True) :
      Idle (liftM (intOf text) >>= f) fun _ => True := .bind (lift_idle _) fun n _ => h n
  refine .ite ?_ ?_
  · refine number fun start => number fun stop => number fun step =>
      .bind (lift_idle _) fun addresses _ => ?_
    refine .forEach fun address => number fun slaveId => number fun count =>
      number fun functionCode => ?_
    exact readAndPrint_idle client slaveId address count functionCode typed
  · refine number fun slaveId => number fun address => number fun count => number fun functionCode => ?_
    exact readAndPrint_idle client slaveId address count functionCode typed

theorem consoleTurn_idle (client : PortClient) (typed : Typed) :
    Idle (consoleTurn client typed) fun _ => True := by
  refine .bind (ask_idle _ _) fun addressInput _ => .ite (.pure trivial) (.ite (.pure trivial)
    (.ite ?_ ?_))
  · exact .bind (print_idle _) fun _ _ => .pure trivial
  · have hsettings : Idle (askSettings typed) fun _ => True :=
      .bind (ask_idle _ _) fun _ _ => .bind (ask_idle _ _) fun _ _ => .bind (ask_idle _ _) fun _ _ =>
        .bind (ask_idle _ _) fun _ _ => .bind (ask_idle _ _) fun _ _ => .bind (ask_idle _ _) fun _ _ =>
          .pure trivial
    exact .bind hsettings fun typed _ => .bind (readAddresses_idle _ _ _) fun _ _ => .pure trivial

theorem construct_idle (params : PortParams) : Idle (construct params) fun _ => True :=
  .bind (.perform ⟨rfl, rfl⟩) fun uid _ => .bind (ofExcept_idle uid) fun _ _ => .pure trivial

theorem bind_idle {β : Type} {p : ToolM α} {f : α → ToolM β} {Q : β → Option PortClient → Prop}
    {E : PyError → Option PortClient → Prop} (hp : Idle p R) (hE : ∀ e, E e l)
    (hf : ∀ a, R a → (f a).wp toolPorts.exclusive Q E l) :
    (p >>= f).wp toolPorts.exclusive Q E l := hp.wp_bind (fun e _ => hE e) hf

/-- A client that connects is the one returned, and otherwise no port is open. -/
theorem connectConsole_wp :
    connectConsole.wp toolPorts.exclusive (fun client l => l = client) (fun _ l => l = none) none := by
  have raised : ∀ e : PyError, (fun (_ : PyError) (l : Option PortClient) => l = none) e none :=
    fun _ => rfl
  refine bind_idle (ask_idle _ _) raised fun port _ => bind_idle (ask_idle _ _) raised fun baud _ => ?_
  refine bind_idle (lift_idle _) raised fun baud _ => bind_idle (ask_idle _ _) raised fun parity _ => ?_
  refine bind_idle (ask_idle _ _) raised fun stopbits _ =>
    bind_idle (lift_idle _) raised fun stopbits _ => ?_
  refine bind_idle (lift_idle _) raised fun stopbits _ => ?_
  refine bind_idle (construct_idle _) raised fun client _ => ⟨fun _ => rfl, fun connected => ?_⟩
  rcases connected with e | _ | _
  · exact rfl
  · have ports_idle : Idle printPorts fun _ => True := by
      refine .bind (.perform ⟨rfl, rfl⟩) fun found _ =>
        .bind (ofExcept_idle found) fun ports _ => .ite ?_ ?_
      · exact .bind (print_idle _) fun _ _ => .forEach fun p => print_idle _
      · exact print_idle _
    have refused (text : String) : (perform (.print text) >>= fun _ => printPorts >>= fun _ =>
        Prog.pure (none : Option PortClient)).wp toolPorts.exclusive (fun client l => l = client)
        (fun _ l => l = none) none :=
      bind_idle (print_idle _) raised fun _ _ => bind_idle ports_idle raised fun _ _ => rfl
    exact refused _
  · exact Handles.wp_other ⟨rfl, rfl⟩ fun _ => rfl

/-- After `close`, whether it raises or not, no port is open. -/
theorem close_wp {client : PortClient} {p : ToolM α} {Q : α → Option PortClient → Prop}
    {E : PyError → Option PortClient → Prop} (hl : l = none ∨ l = some client)
    (hp : p.wp toolPorts.exclusive Q E none) (hE : ∀ e, E e none) :
    (perform (.close client) >>= fun closed => Prog.ofExcept closed >>= fun _ => p).wp
      toolPorts.exclusive Q E l := by
  refine Handles.wp_close ⟨rfl, rfl⟩ hl fun closed => ?_
  show ((Prog.ofExcept closed).bind fun _ => p).wp _ _ _ none
  exact Prog.wp_bind_ofExcept (fun _ _ => hp) fun e _ => hE e

theorem wp_attempt {p : ToolM α} {Q : PyExcept α → Option PortClient → Prop}
    {E : PyError → Option PortClient → Prop}
    (h : p.wp toolPorts.exclusive (fun a => Q (.ok a)) (fun e => Q (.error e)) l) :
    (attempt p).wp toolPorts.exclusive Q E l := (Prog.wp_handle _ _).mpr ((Prog.wp_bind _ _).mpr h)

/-- Along the turns of the console the port of the current client is open; at the end it is the one
thing that can be. -/
theorem consoleLoop_wp (turns : ℕ) (client : PortClient) (typed : Typed) :
    (consoleLoop turns client typed).wp toolPorts.exclusive (fun r l => l = none ∨ l = r.1)
      (fun _ _ => False) (some client) := by
  induction turns generalizing client typed with
  | zero => exact .inr rfl
  | succ turns ih =>
    refine (Prog.wp_bind _ _).mpr (wp_attempt (Prog.wp_mono ?_ ?_ (consoleTurn_idle client typed).wp))
    · rintro turn _ ⟨rfl, -⟩
      cases turn with
      | quit => exact .inr rfl
      | again typed => exact ih client typed
      | reconnect =>
        -- the old port is closed before the user is asked for another
        refine Handles.wp_close ⟨rfl, rfl⟩ (.inr rfl) fun closed => ?_
        cases closed with
        | error e => exact .inl rfl
        | ok _ =>
          show ((attempt connectConsole).bind fun _ => _).wp _ _ _ none
          refine (Prog.wp_bind _ _).mpr (wp_attempt (Prog.wp_mono ?_ ?_ connectConsole_wp))
          · rintro _ client' rfl
            cases client' with
            | none => exact .inl rfl
            | some client' => exact ih client' typed
          · rintro e _ rfl
            exact .inl rfl
    · rintro e _ ⟨rfl, -⟩
      exact .inr rfl

/-- However the console ends, no port is open any more. -/
theorem consoleMain_wp (doc : String) (turns : ℕ) :
    (consoleMain doc turns).wp toolPorts.exclusive (fun _ l => l = none) (fun _ l => l = none) none := by
  refine bind_idle (print_idle doc) (fun _ => rfl) fun _ _ => ?_
  refine (Prog.wp_bind _ _).mpr (Prog.wp_mono ?_ (fun _ _ h => h) connectConsole_wp)
  rintro _ client rfl
  cases client with
  | none => exact rfl
  | some client =>
    refine (Prog.wp_bind _ _).mpr (Prog.wp_mono ?_ (fun _ _ h => h.elim)
      (consoleLoop_wp turns client .initial))
    rintro ⟨current, out⟩ l hl
    cases current with
    | none => exact hl.elim id id
    | some current =>
      refine close_wp hl (bind_idle (print_idle _) (fun _ => rfl) fun _ _ => ?_) fun _ => rfl
      exact (Prog.wp_ofExcept out).mpr ⟨fun _ _ => rfl, fun _ _ => rfl⟩

/-- The raw probe closes the port it has opened, whatever comes of the read. -/
theorem runRawProbe_wp (args : ProbeArgs) :
    (runRawProbe args).wp toolPorts.exclusive (fun _ l => l = none) (fun _ l => l = none) none := by
  refine bind_idle (lift_idle _) (fun _ => rfl) fun stopbits _ => ?_
  refine bind_idle (construct_idle _) (fun _ => rfl) fun client _ => ⟨fun _ => rfl, fun connected => ?_⟩
  rcases connected with e | _ | _
  · exact rfl
  · exact Handles.wp_other ⟨rfl, rfl⟩ fun _ => rfl
  · have closing : Prog.wp toolPorts.exclusive
        (perform (.close client) >>= fun closed => Prog.ofExcept closed)
        (fun _ l => l = none) (fun _ l => l = none) (some client) :=
      Handles.wp_close ⟨rfl, rfl⟩ (.inr rfl) fun closed =>
        (Prog.wp_ofExcept closed).mpr ⟨fun _ _ => rfl, fun _ _ => rfl⟩
    refine (Prog.wp_ensure _ _).mpr (Prog.wp_mono ?_ ?_ (Handles.Leaves.wp (H := toolPorts)
      (R := fun _ => True) (F := fun _ => True) ?_))
    · rintro _ _ ⟨rfl, -⟩
      exact closing
    · rintro _ _ ⟨rfl, -⟩
      exact closing
    · refine .bind (readOneRegister_idle _ _ _ _ _) fun reply _ => ?_
      cases reply with
      | error text => exact print_idle _
      | registers registers =>
        exact .bind (print_idle _) fun _ _ => .bind (lift_idle _) fun _ _ =>
          .bind (lift_idle _) fun _ _ =>
          print_idle _

end console

section scan

/-- A part of the scan that leaves the ports alone. -/
abbrev ScanIdle {α : Type} (p : ScanM α) (R : α → Prop) : Prop := scanPorts.Leaves p R fun _ => True

theorem scanLift_idle {α : Type} (x : PyExcept α) : ScanIdle (liftM x) fun _ => True :=
  .ofExcept (fun _ _ => trivial) fun _ _ => trivial

theorem line_idle (line : Line) : ScanIdle (Diagnose.perform (.print line)) fun _ => True :=
  .perform ⟨rfl, rfl⟩

theorem scanRead_idle (client : ScanClient) (slaveId address count : Json) (functionCode : ℤ) :
    ScanIdle (Diagnose.readOneRegister client slaveId address count functionCode) fun _ => True :=
  .ite (.bind (.perform ⟨rfl, rfl⟩) fun reply _ => scanLift_idle reply)
    (.bind (.perform ⟨rfl, rfl⟩) fun reply _ => scanLift_idle reply)

theorem scanTag_idle (client : ScanClient) (slaveId tag : Json) :
    ScanIdle (scanTag client slaveId tag) fun _ => True := by
  refine .bind (scanLift_idle _) fun _ _ => .bind (scanLift_idle _) fun _ _ => ?_
  refine .bind (scanLift_idle _) fun _ _ => .bind (scanLift_idle _) fun functionCode _ => ?_
  refine .bind (scanLift_idle _) fun _ _ => .bind (.perform ⟨rfl, rfl⟩) fun started _ => ?_
  refine .handle (.bind (scanRead_idle _ _ _ _ _) fun reply _ => .bind (.perform ⟨rfl, rfl⟩)
    fun ended _ => ?_)
    fun _ _ => line_idle _
  cases reply with
  | error text => exact line_idle _
  | registers registers =>
    exact .bind (scanLift_idle _) fun _ _ => .bind (scanLift_idle _) fun _ _ => line_idle _

theorem scan_bind_idle {α β : Type} {p : ScanM α} {f : α → ScanM β}
    {R : α → Prop} {l : Option ScanClient}
    {Q : β → Option ScanClient → Prop} (hp : ScanIdle p R)
    (hf : ∀ a, R a → (f a).wp scanPorts.exclusive Q (fun _ _ => True) l) :
    (p >>= f).wp scanPorts.exclusive Q (fun _ _ => True) l := hp.wp_bind (fun _ _ => trivial) hf

theorem scanDevice_wp (device : Json) : (scanDevice device).wp scanPorts.exclusive (fun _ l => l = none)
    (fun _ _ => True) none := by
  refine scan_bind_idle (scanLift_idle _) fun conn _ => scan_bind_idle (scanLift_idle _) fun port _ => ?_
  refine scan_bind_idle (scanLift_idle _) fun name _ => scan_bind_idle (line_idle _) fun _ _ => ?_
  split
  · exact Prog.wp_mono (fun _ _ h => h.1) (fun _ _ _ => trivial) (line_idle _).wp
  · refine scan_bind_idle (scanLift_idle _) fun _ _ =>
      scan_bind_idle (scanLift_idle _) fun baudrate _ => ?_
    refine scan_bind_idle (scanLift_idle _) fun parity _ =>
      scan_bind_idle (scanLift_idle _) fun stopbits _ => ?_
    refine scan_bind_idle (scanLift_idle _) fun _ _ => scan_bind_idle (scanLift_idle _) fun _ _ => ?_
    refine scan_bind_idle (scanLift_idle _) fun bytesize _ => ?_
    refine scan_bind_idle (.perform ⟨rfl, rfl⟩) fun made _ =>
      scan_bind_idle (scanLift_idle made) fun _ _ => ?_
    refine ⟨fun _ => rfl, fun connected => ?_⟩
    rcases connected with e | _ | _
    · exact trivial
    · exact Handles.wp_other ⟨rfl, rfl⟩ fun _ => rfl
    · show ((liftM (conn.get "slave_id") : ScanM Json) >>= fun _ => _).wp _ _ _ (some _)
      refine scan_bind_idle (scanLift_idle _) fun slaveId _ =>
        scan_bind_idle (scanLift_idle _) fun _ _ => ?_
      refine scan_bind_idle (scanLift_idle _) fun tags _ => ?_
      refine scan_bind_idle (.forEach fun tag => scanTag_idle _ slaveId tag) fun _ _ => ?_
      exact Handles.wp_close ⟨rfl, rfl⟩ (.inr rfl) fun closed =>
        (Prog.wp_ofExcept closed).mpr ⟨fun _ _ => rfl, fun _ _ => trivial⟩

/-- A configuration scan opens one port after the other. Where an exception ends it, the port of a
device can be left open. -/
theorem runConfigScan_wp (cachePath : String) :
    (runConfigScan cachePath).wp scanPorts.exclusive (fun _ l => l = none) (fun _ _ => True) none := by
  have untouched {p : ScanM Unit} (h : ScanIdle p fun _ => True) :
      p.wp scanPorts.exclusive (fun _ l => l = none) (fun _ _ => True) none :=
    Prog.wp_mono (fun _ _ h => h.1) (fun _ _ _ => trivial) h.wp
  refine scan_bind_idle (.perform ⟨rfl, rfl⟩) fun found _ => ?_
  split
  · exact untouched (line_idle _)
  · refine scan_bind_idle (.perform ⟨rfl, rfl⟩) fun cache _ => ?_
    refine scan_bind_idle (scanLift_idle cache) fun config _ =>
      scan_bind_idle (scanLift_idle _) fun devices _ => ?_
    split
    · exact untouched (line_idle _)
    · refine scan_bind_idle (scanLift_idle _) fun devices _ => ?_
      refine Prog.wp_forEach (J := fun _ l => l = none) ?_ rfl
      rintro device _ _ rfl
      exact scanDevice_wp device

end scan

/-- Every on-site tool has one serial port open at a time, whatever the user types or clicks and
whichever handlers of the test window interrupt one another, and gives it back: the console and the raw
probe however they end, a configuration scan unless an exception ends it, the test window when it is
closed, and until then the port that is open is the one of its client. -/
theorem tools_give_ports_back :
    (∀ doc turns es out, Prog.Trace (consoleMain doc turns) es out →
      toolPorts.OneAtATime es ∧ (out ≠ none → toolPorts.held es = [])) ∧
    (∀ args es out, Prog.Trace (runRawProbe args) es out →
      toolPorts.OneAtATime es ∧ (out ≠ none → toolPorts.held es = [])) ∧
    (∀ cachePath es out, Prog.Trace (runConfigScan cachePath) es out →
      scanPorts.OneAtATime es ∧ (out = some (.ok ()) → scanPorts.held es = [])) ∧
    ∀ cachePath depth events es out, Prog.Trace (Gui.main cachePath depth events) es out →
      guiPorts.OneAtATime es ∧ ∀ g : Gui, out = some (.ok g) ∨ (∃ e, out = some (.error (g, e))) →
        (guiPorts.held es = [] ∨ guiPorts.held es = g.client.toList) ∧
          (g.destroyed = true → guiPorts.held es = []) := by
  have closed {p : ToolM Unit} {es : List (Event toolCalls)} {out : Option (PyExcept Unit)}
      (h : Prog.Trace p es out)
      (hp : p.wp toolPorts.exclusive (fun _ l => l = none) (fun _ l => l = none) none) :
      toolPorts.OneAtATime es ∧ (out ≠ none → toolPorts.held es = []) := by
    obtain ⟨hone, l, hheld, hok, herror⟩ := Handles.oneAtATime_of_wp h hp
    refine ⟨hone, fun hout => ?_⟩
    rcases out with _ | e | a
    · exact absurd rfl hout
    · rw [hheld, herror e rfl]
      rfl
    · rw [hheld, hok a rfl]
      rfl
  refine ⟨fun doc turns es out h => closed h (consoleMain_wp doc turns),
    fun args es out h => closed h (runRawProbe_wp args), fun cachePath es out h => ?_,
    fun cachePath depth events es out h => ?_⟩
  · obtain ⟨hone, l, hheld, hok, -⟩ := Handles.oneAtATime_of_wp h (runConfigScan_wp cachePath)
    refine ⟨hone, fun hout => ?_⟩
    rw [hheld, hok () hout]
    rfl
  · obtain ⟨hone, l, hheld, hok, herror⟩ := Handles.oneAtATime_of_wp h
      (Gui.main_keeps cachePath depth events)
    refine ⟨hone, fun g hout => ?_⟩
    have hg : g.Holds l := by
      rcases hout with hout | ⟨e, hout⟩
      · exact hok g hout
      · exact herror (g, e) hout
    rw [hheld]
    refine ⟨?_, fun hgone => ?_⟩
    · rcases hg.held with rfl | rfl
      · exact .inl rfl
      · exact .inr rfl
    · rcases hg.held with rfl | rfl
      · rfl
      · rw [hg.gone hgone]
        rfl

/-- A user at the console who types these lines, where every register reads alike. -/
def typing (o : ToolCall) (lines : List String) : o.Answer × List String :=
  match o with
  | .input _ => (.ok (lines.headD "q"), lines.tail)
  | .print _ => ((), lines)
  | .comports => (.ok [], lines)
  | .construct _ => (.ok lines.length, lines)
  | .connect _ => (.ok true, lines)
  | .close _ => (.ok (), lines)
  | .read _ _ => (.ok (.registers [17254, 0]), lines)

/-- A cache with one device that does not answer. -/
def scanning (o : ScanCall) : o.Answer :=
  match o with
  | .cacheExists => true
  | .readCache => .ok (.obj [("devices", .arr [.obj [("connection", .obj [("serial_port", .str "COM6")]),
      ("tags", .arr [.obj []])]])])
  | .construct _ => .ok ()
  | .connect _ => .ok true
  | .read _ _ => .ok (.error "no response")
  | .close _ => .ok ()
  | .monotonic => .finite 0
  | .print _ => ()

/-- A user at the test window who connects and starts a discovery scan, connects again while the scan is
at its first id, and closes the window while it is at its second. -/
def clicking (o : GuiCall) (turn : ℕ) : o.Answer × ℕ :=
  match o with
  | .entry .port => ("COM6", turn)
  | .entry .scanTo => ("3", turn)
  | .entry _ => ("1", turn)
  | .display _ => (.ok (), turn)
  | .selection => (none, turn)
  | .updateIdletasks => (.ok (), turn)
  | .update => (if turn = 2 then [.connect] else [.closeWindow], turn + 1)
  | .nextEvent => (if turn = 0 then .connect else .scanSlaveIds, turn + 1)
  | .destroy => ((), turn)
  | .cacheExists => (false, turn)
  | .readCache => (.ok .null, turn)
  | .comports => (.ok [], turn)
  | .monotonic => (.finite 0, turn)
  | .construct _ => (.ok turn, turn)
  | .connect _ => (.ok true, turn)
  | .close _ => (.ok (), turn)
  | .read _ _ => (.ok (.error "no response"), turn)

theorem tools_give_ports_back_sample :
    toolPorts.held ((consoleMain "" 9).events typing ["", "", "", "", "r", "", "", "", "", "q"]) = [] ∧
    toolPorts.held ((runRawProbe ⟨"COM6", 4800, "O", 2, 1, 140, 2, 3, "text", "big", "normal"⟩).events
      typing []) = [] ∧
    scanPorts.held ((runConfigScan "").events (fun o (u : Unit) => (scanning o, u)) ()) = [] ∧
    guiPorts.OneAtATime ((Gui.main "" 1 2).events clicking 0) ∧
    guiPorts.held ((Gui.main "" 1 2).events clicking 0) = [] := by
  obtain ⟨hconsole, hprobe, hscan, hgui⟩ := tools_give_ports_back
  have hdone : ((runConfigScan "").eval (fun o (u : Unit) => (scanning o, u)) ()).1 = .ok () := by
    decide +kernel
  have hclosed : ((Gui.main "" 1 2).eval clicking 0).1 = .ok ⟨none, [], true⟩ := by decide +kernel
  have window := hgui "" 1 2 _ _ (Prog.trace_events clicking _ 0)
  exact ⟨(hconsole "" 9 _ _ (Prog.trace_events typing _ _)).2 nofun,
    (hprobe _ _ _ (Prog.trace_events typing _ _)).2 nofun,
    (hscan "" _ _ (Prog.trace_events _ _ ())).2 (congrArg some hdone),
    window.1, (window.2 _ (.inl (congrArg some hclosed))).2 rfl⟩

end SenseGateway.Tools

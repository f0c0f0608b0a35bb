import SenseGateway.Supervisor.Shutdown

namespace SenseGateway.Supervisor

open Python Effects Relation

/-- What `main` knows: the slots that hold no live process, the slot it read last, the process it
spawned and has not recorded, and whether it has seen `running` false. -/
structure Local where
  vacant : List Component
  read : Option (Component × ℕ)
  inflight : Option (Component × ℕ)
  sawStop : Bool

namespace Local

def allowed (l : Local) (o : StartCall) : Prop :=
  (∀ c p, l.inflight = some (c, p) → o = .setProcess c p) ∧
    match o with
    | .popen c => c ∈ l.vacant
    | .setProcess c p => l.inflight = some (c, p) ∧ c ∈ l.vacant
    | .poll p => ∃ c, l.read = some (c, p)
    | .clearRunning | .terminate _ | .wait _ => False
    | _ => True

def next (l : Local) : (o : StartCall) → o.Answer → Local
  | .popen c, .ok p => { l with inflight := some (c, p) }
  | .setProcess c _, _ =>
    { l with vacant := l.vacant.filter (· ≠ c), read := none, inflight := none }
  | .getProcess c, r => { l with read := r.map fun p => (c, p) }
  | .poll _, some _ =>
    match l.read with
    | some (c, _) => { l with vacant := c :: l.vacant }
    | none => l
  | .testRunning, r => { l with sawStop := !r }
  | _, _ => l

end Local

def mainProtocol : Protocol startCalls Local := ⟨Local.allowed, Local.next⟩

section wp

variable {l : Local}

theorem allowed_of_settled {o : StartCall} (hl : l.inflight = none)
    (ho : match o with
      | .popen c => c ∈ l.vacant
      | .setProcess c p => l.inflight = some (c, p) ∧ c ∈ l.vacant
      | .poll p => ∃ c, l.read = some (c, p)
      | .clearRunning | .terminate _ | .wait _ => False
      | _ => True) : l.allowed o := by
  refine ⟨fun c p hp => ?_, ho⟩
  rw [hl] at hp
  cases hp

theorem startProcess_wp {c : Component} (hl : l.inflight = none) (hc : c ∈ l.vacant) :
    (startProcess c).wp mainProtocol
      (fun _ l' => l'.inflight = none ∧ ∀ c' ∈ l.vacant, c' ≠ c → c' ∈ l'.vacant)
      (fun _ l' => l'.inflight = none) l := by
  refine ⟨allowed_of_settled hl trivial, fun found => ?_⟩
  cases found with
  | false => exact ⟨hl, fun c' hc' _ => hc'⟩
  | true =>
    refine ⟨allowed_of_settled hl hc, fun r => ?_⟩
    cases r with
    | error e => exact hl
    | ok p =>
      refine ⟨⟨fun c' p' hp => ?_, rfl, hc⟩, fun _ => ⟨rfl, fun c' hc' hne => ?_⟩⟩
      · obtain ⟨rfl, rfl⟩ : c = c' ∧ p = p' := by
          simpa [mainProtocol, Local.next] using hp
        rfl
      · simpa [mainProtocol, Local.next, hne] using hc'

theorem checkComponent_wp (c : Component) (hl : l.inflight = none) :
    (checkComponent c).wp mainProtocol (fun _ l' => l'.inflight = none)
      (fun _ l' => l'.inflight = none) l := by
  refine ⟨allowed_of_settled hl trivial, fun r => ?_⟩
  cases r with
  | none => exact hl
  | some p =>
    refine ⟨allowed_of_settled hl ⟨c, rfl⟩, fun code => ?_⟩
    cases code with
    | none => exact hl
    | some code =>
      refine ⟨allowed_of_settled hl trivial, fun _ => ?_⟩
      exact Prog.wp_mono (fun _ _ h => h.1) (fun _ _ h => h)
        (startProcess_wp hl List.mem_cons_self)

theorem watch_wp (rounds : ℕ) (hl : l.inflight = none) :
    (watch rounds).wp mainProtocol (fun _ l' => l'.inflight = none ∧ l'.sawStop = true)
      (fun _ l' => l'.inflight = none) l := by
  induction rounds generalizing l with
  | zero => exact hl
  | succ rounds ih =>
    refine ⟨allowed_of_settled hl trivial, fun running => ?_⟩
    cases running with
    | false => exact ⟨hl, rfl⟩
    | true =>
      refine ⟨allowed_of_settled hl trivial, fun _ => ⟨allowed_of_settled hl trivial, fun r => ?_⟩⟩
      cases r with
      | false => exact ih hl
      | true =>
        let J (_ : List Component) (l : Local) : Prop := l.inflight = none
        have hloop : checkComponents.wp mainProtocol (fun _ => J [])
            (fun _ l' => l'.inflight = none) { l with sawStop := false } :=
          Prog.wp_forEach (J := J) (fun c _ _ => checkComponent_wp c) hl
        show (checkComponents.bind fun _ => watch rounds).wp mainProtocol _ _ _
        exact (Prog.wp_bind _ _).mpr (Prog.wp_mono (fun _ _ h => ih h) (fun _ _ h => h) hloop)

theorem main_wp (rounds : ℕ) :
    (main rounds).wp mainProtocol (fun _ l' => l'.inflight = none ∧ l'.sawStop = true)
      (fun _ l' => l'.inflight = none) ⟨components, none, none, false⟩ := by
  -- no component is started twice, so the slot of each one to come is still empty
  let J (rest : List Component) (l : Local) : Prop :=
    l.inflight = none ∧ rest.Nodup ∧ ∀ c ∈ rest, c ∈ l.vacant
  have hloop : (Prog.forEach components startProcess).wp mainProtocol (fun _ => J [])
      (fun _ l' => l'.inflight = none) ⟨components, none, none, false⟩ := by
    refine Prog.wp_forEach (J := J) ?_ ⟨rfl, by decide, fun _ => id⟩
    rintro c rest l ⟨hl, hnodup, hvacant⟩
    obtain ⟨hc, hrest⟩ := List.nodup_cons.mp hnodup
    refine Prog.wp_mono ?_ (fun _ _ h => h) (startProcess_wp hl (hvacant c List.mem_cons_self))
    rintro _ l' ⟨hl', hkept⟩
    refine ⟨hl', hrest, fun c' hc' => hkept c' (hvacant c' (List.mem_cons_of_mem _ hc')) ?_⟩
    rintro rfl
    exact hc hc'
  exact (Prog.wp_bind _ _).mpr (Prog.wp_mono (fun _ _ h => watch_wp rounds h.1) (fun _ _ h => h) hloop)

end wp

/-- What `main` knows is so. -/
structure Known (w : World) (l : Local) : Prop where
  vacant : ∀ c ∈ l.vacant, ∀ p, w.process c = some p → p ∈ w.exited
  read : ∀ c p, l.read = some (c, p) → w.process c = some p
  covered : ∀ p ∈ w.spawned, p ∈ w.exited ∨ (∃ c, w.process c = some p) ∨
    ∃ c, l.inflight = some (c, p)
  attributed : w.Attributed
  sawStop : l.sawStop = true → w.running = false
  late : w.late = []

/-- After the stop: nothing more is started, and every child there was is gone. -/
structure Over (w : World) (p : StartM Unit) : Prop where
  unstarting : Unstarting w p
  spawned : ∀ q ∈ w.spawned, q ∈ w.exited
  recorded : ∀ c q, w.process c = some q → q ∈ w.exited

theorem Unstarting.mono {w w' : World} {p : StartM Unit} (h : Unstarting w p)
    (hi : ∀ c, w'.installed c = true → w.installed c = true) (hp : w'.process = w.process) :
    Unstarting w' p := by
  induction p with
  | pure a => trivial
  | throw e => trivial
  | call o k ih =>
    cases o with
    | scriptExists c => exact ⟨ih _ h.1, fun hc => ih _ (h.2 (hi c hc))⟩
    | getProcess c =>
      refine ih _ ?_
      rw [hp]
      exact h
    | popen c => exact h
    | setProcess c q => exact h
    | poll q => exact fun code => ih _ (h code)
    | terminate q => exact fun r => ih _ (h r)
    | wait q => exact fun r => ih _ (h r)
    | _ => exact ih _ h

theorem Over.frame {w w' : World} {p : StartM Unit} (h : Over w p) (hf : Frame w w')
    (hi : ∀ c, w'.installed c = true → w.installed c = true) : Over w' p :=
  ⟨h.unstarting.mono hi hf.process, fun q hq => hf.exited q (h.spawned q (hf.spawned ▸ hq)),
    fun c q hc => hf.exited q (h.recorded c q (hf.process ▸ hc))⟩

theorem Known.frame {w w' : World} {l : Local} (h : Known w l) (hf : Frame w w')
    (hr : l.sawStop = true → w'.running = false) : Known w' l := by
  refine ⟨fun c hc p hp => hf.exited p (h.vacant c hc p (hf.process ▸ hp)),
    fun c p hp => hf.process ▸ h.read c p hp, fun p hp => ?_, hf.attributed h.attributed, hr,
    hf.late.trans h.late⟩
  rw [hf.process]
  exact (h.covered p (hf.spawned ▸ hp)).imp_left (hf.exited p)

theorem serves_running {w w' : World} {l : Local} {o : StartCall} {r : o.Answer}
    (hs : w.serves o r w') (ha : l.allowed o) : w'.running = w.running := by
  cases o with
  | scriptExists c => rw [hs.2]
  | popen c =>
    cases r with
    | ok p => rw [hs.2]; rfl
    | error e => rw [hs]
  | getProcess c => rw [hs.2]
  | poll p => rw [hs.2]
  | testRunning => rw [hs.2]
  | clearRunning => exact ha.2.elim
  | terminate p => exact ha.2.elim
  | wait p => exact ha.2.elim
  | _ => rw [hs]

/-- A process is spawned into a slot that holds no live one. -/
theorem Known.popen {w : World} {l : Local} (h : Known w l) (hl : l.inflight = none)
    (hrun : w.running = true) (c : Component) :
    Known w.spawn { l with inflight := some (c, w.spawned.length) } := by
  refine ⟨h.vacant, h.read, fun p hp => ?_, h.attributed, h.sawStop, ?_⟩
  · rcases List.mem_cons.mp hp with rfl | hp
    · exact .inr (.inr ⟨c, rfl⟩)
    · refine (h.covered p hp).imp_right fun hp => .inl (hp.resolve_right ?_)
      rintro ⟨c', hc'⟩
      rw [hl] at hc'
      cases hc'
  · simpa only [World.spawn, hrun, if_true] using h.late

/-- The process that was just spawned is recorded; what the slot held before is gone. -/
theorem Known.setProcess {w : World} {l : Local} (h : Known w l) {c : Component} {p : ℕ}
    (hl : l.inflight = some (c, p)) (hold : ∀ q, w.process c = some q → q ∈ w.exited) :
    Known { w with process := Function.update w.process c (some p) }
      { l with vacant := l.vacant.filter (· ≠ c), read := none, inflight := none } := by
  refine ⟨fun c' hc' q hq => ?_, by simp, fun q hq => ?_, h.attributed, h.sawStop, h.late⟩
  · have hmem := List.mem_filter.mp hc'
    have hne : c' ≠ c := by simpa using hmem.2
    simp only [Function.update_of_ne hne] at hq
    exact h.vacant c' hmem.1 q hq
  · rcases h.covered q hq with hgone | ⟨c', hc'⟩ | ⟨c', hc'⟩
    · exact .inl hgone
    · by_cases hne : c' = c
      · subst hne
        exact .inl (hold q hc')
      · exact .inr (.inl ⟨c', by simpa only [Function.update_of_ne hne] using hc'⟩)
    · obtain ⟨rfl, rfl⟩ : c = c' ∧ p = q := by simpa using hl.symm.trans hc'
      exact .inr (.inl ⟨c, by simp⟩)

/-- The slot that was just read holds a process that has exited. -/
theorem Known.polled {w : World} {l : Local} (h : Known w l) {c : Component} {p : ℕ} (code : ℤ)
    (hread : l.read = some (c, p)) (hgone : p ∈ w.exited) :
    Known w (l.next (.poll p) (some code)) := by
  have hnext : l.next (.poll p) (some code) = { l with vacant := c :: l.vacant } := by
    simp only [Local.next, hread]
  rw [hnext]
  refine { h with vacant := fun c' hc' p' hp' => ?_ }
  rcases List.mem_cons.mp hc' with heq | hc'
  · -- the slot just polled holds the process that was read
    have hslot : w.process c = some p := h.read c p hread
    rw [heq, hslot] at hp'
    cases hp'
    exact hgone
  · exact h.vacant c' hc' p' hp'

/-- What `main` knows stays so when one of its calls is served. A process is only spawned while
`running` is true. -/
theorem Known.serves {w w' : World} {l : Local} {o : StartCall} {r : o.Answer} (h : Known w l)
    (hs : w.serves o r w') (ha : l.allowed o) (hrun : ∀ c, o = .popen c → w.running = true) :
    Known w' (l.next o r) := by
  cases o with
  | popen c =>
    have hl : l.inflight = none := by
      by_contra hne
      obtain ⟨⟨c', p'⟩, hp⟩ := Option.ne_none_iff_exists'.mp hne
      cases ha.1 c' p' hp
    cases r with
    | ok p =>
      obtain ⟨hp, hw⟩ := hs
      rw [hp, hw]
      exact h.popen hl (hrun c rfl) c
    | error e =>
      have hw : w' = w := hs
      rw [hw]
      exact h
  | setProcess c p =>
    have hw : w' = { w with process := Function.update w.process c (some p) } := hs
    rw [hw]
    exact h.setProcess ha.2.1 (h.vacant c ha.2.2)
  | getProcess c =>
    obtain ⟨hr, hw⟩ := hs
    rw [hw]
    refine { h with read := fun c' p' hp => ?_ }
    obtain ⟨q, hq, heq⟩ := Option.map_eq_some_iff.mp hp
    cases heq
    rw [← hr, hq]
  | poll p =>
    obtain ⟨hr, hw⟩ := hs
    obtain ⟨c, hread⟩ := ha.2
    rw [hw]
    cases r with
    | none => exact h
    | some code => exact h.polled code hread (hr.mp (Option.some_ne_none code))
  | testRunning =>
    obtain ⟨hr, hw⟩ := hs
    rw [hw]
    refine { h with sawStop := fun hsaw => ?_ }
    have hnot : (!r) = true := hsaw
    rw [← hr]
    simpa using hnot
  | scriptExists c =>
    rw [hs.2]
    exact h
  | bumpRestartCount c =>
    have hw : w' = { w with
        restartCount := Function.update w.restartCount c (w.restartCount c + 1) } := hs
    rw [hw]
    exact { h with }
  | sleep =>
    have hw : w' = w := hs
    rw [hw]
    exact h
  | clearRunning => exact ha.2.elim
  | terminate p => exact ha.2.elim
  | wait p => exact ha.2.elim

/-- After the stop `main` stays on the way that starts nothing. -/
theorem Over.serves {w w' : World} {l : Local} {o : StartCall} {r : o.Answer}
    {k : o.Answer → StartM Unit} (h : Over w (.call o k)) (hk : Known w l) (hs : w.serves o r w')
    (ha : l.allowed o) (hrun : w.running = false) : Over w' (k r) := by
  have hu : Unstarting w (.call o k) := h.unstarting
  cases o with
  | scriptExists c =>
    obtain ⟨hr, hw⟩ := hs
    rw [hw]
    cases r with
    | false => exact { h with unstarting := hu.1 }
    | true => exact { h with unstarting := hu.2 hr.symm }
  | getProcess c =>
    obtain ⟨hr, hw⟩ := hs
    rw [hr, hw]
    exact { h with unstarting := hu }
  | popen c => exact hu.elim
  | setProcess c p => exact hu.elim
  | poll p =>
    obtain ⟨hr, hw⟩ := hs
    obtain ⟨c, hread⟩ := ha.2
    -- the process polled is recorded, so it is gone and `poll` gives an exit code
    have hgone : p ∈ w.exited := h.recorded c p (hk.read c p hread)
    obtain ⟨code, hcode⟩ := Option.ne_none_iff_exists'.mp (hr.mpr hgone)
    rw [hcode, hw]
    exact { h with unstarting := hu code }
  | bumpRestartCount c =>
    have hw : w' = { w with
        restartCount := Function.update w.restartCount c (w.restartCount c + 1) } := hs
    rw [hw]
    exact ⟨Unstarting.mono hu (fun _ => id) rfl, h.spawned, h.recorded⟩
  | testRunning =>
    obtain ⟨hr, hw⟩ := hs
    rw [hr, hw, hrun]
    exact { h with unstarting := hu }
  | sleep =>
    have hw : w' = w := hs
    rw [hw]
    exact { h with unstarting := hu }
  | clearRunning => exact ha.2.elim
  | terminate p => exact ha.2.elim
  | wait p => exact ha.2.elim

/-- The invariant of a run whose stop signals come at safe points: `main` keeps to what it knows,
and once it is stopped it is over. -/
def Safe (c : StartConfig) : Prop :=
  ∀ p, c.running () = some p → ∃ l,
    p.wp mainProtocol (fun _ l' => l'.inflight = none ∧ l'.sawStop = true)
      (fun _ l' => l'.inflight = none) l ∧
    Known c.world l ∧ (c.world.running = false → Over c.world p)

theorem safe_start (installed : Component → Bool) (rounds : ℕ) : Safe (start installed rounds) := by
  intro p hp
  obtain rfl : main rounds = p := by simpa [start] using hp
  refine ⟨⟨components, none, none, false⟩, main_wp rounds, ⟨?_, ?_, ?_, ?_, ?_, rfl⟩, ?_⟩ <;>
    simp [start, World.initial, World.Attributed]

/-- The signal arrives where `main` starts nothing more: no process is between its start and the
recording of its handle, so the handler has stopped every one. -/
theorem over_of_delivered {w w' : World} {l : Local} {p : StartM Unit} (hd : World.Delivered w w')
    (hu : Unstarting w p) (hk : Known w l)
    (hp : p.wp mainProtocol (fun _ l' => l'.inflight = none ∧ l'.sawStop = true)
      (fun _ l' => l'.inflight = none) l) : Over w' p := by
  have hs : Stopped w w' := stopped_of_delivered hd
  have hl : l.inflight = none := by
    by_contra hne
    obtain ⟨⟨c, q⟩, hq⟩ := Option.ne_none_iff_exists'.mp hne
    cases p with
    | pure a => exact hne hp.1
    | throw e => exact hne hp
    | call o k =>
      obtain rfl := hp.1.1 c q hq
      exact hu
  have hrecorded : ∀ c q, w'.process c = some q → q ∈ w'.exited := fun c q hq =>
    hs.gone c q (hs.frame.process ▸ hq)
  refine ⟨hu.mono (fun c hc => hs.installed ▸ hc) hs.frame.process, fun q hq => ?_, hrecorded⟩
  rcases hk.covered q (hs.frame.spawned ▸ hq) with hgone | ⟨c, hc⟩ | ⟨c, hc⟩
  · exact hs.frame.exited q hgone
  · exact hs.gone c q hc
  · rw [hl] at hc
    cases hc

theorem safe_step {c c' : StartConfig} (h : Safe c)
    (hs : (supervisor.restrictBackground SafeDelivery).Step c c') : Safe c' := by
  cases hs with
  | start _ hentry => exact hentry.elim
  | @call t o k r w hrun hserves =>
    intro p hp
    obtain rfl : k r = p := by simpa using hp
    obtain ⟨l, hwp, hk, hover⟩ := h _ hrun
    refine ⟨l.next o r, hwp.2 r, hk.serves hserves hwp.1 fun c' hc' => ?_, fun hstop => ?_⟩
    · -- once `running` is false no `Popen` lies ahead
      subst hc'
      by_contra hne
      exact (hover (by simpa using hne)).unstarting
    · have hrunning := (serves_running hserves hwp.1).symm.trans hstop
      exact (hover hrunning).serves hk hserves hwp.1 hrunning
  | returned => exact fun p hp => by simp at hp
  | raised => exact fun p hp => by simp at hp
  | @background w hb =>
    intro p hp
    obtain ⟨l, hwp, hk, hover⟩ := h p hp
    obtain ⟨hdrift, hsafe, hscripts⟩ := hb
    refine ⟨l, hwp, ?_⟩
    rcases hdrift with ⟨q, _, rfl⟩ | ⟨f, rfl⟩ | hd
    · obtain ⟨hframe, hrunning, hinstalled, _⟩ := c.world.exit_frame q
      exact ⟨hk.frame hframe fun hsaw => hrunning.trans (hk.sawStop hsaw),
        fun hstop => (hover (hrunning.symm.trans hstop)).frame hframe fun c' hc' => hinstalled ▸ hc'⟩
    · have hframe : Frame c.world { c.world with installed := f } := ⟨rfl, rfl, rfl, fun _ => id, id⟩
      exact ⟨hk.frame hframe hk.sawStop, fun hstop => (hover hstop).frame hframe (hscripts hstop)⟩
    · have hs := stopped_of_delivered hd
      exact ⟨hk.frame hs.frame fun _ => hs.running,
        fun _ => over_of_delivered hd (hsafe hd p hp) hk hwp⟩

theorem Safe.noOrphan {c : StartConfig} (h : Safe c) : NoOrphan c := by
  intro hrun
  obtain ⟨l, hwp, hk, hover⟩ := h _ hrun
  have hstop : c.world.running = false := hk.sawStop hwp.2
  exact ⟨fun p hp => hk.attributed p ((hover hstop).spawned p hp), hk.late⟩

section points

/-! Where `main` can be when the signal arrives, and which of these points are safe. -/

variable {w : World} {f : Unit → StartM Unit}

theorem unstarting_startProcess (c : Component) :
    Unstarting w ((startProcess c).bind f) ↔ w.installed c = false ∧ Unstarting w (f ()) := by
  have hstep : Unstarting w ((startProcess c).bind f) ↔
      Unstarting w (f ()) ∧ (w.installed c = true → False) := Iff.rfl
  rw [hstep, and_comm, ← Bool.not_eq_true]

/-- In the start loop no script is left to start. -/
theorem unstarting_starting (cs : List Component) :
    Unstarting w ((Prog.forEach cs startProcess).bind f) ↔
      (∀ c ∈ cs, w.installed c = false) ∧ Unstarting w (f ()) := by
  induction cs with
  | nil => exact (and_iff_right (by simp)).symm
  | cons c cs ih =>
    rw [Prog.forEach, Prog.bind_assoc, unstarting_startProcess, ih, List.forall_mem_cons, and_assoc]

/-- A component found dead is only passed over when its script is gone. -/
theorem unstarting_restart (c : Component) :
    Unstarting w ((do
      perform (.bumpRestartCount c)
      startProcess c : StartM Unit).bind f) ↔ w.installed c = false ∧ Unstarting w (f ()) :=
  unstarting_startProcess c

theorem unstarting_checkComponent (c : Component) :
    Unstarting w ((checkComponent c).bind f) ↔
      (w.process c ≠ none → w.installed c = false) ∧ Unstarting w (f ()) := by
  cases hp : w.process c with
  | none =>
    have hstep : Unstarting w ((checkComponent c).bind f) ↔ Unstarting w (f ()) := by
      simp only [checkComponent, perform, Prog.perform, Prog.bind_eq, Prog.call_bind,
        Prog.pure_bind, Unstarting, hp, Prog.pure_eq]
    rw [hstep]
    exact (and_iff_right fun h => absurd rfl h).symm
  | some p =>
    have hstep : Unstarting w ((checkComponent c).bind f) ↔
        ∀ _ : ℤ, Unstarting w ((startProcess c).bind f) := by
      simp only [checkComponent, perform, Prog.perform, Prog.bind_eq, Prog.call_bind,
        Prog.pure_bind, Unstarting, hp]
    rw [hstep, unstarting_startProcess]
    exact ⟨fun h => ⟨fun _ => (h 0).1, (h 0).2⟩, fun h _ => ⟨h.1 (Option.some_ne_none p), h.2⟩⟩

/-- In `check_components` no recorded child with a script is left to check. -/
theorem unstarting_checking (cs : List Component) :
    Unstarting w ((Prog.forEach cs checkComponent).bind f) ↔
      (∀ c ∈ cs, w.process c ≠ none → w.installed c = false) ∧ Unstarting w (f ()) := by
  induction cs with
  | nil => exact (and_iff_right (by simp)).symm
  | cons c cs ih =>
    rw [Prog.forEach, Prog.bind_assoc, unstarting_checkComponent, ih, List.forall_mem_cons, and_assoc]

/-- At the head of the watchdog loop every delivery is safe. -/
theorem unstarting_watch (w : World) (rounds : ℕ) : Unstarting w (watch rounds) := by
  cases rounds <;> trivial

end points

/-- An environment that is computed: every start and every `terminate()` succeeds. -/
def World.answer : (o : StartCall) → World → o.Answer × World
  | .scriptExists c, w => (w.installed c, w)
  | .popen _, w => (.ok w.spawned.length, w.spawn)
  | .setProcess c p, w => ((), { w with process := Function.update w.process c (some p) })
  | .getProcess c, w => (w.process c, w)
  | .poll p, w => (if p ∈ w.exited then some 0 else none, w)
  | .bumpRestartCount c, w =>
    ((), { w with restartCount := Function.update w.restartCount c (w.restartCount c + 1) })
  | .testRunning, w => (w.running, w)
  | .clearRunning, w => ((), { w with running := false })
  | .sleep, w => ((), w)
  | .terminate p, w => (.ok (), { w with terminated := p :: w.terminated })
  | .wait p, w => (.ok 0, if p ∈ w.terminated then w.exit p else w)

theorem World.serves_answer (o : StartCall) (w : World) :
    w.serves o (World.answer o w).1 (World.answer o w).2 := by
  cases o with
  | poll p =>
    refine ⟨?_, rfl⟩
    show (if p ∈ w.exited then some (0 : ℤ) else none) ≠ none ↔ p ∈ w.exited
    simp
  | scriptExists c => exact ⟨rfl, rfl⟩
  | popen c => exact ⟨rfl, rfl⟩
  | getProcess c => exact ⟨rfl, rfl⟩
  | testRunning => exact ⟨rfl, rfl⟩
  | _ => rfl

/-- What the handler leaves behind in that environment. -/
def World.deliver (w : World) : World := (stopHandler.eval World.answer w).2

theorem World.delivered_deliver (w : World) : w.Delivered w.deliver := by
  have hrun := Prog.runs_eval World.serves_answer stopHandler w
  rw [(hrun.wlp (stopHandler_stopping w)).1] at hrun
  exact hrun

def answering : Driver supervisor where
  answer _ w o := some (World.answer o w)
  sound _ w o r w' h := by
    have hw := World.serves_answer o w
    rw [Option.some.inj h] at hw
    exact hw

/-- The stop signal, wherever `main` is. -/
def deliverySignal : Move supervisor :=
  .world (fun w => some w.deliver) fun _ w w' h => by
    cases h
    exact .inr (.inr w.delivered_deliver)

/-- In every run whose stop signals come at safe points, no child outlives `main`. -/
theorem no_orphan_of_safe_delivery (installed : Component → Bool) (rounds : ℕ) {c : StartConfig}
    (h : (supervisor.restrictBackground SafeDelivery).Reach (start installed rounds) c) :
    NoOrphan c := by
  have hsafe : Safe c := by
    induction h with
    | refl => exact safe_start installed rounds
    | tail _ hs ih => exact safe_step ih hs
  exact hsafe.noOrphan

/-- Both children are started, the signal comes while `main` is in its loop, and `main` returns. -/
theorem no_orphan_of_safe_delivery_watching :
    ∃ c, (supervisor.restrictBackground SafeDelivery).Reach (start (fun _ => true) 1) c ∧
      (c.running () = some (.pure ()) ∧ c.world.spawned = [1, 0]) ∧ NoOrphan c := by
  let D : Driver (supervisor.restrictBackground SafeDelivery) := ⟨answering.answer, answering.sound⟩
  obtain ⟨c, hr, hrun, hspawned⟩ : ∃ c, (supervisor.restrictBackground SafeDelivery).Reach
      (start (fun _ => true) 1) c ∧ c.running () = some (watch 1) ∧ c.world.spawned = [1, 0] :=
    ⟨_, Move.schedule_reach (show Move.schedule [.steps D () 6] _ = some _ from rfl), rfl, rfl⟩
  have hstop := stopped_of_delivered c.world.delivered_deliver
  have hsafe : SafeDelivery c.running c.world c.world.deliver := by
    refine ⟨fun _ p hp => ?_, fun _ c' hc' => hstop.installed ▸ hc'⟩
    obtain rfl : watch 1 = p := Option.some.inj (hrun.symm.trans hp)
    exact unstarting_watch c.world 1
  -- the handler runs in one go on the main thread, so its whole effect is one background step
  have hdelivered := hr.tail (.background ⟨.inr (.inr c.world.delivered_deliver), hsafe⟩)
  have hend := hdelivered.tail (.call (t := ()) hrun ⟨hstop.running.symm, rfl⟩)
  exact ⟨_, hend, ⟨rfl, hstop.frame.spawned.trans hspawned⟩,
    no_orphan_of_safe_delivery (fun _ => true) 1 hend⟩

/-- The signal comes between the start of the first child and the recording of its handle. -/
theorem orphan_survives_stop :
    ¬ ∀ installed rounds c, supervisor.Reach (start installed rounds) c → NoOrphan c := by
  intro h
  obtain ⟨c, hr, hreturned, hc⟩ := Move.reach_of_schedule (start (fun _ => true) 1)
    [.steps answering () 2, deliverySignal, .steps answering () 5]
    (fun c => c.returned () = true ∧ 0 ∈ c.world.spawned ∧ 0 ∉ c.world.terminated ∧
      0 ∉ c.world.ownExits) (by decide)
  obtain ⟨hspawned, hterminated, hown⟩ := hc
  rcases (h _ _ c hr (Config.running_of_returned hreturned)).1 0 hspawned with hp | hp
  · exact hterminated hp
  · exact hown hp

end SenseGateway.Supervisor

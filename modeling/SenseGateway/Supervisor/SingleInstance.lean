import SenseGateway.Supervisor.Orphans

namespace SenseGateway.Supervisor

open Python Effects

/-- The supervisor's world, and what only counts: the processes started for each component, the
newest first. -/
structure Family where
  world : World
  children : Component → List ℕ

namespace Family

/-- A process that `Popen` returns is one more child of its component. -/
def born (children : Component → List ℕ) : (o : StartCall) → o.Answer → Component → List ℕ
  | .popen c, .ok p => Function.update children c (p :: children c)
  | _, _ => children

def serves (w : Family) (o : StartCall) (r : o.Answer) (w' : Family) : Prop :=
  w.world.serves o r w'.world ∧ w'.children = born w.children o r

def Drifts (w w' : Family) : Prop := w.world.Drifts w'.world ∧ w'.children = w.children

end Family

def family : Machine startCalls PyError Unit Family :=
  ⟨fun _ => Family.serves, fun _ => Family.Drifts, fun _ _ => False⟩

def familyStart (installed : Component → Bool) (rounds : ℕ) : Config startCalls PyError Unit Family :=
  ⟨⟨.initial installed, fun _ => []⟩, fun _ => some (main rounds)⟩

/-- Every step but `main`'s own leaves the slots alone. -/
theorem World.Drifts.frame {w w' : World} (h : w.Drifts w') : Frame w w' := by
  rcases h with ⟨p, -, rfl⟩ | ⟨f, rfl⟩ | hdelivered
  · exact (w.exit_frame p).1
  · exact ⟨rfl, rfl, rfl, fun _ => id, id⟩
  · exact (stopped_of_delivered hdelivered).frame

/-- What holds of the children wherever `main` is. -/
structure Single (w : Family) (l : Local) : Prop where
  older : ∀ c, ∀ p ∈ (w.children c).tail, p ∈ w.world.exited
  newest : ∀ c, (∀ p, l.inflight ≠ some (c, p)) → w.world.process c = (w.children c).head?
  inflight : ∀ c p, l.inflight = some (c, p) → (w.children c).head? = some p
  vacant : ∀ c ∈ l.vacant, (∀ p, l.inflight ≠ some (c, p)) → ∀ p ∈ w.children c, p ∈ w.world.exited
  read : ∀ c p, l.read = some (c, p) → w.world.process c = some p

namespace Single

variable {w w' : Family} {l : Local}

theorem initial (installed : Component → Bool) :
    Single ⟨.initial installed, fun _ => []⟩ ⟨components, none, none, false⟩ :=
  ⟨nofun, fun _ _ => rfl, nofun, fun _ _ _ => nofun, nofun⟩

theorem drifts (h : Single w l) (hd : w.Drifts w') : Single w' l := by
  obtain ⟨world, children⟩ := w'
  obtain ⟨hdrift, rfl⟩ := hd
  have hframe := hdrift.frame
  refine ⟨fun c p hp => hframe.exited p (h.older c p hp), fun c hc => ?_, h.inflight,
    fun c hc hl p hp => hframe.exited p (h.vacant c hc hl p hp), fun c p hp => ?_⟩
  · exact (congrFun hframe.process c).trans (h.newest c hc)
  · exact (congrFun hframe.process c).trans (h.read c p hp)

/-- A child is started where all the earlier ones have exited. -/
theorem popen (h : Single w l) (hl : l.inflight = none) {c : Component} (hc : c ∈ l.vacant) (p : ℕ)
    {world : World} (hprocess : world.process = w.world.process)
    (hexited : world.exited = w.world.exited) :
    Single ⟨world, Function.update w.children c (p :: w.children c)⟩
      { l with inflight := some (c, p) } := by
  have hnone (c : Component) (p : ℕ) : l.inflight ≠ some (c, p) := by simp [hl]
  have hother {c' : Component} (hc' : ∀ p', some (c, p) ≠ some (c', p')) :
      Function.update w.children c (p :: w.children c) c' = w.children c' := by
    refine Function.update_of_ne ?_ _ _
    rintro rfl
    exact hc' p rfl
  refine ⟨fun c' q hq => ?_, fun c' hc' => ?_, ?_, fun c' hmem hc' q hq => ?_, fun c' q hq => ?_⟩
  · dsimp only at hq ⊢
    rw [hexited]
    by_cases hne : c' = c
    · subst hne
      rw [Function.update_self] at hq
      exact h.vacant c' hc (hnone c') q hq
    · rw [Function.update_of_ne hne] at hq
      exact h.older c' q hq
  · dsimp only at hc' ⊢
    rw [hprocess, hother hc']
    exact h.newest c' (hnone c')
  · rintro _ _ ⟨⟩
    show (Function.update w.children c (p :: w.children c) c).head? = some p
    rw [Function.update_self, List.head?_cons]
  · change q ∈ Function.update w.children c (p :: w.children c) c' at hq
    rw [hother hc'] at hq
    rw [hexited]
    exact h.vacant c' hmem (hnone c') q hq
  · show world.process c' = _
    rw [hprocess]
    exact h.read c' q hq

/-- The child that was just started is recorded. -/
theorem setProcess (h : Single w l) {c : Component} {p : ℕ} (hl : l.inflight = some (c, p)) :
    Single { w with world := { w.world with process := Function.update w.world.process c (some p) } }
      { l with vacant := l.vacant.filter (· ≠ c), read := none, inflight := none } := by
  have hother {c' : Component} (hne : c' ≠ c) (q : ℕ) : l.inflight ≠ some (c', q) := by
    rw [hl]
    rintro ⟨⟩
    exact hne rfl
  refine ⟨h.older, fun c' _ => ?_, nofun, fun c' hc' _ q hq => ?_, nofun⟩
  · show Function.update w.world.process c (some p) c' = (w.children c').head?
    by_cases hne : c' = c
    · subst hne
      rw [Function.update_self]
      exact (h.inflight c' p hl).symm
    · rw [Function.update_of_ne hne]
      exact h.newest c' (hother hne)
  · obtain ⟨hmem, hne⟩ := List.mem_filter.mp hc'
    exact h.vacant c' hmem (hother (of_decide_eq_true hne)) q hq

/-- The newest child of a component has exited, and so have all of them. -/
theorem polled (h : Single w l) (hl : l.inflight = none) {c : Component} {p : ℕ} (code : ℤ)
    (hread : l.read = some (c, p)) (hgone : p ∈ w.world.exited) :
    Single w (l.next (.poll p) (some code)) := by
  have hnext : l.next (.poll p) (some code) = { l with vacant := c :: l.vacant } := by
    simp only [Local.next, hread]
  have hhead : (w.children c).head? = some p :=
    (h.newest c fun q => by simp [hl]).symm.trans (h.read c p hread)
  obtain ⟨rest, hrest⟩ := List.head?_eq_some_iff.mp hhead
  rw [hnext]
  refine { h with vacant := fun c' hc' hnone q hq => ?_ }
  rcases List.mem_cons.mp hc' with rfl | hmem
  · rw [hrest] at hq
    rcases List.mem_cons.mp hq with rfl | hq
    · exact hgone
    · exact h.older c' q (by rw [hrest]; exact hq)
  · exact h.vacant c' hmem hnone q hq

theorem serves {o : StartCall} {r : o.Answer} (h : Single w l) (hs : w.serves o r w')
    (ha : l.allowed o) : Single w' (l.next o r) := by
  obtain ⟨world, children⟩ := w
  obtain ⟨world', children'⟩ := w'
  obtain ⟨hs, rfl⟩ := hs
  have hnone {o' : StartCall} (ho : ∀ c p, o' ≠ .setProcess c p) (ha : l.allowed o') :
      l.inflight = none := by
    by_contra hne
    obtain ⟨⟨c', p'⟩, hp⟩ := Option.ne_none_iff_exists'.mp hne
    exact ho c' p' (ha.1 c' p' hp)
  cases o with
  | popen c =>
    cases r with
    | ok p =>
      obtain rfl : world' = world.spawn := hs.2
      exact h.popen (hnone (fun _ _ => StartCall.noConfusion) ha) ha.2 p rfl rfl
    | error e =>
      obtain rfl : world' = world := hs
      exact h
  | setProcess c p =>
    obtain rfl : world' = { world with process := Function.update world.process c (some p) } := hs
    exact h.setProcess ha.2.1
  | getProcess c =>
    obtain ⟨hr, hw⟩ := hs
    obtain rfl : world' = world := hw
    refine { h with read := fun c' p' hp => ?_ }
    obtain ⟨q, hq, heq⟩ := Option.map_eq_some_iff.mp hp
    cases heq
    exact hr.symm.trans hq
  | poll p =>
    obtain ⟨hr, hw⟩ := hs
    obtain rfl : world' = world := hw
    obtain ⟨c, hread⟩ := ha.2
    cases r with
    | none => exact h
    | some code =>
      exact h.polled (hnone (fun _ _ => StartCall.noConfusion) ha) code hread
        (hr.mp (Option.some_ne_none code))
  | testRunning =>
    obtain rfl : world' = world := hs.2
    exact { h with }
  | scriptExists c =>
    obtain rfl : world' = world := hs.2
    exact h
  | bumpRestartCount c =>
    obtain rfl : world' = { world with
        restartCount := Function.update world.restartCount c (world.restartCount c + 1) } := hs
    exact { h with }
  | sleep =>
    obtain rfl : world' = world := hs
    exact h
  | clearRunning => exact ha.2.elim
  | terminate p => exact ha.2.elim
  | wait p => exact ha.2.elim

end Single

def raising : Discipline family Local where
  protocol _ := mainProtocol
  idle _ l := l.inflight = none
  inv w ls := Single w (ls ())
  entry_wp _ _ _ h := h.elim
  serves_inv := by
    intro t w o r w' ls h hs ha
    rw [Function.update_self]
    exact h.serves hs ha
  background_inv _ _ _ _ h hd := h.drifts hd

theorem raising_holds {installed : Component → Bool} {rounds : ℕ}
    {c : Config startCalls PyError Unit Family} (hr : family.Reach (familyStart installed rounds) c) :
    ∃ ls, raising.Holds c ls := by
  have hstart : raising.Holds (familyStart installed rounds) fun _ => ⟨components, none, none, false⟩ :=
    ⟨.initial installed, fun _ => Prog.wp_mono (fun _ _ h => h.1) (fun _ _ h => h) (main_wp rounds)⟩
  exact Discipline.reach_holds hr hstart

/-- A process that is not recorded yet is recorded by the next call of `main`. -/
theorem records_of_inflight {c : Config startCalls PyError Unit Family} {ls : Unit → Local}
    (h : raising.Holds c ls) {component : Component} {p : ℕ}
    (hl : (ls ()).inflight = some (component, p)) :
    ∃ k, c.running () = some (.call (.setProcess component p) k) := by
  have hthread := h.2 ()
  have hbusy : ¬ (ls ()).inflight = none := by simp [hl]
  cases hrun : c.running () with
  | none => exact absurd (h.idle_of_none hrun) hbusy
  | some program =>
    rw [hrun] at hthread
    cases program with
    | pure a => exact absurd hthread hbusy
    | throw e => exact absurd hthread hbusy
    | call o k =>
      obtain rfl := hthread.1.1 component p hl
      exact ⟨k, rfl⟩

/-- A supervisor whose calls are answered, with the children counted. -/
def raisingFamily : Driver family where
  answer _ w o :=
    some ((World.answer o w.world).1, ⟨(World.answer o w.world).2,
      Family.born w.children o (World.answer o w.world).1⟩)
  sound _ w o r w' h := by
    cases h
    exact ⟨World.serves_answer o w.world, rfl⟩

def childExits (p : ℕ) : Move family :=
  .world (fun w => if p ∈ w.world.spawned then some { w with world := w.world.exit p } else none)
    fun _ w w' h => by
      simp only [Option.ite_none_right_eq_some, Option.some.injEq] at h
      obtain ⟨hp, rfl⟩ := h
      exact ⟨.inl ⟨p, hp, rfl⟩, rfl⟩

/-- No two processes of one component ever run at the same time, whatever exits and whenever the stop
signal comes. The one that may be running is the one that `stop_handler` finds, unless `main` has just
started it and is about to record it. -/
theorem single_instance {installed : Component → Bool} {rounds : ℕ}
    {c : Config startCalls PyError Unit Family} (hr : family.Reach (familyStart installed rounds) c)
    (component : Component) :
    (∀ p ∈ (c.world.children component).tail, p ∈ c.world.world.exited) ∧
      ∀ p ∈ c.world.children component, p ∉ c.world.world.exited →
        c.world.world.process component = some p ∨
          ∃ k, c.running () = some (.call (.setProcess component p) k) := by
  obtain ⟨ls, h⟩ := raising_holds hr
  have hsingle : Single c.world (ls ()) := h.1
  refine ⟨hsingle.older component, fun p hp hlive => ?_⟩
  -- a child that has not exited is the newest one
  have hhead : (c.world.children component).head? = some p := by
    cases hchildren : c.world.children component with
    | nil => simp [hchildren] at hp
    | cons q rest =>
      have holder := hsingle.older component
      rw [hchildren] at hp holder
      rcases List.mem_cons.mp hp with rfl | hrest
      · rfl
      · exact absurd (holder p hrest) hlive
  by_cases hl : ∀ q, (ls ()).inflight ≠ some (component, q)
  · exact .inl ((hsingle.newest component hl).trans hhead)
  · push Not at hl
    obtain ⟨q, hq⟩ := hl
    obtain rfl : q = p := Option.some.inj ((hsingle.inflight component q hq).symm.trans hhead)
    exact .inr (records_of_inflight h hq)

/-- The poller exits and is started again. -/
theorem single_instance_restart :
    ∃ c, family.Reach (familyStart (fun _ => true) 2) c ∧
      c.world.children .telemetryPoller = [2, 0] ∧
      (∀ p ∈ (c.world.children .telemetryPoller).tail, p ∈ c.world.world.exited) ∧
      ∀ p ∈ c.world.children .telemetryPoller, p ∉ c.world.world.exited →
        c.world.world.process .telemetryPoller = some p ∨
          ∃ k, c.running () = some (.call (.setProcess .telemetryPoller p) k) := by
  obtain ⟨c, hr, hc⟩ := Move.reach_of_schedule (familyStart (fun _ => true) 2)
    [.steps raisingFamily () 8, childExits 0, .steps raisingFamily () 6]
    (fun c => c.world.children .telemetryPoller = [2, 0]) (by decide)
  exact ⟨c, hr, hc, single_instance hr .telemetryPoller⟩

end SenseGateway.Supervisor

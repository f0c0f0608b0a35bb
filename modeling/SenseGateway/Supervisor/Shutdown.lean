import SenseGateway.Effects.Runs
import SenseGateway.Effects.Schedule
import SenseGateway.Supervisor.Start

namespace SenseGateway.Supervisor

open Python Effects

/-- The supervisor's state and its children. `ownExits` holds the processes that exited before
`terminate()` was called on them, and `late` those spawned while `running` was false. -/
structure World where
  running : Bool
  installed : Component → Bool
  process : Component → Option ℕ
  restartCount : Component → ℕ
  spawned : List ℕ
  exited : List ℕ
  ownExits : List ℕ
  terminated : List ℕ
  late : List ℕ

namespace World

def initial (installed : Component → Bool) : World :=
  ⟨true, installed, fun _ => none, fun _ => 0, [], [], [], [], []⟩

def spawn (w : World) : World :=
  { w with
    spawned := w.spawned.length :: w.spawned
    late := if w.running then w.late else w.spawned.length :: w.late }

def exit (w : World) (p : ℕ) : World :=
  if p ∈ w.exited then w
  else { w with
    exited := p :: w.exited
    ownExits := if p ∈ w.terminated then w.ownExits else p :: w.ownExits }

/-- How a call is answered. A child on which `terminate()` was called has exited when the wait
for it ends; for any other child the wait times out. -/
def serves (w : World) : (o : StartCall) → o.Answer → World → Prop
  | .scriptExists c, r, w' => r = w.installed c ∧ w' = w
  | .popen _, .ok p, w' => p = w.spawned.length ∧ w' = w.spawn
  | .popen _, .error _, w' => w' = w
  | .setProcess c p, _, w' => w' = { w with process := Function.update w.process c (some p) }
  | .getProcess c, r, w' => r = w.process c ∧ w' = w
  | .poll p, r, w' => (r ≠ none ↔ p ∈ w.exited) ∧ w' = w
  | .bumpRestartCount c, _, w' =>
    w' = { w with restartCount := Function.update w.restartCount c (w.restartCount c + 1) }
  | .testRunning, r, w' => r = w.running ∧ w' = w
  | .clearRunning, _, w' => w' = { w with running := false }
  | .sleep, _, w' => w' = w
  | .terminate p, _, w' => w' = { w with terminated := p :: w.terminated }
  | .wait p, _, w' => w' = if p ∈ w.terminated then w.exit p else w

/-- The stop signal is delivered, and the handler runs to its end. -/
def Delivered (w w' : World) : Prop := Prog.Runs serves stopHandler w (.ok ()) w'

/-- What happens beside `main`: a child exits, a script is installed or removed, or the stop
signal is delivered. -/
def Drifts (w w' : World) : Prop :=
  (∃ p ∈ w.spawned, w' = w.exit p) ∨ (∃ f, w' = { w with installed := f }) ∨ Delivered w w'

end World

abbrev StartConfig := Config startCalls PyError Unit World

/-- `main`, once, with the stop signal between any two of its steps. -/
def supervisor : Machine startCalls PyError Unit World :=
  ⟨fun _ => World.serves, fun _ => World.Drifts, fun _ _ => False⟩

def start (installed : Component → Bool) (rounds : ℕ) : StartConfig :=
  ⟨.initial installed, fun _ => some (main rounds)⟩

/-- When `main` returns, `terminate()` has been called on every process ever spawned that had
not exited by itself, and none was spawned after the stop. -/
def NoOrphan (c : StartConfig) : Prop :=
  c.running () = some (.pure ()) →
    (∀ p ∈ c.world.spawned, p ∈ c.world.terminated ∨ p ∈ c.world.ownExits) ∧ c.world.late = []

/-- With `running` false and every recorded child gone, `main` goes on to its end without
spawning a process or recording one, whichever scripts go in the meantime. -/
def Unstarting (w : World) : StartM Unit → Prop
  | .pure _ => True
  | .throw _ => True
  | .call (.scriptExists c) k =>
    Unstarting w (k false) ∧ (w.installed c = true → Unstarting w (k true))
  | .call (.popen _) _ => False
  | .call (.setProcess _ _) _ => False
  | .call (.getProcess c) k => Unstarting w (k (w.process c))
  | .call (.poll _) k => ∀ code, Unstarting w (k (some code))
  | .call (.bumpRestartCount _) k => Unstarting w (k ())
  | .call .testRunning k => Unstarting w (k false)
  | .call .clearRunning k => Unstarting w (k ())
  | .call .sleep k => Unstarting w (k ())
  | .call (.terminate _) k => ∀ r, Unstarting w (k r)
  | .call (.wait _) k => ∀ r, Unstarting w (k r)

/-- The signal is only delivered where `main` goes on without starting anything, and no script
appears afterwards. -/
def SafeDelivery (running : Unit → Option (StartM Unit)) (w w' : World) : Prop :=
  (World.Delivered w w' → ∀ p, running () = some p → Unstarting w p) ∧
    (w.running = false → ∀ c, w'.installed c = true → w.installed c = true)

theorem World.mem_exited_exit {w : World} {p q : ℕ} :
    q ∈ (w.exit p).exited ↔ q = p ∨ q ∈ w.exited := by
  unfold World.exit
  split
  · constructor
    · exact .inr
    · rintro (rfl | h)
      · assumption
      · exact h
  · exact List.mem_cons

/-- Every process that has exited was terminated or exited by itself. -/
def World.Attributed (w : World) : Prop := ∀ p ∈ w.exited, p ∈ w.terminated ∨ p ∈ w.ownExits

theorem World.Attributed.exit {w : World} (h : w.Attributed) (p : ℕ) : (w.exit p).Attributed := by
  intro q hq
  by_cases hp : p ∈ w.exited
  · simp only [World.exit, if_pos hp] at hq ⊢
    exact h q hq
  · simp only [World.exit, if_neg hp, List.mem_cons] at hq ⊢
    by_cases ht : p ∈ w.terminated
    · rw [if_pos ht]
      rcases hq with rfl | hq
      · exact .inl ht
      · exact h q hq
    · rw [if_neg ht]
      rcases hq with rfl | hq
      · exact .inr List.mem_cons_self
      · exact (h q hq).imp_right (List.mem_cons_of_mem _)

/-- What no step but `main`'s own changes, and what only grows. -/
structure Frame (w w' : World) : Prop where
  process : w'.process = w.process
  spawned : w'.spawned = w.spawned
  late : w'.late = w.late
  exited : ∀ p ∈ w.exited, p ∈ w'.exited
  attributed : w.Attributed → w'.Attributed

theorem Frame.trans {w w' w'' : World} (h : Frame w w') (h' : Frame w' w'') : Frame w w'' :=
  ⟨h'.process.trans h.process, h'.spawned.trans h.spawned, h'.late.trans h.late,
    fun p hp => h'.exited p (h.exited p hp), fun ha => h'.attributed (h.attributed ha)⟩

theorem World.exit_frame (w : World) (p : ℕ) : Frame w (w.exit p) ∧
    (w.exit p).running = w.running ∧ (w.exit p).installed = w.installed ∧
    (w.exit p).terminated = w.terminated := by
  refine ⟨⟨?_, ?_, ?_, fun q hq => World.mem_exited_exit.mpr (.inr hq), fun h => h.exit p⟩,
    ?_, ?_, ?_⟩ <;>
  · unfold World.exit
    split <;> rfl

/-- What the handler leaves behind: `running` is false, and every recorded child has been
terminated and is gone. -/
structure Stopped (w w' : World) : Prop where
  frame : Frame w w'
  running : w'.running = false
  installed : w'.installed = w.installed
  terminated : ∀ c p, w.process c = some p → p ∈ w'.terminated
  gone : ∀ c p, w.process c = some p → p ∈ w'.exited

theorem mem_components (c : Component) : c ∈ components := by cases c <;> decide

/-- The handler in the middle of its loops, where `rest` and `rest'` are still to be visited. -/
structure Stopping (w w' : World) (rest rest' : List Component) : Prop where
  frame : Frame w w'
  running : w'.running = false
  installed : w'.installed = w.installed
  terminated : ∀ c ∉ rest, ∀ p, w.process c = some p → p ∈ w'.terminated
  gone : ∀ c ∉ rest', ∀ p, w.process c = some p → p ∈ w'.exited

theorem terminateChild_stopping {w w₁ : World} {c : Component} {rest rest' : List Component}
    (h : Stopping w w₁ (c :: rest) rest') :
    (terminateChild c).wlp World.serves (fun out w₂ => out = .ok () ∧ Stopping w w₂ rest rest') w₁ := by
  have hother (c' : Component) (hc' : c' ∉ rest) (hne : c' ≠ c) : c' ∉ c :: rest := by
    simp [hne, hc']
  rintro r w₂ ⟨rfl, hw₂⟩
  have hprocess : w₁.process c = w.process c := by rw [h.frame.process]
  rw [hw₂, hprocess]
  cases hp : w.process c with
  | none =>
    refine ⟨rfl, h.frame, h.running, h.installed, fun c' hc' p hp' => ?_, h.gone⟩
    have hne : c' ≠ c := by
      rintro rfl
      rw [hp] at hp'
      cases hp'
    exact h.terminated c' (hother c' hc' hne) p hp'
  | some q =>
    rintro r w₂ rfl
    have hstep : Stopping w { w₁ with terminated := q :: w₁.terminated } rest rest' := by
      refine ⟨h.frame.trans ⟨rfl, rfl, rfl, fun _ => id, fun ha p hp => ?_⟩, h.running, h.installed,
        fun c' hc' p hp' => ?_, h.gone⟩
      · exact (ha p hp).imp_left (List.mem_cons_of_mem _)
      · by_cases hne : c' = c
        · subst hne
          obtain rfl : q = p := Option.some.inj (hp.symm.trans hp')
          exact List.mem_cons_self
        · exact List.mem_cons_of_mem _ (h.terminated c' (hother c' hc' hne) p hp')
    cases r with
    | ok _ => exact ⟨rfl, hstep⟩
    | error e => exact ⟨rfl, hstep⟩

theorem awaitChild_stopping {w w₁ : World} {c : Component} {rest : List Component}
    (h : Stopping w w₁ [] (c :: rest)) :
    (awaitChild c).wlp World.serves (fun out w₂ => out = .ok () ∧ Stopping w w₂ [] rest) w₁ := by
  have hother (c' : Component) (hc' : c' ∉ rest) (hne : c' ≠ c) : c' ∉ c :: rest := by
    simp [hne, hc']
  rintro r w₂ ⟨rfl, hw₂⟩
  have hprocess : w₁.process c = w.process c := by rw [h.frame.process]
  rw [hw₂, hprocess]
  cases hp : w.process c with
  | none =>
    refine ⟨rfl, h.frame, h.running, h.installed, h.terminated, fun c' hc' p hp' => ?_⟩
    have hne : c' ≠ c := by
      rintro rfl
      rw [hp] at hp'
      cases hp'
    exact h.gone c' (hother c' hc' hne) p hp'
  | some q =>
    intro r w₂ hw₂
    have hq : q ∈ w₁.terminated := h.terminated c (by simp) q hp
    have hw : w₂ = w₁.exit q := by
      simpa only [World.serves, if_pos hq] using hw₂
    subst hw
    obtain ⟨hframe, hrunning, hinstalled, hterminated⟩ := w₁.exit_frame q
    have hstep : Stopping w (w₁.exit q) [] rest := by
      refine ⟨h.frame.trans hframe, hrunning.trans h.running, hinstalled.trans h.installed,
        fun c' hc' p hp' => hterminated ▸ h.terminated c' hc' p hp', fun c' hc' p hp' => ?_⟩
      by_cases hne : c' = c
      · subst hne
        obtain rfl : q = p := Option.some.inj (hp.symm.trans hp')
        exact World.mem_exited_exit.mpr (.inl rfl)
      · exact hframe.exited p (h.gone c' (hother c' hc' hne) p hp')
    cases r with
    | ok _ => exact ⟨rfl, hstep⟩
    | error e => exact ⟨rfl, hstep⟩

/-- Wherever the signal arrives, the handler returns and has stopped every recorded child. -/
theorem stopHandler_stopping (w : World) :
    stopHandler.wlp World.serves (fun out w' => out = .ok () ∧ Stopping w w' [] []) w := by
  have hnone (c : Component) : c ∉ components → False := fun hc => hc (mem_components c)
  rintro _ w₁ rfl
  have hstart : Stopping w { w with running := false } components components :=
    ⟨⟨rfl, rfl, rfl, fun _ => id, id⟩, rfl, rfl, fun c hc => (hnone c hc).elim,
      fun c hc => (hnone c hc).elim⟩
  show ((Prog.forEach components terminateChild).bind fun _ =>
    Prog.forEach components awaitChild).wlp World.serves _ _
  refine Prog.wlp_bind (Prog.wlp_mono ?_ (Prog.wlp_forEach
    (J := fun rest w₁ => Stopping w w₁ rest components)
    (fun c rest w₁ => terminateChild_stopping) hstart))
  rintro out w₁ ⟨rfl, h₁⟩
  exact Prog.wlp_forEach (J := fun rest w₂ => Stopping w w₂ [] rest)
    (fun c rest w₂ => awaitChild_stopping) h₁

theorem stopped_of_delivered {w w' : World} (h : World.Delivered w w') : Stopped w w' := by
  obtain ⟨_, hframe, hrunning, hinstalled, hterminated, hgone⟩ := h.wlp (stopHandler_stopping w)
  exact ⟨hframe, hrunning, hinstalled, fun c => hterminated c (by simp), fun c => hgone c (by simp)⟩

end SenseGateway.Supervisor

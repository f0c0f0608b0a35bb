import SenseGateway.Effects.Passes
import SenseGateway.Effects.Transcript
import SenseGateway.Supervisor.Start

namespace SenseGateway.Supervisor

open Python Effects

/-- What surrounds `main` before a stop signal. The slots of `components` hold the processes that
were recorded in them, and `running` stays true. What `Popen` raises is not the mark of a cut-off. -/
def beforeStop : Surroundings startCalls (Component → Option ℕ) where
  answers
    | slots, .getProcess c, r => r = slots c
    | _, .testRunning, r => r = true
    | _, .popen _, r => r ≠ .error cutOff
    | _, _, _ => True
  next
    | slots, .setProcess c p, _ => Function.update slots c (some p)
    | slots, _, _ => slots

section transcript

def isSleep (e : Event startCalls) : Bool :=
  match e.op with
  | .sleep => true
  | _ => false

def isTest (e : Event startCalls) : Bool :=
  match e.op with
  | .testRunning => true
  | _ => false

def isCheck (e : Event startCalls) : Bool :=
  match e.op with
  | .getProcess _ => true
  | _ => false

/-- What happens before the first test of `running`. -/
def startEvents (es : List (Event startCalls)) : List (Event startCalls) := es.takeWhile (!isTest ·)

/-- The rounds of the watchdog loop, each from its `sleep` on. -/
def roundsOf (es : List (Event startCalls)) : List (List (Event startCalls)) :=
  stretches isSleep isSleep es

/-- The parts of a round that are about one component each. -/
def checksOf (es : List (Event startCalls)) : List (List (Event startCalls)) :=
  stretches isCheck (fun e => isCheck e || isTest e) es

end transcript

/-- The check is one of `c`. -/
def Checks (c : Component) (check : List (Event startCalls)) : Prop :=
  ∃ r rest, check = ⟨.getProcess c, r⟩ :: rest

/-- The check finds that `c` has no running process: none was ever started, or it has exited. -/
def FindsVacant (c : Component) (check : List (Event startCalls)) : Prop :=
  (∃ rest, check = ⟨.getProcess c, none⟩ :: rest) ∨
    ∃ p code rest, check = ⟨.getProcess c, some p⟩ :: ⟨.poll p, some code⟩ :: rest

/-- `start_process` is called for `c`. -/
def Attempts (c : Component) (check : List (Event startCalls)) : Prop :=
  ∃ found, ⟨.scriptExists c, found⟩ ∈ check

/-- The round checks every component and tries to start those that have no running process. -/
structure Supervises (round : List (Event startCalls)) : Prop where
  complete : ∀ c ∈ components, ∃ check ∈ checksOf round, Checks c check
  tries : ∀ c, ∀ check ∈ checksOf round, FindsVacant c check → Attempts c check

/-- Nothing but the cut-off ends the run, and every round supervises. -/
def AlwaysTries (es : List (Event startCalls)) (out : PyExcept Unit) : Prop :=
  out = .error cutOff ∧ ∀ round ∈ roundsOf es, Supervises round

/-- Some call of `Popen` raises. -/
def SpawnFails (es : List (Event startCalls)) : Prop := ∃ c e, ⟨.popen c, .error e⟩ ∈ es

/-- A part of `main` raises what `Popen` raised in it, and nothing else. -/
def EndsBySpawns (es : List (Event startCalls)) (out : PyExcept Unit) : Prop :=
  (SpawnFails es ∧ ∃ e, out = .error e ∧ e ≠ cutOff) ∨ (¬ SpawnFails es ∧ out = .ok ())

section steps

variable {c : Component} {es es' : List (Event startCalls)} {out : PyExcept Unit}
  {slots : Component → Option ℕ}

@[simp] theorem spawnFails_nil : ¬ SpawnFails [] := by simp [SpawnFails]

theorem spawnFails_append : SpawnFails (es ++ es') ↔ SpawnFails es ∨ SpawnFails es' := by
  simp only [SpawnFails, List.mem_append, exists_or]

theorem startProcess_cases (h : Prog.Trace (startProcess c) es (some out)) :
    (es = [⟨.scriptExists c, false⟩] ∧ out = .ok ()) ∨
      (∃ e, es = [⟨.scriptExists c, true⟩, ⟨.popen c, .error e⟩] ∧ out = .error e) ∨
        ∃ p, es = [⟨.scriptExists c, true⟩, ⟨.popen c, .ok p⟩, ⟨.setProcess c p, ()⟩] ∧
          out = .ok () := by
  obtain ⟨found, es₁, rfl, h₁⟩ := Prog.trace_call.mp h
  cases found with
  | false =>
    obtain ⟨rfl, rfl⟩ := Prog.trace_pure.mp h₁
    exact .inl ⟨rfl, rfl⟩
  | true =>
    obtain ⟨r, es₂, rfl, h₂⟩ := Prog.trace_call.mp h₁
    cases r with
    | error e =>
      obtain ⟨rfl, rfl⟩ := Prog.trace_throw.mp h₂
      exact .inr (.inl ⟨e, rfl, rfl⟩)
    | ok p =>
      obtain ⟨_, es₃, rfl, h₃⟩ := Prog.trace_call.mp h₂
      obtain ⟨rfl, rfl⟩ := Prog.trace_pure.mp h₃
      exact .inr (.inr ⟨p, rfl, rfl⟩)

theorem checkComponent_cases (h : Prog.Trace (checkComponent c) es (some out)) :
    (es = [⟨.getProcess c, none⟩] ∧ out = .ok ()) ∨
      (∃ p, es = [⟨.getProcess c, some p⟩, ⟨.poll p, none⟩] ∧ out = .ok ()) ∨
        ∃ p code es', Prog.Trace (startProcess c) es' (some out) ∧
          es = ⟨.getProcess c, some p⟩ :: ⟨.poll p, some code⟩ :: ⟨.bumpRestartCount c, ()⟩ :: es' := by
  obtain ⟨r, es₁, rfl, h₁⟩ := Prog.trace_call.mp h
  cases r with
  | none =>
    obtain ⟨rfl, rfl⟩ := Prog.trace_pure.mp h₁
    exact .inl ⟨rfl, rfl⟩
  | some p =>
    obtain ⟨r, es₂, rfl, h₂⟩ := Prog.trace_call.mp h₁
    cases r with
    | none =>
      obtain ⟨rfl, rfl⟩ := Prog.trace_pure.mp h₂
      exact .inr (.inl ⟨p, rfl, rfl⟩)
    | some code =>
      obtain ⟨_, es₃, rfl, h₃⟩ := Prog.trace_call.mp h₂
      exact .inr (.inr ⟨p, code, es₃, h₃, rfl⟩)

theorem startProcess_ends (h : Prog.Trace (startProcess c) es (some out))
    (hanswers : beforeStop.Answers slots es) : EndsBySpawns es out := by
  rcases startProcess_cases h with ⟨rfl, rfl⟩ | ⟨e, rfl, rfl⟩ | ⟨p, rfl, rfl⟩
  · exact .inr ⟨by simp [SpawnFails], rfl⟩
  · refine .inl ⟨⟨c, e, by simp⟩, e, rfl, ?_⟩
    rintro rfl
    exact hanswers.2.1 rfl
  · exact .inr ⟨by simp [SpawnFails], rfl⟩

/-- `start_process` touches no slot but its own, and empties none. -/
theorem startProcess_slots (slots : Component → Option ℕ)
    (h : Prog.Trace (startProcess c) es (some out)) :
    beforeStop.after slots es = slots ∨
      ∃ p, beforeStop.after slots es = Function.update slots c (some p) := by
  rcases startProcess_cases h with ⟨rfl, rfl⟩ | ⟨e, rfl, rfl⟩ | ⟨p, rfl, rfl⟩
  · exact .inl rfl
  · exact .inl rfl
  · exact .inr ⟨p, rfl⟩

theorem startProcess_empty (h : Prog.Trace (startProcess c) es (some out)) (c' : Component)
    (hslot : slots c' ≠ none) : beforeStop.after slots es c' ≠ none := by
  rcases startProcess_slots slots h with heq | ⟨p, heq⟩
  · rwa [heq]
  · rw [heq, Function.update_apply]
    split
    · exact Option.some_ne_none p
    · exact hslot

theorem startProcess_others (slots : Component → Option ℕ)
    (h : Prog.Trace (startProcess c) es (some out)) {c' : Component} (hne : c' ≠ c) :
    beforeStop.after slots es c' = slots c' ∧ ⟨.scriptExists c', false⟩ ∉ es := by
  rcases startProcess_cases h with ⟨rfl, rfl⟩ | ⟨e, rfl, rfl⟩ | ⟨p, rfl, rfl⟩
  · exact ⟨rfl, by simp [hne]⟩
  · exact ⟨rfl, by simp⟩
  · exact ⟨Function.update_of_ne hne _ _, by simp⟩

theorem startProcess_own (h : Prog.Trace (startProcess c) es (some (.ok ())))
    (hslot : slots c = none) :
    beforeStop.after slots es c ≠ none ↔ ⟨.scriptExists c, false⟩ ∉ es := by
  rcases startProcess_cases h with ⟨rfl, -⟩ | ⟨e, -, hout⟩ | ⟨p, rfl, -⟩
  · simp [Surroundings.after, beforeStop, hslot]
  · cases hout
  · simp [Surroundings.after, beforeStop]

theorem checkComponent_ends (h : Prog.Trace (checkComponent c) es (some out))
    (hanswers : beforeStop.Answers slots es) : EndsBySpawns es out := by
  rcases checkComponent_cases h with ⟨rfl, rfl⟩ | ⟨p, rfl, rfl⟩ | ⟨p, code, es', h', rfl⟩
  · exact .inr ⟨by simp [SpawnFails], rfl⟩
  · exact .inr ⟨by simp [SpawnFails], rfl⟩
  · have hends := startProcess_ends h' hanswers.2.2.2
    have hsame : SpawnFails (⟨.getProcess c, some p⟩ :: ⟨.poll p, some code⟩ ::
        ⟨.bumpRestartCount c, ()⟩ :: es') ↔ SpawnFails es' := by
      simp [SpawnFails]
    rwa [EndsBySpawns, hsame]

/-- A check leaves every slot as empty or as full as it was. -/
theorem checkComponent_slots (h : Prog.Trace (checkComponent c) es (some out))
    (hanswers : beforeStop.Answers slots es) (c' : Component) :
    beforeStop.after slots es c' ≠ none ↔ slots c' ≠ none := by
  rcases checkComponent_cases h with ⟨rfl, rfl⟩ | ⟨p, rfl, rfl⟩ | ⟨p, code, es', h', rfl⟩
  · rfl
  · rfl
  · have hc : some p = slots c := hanswers.1
    refine ⟨fun hafter => ?_, startProcess_empty h' c'⟩
    rcases startProcess_slots slots h' with heq | ⟨p', heq⟩
    · exact fun hslot => hafter ((congrFun heq c').trans hslot)
    · intro hslot
      refine hafter ((congrFun heq c').trans ?_)
      rwa [Function.update_of_ne]
      rintro rfl
      cases hc.trans hslot

theorem checkComponent_shape (h : Prog.Trace (checkComponent c) es (some out)) :
    ∃ r rest, es = ⟨.getProcess c, r⟩ :: rest ∧
      ∀ e ∈ rest, isCheck e = false ∧ isTest e = false := by
  rcases checkComponent_cases h with ⟨rfl, rfl⟩ | ⟨p, rfl, rfl⟩ | ⟨p, code, es', h', rfl⟩
  · exact ⟨_, _, rfl, by simp⟩
  · exact ⟨_, _, rfl, by simp [isCheck, isTest]⟩
  · refine ⟨_, _, rfl, ?_⟩
    rcases startProcess_cases h' with ⟨rfl, -⟩ | ⟨e, rfl, -⟩ | ⟨p', rfl, -⟩
    · simp [isCheck, isTest]
    · simp [isCheck, isTest]
    · simp [isCheck, isTest]

/-- A check makes the attempt that it owes just where the component has ever been started. -/
theorem checkComponent_tries (h : Prog.Trace (checkComponent c) es (some out))
    (hanswers : beforeStop.Answers slots es) :
    (FindsVacant c es → Attempts c es) ↔ slots c ≠ none := by
  rcases checkComponent_cases h with ⟨rfl, rfl⟩ | ⟨p, rfl, rfl⟩ | ⟨p, code, es', h', rfl⟩
  · have hslot : none = slots c := hanswers.1
    have hvacant : FindsVacant c [⟨.getProcess c, none⟩] := .inl ⟨[], rfl⟩
    have hidle : ¬ Attempts c [⟨.getProcess c, none⟩] := by simp [Attempts]
    simp [hvacant, hidle, ← hslot]
  · have hslot : some p = slots c := hanswers.1
    have hrunning : ¬ FindsVacant c [⟨.getProcess c, some p⟩, ⟨.poll p, none⟩] := by
      simp [FindsVacant]
    simp [hrunning, ← hslot]
  · have hslot : some p = slots c := hanswers.1
    have htried : Attempts c (⟨.getProcess c, some p⟩ :: ⟨.poll p, some code⟩ ::
        ⟨.bumpRestartCount c, ()⟩ :: es') := by
      rcases startProcess_cases h' with ⟨rfl, -⟩ | ⟨e, rfl, -⟩ | ⟨p', rfl, -⟩
      · exact ⟨false, by simp⟩
      · exact ⟨true, by simp⟩
      · exact ⟨true, by simp⟩
    simp [htried, ← hslot]

end steps

section quiet

/-- Neither a test of `running` nor a `sleep`. -/
def IsQuiet (o : StartCall) : Prop := o ≠ .testRunning ∧ o ≠ .sleep

def Quiet (es : List (Event startCalls)) : Prop := ∀ e ∈ es, isTest e = false ∧ isSleep e = false

theorem startProcess_makes (c : Component) :
    Prog.Makes IsQuiet (startProcess c) := by
  refine ⟨⟨nofun, nofun⟩, fun found => ?_⟩
  cases found with
  | false => exact Prog.Makes.pure ()
  | true =>
    refine ⟨⟨nofun, nofun⟩, fun r => ?_⟩
    cases r with
    | error e => exact Prog.Makes.throw e
    | ok p => exact ⟨⟨nofun, nofun⟩, fun _ => trivial⟩

theorem checkComponent_makes (c : Component) :
    Prog.Makes IsQuiet (checkComponent c) := by
  refine ⟨⟨nofun, nofun⟩, fun r => ?_⟩
  cases r with
  | none => exact Prog.Makes.pure ()
  | some p =>
    refine ⟨⟨nofun, nofun⟩, fun r => ?_⟩
    cases r with
    | none => exact Prog.Makes.pure ()
    | some code => exact ⟨⟨nofun, nofun⟩, fun _ => startProcess_makes c⟩

theorem quiet_of_makes {body : Component → StartM Unit} {xs : List Component}
    (hbody : ∀ c, Prog.Makes IsQuiet (body c))
    {es : List (Event startCalls)} {out : PyExcept Unit}
    (h : Prog.Trace (Prog.forEach xs body) es (some out)) : Quiet es := by
  intro e he
  have hop := (Prog.Makes.forEach fun c _ => hbody c).of_trace h e he
  obtain ⟨o, r⟩ := e
  cases o with
  | testRunning => exact absurd rfl hop.1
  | sleep => exact absurd rfl hop.2
  | _ => exact ⟨rfl, rfl⟩

end quiet

section passes

variable {xs : List Component} {passes : List (Component × List (Event startCalls))}
  {out : PyExcept Unit} {slots : Component → Option ℕ}

/-- Where each part of a loop ends by what `Popen` raised in it, so does the loop. -/
theorem endsBySpawns_of_passes {body : Component → StartM Unit}
    (hbody : ∀ c slots es out, Prog.Trace (body c) es (some out) → beforeStop.Answers slots es →
      EndsBySpawns es out)
    (h : Prog.Passes body xs passes out)
    (hanswers : beforeStop.Answers slots (passes.flatMap Prod.snd)) :
    EndsBySpawns (passes.flatMap Prod.snd) out := by
  induction h generalizing slots with
  | done => exact .inr ⟨spawnFails_nil, rfl⟩
  | raised hx =>
    rw [List.flatMap_cons, List.flatMap_nil, List.append_nil] at hanswers ⊢
    exact hbody _ _ _ _ hx hanswers
  | next hx _ ih =>
    rw [List.flatMap_cons, Surroundings.answers_append] at hanswers
    rw [List.flatMap_cons]
    rcases hbody _ _ _ _ hx hanswers.1 with ⟨-, _, hout, -⟩ | ⟨hx, -⟩
    · cases hout
    · rcases ih hanswers.2 with ⟨hfails, hout⟩ | ⟨hfails, hout⟩
      · exact .inl ⟨spawnFails_append.mpr (.inr hfails), hout⟩
      · exact .inr ⟨fun hs => (spawnFails_append.mp hs).elim hx hfails, hout⟩

theorem checks_slots (h : Prog.Passes checkComponent xs passes out)
    (hanswers : beforeStop.Answers slots (passes.flatMap Prod.snd)) (c : Component) :
    beforeStop.after slots (passes.flatMap Prod.snd) c ≠ none ↔ slots c ≠ none := by
  induction h generalizing slots with
  | done => rfl
  | raised hx =>
    rw [List.flatMap_cons, List.flatMap_nil, List.append_nil] at hanswers ⊢
    exact checkComponent_slots hx hanswers c
  | next hx _ ih =>
    rw [List.flatMap_cons, Surroundings.answers_append] at hanswers
    rw [List.flatMap_cons, Surroundings.after_append, ih hanswers.2]
    exact checkComponent_slots hx hanswers.1 c

theorem checks_tries (h : Prog.Passes checkComponent xs passes (.ok ()))
    (hanswers : beforeStop.Answers slots (passes.flatMap Prod.snd)) :
    (∀ pass ∈ passes, FindsVacant pass.1 pass.2 → Attempts pass.1 pass.2) ↔
      ∀ c ∈ xs, slots c ≠ none := by
  generalize hout : Except.ok () = out at h
  induction h generalizing slots with
  | done => simp
  | raised => cases hout
  | next hx _ ih =>
    rw [List.flatMap_cons, Surroundings.answers_append] at hanswers
    rw [List.forall_mem_cons, List.forall_mem_cons, checkComponent_tries hx hanswers.1,
      ih hanswers.2 hout]
    simp only [checkComponent_slots hx hanswers.1]

/-- The checks of a pass are what its transcript is split into. -/
theorem checksOf_passes (h : Prog.Passes checkComponent xs passes out) :
    checksOf (passes.flatMap Prod.snd) = passes.map Prod.snd := by
  refine stretches_flatten (fun e he => by simp [he]) ?_
  rintro _ hes
  obtain ⟨pass, hpass, rfl⟩ := List.mem_map.mp hes
  obtain ⟨-, out', htrace⟩ := h.trace pass hpass
  obtain ⟨r, rest, heq, hrest⟩ := checkComponent_shape htrace
  exact ⟨_, rest, heq, rfl, fun e he => by simp [hrest e he]⟩

/-- A pass that returns supervises just where every component has been started once. -/
theorem supervises_iff (h : Prog.Passes checkComponent components passes (.ok ()))
    (hanswers : beforeStop.Answers slots (passes.flatMap Prod.snd))
    {round : List (Event startCalls)} (hround : checksOf round = passes.map Prod.snd) :
    Supervises round ↔ ∀ c ∈ components, slots c ≠ none := by
  have hchecks : ∀ pass ∈ passes, Checks pass.1 pass.2 := by
    intro pass hpass
    obtain ⟨-, out', htrace⟩ := h.trace pass hpass
    obtain ⟨r, rest, heq, -⟩ := checkComponent_shape htrace
    exact ⟨r, rest, heq⟩
  rw [← checks_tries h hanswers]
  constructor
  · intro hs pass hpass
    refine hs.tries pass.1 pass.2 ?_
    rw [hround]
    exact List.mem_map_of_mem hpass
  · intro htries
    refine ⟨fun c hc => ?_, fun c check hcheck hvacant => ?_⟩
    · rw [← h.map_fst] at hc
      obtain ⟨pass, hpass, rfl⟩ := List.mem_map.mp hc
      rw [hround]
      exact ⟨pass.2, List.mem_map_of_mem hpass, hchecks pass hpass⟩
    · rw [hround] at hcheck
      obtain ⟨pass, hpass, rfl⟩ := List.mem_map.mp hcheck
      -- the check that finds `c` vacant is the one of `c`
      obtain rfl : pass.1 = c := by
        obtain ⟨r, rest, heq⟩ := hchecks pass hpass
        rcases hvacant with ⟨rest', hv⟩ | ⟨p, code, rest', hv⟩
        · rw [heq] at hv
          exact StartCall.getProcess.inj (Event.mk.inj (List.cons.inj hv).1).1
        · rw [heq] at hv
          exact StartCall.getProcess.inj (Event.mk.inj (List.cons.inj hv).1).1
      exact htries pass hpass hvacant

theorem starts_others (slots : Component → Option ℕ) (h : Prog.Passes startProcess xs passes out)
    {c : Component} (hc : c ∉ xs) :
    beforeStop.after slots (passes.flatMap Prod.snd) c = slots c ∧
      ⟨.scriptExists c, false⟩ ∉ passes.flatMap Prod.snd := by
  induction h generalizing slots with
  | done => exact ⟨rfl, List.not_mem_nil⟩
  | raised hx =>
    rw [List.flatMap_cons, List.flatMap_nil, List.append_nil]
    exact startProcess_others slots hx (List.ne_of_not_mem_cons hc)
  | next hx _ ih =>
    obtain ⟨hslot, hfound⟩ := startProcess_others slots hx (List.ne_of_not_mem_cons hc)
    obtain ⟨hslot', hfound'⟩ := ih (beforeStop.after slots _) (List.not_mem_of_not_mem_cons hc)
    rw [List.flatMap_cons, Surroundings.after_append, List.mem_append, not_or]
    exact ⟨hslot'.trans hslot, hfound, hfound'⟩

/-- A component has a process after the first starts unless its script was missing. -/
theorem starts_slots (h : Prog.Passes startProcess xs passes (.ok ())) (hnodup : xs.Nodup)
    (hempty : ∀ c ∈ xs, slots c = none) (c : Component) (hc : c ∈ xs) :
    beforeStop.after slots (passes.flatMap Prod.snd) c ≠ none ↔
      ⟨.scriptExists c, false⟩ ∉ passes.flatMap Prod.snd := by
  generalize hout : Except.ok () = out at h
  induction h generalizing slots with
  | done => cases hc
  | raised => cases hout
  | @next x xs es passes out hx hrest ih =>
    obtain ⟨hxs, hnodup⟩ := List.nodup_cons.mp hnodup
    rw [List.flatMap_cons, Surroundings.after_append, List.mem_append, not_or]
    rcases List.mem_cons.mp hc with rfl | hc
    · obtain ⟨hslot, hfound⟩ := starts_others (beforeStop.after slots es) hrest hxs
      rw [hslot, startProcess_own hx (hempty c List.mem_cons_self)]
      exact (and_iff_left hfound).symm
    · have hothers : ∀ c' ∈ xs, beforeStop.after slots es c' = slots c' ∧
          ⟨.scriptExists c', false⟩ ∉ es := by
        intro c' hc'
        refine startProcess_others slots hx ?_
        rintro rfl
        exact hxs hc'
      have hempty' : ∀ c' ∈ xs, beforeStop.after slots es c' = none := fun c' hc' =>
        (hothers c' hc').1.trans (hempty c' (List.mem_cons_of_mem _ hc'))
      rw [ih hnodup hempty' hc hout]
      exact (and_iff_right (hothers c hc).2).symm

end passes

section runs

variable {rounds : ℕ} {es : List (Event startCalls)} {out : PyExcept Unit}
  {slots : Component → Option ℕ}

theorem watch_head (h : Prog.Trace (watch rounds) es (some out))
    (hanswers : beforeStop.Answers slots es) :
    es = [] ∨ ∃ rest, es = ⟨.testRunning, true⟩ :: ⟨.sleep, ()⟩ :: rest := by
  cases rounds with
  | zero =>
    obtain ⟨rfl, -⟩ := Prog.trace_throw.mp h
    exact .inl rfl
  | succ rounds =>
    obtain ⟨running, es₁, rfl, h₁⟩ := Prog.trace_call.mp h
    obtain rfl : running = true := hanswers.1
    obtain ⟨_, es₂, rfl, -⟩ := Prog.trace_call.mp h₁
    exact .inr ⟨es₂, rfl⟩

/-- The transcript of a round, up to the next round, is its pass apart from tests of `running`. -/
theorem roundsOf_round {pass : List (Event startCalls)} (hpass : Quiet pass)
    (h : Prog.Trace (watch rounds) es (some out)) (hanswers : beforeStop.Answers slots es) :
    ∃ round, checksOf round = checksOf pass ∧
      roundsOf (⟨.testRunning, true⟩ :: ⟨.sleep, ()⟩ :: ⟨.testRunning, true⟩ :: (pass ++ es)) =
        round :: roundsOf es := by
  refine ⟨⟨.sleep, ()⟩ :: ⟨.testRunning, true⟩ :: (pass ++ es.takeWhile (!isSleep ·)), ?_, ?_⟩
  · have htail : checksOf (pass ++ es.takeWhile (!isSleep ·)) = checksOf pass := by
      rcases watch_head h hanswers with rfl | ⟨rest, rfl⟩
      · rw [List.takeWhile_nil, List.append_nil]
      · rw [checksOf, stretches_append (by simp [isSleep, isTest])]
        simp [checksOf, stretches, isCheck, isSleep]
    exact htail
  · have htake : (pass ++ es).takeWhile (!isSleep ·) = pass ++ es.takeWhile (!isSleep ·) :=
      List.takeWhile_append_of_pos fun e he => by simp [(hpass e he).2]
    have hrest : roundsOf (pass ++ es) = roundsOf es :=
      stretches_append_of_none fun e he => (hpass e he).2
    show (⟨.sleep, ()⟩ :: ⟨.testRunning, true⟩ :: (pass ++ es).takeWhile (!isSleep ·)) ::
      roundsOf (pass ++ es) = _
    rw [htake, hrest]

/-- The watchdog loop, from any filling of the slots. -/
theorem watch_alwaysTries (h : Prog.Trace (watch rounds) es (some out))
    (hanswers : beforeStop.Answers slots es) :
    AlwaysTries es out ↔ ¬ SpawnFails es ∧ (0 < rounds → ∀ c ∈ components, slots c ≠ none) := by
  induction rounds generalizing es slots with
  | zero =>
    obtain ⟨rfl, rfl⟩ := Prog.trace_throw.mp h
    simp [AlwaysTries, roundsOf, stretches]
  | succ rounds ih =>
    obtain ⟨running, es₁, rfl, h₁⟩ := Prog.trace_call.mp h
    obtain rfl : running = true := hanswers.1
    obtain ⟨_, es₂, rfl, h₂⟩ := Prog.trace_call.mp h₁
    obtain ⟨running, es₃, rfl, h₃⟩ := Prog.trace_call.mp h₂
    obtain rfl : running = true := hanswers.2.2.1
    have hanswers₃ : beforeStop.Answers slots es₃ := hanswers.2.2.2
    have hfails : SpawnFails (⟨.testRunning, true⟩ :: ⟨.sleep, ()⟩ :: ⟨.testRunning, true⟩ :: es₃) ↔
        SpawnFails es₃ := by simp [SpawnFails]
    rw [hfails]
    change Prog.Trace (checkComponents.bind fun _ => watch rounds) es₃ (some out) at h₃
    rcases Prog.trace_bind.mp h₃ with ⟨e, rfl, hpass⟩ | ⟨_, es₄, es₅, rfl, hpass, hwatch⟩
    · -- the pass raised, and what it raised was no cut-off
      obtain ⟨passes, hpasses, rfl⟩ := Prog.passes_of_trace hpass
      rcases endsBySpawns_of_passes (fun _ _ _ _ => checkComponent_ends) hpasses hanswers₃ with
        ⟨hspawn, e', he, hne⟩ | ⟨-, hout⟩
      · cases he
        exact iff_of_false (fun hs => hne (Except.error.inj hs.1)) fun hs => hs.1 hspawn
      · cases hout
    · have hquiet := quiet_of_makes checkComponent_makes hpass
      obtain ⟨passes, hpasses, rfl⟩ := Prog.passes_of_trace hpass
      rw [Surroundings.answers_append] at hanswers₃
      have hspawn : ¬ SpawnFails (passes.flatMap Prod.snd) := by
        rcases endsBySpawns_of_passes (fun _ _ _ _ => checkComponent_ends) hpasses hanswers₃.1 with
          ⟨-, e, hout, -⟩ | ⟨hspawn, -⟩
        · cases hout
        · exact hspawn
      obtain ⟨round, hround, hrounds⟩ := roundsOf_round hquiet hwatch hanswers₃.2
      have hsupervises := supervises_iff hpasses hanswers₃.1 (hround.trans (checksOf_passes hpasses))
      have hrest := ih hwatch hanswers₃.2
      simp only [checks_slots hpasses hanswers₃.1] at hrest
      rw [spawnFails_append, or_iff_right hspawn]
      unfold AlwaysTries at hrest ⊢
      rw [hrounds, List.forall_mem_cons, hsupervises, and_left_comm, hrest]
      constructor
      · rintro ⟨hslots, hspawn, -⟩
        exact ⟨hspawn, fun _ => hslots⟩
      · rintro ⟨hspawn, hslots⟩
        exact ⟨hslots rounds.succ_pos, hspawn, fun _ => hslots rounds.succ_pos⟩

/-- What `main` does before the watchdog loop is what it does before the first test. -/
theorem startEvents_append {start : List (Event startCalls)} (hstart : Quiet start)
    (h : Prog.Trace (watch rounds) es (some out)) (hanswers : beforeStop.Answers slots es) :
    startEvents (start ++ es) = start := by
  have hhead : ∀ e ∈ es.head?, (!isTest e) = false := by
    rcases watch_head h hanswers with rfl | ⟨rest, rfl⟩
    · simp
    · simp [isTest]
  rw [startEvents, takeWhile_append_of_head hhead, List.takeWhile_eq_self_iff]
  exact fun e he => by simp [(hstart e he).1]

/-- Whether the watchdog always tries is decided by what `Popen` does, and by which scripts are
there when `main` starts. -/
theorem alwaysTries_iff (h : Prog.Trace (main rounds) es (some out))
    (hanswers : beforeStop.Answers (fun _ => none) es) :
    AlwaysTries es out ↔ ¬ SpawnFails es ∧
      (0 < rounds → ∀ c ∈ components, ⟨.scriptExists c, false⟩ ∉ startEvents es) := by
  rcases Prog.trace_bind.mp h with ⟨e, rfl, hstart⟩ | ⟨_, es₁, es₂, rfl, hstart, hwatch⟩
  · obtain ⟨passes, hpasses, rfl⟩ := Prog.passes_of_trace hstart
    rcases endsBySpawns_of_passes (fun _ _ _ _ => startProcess_ends) hpasses hanswers with
      ⟨hspawn, e', he, hne⟩ | ⟨-, hout⟩
    · cases he
      exact iff_of_false (fun hs => hne (Except.error.inj hs.1)) fun hs => hs.1 hspawn
    · cases hout
  · have hquiet := quiet_of_makes startProcess_makes hstart
    obtain ⟨passes, hpasses, rfl⟩ := Prog.passes_of_trace hstart
    rw [Surroundings.answers_append] at hanswers
    have hspawn : ¬ SpawnFails (passes.flatMap Prod.snd) := by
      rcases endsBySpawns_of_passes (fun _ _ _ _ => startProcess_ends) hpasses hanswers.1 with
        ⟨-, e, hout, -⟩ | ⟨hspawn, -⟩
      · cases hout
      · exact hspawn
    have hrounds : roundsOf (passes.flatMap Prod.snd ++ es₂) = roundsOf es₂ :=
      stretches_append_of_none fun e he => (hquiet e he).2
    have hslots : (∀ c ∈ components,
        beforeStop.after (fun _ => none) (passes.flatMap Prod.snd) c ≠ none) ↔
          ∀ c ∈ components, ⟨.scriptExists c, false⟩ ∉ passes.flatMap Prod.snd :=
      forall₂_congr fun c hc => starts_slots hpasses (by decide) (fun _ _ => rfl) c hc
    have hwatches := watch_alwaysTries hwatch hanswers.2
    rw [hslots] at hwatches
    rw [startEvents_append hquiet hwatch hanswers.2, spawnFails_append, or_iff_right hspawn,
      ← hwatches, AlwaysTries, AlwaysTries, hrounds]

end runs

/-- Both components start. -/
def bothStart : List (Event startCalls) :=
  [⟨.scriptExists .telemetryPoller, true⟩, ⟨.popen .telemetryPoller, .ok 100⟩,
    ⟨.setProcess .telemetryPoller 100, ()⟩, ⟨.scriptExists .healthReporter, true⟩,
    ⟨.popen .healthReporter, .ok 101⟩, ⟨.setProcess .healthReporter 101, ()⟩]

/-- The poller exits while its script is missing, which is back in the next round. -/
def scriptComesBack : List (Event startCalls) :=
  bothStart ++
    [⟨.testRunning, true⟩, ⟨.sleep, ()⟩, ⟨.testRunning, true⟩,
      ⟨.getProcess .telemetryPoller, some 100⟩, ⟨.poll 100, some 1⟩,
      ⟨.bumpRestartCount .telemetryPoller, ()⟩, ⟨.scriptExists .telemetryPoller, false⟩,
      ⟨.getProcess .healthReporter, some 101⟩, ⟨.poll 101, none⟩,
      ⟨.testRunning, true⟩, ⟨.sleep, ()⟩, ⟨.testRunning, true⟩,
      ⟨.getProcess .telemetryPoller, some 100⟩, ⟨.poll 100, some 1⟩,
      ⟨.bumpRestartCount .telemetryPoller, ()⟩, ⟨.scriptExists .telemetryPoller, true⟩,
      ⟨.popen .telemetryPoller, .ok 102⟩, ⟨.setProcess .telemetryPoller 102, ()⟩,
      ⟨.getProcess .healthReporter, some 101⟩, ⟨.poll 101, none⟩]

theorem scriptComesBack_trace :
    Prog.Trace (main 2) scriptComesBack (some (.error cutOff)) := by
  repeat' first | exact .raised _ | refine .step ?_

theorem scriptComesBack_tries : AlwaysTries scriptComesBack (.error cutOff) := by
  have hanswers : beforeStop.Answers (fun _ => none) scriptComesBack := by
    simp [scriptComesBack, bothStart, Surroundings.Answers, beforeStop]
  refine (alwaysTries_iff scriptComesBack_trace hanswers).mpr ⟨?_, fun _ c _ => ?_⟩
  · simp [SpawnFails, scriptComesBack, bothStart]
  · cases c <;> simp [startEvents, scriptComesBack, bothStart, isTest, List.takeWhile]

/-- The poller exits, and the machine has no resources for a new process. -/
def spawnRefused : List (Event startCalls) :=
  bothStart ++
    [⟨.testRunning, true⟩, ⟨.sleep, ()⟩, ⟨.testRunning, true⟩,
      ⟨.getProcess .telemetryPoller, some 100⟩, ⟨.poll 100, some 1⟩,
      ⟨.bumpRestartCount .telemetryPoller, ()⟩, ⟨.scriptExists .telemetryPoller, true⟩,
      ⟨.popen .telemetryPoller, .error ⟨.other, "[Errno 12] Cannot allocate memory"⟩⟩]

/-- One failed start ends the supervision of both components. -/
theorem spawnRefused_ends_watch :
    Prog.Trace (main 1) spawnRefused
        (some (.error ⟨.other, "[Errno 12] Cannot allocate memory"⟩)) ∧
      beforeStop.Answers (fun _ => none) spawnRefused ∧
      ¬ AlwaysTries spawnRefused (.error ⟨.other, "[Errno 12] Cannot allocate memory"⟩) := by
  refine ⟨?_, ?_, fun h => ?_⟩
  · repeat' first | exact .raised _ | refine .step ?_
  · simp [spawnRefused, bothStart, Surroundings.Answers, beforeStop, cutOff]
  · exact absurd h.1 (by simp [cutOff])

end SenseGateway.Supervisor

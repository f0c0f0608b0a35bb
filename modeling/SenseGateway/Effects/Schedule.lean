import SenseGateway.Effects.Threads

namespace SenseGateway.Effects

variable {I : Interface} {ε T W : Type} [DecidableEq T]

/-- Whether the program of a thread has returned. -/
def Config.returned (c : Config I ε T W) (t : T) : Bool :=
  match c.running t with
  | some (.pure _) => true
  | _ => false

omit [DecidableEq T] in
theorem Config.running_of_returned {c : Config I ε T W} {t : T} (h : c.returned t = true) :
    c.running t = some (.pure ()) := by
  unfold Config.returned at h
  split at h
  · assumption
  · cases h

/-- An environment of a machine that can be run. A call that has to wait is not answered. -/
structure Driver (M : Machine I ε T W) where
  answer : T → W → (o : I.Op) → Option (I.Answer o × W)
  sound : ∀ t w o r w', answer t w o = some (r, w') → M.serves t w o r w'

/-- A part of a run that is computed. -/
structure Move (M : Machine I ε T W) where
  make : Config I ε T W → Option (Config I ε T W)
  sound : ∀ c c', make c = some c' → M.Reach c c'

variable {M : Machine I ε T W}

namespace Driver

/-- The same environment where `g` lets the call through. -/
def guard (D : Driver M) {G : T → W → I.Op → Prop} (g : T → W → I.Op → Bool)
    (hg : ∀ t w o, g t w o = true → G t w o) : Driver (M.restrict G) where
  answer t w o := if g t w o then D.answer t w o else none
  sound t w o r w' h := by
    simp only [Option.ite_none_right_eq_some] at h
    exact ⟨D.sound t w o r w' h.2, hg t w o h.1⟩

/-- One step of a thread. -/
def advance (D : Driver M) (t : T) (c : Config I ε T W) : Option (Config I ε T W) :=
  match c.running t with
  | none => none
  | some (.pure _) => some ⟨c.world, Function.update c.running t none⟩
  | some (.throw _) => some ⟨c.world, Function.update c.running t none⟩
  | some (.call o k) =>
    (D.answer t c.world o).map fun r => ⟨r.2, Function.update c.running t (some (k r.1))⟩

theorem advance_step (D : Driver M) {t : T} {c c' : Config I ε T W} (h : D.advance t c = some c') :
    M.Step c c' := by
  unfold advance at h
  split at h
  · cases h
  · cases h
    exact .returned ‹_›
  · cases h
    exact .raised ‹_›
  · obtain ⟨⟨r, w⟩, hr, rfl⟩ := Option.map_eq_some_iff.mp h
    exact .call ‹_› (D.sound _ _ _ _ _ hr)

def advanceBy (D : Driver M) (t : T) : ℕ → Config I ε T W → Option (Config I ε T W)
  | 0, c => some c
  | n + 1, c => (D.advance t c).bind (D.advanceBy t n)

theorem advanceBy_reach (D : Driver M) {t : T} {n : ℕ} {c c' : Config I ε T W}
    (h : D.advanceBy t n c = some c') : M.Reach c c' := by
  induction n generalizing c with
  | zero =>
    obtain rfl : c = c' := by simpa [advanceBy] using h
    exact .refl
  | succ n ih =>
    obtain ⟨d, hd, h⟩ := Option.bind_eq_some_iff.mp h
    exact .head (D.advance_step hd) (ih h)

end Driver

namespace Move

/-- An idle thread is given a program. -/
def start (t : T) (p : Prog I ε Unit) (h : M.entry t p) : Move M where
  make c := if (c.running t).isNone then some ⟨c.world, Function.update c.running t (some p)⟩ else none
  sound c c' hc := by
    simp only [Option.isNone_iff_eq_none, Option.ite_none_right_eq_some, Option.some.injEq] at hc
    obtain ⟨hrun, rfl⟩ := hc
    exact .single (.start hrun h)

/-- A thread takes `n` steps. -/
def steps (D : Driver M) (t : T) (n : ℕ) : Move M := ⟨D.advanceBy t n, fun _ _ => D.advanceBy_reach⟩

/-- The world moves by itself. -/
def world (f : W → Option W)
    (h : ∀ running w w', f w = some w' → M.background running w w') : Move M where
  make c := (f c.world).map fun w => ⟨w, c.running⟩
  sound c c' hc := by
    obtain ⟨w, hw, rfl⟩ := Option.map_eq_some_iff.mp hc
    exact .single (.background (h _ _ _ hw))

/-- The moves one after the other. -/
def schedule : List (Move M) → Config I ε T W → Option (Config I ε T W)
  | [], c => some c
  | m :: ms, c => (m.make c).bind (schedule ms)

theorem schedule_reach {ms : List (Move M)} {c c' : Config I ε T W} (h : schedule ms c = some c') :
    M.Reach c c' := by
  induction ms generalizing c with
  | nil =>
    obtain rfl : c = c' := by simpa [schedule] using h
    exact .refl
  | cons m ms ih =>
    obtain ⟨d, hd, h⟩ := Option.bind_eq_some_iff.mp h
    exact (m.sound c d hd).trans (ih h)

/-- A check that the end of a schedule passes holds of a configuration the machine reaches. -/
theorem reach_of_schedule (c₀ : Config I ε T W) (ms : List (Move M))
    (check : Config I ε T W → Prop) [DecidablePred check]
    (h : (schedule ms c₀).any (fun c => decide (check c)) = true) :
    ∃ c, M.Reach c₀ c ∧ check c := by
  cases hc : schedule ms c₀ with
  | none => simp [hc] at h
  | some c => exact ⟨c, schedule_reach hc, by simpa [hc] using h⟩

end Move

end SenseGateway.Effects

import SenseGateway.Effects.Prog

namespace SenseGateway.Effects

variable {I : Interface} {ε α β W : Type} {serves : W → (o : I.Op) → I.Answer o → W → Prop}

namespace Prog

/-- A run of a program to its end in a world that nothing else moves. -/
inductive Runs (serves : W → (o : I.Op) → I.Answer o → W → Prop) :
    Prog I ε α → W → Except ε α → W → Prop
  | pure (a w) : Runs serves (pure a) w (.ok a) w
  | throw (e w) : Runs serves (throw e) w (.error e) w
  | call {o k r w w' out w''} : serves w o r w' → Runs serves (k r) w' out w'' →
      Runs serves (call o k) w out w''

/-- Every run from `w` ends in `Q`. -/
def wlp (serves : W → (o : I.Op) → I.Answer o → W → Prop) :
    Prog I ε α → (Except ε α → W → Prop) → W → Prop
  | pure a, Q, w => Q (.ok a) w
  | throw e, Q, w => Q (.error e) w
  | call o k, Q, w => ∀ r w', serves w o r w' → (k r).wlp serves Q w'

theorem Runs.wlp {p : Prog I ε α} {w w' : W} {out : Except ε α} {Q : Except ε α → W → Prop}
    (h : Runs serves p w out w') (hp : p.wlp serves Q w) : Q out w' := by
  induction h with
  | pure a w => exact hp
  | throw e w => exact hp
  | call hs _ ih => exact ih (hp _ _ hs)

/-- The run in which `answer` replies to every call. -/
theorem runs_eval {answer : (o : I.Op) → W → I.Answer o × W}
    (hanswer : ∀ o w, serves w o (answer o w).1 (answer o w).2) (p : Prog I ε α) (w : W) :
    Runs serves p w (p.eval answer w).1 (p.eval answer w).2 := by
  induction p generalizing w with
  | pure a => exact .pure a w
  | throw e => exact .throw e w
  | call o k ih => exact .call (hanswer o w) (ih _ _)

variable {w : W} {Q Q' : Except ε α → W → Prop}

theorem wlp_pure {a : α} : (pure a : Prog I ε α).wlp serves Q w ↔ Q (.ok a) w := Iff.rfl

theorem wlp_mono {p : Prog I ε α} (hQ : ∀ out w, Q out w → Q' out w) (h : p.wlp serves Q w) :
    p.wlp serves Q' w := by
  induction p generalizing w with
  | pure a => exact hQ _ _ h
  | throw e => exact hQ _ _ h
  | call o k ih => exact fun r w' hs => ih r (h r w' hs)

theorem wlp_bind {p : Prog I ε β} {f : β → Prog I ε α}
    (h : p.wlp serves (fun out w => match out with
      | .ok b => (f b).wlp serves Q w
      | .error e => Q (.error e) w) w) : (p.bind f).wlp serves Q w := by
  induction p generalizing w with
  | pure b => exact h
  | throw e => exact h
  | call o k ih => exact fun r w' hs => ih r (h r w' hs)

theorem wlp_handle {p : Prog I ε α} {h : ε → Prog I ε α}
    (hp : p.wlp serves (fun out w => match out with
      | .ok a => Q (.ok a) w
      | .error e => (h e).wlp serves Q w) w) : (p.handle h).wlp serves Q w := by
  induction p generalizing w with
  | pure a => exact hp
  | throw e => exact hp
  | call o k ih => exact fun r w' hs => ih r (hp r w' hs)

/-- A `finally` part that never raises comes after the outcome and does not change it. -/
theorem wlp_ensure {p : Prog I ε α} {f : Prog I ε Unit}
    (h : p.wlp serves (fun out w => f.wlp serves (fun out' w' => out' = .ok () ∧ Q out w') w) w) :
    (p.ensure f).wlp serves Q w := by
  induction p generalizing w with
  | pure a =>
    refine wlp_bind (wlp_mono ?_ h)
    rintro out w' ⟨rfl, hQ⟩
    exact hQ
  | throw e =>
    refine wlp_bind (wlp_mono ?_ h)
    rintro out w' ⟨rfl, hQ⟩
    exact hQ
  | call o k ih => exact fun r w' hs => ih r (h r w' hs)

theorem wlp_ofExcept {x : Except ε α} : (ofExcept x : Prog I ε α).wlp serves Q w ↔ Q x w := by
  cases x <;> rfl

/-- A protocol whose local state follows the world describes the end of every run. -/
theorem wlp_of_wp {L : Type} {P : Protocol I L} {p : Prog I ε α} {R : α → L → Prop}
    {F : ε → L → Prop} {S : W → L → Prop} {l : L} (h : p.wp P R F l)
    (hstep : ∀ w l o r w', S w l → serves w o r w' → S w' (P.next l o r)) (hw : S w l) :
    p.wlp serves (fun out w' => ∃ l', S w' l' ∧ match out with
      | .ok a => R a l'
      | .error e => F e l') w := by
  induction p generalizing w l with
  | pure a => exact ⟨l, hw, h⟩
  | throw e => exact ⟨l, hw, h⟩
  | call o k ih => exact fun r w' hs => ih r (h.2 r) (hstep w l o r w' hw hs)

/-- What holds of a program by its own logic holds at the end of its runs, and what its calls
preserve is still so. -/
theorem wlp_of_only {ok : I.Op → Prop} {p : Prog I ε α} {R : α → Prop} {F : ε → Prop} {J : W → Prop}
    (h : p.wp (.only ok) (fun a _ => R a) (fun e _ => F e) ())
    (hok : ∀ w o r w', ok o → J w → serves w o r w' → J w') (hw : J w) :
    p.wlp serves (fun out w' => J w' ∧ match out with
      | .ok a => R a
      | .error e => F e) w := by
  induction p generalizing w with
  | pure a => exact ⟨hw, h⟩
  | throw e => exact ⟨hw, h⟩
  | call o k ih => exact fun r w' hs => ih r (h.2 r) (hok w o r w' h.1 hw hs)

/-- A loop whose body never raises keeps an invariant over what is left to visit. -/
theorem wlp_forEach {xs : List β} {body : β → Prog I ε Unit} {J : List β → W → Prop}
    (hbody : ∀ x xs w, J (x :: xs) w → (body x).wlp serves (fun out w => out = .ok () ∧ J xs w) w)
    (h : J xs w) : (forEach xs body).wlp serves (fun out w => out = .ok () ∧ J [] w) w := by
  induction xs generalizing w with
  | nil => exact ⟨rfl, h⟩
  | cons x xs ih =>
    refine wlp_bind (wlp_mono ?_ (hbody x xs w h))
    rintro out w' ⟨rfl, hJ⟩
    exact ih hJ

end Prog

end SenseGateway.Effects

import SenseGateway.Effects.Schedule

namespace SenseGateway.Effects

open Relation

variable {I : Interface} {ε T W L : Type} [DecidableEq T] {M : Machine I ε T W} {ended : W → W}

namespace Machine

/-- A step of the machine, or its process ends wherever its threads are: what is left of their
programs is gone, and what `ended` leaves of the world is found by the next process. -/
inductive Lapse (M : Machine I ε T W) (ended : W → W) : Config I ε T W → Config I ε T W → Prop
  | step {c c'} : M.Step c c' → Lapse M ended c c'
  | killed {c} : Lapse M ended c ⟨ended c.world, fun _ => none⟩

/-- The runs of one process after the other. -/
abbrev Outlives (M : Machine I ε T W) (ended : W → W) := ReflTransGen (M.Lapse ended)

theorem Reach.outlives {c c' : Config I ε T W} (h : M.Reach c c') : M.Outlives ended c c' :=
  ReflTransGen.mono (fun _ _ => .step) _ _ h

end Machine

namespace Discipline

variable {D : Discipline M L}

theorem lapse_holds
    (hended : ∀ w ls, D.inv w ls → ∃ ls', D.inv (ended w) ls' ∧ ∀ t, D.idle t (ls' t))
    {c c' : Config I ε T W} {ls : T → L} (hs : M.Lapse ended c c') (h : D.Holds c ls) :
    ∃ ls', D.Holds c' ls' := by
  cases hs with
  | step hs => exact step_holds hs h
  | killed => exact hended _ ls h.1

/-- An invariant that the end of the process leaves true, with threads that have not begun, holds
in every configuration that one process after the other reaches. -/
theorem outlives_holds
    (hended : ∀ w ls, D.inv w ls → ∃ ls', D.inv (ended w) ls' ∧ ∀ t, D.idle t (ls' t))
    {c c' : Config I ε T W} {ls : T → L} (hr : M.Outlives ended c c') (h : D.Holds c ls) :
    ∃ ls', D.Holds c' ls' := by
  induction hr with
  | refl => exact ⟨ls, h⟩
  | tail _ hs ih =>
    obtain ⟨ls', h'⟩ := ih
    exact lapse_holds hended hs h'

end Discipline

/-- Two schedules with the end of the process between them. -/
theorem Move.outlives_of_schedules (ended : W → W) (c₀ : Config I ε T W) (ms ms' : List (Move M))
    (check : Config I ε T W → Prop) [DecidablePred check]
    (h : ((schedule ms c₀).bind fun d => schedule ms' ⟨ended d.world, fun _ => none⟩).any
      (fun c => decide (check c)) = true) :
    ∃ c, M.Outlives ended c₀ c ∧ check c := by
  obtain ⟨c, hc, hcheck⟩ := (Option.any_eq_true _ _).mp h
  obtain ⟨d, hd, hc⟩ := Option.bind_eq_some_iff.mp hc
  have hfirst : M.Outlives ended c₀ d := (schedule_reach hd).outlives
  have hsecond : M.Outlives ended ⟨ended d.world, fun _ => none⟩ c := (schedule_reach hc).outlives
  exact ⟨c, (hfirst.tail .killed).trans hsecond, of_decide_eq_true hcheck⟩

end SenseGateway.Effects

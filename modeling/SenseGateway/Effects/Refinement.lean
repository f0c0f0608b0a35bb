import SenseGateway.Effects.Threads

namespace SenseGateway.Effects

variable {I : Interface} {ε T W V L : Type} [DecidableEq T]

/-- A machine that can do more has all the runs of one that can do less. -/
theorem Machine.reach_mono {M N : Machine I ε T W} (hentry : ∀ t p, M.entry t p → N.entry t p)
    (hserves : ∀ t w o r w', M.serves t w o r w' → N.serves t w o r w')
    (hbackground : ∀ running w w', M.background running w w' → N.background running w w')
    {c c' : Config I ε T W} (hr : M.Reach c c') : N.Reach c c' := by
  induction hr with
  | refl => exact .refl
  | tail _ hs ih =>
    refine ih.tail ?_
    cases hs with
    | start hrun hp => exact .start hrun (hentry _ _ hp)
    | call hrun hs => exact .call hrun (hserves _ _ _ _ _ hs)
    | returned hrun => exact .returned hrun
    | raised hrun => exact .raised hrun
    | background hb => exact .background (hbackground _ _ _ hb)

/-- `M` runs the programs of `N` in a world with more detail: what `M` does in `w`, `N` can do in a
`v` with `rel w v`, as long as the threads follow the protocol that `D` has for them. -/
structure Refines (M : Machine I ε T W) {N : Machine I ε T V} (D : Discipline N L) where
  rel : W → V → Prop
  entry : ∀ t p, M.entry t p → N.entry t p
  serves : ∀ t w v o r w' ls, rel w v → D.inv v ls → (D.protocol t).allowed (ls t) o →
    M.serves t w o r w' → ∃ v', N.serves t v o r v' ∧ rel w' v'
  background : ∀ running w v w' ls, rel w v → D.inv v ls → M.background running w w' →
    ∃ v', N.background running v v' ∧ rel w' v'

namespace Refines

variable {M : Machine I ε T W} {N : Machine I ε T V} {D : Discipline N L}

/-- One step of the one machine is one step of the other. -/
theorem step (R : Refines M D) {c c' : Config I ε T W} {v : V} {ls : T → L} (hs : M.Step c c')
    (hrel : R.rel c.world v) (h : D.Holds ⟨v, c.running⟩ ls) :
    ∃ v', R.rel c'.world v' ∧ N.Step ⟨v, c.running⟩ ⟨v', c'.running⟩ := by
  cases hs with
  | start hrun hentry => exact ⟨v, hrel, .start (c := ⟨v, c.running⟩) hrun (R.entry _ _ hentry)⟩
  | call hrun hserve =>
    obtain ⟨v', hs', hrel'⟩ := R.serves _ _ _ _ _ _ ls hrel h.1 (h.allowed hrun) hserve
    exact ⟨v', hrel', .call (c := ⟨v, c.running⟩) hrun hs'⟩
  | returned hrun => exact ⟨v, hrel, .returned (c := ⟨v, c.running⟩) hrun⟩
  | raised hrun => exact ⟨v, hrel, .raised (c := ⟨v, c.running⟩) hrun⟩
  | background hb =>
    obtain ⟨v', hb', hrel'⟩ := R.background _ _ _ _ ls hrel h.1 hb
    exact ⟨v', hrel', .background (c := ⟨v, c.running⟩) hb'⟩

/-- Every run of the one machine is a run of the other, in which the invariant holds. -/
theorem reach (R : Refines M D) {c c' : Config I ε T W} {v : V} {ls : T → L} (hr : M.Reach c c')
    (hrel : R.rel c.world v) (h : D.Holds ⟨v, c.running⟩ ls) :
    ∃ v' ls', R.rel c'.world v' ∧ N.Reach ⟨v, c.running⟩ ⟨v', c'.running⟩ ∧
      D.Holds ⟨v', c'.running⟩ ls' := by
  induction hr with
  | refl => exact ⟨v, ls, hrel, .refl, h⟩
  | tail _ hs ih =>
    obtain ⟨v₁, ls₁, hrel₁, hr₁, h₁⟩ := ih
    obtain ⟨v₂, hrel₂, hs₂⟩ := R.step hs hrel₁ h₁
    obtain ⟨ls₂, h₂⟩ := Discipline.step_holds hs₂ h₁
    exact ⟨v₂, ls₂, hrel₂, hr₁.tail hs₂, h₂⟩

end Refines

end SenseGateway.Effects

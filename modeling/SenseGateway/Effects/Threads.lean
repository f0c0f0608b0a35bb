import Mathlib.Logic.Function.Basic
import Mathlib.Logic.Relation
import SenseGateway.Effects.Prog

namespace SenseGateway.Effects

open Relation

/-- Threads that share a world: how the world serves each call, what happens in it by itself
whatever is left of the threads' programs, and the programs each thread may be asked to run, one
after the other. -/
structure Machine (I : Interface) (ε T W : Type) where
  serves : T → W → (o : I.Op) → I.Answer o → W → Prop
  background : (T → Option (Prog I ε Unit)) → W → W → Prop
  entry : T → Prog I ε Unit → Prop

/-- The world and what is left of the program each thread runs. -/
structure Config (I : Interface) (ε T W : Type) where
  world : W
  running : T → Option (Prog I ε Unit)

variable {I : Interface} {ε T W L : Type} [DecidableEq T]

namespace Machine

/-- One step of one thread or of the background, in any order. -/
inductive Step (M : Machine I ε T W) : Config I ε T W → Config I ε T W → Prop
  | start {c t p} : c.running t = none → M.entry t p →
      Step M c ⟨c.world, Function.update c.running t (some p)⟩
  | call {c t o k r w} : c.running t = some (.call o k) → M.serves t c.world o r w →
      Step M c ⟨w, Function.update c.running t (some (k r))⟩
  | returned {c t a} : c.running t = some (.pure a) →
      Step M c ⟨c.world, Function.update c.running t none⟩
  | raised {c t e} : c.running t = some (.throw e) →
      Step M c ⟨c.world, Function.update c.running t none⟩
  | background {c w} : M.background c.running c.world w → Step M c ⟨w, c.running⟩

abbrev Reach (M : Machine I ε T W) := ReflTransGen M.Step

/-- The same machine where a call is only served while `G` holds. -/
def restrict (M : Machine I ε T W) (G : T → W → I.Op → Prop) : Machine I ε T W :=
  { M with serves := fun t w o r w' => M.serves t w o r w' ∧ G t w o }

/-- The same machine where the background only moves while `G` holds. -/
def restrictBackground (M : Machine I ε T W)
    (G : (T → Option (Prog I ε Unit)) → W → W → Prop) : Machine I ε T W :=
  { M with background := fun running w w' => M.background running w w' ∧ G running w w' }

end Machine

/-- An invariant of a machine kept by a protocol for each thread: `inv` ties the world to the
local states, and `idle` holds of a thread's local state between two programs. -/
structure Discipline (M : Machine I ε T W) (L : Type) where
  protocol : T → Protocol I L
  idle : T → L → Prop
  inv : W → (T → L) → Prop
  entry_wp : ∀ t p l, M.entry t p → idle t l →
    p.wp (protocol t) (fun _ => idle t) (fun _ => idle t) l
  serves_inv : ∀ t w o r w' ls, inv w ls → M.serves t w o r w' →
    (protocol t).allowed (ls t) o → inv w' (Function.update ls t ((protocol t).next (ls t) o r))
  background_inv : ∀ running w w' ls, inv w ls → M.background running w w' → inv w' ls

namespace Discipline

variable {M : Machine I ε T W} (D : Discipline M L)

/-- What a thread may still do in the local state `l`. -/
def ThreadHolds (t : T) (p : Option (Prog I ε Unit)) (l : L) : Prop :=
  match p with
  | none => D.idle t l
  | some p => p.wp (D.protocol t) (fun _ => D.idle t) (fun _ => D.idle t) l

def Holds (c : Config I ε T W) (ls : T → L) : Prop :=
  D.inv c.world ls ∧ ∀ t, D.ThreadHolds t (c.running t) (ls t)

variable {D}

/-- One thread moves: the others keep their programs and their local states. -/
theorem holds_update {c : Config I ε T W} {ls : T → L} {t : T} {w : W} {l : L}
    {p : Option (Prog I ε Unit)} (hc : ∀ u, D.ThreadHolds u (c.running u) (ls u))
    (hw : D.inv w (Function.update ls t l)) (hp : D.ThreadHolds t p l) :
    D.Holds ⟨w, Function.update c.running t p⟩ (Function.update ls t l) := by
  refine ⟨hw, fun u => ?_⟩
  by_cases hu : u = t
  · subst hu
    simpa only [Function.update_self] using hp
  · simpa only [Function.update_of_ne hu] using hc u

theorem step_holds {c c' : Config I ε T W} {ls : T → L} (hs : M.Step c c')
    (h : D.Holds c ls) : ∃ ls', D.Holds c' ls' := by
  obtain ⟨hw, ht⟩ := h
  cases hs with
  | @start t p hrun hentry =>
    have hl : D.idle t (ls t) := by simpa only [ThreadHolds, hrun] using ht t
    refine ⟨Function.update ls t (ls t), holds_update ht ?_ (D.entry_wp t p _ hentry hl)⟩
    rwa [Function.update_eq_self]
  | @call t o k r w hrun hserve =>
    have hp : (Prog.call o k).wp (D.protocol t) (fun _ => D.idle t) (fun _ => D.idle t) (ls t) := by
      simpa only [ThreadHolds, hrun] using ht t
    exact ⟨_, holds_update ht (D.serves_inv t _ o r w ls hw hserve hp.1) (hp.2 r)⟩
  | @returned t a hrun =>
    have hl : D.idle t (ls t) := by simpa only [ThreadHolds, hrun, Prog.wp_pure] using ht t
    refine ⟨Function.update ls t (ls t), holds_update ht ?_ hl⟩
    rwa [Function.update_eq_self]
  | @raised t e hrun =>
    have hl : D.idle t (ls t) := by simpa only [ThreadHolds, hrun, Prog.wp_throw] using ht t
    refine ⟨Function.update ls t (ls t), holds_update ht ?_ hl⟩
    rwa [Function.update_eq_self]
  | background hb => exact ⟨ls, D.background_inv _ _ _ _ hw hb, ht⟩

/-- The invariant holds in every configuration a run reaches. -/
theorem reach_holds {c c' : Config I ε T W} {ls : T → L} (hr : M.Reach c c')
    (h : D.Holds c ls) : ∃ ls', D.Holds c' ls' := by
  induction hr with
  | refl => exact ⟨ls, h⟩
  | tail _ hs ih =>
    obtain ⟨ls', h'⟩ := ih
    exact step_holds hs h'

/-- The next call of a thread is one its protocol allows. -/
theorem Holds.allowed {c : Config I ε T W} {ls : T → L} (h : D.Holds c ls) {t : T} {o : I.Op}
    {k : I.Answer o → Prog I ε Unit} (hrun : c.running t = some (.call o k)) :
    (D.protocol t).allowed (ls t) o := by
  have ht := h.2 t
  rw [hrun] at ht
  exact ht.1

theorem Holds.idle_of_none {c : Config I ε T W} {ls : T → L} (h : D.Holds c ls) {t : T}
    (hrun : c.running t = none) : D.idle t (ls t) := by
  have ht := h.2 t
  rwa [hrun] at ht

end Discipline

end SenseGateway.Effects

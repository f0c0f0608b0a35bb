import Mathlib.Algebra.Order.Field.Basic
import Mathlib.Data.List.Chain
import Mathlib.Tactic.Linarith
import Mathlib.Tactic.Ring
import SenseGateway.Effects.Prog

namespace SenseGateway.Effects

section cadence

variable {σ τ : Type} (due : τ → σ → Bool) (time : σ → τ)

/-- The looks at the clock at which a loop goes to work: each one that is due since the last of them. -/
def cadence : τ → List σ → List σ
  | _, [] => []
  | last, s :: looks => if due last s then s :: cadence (time s) looks else cadence last looks

variable {due time} {last : τ} {looks : List σ}

section spacing

variable {gap : ℚ}

/-- Each of these times comes at least `gap` after the one before. -/
def Spaced (gap : ℚ) : List ℚ → Prop := List.IsChain fun a b => a + gap ≤ b

/-- What is left of spaced times is spaced. -/
theorem Spaced.sublist (hgap : 0 ≤ gap) {l l' : List ℚ} (h : Spaced gap l) (hl : l'.Sublist l) :
    Spaced gap l' := by
  have : Trans (fun a b => a + gap ≤ b) (fun a b => a + gap ≤ b) (fun a b : ℚ => a + gap ≤ b) :=
    ⟨fun {a b c} hab hbc => by linarith⟩
  exact List.IsChain.sublist h hl

/-- The distances of spaced times add up. -/
theorem Spaced.span {l : List ℚ} (h : Spaced gap l) {i j : ℕ} (hij : i ≤ j) (hj : j < l.length) :
    l[i] + (j - i : ℕ) * gap ≤ l[j] := by
  induction j, hij using Nat.le_induction with
  | base => simp
  | succ j hij ih =>
    have hnext := List.isChain_iff_getElem.mp h j hj
    have hprev := ih (by omega)
    have hsub : ((j + 1 - i : ℕ) : ℚ) = (j - i : ℕ) + 1 := by
      rw [Nat.succ_sub hij]
      push_cast
      rfl
    rw [hsub]
    linarith

end spacing

end cadence

section timed

/-- The calls of a loop around a piece of work: a look at the clock and at what the loop decides by, a
pause, and the calls of the work. -/
inductive TimedOp (σ δ : Type) (I : Interface)
  | look
  | pause (duration : δ)
  | work (o : I.Op)

abbrev TimedOp.Answer {σ δ : Type} {I : Interface} : TimedOp σ δ I → Type
  | look => σ
  | pause _ => Unit
  | work o => I.Answer o

abbrev timed (σ δ : Type) (I : Interface) : Interface := ⟨TimedOp σ δ I, TimedOp.Answer⟩

variable {σ τ δ ε α : Type} {I : Interface}

/-- For each call in `q`, the last look before it. -/
def stamps (q : I.Op → Bool) : Option σ → List (Event (timed σ δ I)) → List σ
  | _, [] => []
  | _, ⟨.look, s⟩ :: es => stamps q (some s) es
  | last, ⟨.pause _, _⟩ :: es => stamps q last es
  | last, ⟨.work o, _⟩ :: es =>
    if q o then last.toList ++ stamps q last es else stamps q last es

/-- The discipline that allows one call in `q`, and knows whether it has been made. -/
def Protocol.once (q : I.Op → Bool) : Protocol I Bool :=
  ⟨fun made o => q o → made = false, fun made o _ => made || q o⟩

variable {q : I.Op → Bool}

/-- A program without such calls keeps to it, and changes nothing. -/
theorem Prog.Makes.once {q : I.Op → Bool} {p : Prog I ε α} (h : Prog.Makes (fun o => q o = false) p)
    (made : Bool) : p.wp (.once q) (fun _ l => l = made) (fun _ l => l = made) made := by
  refine Prog.wp_mono (fun _ _ h => h.1) (fun _ _ h => h.1)
    (Prog.wp_of_only (P := .once q) (l := made) h fun o ho => ⟨fun hq => ?_, fun _ => ?_⟩)
  · rw [ho] at hq
    cases hq
  · show (made || q o) = made
    rw [ho, Bool.or_false]

/-- How the calls in `q` lie in a run: they are made at looks at which the loop goes to work, and at all
of them where the work never ends without its call. -/
structure OnCadence (due : τ → σ → Bool) (time : σ → τ) (R : Bool → Prop) (last : τ)
    (looks stamped : List σ) (out : Option (Except ε Unit)) : Prop where
  returns : ∀ e, out ≠ some (.error e)
  sublist : stamped.Sublist (cadence due time last looks)
  isPrefix : (∀ made, R made → made = true) → stamped <+: cadence due time last looks
  all : (∀ made, R made → made = true) → out ≠ none → stamped = cadence due time last looks

variable {due : τ → σ → Bool} {time : σ → τ} {work : σ → Prog I ε Unit} {duration : δ} {last : τ}
  {R : Bool → Prop} {looks stamped : List σ} {out : Option (Except ε Unit)}

theorem OnCadence.nil (hout : ∀ e, out ≠ some (.error e)) : OnCadence due time R last [] [] out :=
  ⟨hout, .slnil, fun _ => List.prefix_rfl, fun _ _ => rfl⟩

end timed

end SenseGateway.Effects

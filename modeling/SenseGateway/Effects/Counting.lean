import SenseGateway.Effects.Prog

namespace SenseGateway.Effects

variable {I : Interface} {ε α β : Type} (q : I.Op → Bool)

/-- The discipline that allows every call and counts some of them. -/
def Protocol.counter : Protocol I ℕ :=
  ⟨fun _ _ => True, fun n o _ => if q o then n + 1 else n⟩

theorem Protocol.after_counter (n : ℕ) (es : List (Event I)) :
    (Protocol.counter q).after n es = n + es.countP fun e => q e.op := by
  induction es generalizing n with
  | nil => rfl
  | cons e es ih =>
    show (Protocol.counter q).after (if q e.op then n + 1 else n) es = _
    rw [ih, List.countP_cons]
    split <;> omega

namespace Prog

/-- However it runs, the program makes at most `m` of the calls. -/
def AtMost (m : ℕ) (p : Prog I ε α) : Prop :=
  ∀ n, p.wp (.counter q) (fun _ n' => n' ≤ n + m) (fun _ n' => n' ≤ n + m) n

namespace AtMost

variable {q} {m k : ℕ}

theorem mono {p : Prog I ε α} (h : AtMost q m p) (hk : m ≤ k) : AtMost q k p :=
  fun n => wp_mono (fun _ _ h => by omega) (fun _ _ h => by omega) (h n)

/-- A program none of whose calls counts. -/
theorem of_makes {p : Prog I ε α} (h : Makes (fun o => q o = false) p) : AtMost q 0 p := by
  intro n
  refine wp_mono ?_ ?_ (wp_of_only (P := .counter q) (l := n) h fun o ho =>
    ⟨trivial, fun _ => if_neg (by simp [ho])⟩)
  · rintro _ _ ⟨rfl, -⟩
    exact Nat.le_refl _
  · rintro _ _ ⟨rfl, -⟩
    exact Nat.le_refl _

theorem bind {p : Prog I ε α} {f : α → Prog I ε β} (hp : AtMost q m p) (hf : ∀ a, AtMost q k (f a)) :
    AtMost q (m + k) (p.bind f) := by
  intro n
  refine (wp_bind _ _).mpr (wp_mono ?_ (fun _ _ h => by omega) (hp n))
  intro a n' hn'
  exact wp_mono (fun _ _ h => by omega) (fun _ _ h => by omega) (hf a n')

theorem handle {p : Prog I ε α} {h : ε → Prog I ε α} (hp : AtMost q m p)
    (hh : ∀ e, AtMost q k (h e)) : AtMost q (m + k) (p.handle h) := by
  intro n
  refine (wp_handle _ _).mpr (wp_mono (fun _ _ h => by omega) ?_ (hp n))
  intro e n' hn'
  exact wp_mono (fun _ _ h => by omega) (fun _ _ h => by omega) (hh e n')

theorem ensure {p : Prog I ε α} {f : Prog I ε Unit} (hp : AtMost q m p) (hf : AtMost q k f) :
    AtMost q (m + k) (p.ensure f) := by
  intro n
  refine (wp_ensure _ _).mpr (wp_mono ?_ ?_ (hp n))
  all_goals
    intro _ n' hn'
    exact wp_mono (fun _ _ h => by omega) (fun _ _ h => by omega) (hf n')

/-- What comes before the calls that count. -/
theorem skip {p : Prog I ε α} {f : α → Prog I ε β} (hp : Makes (fun o => q o = false) p)
    (hf : ∀ a, AtMost q m (f a)) : AtMost q m (p.bind f) := ((of_makes hp).bind hf).mono (by omega)

theorem handle_makes {p : Prog I ε α} {h : ε → Prog I ε α} (hp : AtMost q m p)
    (hh : ∀ e, Makes (fun o => q o = false) (h e)) : AtMost q m (p.handle h) :=
  hp.handle fun e => of_makes (hh e)

theorem ensure_makes {p : Prog I ε α} {f : Prog I ε Unit} (hp : AtMost q m p)
    (hf : Makes (fun o => q o = false) f) : AtMost q m (p.ensure f) := hp.ensure (of_makes hf)

theorem ite {c : Prop} [Decidable c] {p p' : Prog I ε α} (hp : AtMost q m p) (hp' : AtMost q m p') :
    AtMost q m (if c then p else p') := by
  split
  · exact hp
  · exact hp'

theorem of_trace {p : Prog I ε α} {es : List (Event I)} {out : Except ε α} (h : AtMost q m p)
    (htrace : Trace p es (some out)) : (es.countP fun e => q e.op) ≤ m := by
  have hend := (htrace.wp (h 0)).2
  rw [Protocol.after_counter, Nat.zero_add, Nat.zero_add] at hend
  cases out with
  | ok a => exact hend.1 a rfl
  | error e => exact hend.2 e rfl

end AtMost

end Prog

end SenseGateway.Effects

import SenseGateway.Effects.Prog

namespace SenseGateway.Effects.Prog

variable {I : Interface} {ε α β L : Type} {P : Protocol I L}

/-- The program keeps to the protocol from every local state on, whichever it ends in. -/
def Follows (P : Protocol I L) (p : Prog I ε α) : Prop :=
  ∀ l, p.wp P (fun _ _ => True) (fun _ _ => True) l

namespace Follows

theorem of_makes {ok : I.Op → Prop} {p : Prog I ε α} (h : Makes ok p)
    (hok : ∀ o, ok o → ∀ l, P.allowed l o) : Follows P p := by
  induction p with
  | pure a => exact fun _ => trivial
  | throw e => exact fun _ => trivial
  | call o k ih => exact fun l => ⟨hok o h.1 l, fun r => ih r (h.2 r) _⟩

theorem pure (a : α) : Follows P (Prog.pure a : Prog I ε α) := fun _ => trivial

theorem throw (e : ε) : Follows P (Prog.throw e : Prog I ε α) := fun _ => trivial

theorem ofExcept (x : Except ε α) : Follows P (Prog.ofExcept x : Prog I ε α) := by
  cases x with
  | ok a => exact pure a
  | error e => exact throw e

theorem perform {o : I.Op} (ho : ∀ l, P.allowed l o) : Follows P (Prog.perform o : Prog I ε _) :=
  fun l => ⟨ho l, fun _ => trivial⟩

theorem bind {p : Prog I ε β} {f : β → Prog I ε α} (hp : Follows P p) (hf : ∀ b, Follows P (f b)) :
    Follows P (p.bind f) := fun l =>
  (wp_bind _ _).mpr (wp_mono (fun b l' _ => hf b l') (fun _ _ h => h) (hp l))

theorem bind_ofExcept {x : Except ε β} {f : β → Prog I ε α} (hf : ∀ b, x = .ok b → Follows P (f b)) :
    Follows P ((Prog.ofExcept x).bind f) := by
  cases x with
  | ok b => exact hf b rfl
  | error e => exact throw e

theorem handle {p : Prog I ε α} {h : ε → Prog I ε α} (hp : Follows P p) (hh : ∀ e, Follows P (h e)) :
    Follows P (p.handle h) := fun l =>
  (wp_handle _ _).mpr (wp_mono (fun _ _ h => h) (fun e l' _ => hh e l') (hp l))

theorem ensure {p : Prog I ε α} {f : Prog I ε Unit} (hp : Follows P p) (hf : Follows P f) :
    Follows P (p.ensure f) := fun l =>
  (wp_ensure _ _).mpr (wp_mono (fun _ l' _ => hf l') (fun _ l' _ => hf l') (hp l))

theorem ite {c : Prop} [Decidable c] {p q : Prog I ε α} (hp : Follows P p) (hq : Follows P q) :
    Follows P (if c then p else q) := by
  split
  · exact hp
  · exact hq

theorem forEach {xs : List β} {body : β → Prog I ε Unit} (h : ∀ x ∈ xs, Follows P (body x)) :
    Follows P (.forEach xs body) := by
  induction xs with
  | nil => exact fun _ => trivial
  | cons x xs ih =>
    exact bind (h x List.mem_cons_self) fun _ => ih fun y hy => h y (List.mem_cons_of_mem _ hy)

end Follows

end SenseGateway.Effects.Prog

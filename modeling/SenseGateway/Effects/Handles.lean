import SenseGateway.Effects.Prog

namespace SenseGateway.Effects

/-- How the calls of an interface open handles and close them. -/
structure Handles (I : Interface) (C : Type) where
  opens : I.Op → Option C
  opened : (o : I.Op) → I.Answer o → Bool
  closes : I.Op → Option C

namespace Handles

variable {I : Interface} {C ε α : Type} (H : Handles I C)

/-- A program that neither opens nor closes a handle: how it returns and how it raises. -/
structure Leaves (p : Prog I ε α) (R : α → Prop) (F : ε → Prop) : Prop where
  only : p.wp (.only fun o => H.opens o = none ∧ H.closes o = none) (fun a _ => R a) (fun e _ => F e) ()

namespace Leaves

variable {H} {β : Type} {p : Prog I ε α} {R : α → Prop} {S : β → Prop} {F G : ε → Prop}

theorem pure {a : α} (h : R a) : H.Leaves (.pure a) R F := ⟨h⟩

theorem perform {o : I.Op} (ho : H.opens o = none ∧ H.closes o = none) :
    H.Leaves (.perform o) (fun _ => True) F := ⟨ho, fun _ => trivial⟩

theorem ofExcept {x : Except ε α} (hR : ∀ a, x = .ok a → R a) (hF : ∀ e, x = .error e → F e) :
    H.Leaves (.ofExcept x) R F := ⟨(Prog.wp_ofExcept x).mpr ⟨hR, hF⟩⟩

theorem bind {f : α → Prog I ε β} (hp : H.Leaves p R F) (hf : ∀ a, R a → H.Leaves (f a) S F) :
    H.Leaves (p >>= f) S F :=
  ⟨(Prog.wp_bind _ _).mpr (Prog.wp_mono (fun a _ ha => (hf a ha).only) (fun _ _ he => he) hp.only)⟩

theorem handle {h : ε → Prog I ε α} (hp : H.Leaves p R F) (hh : ∀ e, F e → H.Leaves (h e) R G) :
    H.Leaves (p.handle h) R G :=
  ⟨(Prog.wp_handle _ _).mpr (Prog.wp_mono (fun _ _ ha => ha) (fun e _ he => (hh e he).only) hp.only)⟩

theorem forEach {xs : List β} {body : β → Prog I ε Unit}
    (h : ∀ x, H.Leaves (body x) (fun _ => True) F) :
    H.Leaves (.forEach xs body) (fun _ => True) F :=
  ⟨Prog.wp_forEach (J := fun _ _ => True) (fun x _ _ _ => (h x).only) trivial⟩

theorem ite {c : Prop} [Decidable c] {p' : Prog I ε α} (hp : H.Leaves p R F) (hp' : H.Leaves p' R F) :
    H.Leaves (if c then p else p') R F := by
  split
  · exact hp
  · exact hp'

end Leaves

variable [DecidableEq C]

/-- The handles that are open after a call. -/
def step (held : List C) (e : Event I) : List C :=
  match H.opens e.op with
  | some c => if H.opened e.op e.answer then c :: held else held
  | none =>
    match H.closes e.op with
    | some c => held.filter (· ≠ c)
    | none => held

/-- The handles that are open after these calls. -/
def held (es : List (Event I)) : List C := es.foldl H.step []

/-- Opening a handle only while none is open; the local state is the open one. -/
def exclusive : Protocol I (Option C) where
  allowed l o := (H.opens o).isSome = true → l = none
  next l o r :=
    match H.opens o with
    | some c => if H.opened o r then some c else l
    | none =>
      match H.closes o with
      | some c => l.filter (· ≠ c)
      | none => l

/-- At no time is more than one handle open. -/
def OneAtATime (es : List (Event I)) : Prop := ∀ before, before <+: es → (H.held before).length ≤ 1

variable {H} {l : Option C} {es : List (Event I)}

theorem step_toList {o : I.Op} {r : I.Answer o} (h : H.exclusive.allowed l o) :
    H.step l.toList ⟨o, r⟩ = (H.exclusive.next l o r).toList := by
  cases hopens : H.opens o with
  | some c =>
    obtain rfl : l = none := h (by rw [hopens]; rfl)
    simp only [step, exclusive, hopens]
    split
    · rfl
    · rfl
  | none =>
    simp only [step, exclusive, hopens]
    cases H.closes o with
    | none => rfl
    | some c =>
      cases l with
      | none => rfl
      | some c' => by_cases hc : c' = c <;> simp [hc, Option.filter]

theorem foldl_toList (h : H.exclusive.Allows l es) :
    es.foldl H.step l.toList = (H.exclusive.after l es).toList := by
  induction es generalizing l with
  | nil => rfl
  | cons e es ih =>
    rw [List.foldl_cons, step_toList h.1]
    exact ih h.2

/-- What the discipline gives of every run, and of one that has come to its end. -/
theorem oneAtATime_of_wp {p : Prog I ε α} {Q : α → Option C → Prop} {E : ε → Option C → Prop}
    {out : Option (Except ε α)} (h : p.Trace es out) (hp : p.wp H.exclusive Q E none) :
    H.OneAtATime es ∧ ∃ l : Option C, H.held es = l.toList ∧
      (∀ a, out = some (.ok a) → Q a l) ∧ ∀ e, out = some (.error e) → E e l := by
  obtain ⟨hallows, hok, herror⟩ := h.wp hp
  refine ⟨fun before hb => ?_, H.exclusive.after none es, foldl_toList hallows, hok, herror⟩
  obtain ⟨rest, rfl⟩ := hb
  have hheld : H.held before = _ :=
    foldl_toList (l := none) ((H.exclusive.allows_append _ _ _).mp hallows).1
  rw [hheld]
  cases H.exclusive.after none before with
  | none => exact Nat.zero_le 1
  | some c => exact Nat.le_refl 1

/-- Such a program may be run whatever is open, and leaves that open. -/
theorem Leaves.wp {p : Prog I ε α} {R : α → Prop} {F : ε → Prop} (h : H.Leaves p R F) :
    p.wp H.exclusive (fun a l' => l' = l ∧ R a) (fun e l' => l' = l ∧ F e) l := by
  refine Prog.wp_of_only h.only fun o ho => ⟨fun hopens => ?_, fun r => ?_⟩
  · rw [ho.1] at hopens
    cases hopens
  · simp only [exclusive, ho.1, ho.2]

/-- What comes after such a program finds open what was open before it. -/
theorem Leaves.wp_bind {β : Type} {p : Prog I ε α} {f : α → Prog I ε β} {R : α → Prop} {F : ε → Prop}
    {Q : β → Option C → Prop} {E : ε → Option C → Prop} (h : H.Leaves p R F)
    (hF : ∀ e, F e → E e l) (hf : ∀ a, R a → (f a).wp H.exclusive Q E l) :
    (p.bind f).wp H.exclusive Q E l := by
  refine (Prog.wp_bind _ _).mpr (Prog.wp_mono ?_ ?_ h.wp)
  · rintro a _ ⟨rfl, ha⟩
    exact hf a ha
  · rintro e _ ⟨rfl, he⟩
    exact hF e he

section calls

variable {o : I.Op} {k : I.Answer o → Prog I ε α} {Q : α → Option C → Prop} {E : ε → Option C → Prop}

/-- A call that has nothing to do with handles may be made whatever is open. -/
theorem wp_other (ho : H.opens o = none ∧ H.closes o = none) (h : ∀ r, (k r).wp H.exclusive Q E l) :
    (Prog.call o k).wp H.exclusive Q E l := by
  refine ⟨fun hopens => ?_, fun r => ?_⟩
  · rw [ho.1] at hopens
    cases hopens
  · simpa only [exclusive, ho.1, ho.2] using h r

/-- The handle that is open may be closed, and so may one that is not. -/
theorem wp_close {c : C} (ho : H.opens o = none ∧ H.closes o = some c) (hl : l = none ∨ l = some c)
    (h : ∀ r, (k r).wp H.exclusive Q E none) : (Prog.call o k).wp H.exclusive Q E l := by
  refine ⟨fun hopens => ?_, fun r => ?_⟩
  · rw [ho.1] at hopens
    cases hopens
  · have hnext : H.exclusive.next l o r = none := by
      simp only [exclusive, ho.1, ho.2]
      rcases hl with rfl | rfl
      · rfl
      · simp
    rw [hnext]
    exact h r

end calls

end Handles

end SenseGateway.Effects

import Mathlib.Tactic.Common

namespace SenseGateway.Effects

/-- The calls a program can make and the type of the answer to each. -/
structure Interface where
  Op : Type
  Answer : Op → Type

/-- A program as the tree of the calls it makes, branching on the answers. -/
inductive Prog (I : Interface) (ε α : Type)
  | pure (a : α)
  | throw (e : ε)
  | call (o : I.Op) (k : I.Answer o → Prog I ε α)

/-- One call of a run with the answer it got. -/
structure Event (I : Interface) where
  op : I.Op
  answer : I.Answer op

namespace Prog

variable {I : Interface} {ε α β γ σ : Type}

def bind : Prog I ε α → (α → Prog I ε β) → Prog I ε β
  | pure a, f => f a
  | throw e, _ => throw e
  | call o k, f => call o fun r => (k r).bind f

instance : Monad (Prog I ε) where
  pure := pure
  bind := bind

def perform (o : I.Op) : Prog I ε (I.Answer o) := call o pure

def ofExcept : Except ε α → Prog I ε α
  | .ok a => pure a
  | .error e => throw e

instance : MonadLift (Except ε) (Prog I ε) := ⟨ofExcept⟩

/-- `try: p except: h` -/
def handle : Prog I ε α → (ε → Prog I ε α) → Prog I ε α
  | pure a, _ => pure a
  | throw e, h => h e
  | call o k, h => call o fun r => (k r).handle h

/-- `try: p finally: f`. What `f` raises replaces the outcome of `p`. -/
def ensure : Prog I ε α → Prog I ε Unit → Prog I ε α
  | pure a, f => f.bind fun _ => pure a
  | throw e, f => f.bind fun _ => throw e
  | call o k, f => call o fun r => (k r).ensure f

/-- `for x in xs: body x` -/
def forEach (xs : List β) (body : β → Prog I ε Unit) : Prog I ε Unit :=
  match xs with
  | [] => pure ()
  | x :: xs => (body x).bind fun _ => forEach xs body

@[simp] theorem pure_eq (a : α) : (Pure.pure a : Prog I ε α) = pure a := rfl

@[simp] theorem bind_eq (p : Prog I ε α) (f : α → Prog I ε β) : (p >>= f) = p.bind f := rfl

@[simp] theorem liftM_eq (x : Except ε α) : (liftM x : Prog I ε α) = ofExcept x := rfl

@[simp] theorem monadLift_eq (x : Except ε α) : (monadLift x : Prog I ε α) = ofExcept x := rfl

@[simp] theorem pure_bind (a : α) (f : α → Prog I ε β) : (pure a : Prog I ε α).bind f = f a := rfl

@[simp] theorem throw_bind (e : ε) (f : α → Prog I ε β) :
    (throw e : Prog I ε α).bind f = throw e := rfl

@[simp] theorem call_bind (o : I.Op) (k : I.Answer o → Prog I ε α) (f : α → Prog I ε β) :
    (call o k).bind f = call o fun r => (k r).bind f := rfl

@[simp] theorem ofExcept_ok (a : α) : (ofExcept (.ok a) : Prog I ε α) = pure a := rfl

@[simp] theorem ofExcept_error (e : ε) : (ofExcept (.error e) : Prog I ε α) = throw e := rfl

theorem ofExcept_bind (x : Except ε α) (f : α → Except ε β) :
    (ofExcept (x >>= f) : Prog I ε β) = (ofExcept x).bind fun a => ofExcept (f a) := by
  cases x <;> rfl

theorem bind_assoc (p : Prog I ε α) (f : α → Prog I ε β) (g : β → Prog I ε γ) :
    (p.bind f).bind g = p.bind fun a => (f a).bind g := by
  induction p with
  | pure a => rfl
  | throw e => rfl
  | call o k ih => simp only [call_bind, ih]

/-- The outcome of a run that is complete, and the calls made so far by one that is not. -/
inductive Trace : Prog I ε α → List (Event I) → Option (Except ε α) → Prop
  | cut (p) : Trace p [] none
  | returned (a) : Trace (pure a) [] (some (.ok a))
  | raised (e) : Trace (throw e) [] (some (.error e))
  | step {o k r es out} : Trace (k r) es out → Trace (call o k) (⟨o, r⟩ :: es) out

/-- The run in which `answer` replies to every call, from the state `s`. -/
def eval (answer : (o : I.Op) → σ → I.Answer o × σ) : Prog I ε α → σ → Except ε α × σ
  | pure a, s => (.ok a, s)
  | throw e, s => (.error e, s)
  | call o k, s => (k (answer o s).1).eval answer (answer o s).2

/-- The calls of that run. -/
def events (answer : (o : I.Op) → σ → I.Answer o × σ) : Prog I ε α → σ → List (Event I)
  | pure _, _ => []
  | throw _, _ => []
  | call o k, s => ⟨o, (answer o s).1⟩ :: (k (answer o s).1).events answer (answer o s).2

theorem trace_events (answer : (o : I.Op) → σ → I.Answer o × σ) (p : Prog I ε α) (s : σ) :
    Trace p (p.events answer s) (some (p.eval answer s).1) := by
  induction p generalizing s with
  | pure a => exact .returned a
  | throw e => exact .raised e
  | call o k ih => exact .step (ih _ _)

theorem answer_of_events {f : (o : I.Op) → I.Answer o} {p : Prog I ε α} {e : Event I}
    (h : e ∈ p.events (fun o (u : Unit) => (f o, u)) ()) : e.answer = f e.op := by
  induction p with
  | pure a => cases h
  | throw e => cases h
  | call o k ih =>
    rcases List.mem_cons.mp h with rfl | h
    · rfl
    · exact ih _ h

theorem trace_call {o : I.Op} {k : I.Answer o → Prog I ε α} {es : List (Event I)}
    {out : Except ε α} :
    Trace (call o k) es (some out) ↔
      ∃ r es', es = ⟨o, r⟩ :: es' ∧ Trace (k r) es' (some out) := by
  constructor
  · rintro (_ | _ | _ | h)
    exact ⟨_, _, rfl, h⟩
  · rintro ⟨r, es', rfl, h⟩
    exact .step h

section eval

variable (answer : (o : I.Op) → σ → I.Answer o × σ)

@[simp] theorem eval_pure (a : α) (s : σ) :
    (pure a : Prog I ε α).eval answer s = (.ok a, s) := rfl

@[simp] theorem eval_throw (e : ε) (s : σ) :
    (throw e : Prog I ε α).eval answer s = (.error e, s) := rfl

@[simp] theorem eval_call (o : I.Op) (k : I.Answer o → Prog I ε α) (s : σ) :
    (call o k).eval answer s = (k (answer o s).1).eval answer (answer o s).2 := rfl

@[simp] theorem eval_perform (o : I.Op) (s : σ) :
    (perform o : Prog I ε _).eval answer s = (.ok (answer o s).1, (answer o s).2) := rfl

theorem eval_bind (p : Prog I ε α) (f : α → Prog I ε β) (s : σ) :
    (p.bind f).eval answer s = match p.eval answer s with
      | (.ok a, s') => (f a).eval answer s'
      | (.error e, s') => (.error e, s') := by
  induction p generalizing s with
  | pure a => rfl
  | throw e => rfl
  | call o k ih => exact ih _ _

theorem eval_handle (p : Prog I ε α) (h : ε → Prog I ε α) (s : σ) :
    (p.handle h).eval answer s = match p.eval answer s with
      | (.ok a, s') => (.ok a, s')
      | (.error e, s') => (h e).eval answer s' := by
  induction p generalizing s with
  | pure a => rfl
  | throw e => rfl
  | call o k ih => exact ih _ _

/-- What follows a program and makes no difference to the state keeps the state it leaves. -/
theorem eval_ensure_snd {f : Prog I ε Unit} (hf : ∀ s, (f.eval answer s).2 = s) (p : Prog I ε α)
    (s : σ) : ((p.ensure f).eval answer s).2 = (p.eval answer s).2 := by
  induction p generalizing s with
  | pure a =>
    have hs := hf s
    rw [ensure, eval_bind]
    revert hs
    rcases f.eval answer s with ⟨e | a', s'⟩ <;> exact id
  | throw e =>
    have hs := hf s
    rw [ensure, eval_bind]
    revert hs
    rcases f.eval answer s with ⟨e' | a', s'⟩ <;> exact id
  | call o k ih => exact ih _ _

end eval

end Prog

/-- A discipline for the calls of one thread: what it may call in each local state, and the
local state it is in after the answer. -/
structure Protocol (I : Interface) (L : Type) where
  allowed : L → I.Op → Prop
  next : L → (o : I.Op) → I.Answer o → L

namespace Protocol

variable {I : Interface} {L : Type}

def after (P : Protocol I L) (l : L) (es : List (Event I)) : L :=
  es.foldl (fun l e => P.next l e.op e.answer) l

/-- Every call of the list is allowed where it is made. -/
def Allows (P : Protocol I L) : L → List (Event I) → Prop
  | _, [] => True
  | l, e :: es => P.allowed l e.op ∧ Allows P (P.next l e.op e.answer) es

theorem after_append (P : Protocol I L) (l : L) (es es' : List (Event I)) :
    P.after l (es ++ es') = P.after (P.after l es) es' := List.foldl_append

theorem allows_append (P : Protocol I L) (l : L) (es es' : List (Event I)) :
    P.Allows l (es ++ es') ↔ P.Allows l es ∧ P.Allows (P.after l es) es' := by
  induction es generalizing l with
  | nil => exact (true_and _).symm.to_iff
  | cons e es ih =>
    show _ ∧ P.Allows _ (es ++ es') ↔ (_ ∧ P.Allows _ es) ∧ _
    rw [ih, and_assoc]
    rfl

/-- The discipline that allows the calls in `ok`, anywhere. -/
def only (ok : I.Op → Prop) : Protocol I Unit := ⟨fun _ o => ok o, fun _ _ _ => ()⟩

end Protocol

namespace Prog

variable {I : Interface} {ε α β σ L : Type} {P : Protocol I L}

/-- Whatever the answers are, the program keeps to the protocol from `l` on, and it ends in
`Q` where it returns and in `E` where it raises. -/
def wp (P : Protocol I L) : Prog I ε α → (α → L → Prop) → (ε → L → Prop) → L → Prop
  | pure a, Q, _, l => Q a l
  | throw e, _, E, l => E e l
  | call o k, Q, E, l => P.allowed l o ∧ ∀ r, (k r).wp P Q E (P.next l o r)

variable {Q : α → L → Prop} {E : ε → L → Prop} {l : L}

@[simp] theorem wp_pure (a : α) : (pure a : Prog I ε α).wp P Q E l ↔ Q a l := Iff.rfl

@[simp] theorem wp_throw (e : ε) : (throw e : Prog I ε α).wp P Q E l ↔ E e l := Iff.rfl

@[simp] theorem wp_call (o : I.Op) (k : I.Answer o → Prog I ε α) :
    (call o k).wp P Q E l ↔ P.allowed l o ∧ ∀ r, (k r).wp P Q E (P.next l o r) := Iff.rfl

@[simp] theorem wp_perform (o : I.Op) {Q : I.Answer o → L → Prop} :
    (perform o : Prog I ε _).wp P Q E l ↔ P.allowed l o ∧ ∀ r, Q r (P.next l o r) := Iff.rfl

@[simp] theorem wp_ofExcept (x : Except ε α) :
    (ofExcept x : Prog I ε α).wp P Q E l ↔
      (∀ a, x = .ok a → Q a l) ∧ ∀ e, x = .error e → E e l := by
  cases x <;> simp [ofExcept]

@[simp] theorem wp_bind (p : Prog I ε β) (f : β → Prog I ε α) :
    (p.bind f).wp P Q E l ↔ p.wp P (fun b => (f b).wp P Q E) E l := by
  induction p generalizing l with
  | pure b => rfl
  | throw e => rfl
  | call o k ih => simp only [call_bind, wp_call, ih]

/-- A step of plain computation. -/
theorem wp_bind_ofExcept {x : Except ε β} {f : β → Prog I ε α}
    (hf : ∀ b, x = .ok b → (f b).wp P Q E l) (hE : ∀ e, x = .error e → E e l) :
    ((ofExcept x).bind f).wp P Q E l := (wp_bind _ _).mpr ((wp_ofExcept x).mpr ⟨hf, hE⟩)

@[simp] theorem wp_handle (p : Prog I ε α) (h : ε → Prog I ε α) :
    (p.handle h).wp P Q E l ↔ p.wp P Q (fun e => (h e).wp P Q E) l := by
  induction p generalizing l with
  | pure a => rfl
  | throw e => rfl
  | call o k ih => simp only [handle, wp_call, ih]

@[simp] theorem wp_ensure (p : Prog I ε α) (f : Prog I ε Unit) :
    (p.ensure f).wp P Q E l ↔
      p.wp P (fun a => f.wp P (fun _ => Q a) E) (fun e => f.wp P (fun _ => E e) E) l := by
  induction p generalizing l with
  | pure a => exact wp_bind f fun _ => pure a
  | throw e => exact wp_bind f fun _ => throw e
  | call o k ih => simp only [ensure, wp_call, ih]

theorem wp_mono {p : Prog I ε α} {Q' : α → L → Prop} {E' : ε → L → Prop}
    (hQ : ∀ a l, Q a l → Q' a l) (hE : ∀ e l, E e l → E' e l) (h : p.wp P Q E l) :
    p.wp P Q' E' l := by
  induction p generalizing l with
  | pure a => exact hQ a l h
  | throw e => exact hE e l h
  | call o k ih => exact ⟨h.1, fun r => ih r (h.2 r)⟩

/-- A `finally` that returns and keeps whatever holds can be left out. -/
theorem wp_ensure_of_keeps {p : Prog I ε α} {f : Prog I ε Unit} (hp : p.wp P Q E l)
    (hf : ∀ (R : L → Prop) l', R l' → f.wp P (fun _ => R) E l') : (p.ensure f).wp P Q E l :=
  (wp_ensure p f).mpr (wp_mono (fun a => hf (Q a)) (fun e => hf (E e)) hp)

/-- A loop keeps an invariant over what is left to visit that every pass of its body keeps. -/
theorem wp_forEach {xs : List β} {body : β → Prog I ε Unit} {J : List β → L → Prop}
    (hbody : ∀ x xs l, J (x :: xs) l → (body x).wp P (fun _ => J xs) E l) (h : J xs l) :
    (forEach xs body).wp P (fun _ => J []) E l := by
  induction xs generalizing l with
  | nil => exact h
  | cons x xs ih =>
    rw [forEach, wp_bind]
    exact wp_mono (fun _ _ h => ih h) (fun _ _ he => he) (hbody x xs l h)

/-- A program whose calls a protocol allows and passes over leaves its local state alone. -/
theorem wp_of_only {ok : I.Op → Prop} {p : Prog I ε α} {R : α → Prop} {F : ε → Prop}
    (h : p.wp (.only ok) (fun a _ => R a) (fun e _ => F e) ())
    (hok : ∀ o, ok o → P.allowed l o ∧ ∀ r, P.next l o r = l) :
    p.wp P (fun a l' => l' = l ∧ R a) (fun e l' => l' = l ∧ F e) l := by
  induction p with
  | pure a => exact ⟨rfl, h⟩
  | throw e => exact ⟨rfl, h⟩
  | call o k ih =>
    obtain ⟨ha, hn⟩ := hok o h.1
    refine ⟨ha, fun r => ?_⟩
    rw [hn r]
    exact ih r (h.2 r)

/-- A program that makes only some calls makes only calls that include them. -/
theorem wp_only_mono {ok ok' : I.Op → Prop} {p : Prog I ε α} {Q : α → Unit → Prop}
    {E : ε → Unit → Prop} (hok : ∀ o, ok o → ok' o) (h : p.wp (.only ok) Q E ()) :
    p.wp (.only ok') Q E () := by
  induction p with
  | pure a => exact h
  | throw e => exact h
  | call o k ih => exact ⟨hok o h.1, fun r => ih r (h.2 r)⟩

/-- Two runs from related states stay related and end alike, where the calls the program makes are
answered alike in related states. -/
theorem eval_related {answer : (o : I.Op) → σ → I.Answer o × σ} {S : σ → σ → Prop}
    {ok : I.Op → Prop} {p : Prog I ε α}
    (h : p.wp (.only ok) (fun _ _ => True) (fun _ _ => True) ())
    (hanswer : ∀ o s s', ok o → S s s' →
      (answer o s').1 = (answer o s).1 ∧ S (answer o s).2 (answer o s').2)
    {s s' : σ} (hs : S s s') :
    (p.eval answer s').1 = (p.eval answer s).1 ∧ S (p.eval answer s).2 (p.eval answer s').2 := by
  induction p generalizing s s' with
  | pure a => exact ⟨rfl, hs⟩
  | throw e => exact ⟨rfl, hs⟩
  | call o k ih =>
    obtain ⟨hsame, hnext⟩ := hanswer o s s' h.1 hs
    rw [eval_call, eval_call, hsame]
    exact ih _ (h.2 _) hnext

/-- Every run of a program that keeps to the protocol makes allowed calls only and ends as
the postconditions say. -/
theorem Trace.wp {p : Prog I ε α} {es : List (Event I)} {out : Option (Except ε α)}
    (h : Trace p es out) (hp : p.wp P Q E l) :
    P.Allows l es ∧ (∀ a, out = some (.ok a) → Q a (P.after l es)) ∧
      ∀ e, out = some (.error e) → E e (P.after l es) := by
  induction h generalizing l with
  | cut p => exact ⟨trivial, by simp, by simp⟩
  | returned a =>
    refine ⟨trivial, fun b hb => ?_, by simp⟩
    obtain rfl : a = b := by simpa using hb
    exact hp
  | raised e =>
    refine ⟨trivial, by simp, fun b hb => ?_⟩
    obtain rfl : e = b := by simpa using hb
    exact hp
  | step _ ih =>
    obtain ⟨ha, hq, he⟩ := ih (hp.2 _)
    exact ⟨⟨hp.1, ha⟩, hq, he⟩

/-- The program makes no calls but those in `ok`. -/
def Makes (ok : I.Op → Prop) (p : Prog I ε α) : Prop :=
  p.wp (.only ok) (fun _ _ => True) (fun _ _ => True) ()

namespace Makes

variable {ok : I.Op → Prop}

theorem pure (a : α) : Makes ok (Prog.pure a : Prog I ε α) := trivial

theorem throw (e : ε) : Makes ok (Prog.throw e : Prog I ε α) := trivial

theorem ofExcept (x : Except ε α) : Makes ok (Prog.ofExcept x : Prog I ε α) := by
  cases x <;> exact trivial

theorem perform {o : I.Op} (h : ok o) : Makes ok (Prog.perform o : Prog I ε _) :=
  ⟨h, fun _ => trivial⟩

theorem bind {p : Prog I ε α} {f : α → Prog I ε β} (hp : Makes ok p) (hf : ∀ a, Makes ok (f a)) :
    Makes ok (p.bind f) :=
  (wp_bind _ _).mpr (wp_mono (fun a _ _ => hf a) (fun _ _ h => h) hp)

theorem bind_ofExcept {x : Except ε α} {f : α → Prog I ε β}
    (h : ∀ a, x = .ok a → Makes ok (f a)) : Makes ok ((Prog.ofExcept x).bind f) := by
  cases x with
  | ok a => exact h a rfl
  | error e => exact throw e

theorem handle {p : Prog I ε α} {h : ε → Prog I ε α} (hp : Makes ok p)
    (hh : ∀ e, Makes ok (h e)) : Makes ok (p.handle h) :=
  (wp_handle _ _).mpr (wp_mono (fun _ _ h => h) (fun e _ _ => hh e) hp)

theorem ensure {p : Prog I ε α} {f : Prog I ε Unit} (hp : Makes ok p) (hf : Makes ok f) :
    Makes ok (p.ensure f) :=
  (wp_ensure _ _).mpr (wp_mono (fun _ _ _ => hf) (fun _ _ _ => hf) hp)

theorem forEach {xs : List β} {body : β → Prog I ε Unit} (h : ∀ x ∈ xs, Makes ok (body x)) :
    Makes ok (Prog.forEach xs body) := by
  induction xs with
  | nil => exact trivial
  | cons x xs ih =>
    exact bind (h x List.mem_cons_self) fun _ => ih fun y hy => h y (List.mem_cons_of_mem _ hy)

theorem ite {c : Prop} [Decidable c] {p q : Prog I ε α} (hp : Makes ok p) (hq : Makes ok q) :
    Makes ok (if c then p else q) := by
  split
  · exact hp
  · exact hq

theorem mono {ok' : I.Op → Prop} {p : Prog I ε α} (h : Makes ok p) (hok : ∀ o, ok o → ok' o) :
    Makes ok' p := wp_only_mono hok h

/-- What a run of the program calls. -/
theorem of_trace {p : Prog I ε α} {es : List (Event I)} {out : Option (Except ε α)}
    (h : Makes ok p) (htrace : Trace p es out) : ∀ e ∈ es, ok e.op := by
  have allowed (es : List (Event I)) (h : (Protocol.only ok).Allows () es) : ∀ e ∈ es, ok e.op := by
    induction es with
    | nil => simp
    | cons e es ih =>
      intro e' he'
      rcases List.mem_cons.mp he' with rfl | he'
      · exact h.1
      · exact ih h.2 e' he'
  exact allowed es (htrace.wp h).1

end Makes

end Prog

end SenseGateway.Effects

import Mathlib.Data.List.Induction
import SenseGateway.Effects.Threads

namespace SenseGateway.Effects

variable {I : Interface} {ε α T W : Type}

namespace Prog

/-- What is left of a program after these calls. -/
inductive Leads : Prog I ε α → List (Event I) → Prog I ε α → Prop
  | refl (p) : Leads p [] p
  | step {o k r es q} : Leads (k r) es q → Leads (call o k) (⟨o, r⟩ :: es) q

theorem Leads.snoc {p : Prog I ε α} {es : List (Event I)} {o : I.Op} {k : I.Answer o → Prog I ε α}
    (h : Leads p es (call o k)) (r : I.Answer o) : Leads p (es ++ [⟨o, r⟩]) (k r) := by
  generalize hq : call o k = q at h
  induction h with
  | refl p =>
    subst hq
    exact .step (.refl _)
  | step _ ih => exact .step (ih hq)

theorem Leads.trace {p q : Prog I ε α} {es es' : List (Event I)} {out : Option (Except ε α)}
    (h : Leads p es q) (hq : Trace q es' out) : Trace p (es ++ es') out := by
  induction h with
  | refl p => exact hq
  | step _ ih => exact .step (ih hq)

end Prog

/-- What a local state that a run ends in goes back to: the call that brought it, after which no other
changes it. -/
theorem Protocol.since_set {S : Type} {P : Protocol I (Option S)} {s : S} {es : List (Event I)}
    (h : P.after none es = some s) : ∃ es₁ e es₂, es = es₁ ++ e :: es₂ ∧ P.after none es₁ ≠ some s ∧
      P.next (P.after none es₁) e.op e.answer = some s ∧
      ∀ x ∈ es₂, P.next (some s) x.op x.answer = some s := by
  induction es using List.reverseRecOn with
  | nil => cases h
  | append_singleton es x ih =>
    rw [P.after_append] at h
    by_cases hes : P.after none es = some s
    · obtain ⟨es₁, e, es₂, rfl, hne, hset, hkept⟩ := ih hes
      rw [hes] at h
      refine ⟨es₁, e, es₂ ++ [x], by simp, hne, hset, List.forall_mem_append.mpr ⟨hkept, ?_⟩⟩
      exact List.forall_mem_singleton.mpr h
    · exact ⟨es, x, [], rfl, hes, h, by simp⟩

/-- The machine with a log of the calls of all threads. -/
def Machine.logging (M : Machine I ε T W) : Machine I ε T (W × List (T × Event I)) where
  serves t w o r w' := M.serves t w.1 o r w'.1 ∧ w'.2 = w.2 ++ [(t, ⟨o, r⟩)]
  background running w w' := M.background running w.1 w'.1 ∧ w'.2 = w.2
  entry := M.entry

section throughout

variable {X : Type} {l before after : List X} {x y : X} {P : List X → X → Prop}

/-- A list with one more element is cut at that element or before it. -/
theorem cut_snoc (h : l ++ [x] = before ++ y :: after) :
    before = l ∧ y = x ∧ after = [] ∨ ∃ rest, after = rest ++ [x] ∧ l = before ++ y :: rest := by
  rcases List.eq_nil_or_concat after with rfl | ⟨rest, z, rfl⟩
  · obtain ⟨rfl, hlast⟩ := List.append_inj' h rfl
    exact .inl ⟨rfl, (List.cons.inj hlast).1.symm, rfl⟩
  · rw [List.concat_eq_append, ← List.cons_append, ← List.append_assoc] at h
    obtain ⟨rfl, hlast⟩ := List.append_inj' h rfl
    obtain rfl := (List.cons.inj hlast).1
    exact .inr ⟨rest, List.concat_eq_append, rfl⟩

/-- `P` holds of each element with those before it. -/
def Throughout (P : List X → X → Prop) (l : List X) : Prop :=
  ∀ before x after, l = before ++ x :: after → P before x

theorem throughout_nil : Throughout P [] := by
  intro before x after h
  simp at h

theorem Throughout.snoc (h : Throughout P l) (hx : P l x) : Throughout P (l ++ [x]) := by
  intro before y after hcut
  rcases cut_snoc hcut with ⟨rfl, rfl, -⟩ | ⟨rest, -, hl⟩
  · exact hx
  · exact h before y rest hl

end throughout

variable [DecidableEq T]

/-- The calls of one thread in a log. -/
def callsOf (t : T) (log : List (T × Event I)) : List (Event I) :=
  log.filterMap fun x => if x.1 = t then some x.2 else none

section callsOf

variable {t u : T} {log : List (T × Event I)} {e : Event I}

@[simp] theorem callsOf_append (log' : List (T × Event I)) :
    callsOf t (log ++ log') = callsOf t log ++ callsOf t log' := List.filterMap_append

@[simp] theorem callsOf_self : callsOf t [(t, e)] = [e] := by simp [callsOf]

theorem callsOf_other (h : u ≠ t) : callsOf t [(u, e)] = [] := by simp [callsOf, h]

/-- A call of a thread has its place in the log of all. -/
theorem split_of_callsOf {es es' : List (Event I)} (h : callsOf t log = es ++ e :: es') :
    ∃ before after, log = before ++ (t, e) :: after ∧ callsOf t before = es ∧ callsOf t after = es' := by
  obtain ⟨before, rest, rfl, hbefore, hrest⟩ := List.filterMap_eq_append_iff.mp h
  obtain ⟨passed, x, after, rfl, hpassed, hx, hafter⟩ := List.filterMap_eq_cons_iff.mp hrest
  obtain ⟨rfl, rfl⟩ : x.1 = t ∧ x.2 = e := by simpa using hx
  refine ⟨before ++ passed, after, by simp, ?_, hafter⟩
  rw [callsOf_append, show callsOf x.1 before = es from hbefore,
    show callsOf x.1 passed = [] from List.filterMap_eq_nil_iff.mpr hpassed, List.append_nil]

end callsOf

namespace Machine

variable {M : Machine I ε T W} {w : W} {c : Config I ε T (W × List (T × Event I))}

/-- A run starts with an empty log. -/
abbrev fresh (w : W) : Config I ε T (W × List (T × Event I)) := ⟨(w, []), fun _ => none⟩

/-- The calls of whole runs of programs that the thread may be asked to run, one after the other. -/
inductive WholeRuns (M : Machine I ε T W) (t : T) : List (Event I) → Prop
  | nil : WholeRuns M t []
  | snoc {es p es' out} : WholeRuns M t es → M.entry t p → p.Trace es' (some out) →
      WholeRuns M t (es ++ es')

/-- The latest calls of the thread, since it has begun with the program `p`, are `es`. -/
def Latest (M : Machine I ε T W) (t : T) (p : Prog I ε Unit) (log : List (T × Event I))
    (es : List (Event I)) : Prop :=
  M.entry t p ∧ ∃ earlier, M.WholeRuns t earlier ∧ callsOf t log = earlier ++ es

/-- After these calls the thread makes the call `e` in a run of `p`. -/
def Performs (M : Machine I ε T W) (t : T) (p : Prog I ε Unit) (before : List (T × Event I))
    (e : Event I) : Prop :=
  ∃ es, M.Latest t p before es ∧ p.Trace (es ++ [e]) none

/-- In one run of `p` the thread makes the call `e`, which comes after `before`, and the call `e'`, which
comes after `between`. -/
def InRun (M : Machine I ε T W) (t : T) (p : Prog I ε Unit) (before : List (T × Event I))
    (e : Event I) (between : List (T × Event I)) (e' : Event I) : Prop :=
  ∃ es, M.Latest t p before es ∧ p.Trace (es ++ e :: (callsOf t between ++ [e'])) none

/-- An earlier call of the run has its place in the log of all. -/
theorem Latest.inRun {t : T} {p : Prog I ε Unit} {log : List (T × Event I)} {es es' : List (Event I)}
    {e e' : Event I} (h : M.Latest t p log (es ++ e :: es'))
    (htrace : p.Trace (es ++ e :: es' ++ [e']) none) :
    ∃ before between, log = before ++ (t, e) :: between ∧ callsOf t between = es' ∧
      M.InRun t p before e between e' := by
  obtain ⟨hentry, earlier, hruns, hcalls⟩ := h
  rw [← List.append_assoc] at hcalls
  obtain ⟨before, between, hlog, hbefore, rfl⟩ := split_of_callsOf hcalls
  refine ⟨before, between, hlog, rfl, es, ⟨hentry, earlier, hruns, hbefore⟩, ?_⟩
  rwa [List.append_assoc] at htrace

/-- A thread has made whole runs, and the calls that lead to what is left of the one it is in. -/
def Accounts (M : Machine I ε T W) (t : T) (log : List (T × Event I)) : Option (Prog I ε Unit) → Prop
  | none => M.WholeRuns t (callsOf t log)
  | some q => ∃ p es, M.Latest t p log es ∧ p.Leads es q

theorem Accounts.start {t : T} {log : List (T × Event I)} {p : Prog I ε Unit}
    (h : M.Accounts t log none) (hentry : M.entry t p) : M.Accounts t log (some p) :=
  ⟨p, [], ⟨hentry, _, h, (List.append_nil _).symm⟩, .refl p⟩

theorem Accounts.call {t : T} {log : List (T × Event I)} {o : I.Op} {k : I.Answer o → Prog I ε Unit}
    (h : M.Accounts t log (some (.call o k))) (r : I.Answer o) :
    M.Accounts t (log ++ [(t, ⟨o, r⟩)]) (some (k r)) := by
  obtain ⟨p, es, ⟨hentry, earlier, hruns, hcalls⟩, hleads⟩ := h
  refine ⟨p, es ++ [⟨o, r⟩], ⟨hentry, earlier, hruns, ?_⟩, hleads.snoc r⟩
  rw [callsOf_append, hcalls, callsOf_self, List.append_assoc]

/-- A run that ends is a whole one. -/
theorem Accounts.finish {t : T} {log : List (T × Event I)} {q : Prog I ε Unit} {out : Except ε Unit}
    (h : M.Accounts t log (some q)) (hq : q.Trace [] (some out)) : M.Accounts t log none := by
  obtain ⟨p, es, ⟨hentry, earlier, hruns, hcalls⟩, hleads⟩ := h
  have htrace := hleads.trace hq
  rw [List.append_nil] at htrace
  show M.WholeRuns t (callsOf t log)
  rw [hcalls]
  exact hruns.snoc hentry htrace

/-- A call of another thread does not show among its own. -/
theorem Accounts.other {t u : T} {log : List (T × Event I)} {e : Event I} {q : Option (Prog I ε Unit)}
    (h : M.Accounts t log q) (hne : u ≠ t) : M.Accounts t (log ++ [(u, e)]) q := by
  have hcalls : callsOf t (log ++ [(u, e)]) = callsOf t log := by
    rw [callsOf_append, callsOf_other hne, List.append_nil]
  cases q with
  | none =>
    show M.WholeRuns t (callsOf t (log ++ [(u, e)]))
    rwa [hcalls]
  | some q =>
    obtain ⟨p, es, ⟨hentry, earlier, hruns, hcut⟩, hleads⟩ := h
    exact ⟨p, es, ⟨hentry, earlier, hruns, hcalls.trans hcut⟩, hleads⟩

/-- What a thread runs has made the latest calls of that thread. -/
theorem accounts_of_reach (hr : M.logging.Reach (fresh w) c) (t : T) :
    M.Accounts t c.world.2 (c.running t) := by
  induction hr with
  | refl => exact .nil
  | @tail c c' hr hs ih =>
    cases hs with
    | @start u p hrun hentry =>
      by_cases ht : t = u
      · subst ht
        rw [hrun] at ih
        simpa using ih.start hentry
      · simpa [ht] using ih
    | @call u o k r w' hrun hserve =>
      show M.Accounts t w'.2 _
      rw [hserve.2]
      by_cases ht : t = u
      · subst ht
        rw [hrun] at ih
        simpa using ih.call r
      · simpa [ht] using ih.other (Ne.symm ht)
    | @returned u a hrun =>
      by_cases ht : t = u
      · subst ht
        rw [hrun] at ih
        simpa using ih.finish (.returned a)
      · simpa [ht] using ih
    | @raised u e hrun =>
      by_cases ht : t = u
      · subst ht
        rw [hrun] at ih
        simpa using ih.finish (.raised e)
      · simpa [ht] using ih
    | @background w' hb =>
      show M.Accounts t w'.2 _
      rw [hb.2]
      exact ih

/-- What holds of a log that is empty, and of one with one more call of a program in a world that `J`
describes, holds of every log. -/
theorem log_of_reach {J : W → List (T × Event I) → Prop} (hr : M.logging.Reach (fresh w) c)
    (hstart : J w [])
    (hcall : ∀ t w log o r w' p, J w log → M.serves t w o r w' → M.Performs t p log ⟨o, r⟩ →
      J w' (log ++ [(t, ⟨o, r⟩)]))
    (hbackground : ∀ running w log w', J w log → M.background running w w' → J w' log) :
    J c.world.1 c.world.2 := by
  induction hr with
  | refl => exact hstart
  | @tail c c' hr hs ih =>
    cases hs with
    | start hrun hentry => exact ih
    | @call t o k r w' hrun hserve =>
      obtain ⟨hserve, hlog⟩ := hserve
      have haccounts := accounts_of_reach hr t
      rw [hrun] at haccounts
      obtain ⟨p, es, hlatest, hleads⟩ := haccounts
      show J w'.1 w'.2
      rw [hlog]
      exact hcall t _ _ o r _ p ih hserve ⟨es, hlatest, hleads.trace (.step (.cut _))⟩
    | returned hrun => exact ih
    | raised hrun => exact ih
    | @background w' hb =>
      obtain ⟨hb, hlog⟩ := hb
      show J w'.1 w'.2
      rw [hlog]
      exact hbackground _ _ _ _ ih hb

end Machine

end SenseGateway.Effects

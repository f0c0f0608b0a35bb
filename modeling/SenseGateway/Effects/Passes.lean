import SenseGateway.Effects.Prog

namespace SenseGateway.Effects

variable {I : Interface} {ε α β : Type}

/-- The discipline that allows every call and remembers all of them. -/
def Protocol.history : Protocol I (List (Event I)) := ⟨fun _ _ => True, fun es o r => es ++ [⟨o, r⟩]⟩

theorem Protocol.after_history (es es' : List (Event I)) : Protocol.history.after es es' = es ++ es' := by
  induction es' generalizing es with
  | nil => exact (List.append_nil es).symm
  | cons e es' ih =>
    show Protocol.history.after (es ++ [e]) es' = es ++ e :: es'
    rw [ih, List.append_assoc, List.singleton_append]

namespace Prog

section decompose

variable {es : List (Event I)}

theorem trace_pure {a : α} {out : Except ε α} :
    Trace (pure a) es (some out) ↔ es = [] ∧ out = .ok a := by
  constructor
  · rintro (_ | _)
    exact ⟨rfl, rfl⟩
  · rintro ⟨rfl, rfl⟩
    exact .returned a

theorem trace_throw {e : ε} {out : Except ε α} :
    Trace (throw e) es (some out) ↔ es = [] ∧ out = .error e := by
  constructor
  · rintro (_ | _)
    exact ⟨rfl, rfl⟩
  · rintro ⟨rfl, rfl⟩
    exact .raised e

/-- The run of a program made of two parts is one of the first part alone, which raised, or one of
both. -/
theorem trace_bind {p : Prog I ε α} {f : α → Prog I ε β} {out : Except ε β} :
    Trace (p.bind f) es (some out) ↔
      (∃ e, out = .error e ∧ Trace p es (some (.error e))) ∨
        ∃ a es₁ es₂, es = es₁ ++ es₂ ∧ Trace p es₁ (some (.ok a)) ∧ Trace (f a) es₂ (some out) := by
  induction p generalizing es with
  | pure a =>
    rw [pure_bind]
    constructor
    · exact fun h => .inr ⟨a, [], es, rfl, .returned a, h⟩
    · rintro (⟨e, -, h⟩ | ⟨a', es₁, es₂, rfl, h, hf⟩)
      · cases (trace_pure.mp h).2
      · obtain ⟨rfl, ha⟩ := trace_pure.mp h
        cases ha
        exact hf
  | throw e =>
    rw [throw_bind]
    constructor
    · intro h
      obtain ⟨rfl, rfl⟩ := trace_throw.mp h
      exact .inl ⟨e, rfl, .raised e⟩
    · rintro (⟨e', rfl, h⟩ | ⟨a, es₁, es₂, rfl, h, hf⟩)
      · obtain ⟨rfl, he⟩ := trace_throw.mp h
        cases he
        exact .raised e
      · cases (trace_throw.mp h).2
  | call o k ih =>
    rw [call_bind, trace_call]
    constructor
    · rintro ⟨r, es', rfl, hr⟩
      rcases (ih r).mp hr with ⟨e, rfl, hp⟩ | ⟨a, es₁, es₂, rfl, hp, hf⟩
      · exact .inl ⟨e, rfl, .step hp⟩
      · exact .inr ⟨a, _ :: es₁, es₂, rfl, .step hp, hf⟩
    · rintro (⟨e, rfl, h⟩ | ⟨a, es₁, es₂, rfl, h, hf⟩)
      · obtain ⟨r, es', rfl, hp⟩ := trace_call.mp h
        exact ⟨r, es', rfl, (ih r).mpr (.inl ⟨e, rfl, hp⟩)⟩
      · obtain ⟨r, es', rfl, hp⟩ := trace_call.mp h
        exact ⟨r, es' ++ es₂, rfl, (ih r).mpr (.inr ⟨a, es', es₂, rfl, hp, hf⟩)⟩

/-- A `finally` part that is one call comes last, however the rest ends. -/
theorem trace_ensure_call {p : Prog I ε α} {o : I.Op} {k : I.Answer o → Prog I ε Unit}
    (hk : ∀ r, k r = pure ()) {out : Except ε α} :
    Trace (p.ensure (call o k)) es (some out) ↔
      ∃ es' r, es = es' ++ [⟨o, r⟩] ∧ Trace p es' (some out) := by
  induction p generalizing es with
  | pure a =>
    simp only [ensure, call_bind, hk, pure_bind, trace_call, trace_pure]
    constructor
    · rintro ⟨r, _, rfl, rfl, rfl⟩
      exact ⟨[], r, rfl, rfl, rfl⟩
    · rintro ⟨_, r, rfl, rfl, rfl⟩
      exact ⟨r, [], rfl, rfl, rfl⟩
  | throw e =>
    simp only [ensure, call_bind, hk, pure_bind, trace_call, trace_throw]
    constructor
    · rintro ⟨r, _, rfl, rfl, rfl⟩
      exact ⟨[], r, rfl, rfl, rfl⟩
    · rintro ⟨_, r, rfl, rfl, rfl⟩
      exact ⟨r, [], rfl, rfl, rfl⟩
  | call o' k' ih =>
    simp only [ensure, trace_call, ih]
    constructor
    · rintro ⟨r', _, rfl, es', r, rfl, hp⟩
      exact ⟨_ :: es', r, rfl, r', es', rfl, hp⟩
    · rintro ⟨_, r, rfl, r', es', rfl, hp⟩
      exact ⟨r', _, rfl, es', r, rfl, hp⟩

/-- A handler that makes no calls leaves no trace. -/
theorem trace_of_handle {p : Prog I ε α} {h : ε → Prog I ε α} {out : Except ε α}
    (hh : ∀ e, Makes (fun _ => False) (h e)) (htrace : Trace (p.handle h) es (some out)) :
    ∃ out', Trace p es (some out') := by
  induction p generalizing es with
  | pure a => exact ⟨out, htrace⟩
  | throw e =>
    have hnil : es = [] := List.eq_nil_iff_forall_not_mem.mpr fun o ho => (hh e).of_trace htrace o ho
    rw [hnil]
    exact ⟨.error e, .raised e⟩
  | call o k ih =>
    obtain ⟨r, es', rfl, hr⟩ := trace_call.mp htrace
    obtain ⟨out', h'⟩ := ih r hr
    exact ⟨out', .step h'⟩

end decompose

/-- What a `for` loop over the list makes of it: the values it comes to, each with the calls of its
pass. A pass that raises is the last one. -/
inductive Passes (body : β → Prog I ε Unit) :
    List β → List (β × List (Event I)) → Except ε Unit → Prop
  | done : Passes body [] [] (.ok ())
  | raised {x xs es e} : Trace (body x) es (some (.error e)) →
      Passes body (x :: xs) [(x, es)] (.error e)
  | next {x xs es passes out} : Trace (body x) es (some (.ok ())) → Passes body xs passes out →
      Passes body (x :: xs) ((x, es) :: passes) out

theorem passes_of_trace {xs : List β} {body : β → Prog I ε Unit} {es : List (Event I)}
    {out : Except ε Unit} (h : Trace (forEach xs body) es (some out)) :
    ∃ passes, Passes body xs passes out ∧ es = passes.flatMap Prod.snd := by
  induction xs generalizing es with
  | nil =>
    obtain ⟨rfl, rfl⟩ := trace_pure.mp h
    exact ⟨[], .done, rfl⟩
  | cons x xs ih =>
    rcases trace_bind.mp h with ⟨e, rfl, hx⟩ | ⟨_, es₁, es₂, rfl, hx, hxs⟩
    · exact ⟨[(x, es)], .raised hx, by simp⟩
    · obtain ⟨passes, hpasses, rfl⟩ := ih hxs
      exact ⟨(x, es₁) :: passes, .next hx hpasses, by simp⟩

/-- Every pass is a run of the body for a value of the list. -/
theorem Passes.trace {body : β → Prog I ε Unit} {xs : List β} {passes : List (β × List (Event I))}
    {out : Except ε Unit} (h : Passes body xs passes out) :
    ∀ pass ∈ passes, pass.1 ∈ xs ∧ ∃ out', Trace (body pass.1) pass.2 (some out') := by
  induction h with
  | done => simp
  | raised h => simpa using ⟨_, h⟩
  | next h _ ih =>
    rintro pass (_ | ⟨_, hpass⟩)
    · exact ⟨List.mem_cons_self, _, h⟩
    · exact ⟨List.mem_cons_of_mem _ (ih pass hpass).1, (ih pass hpass).2⟩

/-- A loop that ends without an exception has come to every value. -/
theorem Passes.map_fst {body : β → Prog I ε Unit} {xs : List β} {passes : List (β × List (Event I))}
    (h : Passes body xs passes (.ok ())) : passes.map Prod.fst = xs := by
  generalize hout : Except.ok () = out at h
  induction h with
  | done => rfl
  | raised => cases hout
  | next _ _ ih => rw [List.map_cons, ih hout]

/-- A program run from a history adds its own calls to it. -/
theorem wp_history (p : Prog I ε α) (l : List (Event I)) :
    p.wp .history (fun a l' => ∃ es, l' = l ++ es ∧ Trace p es (some (.ok a)))
      (fun e l' => ∃ es, l' = l ++ es ∧ Trace p es (some (.error e))) l := by
  induction p generalizing l with
  | pure a => exact ⟨[], (List.append_nil l).symm, .returned a⟩
  | throw e => exact ⟨[], (List.append_nil l).symm, .raised e⟩
  | call o k ih =>
    refine ⟨trivial, fun r => wp_mono ?_ ?_ (ih r _)⟩
    · rintro a _ ⟨es, rfl, h⟩
      exact ⟨⟨o, r⟩ :: es, by simp [Protocol.history], .step h⟩
    · rintro e _ ⟨es, rfl, h⟩
      exact ⟨⟨o, r⟩ :: es, by simp [Protocol.history], .step h⟩

theorem wp_history_of_makes {ok : I.Op → Prop} {p : Prog I ε α} (h : Makes ok p)
    (l : List (Event I)) :
    p.wp .history (fun _ l' => ∃ es, l' = l ++ es ∧ ∀ e ∈ es, ok e.op)
      (fun _ l' => ∃ es, l' = l ++ es ∧ ∀ e ∈ es, ok e.op) l := by
  refine wp_mono ?_ ?_ (wp_history p l)
  · rintro a _ ⟨es, rfl, htrace⟩
    exact ⟨es, rfl, h.of_trace htrace⟩
  · rintro e _ ⟨es, rfl, htrace⟩
    exact ⟨es, rfl, h.of_trace htrace⟩

theorem Trace.history {p : Prog I ε α} {es : List (Event I)} {out : Except ε α}
    {Q : α → List (Event I) → Prop} {E : ε → List (Event I) → Prop}
    (h : Trace p es (some out)) (hp : p.wp .history Q E []) :
    match out with
    | .ok a => Q a es
    | .error e => E e es := by
  have hend := (h.wp hp).2
  rw [Protocol.after_history, List.nil_append] at hend
  cases out with
  | ok a => exact hend.1 a rfl
  | error e => exact hend.2 e rfl

end Prog

end SenseGateway.Effects

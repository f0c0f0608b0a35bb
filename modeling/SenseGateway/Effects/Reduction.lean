import SenseGateway.Effects.Runs
import SenseGateway.Effects.Threads
import SenseGateway.Queues.Lanes

namespace SenseGateway.Effects

open Relation Queues

variable {I : Interface} {ε Q K W : Type}
  {serves : W → (o : I.Op) → I.Answer o → W → Prop} {act : Q → W → W} {kind : Q → K}
  {looks : I.Op → K → Prop} {entry : Prog I ε Unit → Prop}

/-- A thread that runs programs beside requests of others, each of which takes effect at once. The
second part of the world lists the requests. -/
def requested (serves : W → (o : I.Op) → I.Answer o → W → Prop) (act : Q → W → W)
    (entry : Prog I ε Unit → Prop) : Machine I ε Unit (W × List Q) where
  serves _ w o r w' := serves w.1 o r w'.1 ∧ w'.2 = w.2
  background _ w w' := ∃ q, w' = (act q w.1, w.2 ++ [q])
  entry _ := entry

/-- Requests and whole programs, one after the other. -/
inductive Serial (serves : W → (o : I.Op) → I.Answer o → W → Prop) (act : Q → W → W)
    (entry : Prog I ε Unit → Prop) (w : W) : List Q → W → Prop
  | nil : Serial serves act entry w [] w
  | request {qs w'} (q : Q) : Serial serves act entry w qs w' →
      Serial serves act entry w (qs ++ [q]) (act q w')
  | program {qs w' p out w''} : Serial serves act entry w qs w' → entry p →
      p.Runs serves w' out w'' → Serial serves act entry w qs w''

/-- A request may change places with every call but those that look at requests of its kind, and
with requests of other kinds. -/
structure Movable (serves : W → (o : I.Op) → I.Answer o → W → Prop) (act : Q → W → W)
    (kind : Q → K) (looks : I.Op → K → Prop) : Prop where
  ahead : ∀ q w o r w', ¬ looks o (kind q) → serves w o r w' → serves (act q w) o r (act q w')
  behind : ∀ q w o r w', ¬ looks o (kind q) → serves (act q w) o r w' →
    ∃ w₁, serves w o r w₁ ∧ w' = act q w₁
  apart : ∀ q q' w, kind q ≠ kind q' → act q (act q' w) = act q' (act q w)

/-- A program looks at the requests of a kind at most once. -/
def looking (looks : I.Op → K → Prop) : Protocol I (K → Prop) where
  allowed seen o := ∀ k, seen k → ¬ looks o k
  next seen o _ k := seen k ∨ looks o k

def LooksOnce (looks : I.Op → K → Prop) (p : Prog I ε Unit) (seen : K → Prop) : Prop :=
  p.wp (looking looks) (fun _ _ => True) (fun _ _ => True) seen

def acts (act : Q → W → W) (qs : List Q) (w : W) : W := qs.foldl (fun w q => act q w) w

theorem acts_append (qs qs' : List Q) (w : W) :
    acts act (qs ++ qs') w = acts act qs' (acts act qs w) := List.foldl_append

namespace Movable

variable (h : Movable serves act kind looks) {o : I.Op} {r : I.Answer o} {w w' : W}
include h

theorem acts_ahead {qs : List Q} (hqs : ∀ q ∈ qs, ¬ looks o (kind q)) (hs : serves w o r w') :
    serves (acts act qs w) o r (acts act qs w') := by
  induction qs generalizing w w' with
  | nil => exact hs
  | cons q qs ih =>
    obtain ⟨hq, hqs⟩ := List.forall_mem_cons.mp hqs
    exact ih hqs (h.ahead q w o r w' hq hs)

theorem acts_behind {qs : List Q} (hqs : ∀ q ∈ qs, ¬ looks o (kind q))
    (hs : serves (acts act qs w) o r w') : ∃ w₁, serves w o r w₁ ∧ w' = acts act qs w₁ := by
  induction qs generalizing w with
  | nil => exact ⟨w', hs, rfl⟩
  | cons q qs ih =>
    obtain ⟨hq, hqs⟩ := List.forall_mem_cons.mp hqs
    obtain ⟨w₂, hs₂, rfl⟩ := ih hqs hs
    obtain ⟨w₁, hs₁, rfl⟩ := h.behind q w o r w₂ hq hs₂
    exact ⟨w₁, hs₁, rfl⟩

theorem acts_apart {q : Q} {qs : List Q} (hqs : ∀ q' ∈ qs, kind q ≠ kind q') (w : W) :
    act q (acts act qs w) = acts act qs (act q w) := by
  induction qs generalizing w with
  | nil => rfl
  | cons q' qs ih =>
    obtain ⟨hq, hqs⟩ := List.forall_mem_cons.mp hqs
    show act q (acts act qs (act q' w)) = acts act qs (act q' (act q w))
    rw [ih hqs, h.apart q q' w hq]

end Movable

/-- `p` is what is left of `p₀`, which began in `w₀` and has come to `w`, and the same so after any
requests of the kinds that it has not looked at. -/
structure Begun (serves : W → (o : I.Op) → I.Answer o → W → Prop) (act : Q → W → W)
    (kind : Q → K) (looks : I.Op → K → Prop) (p₀ : Prog I ε Unit) (w₀ : W) (p : Prog I ε Unit)
    (w : W) (seen : K → Prop) : Prop where
  once : LooksOnce looks p seen
  runs : ∀ qs : List Q, (∀ q ∈ qs, ¬ seen (kind q)) → ∀ out w',
    p.Runs serves (acts act qs w) out w' → p₀.Runs serves (acts act qs w₀) out w'

namespace Begun

variable {p₀ p : Prog I ε Unit} {w₀ w : W} {seen : K → Prop}

theorem start (hp : LooksOnce looks p seen) (w : W) : Begun serves act kind looks p w p w seen :=
  ⟨hp, fun _ _ _ _ hrun => hrun⟩

theorem call (h : Movable serves act kind looks) {o : I.Op} {k : I.Answer o → Prog I ε Unit}
    (hp : Begun serves act kind looks p₀ w₀ (.call o k) w seen) {r : I.Answer o} {w' : W}
    (hs : serves w o r w') :
    Begun serves act kind looks p₀ w₀ (k r) w' ((looking looks).next seen o r) := by
  refine ⟨hp.once.2 r, fun qs hqs out w'' hrun => ?_⟩
  have hunseen : ∀ q ∈ qs, ¬ seen (kind q) ∧ ¬ looks o (kind q) := fun q hq => not_or.mp (hqs q hq)
  exact hp.runs qs (fun q hq => (hunseen q hq).1) out w''
    (.call (h.acts_ahead (fun q hq => (hunseen q hq).2) hs) hrun)

/-- A request of a kind that was not looked at may have come first. -/
theorem request (hp : Begun serves act kind looks p₀ w₀ p w seen) {q : Q} (hq : ¬ seen (kind q)) :
    Begun serves act kind looks p₀ (act q w₀) p (act q w) seen :=
  ⟨hp.once, fun qs hqs => hp.runs (q :: qs) (List.forall_mem_cons.mpr ⟨hq, hqs⟩)⟩

end Begun

section order

variable [DecidableEq K]

/-- Where a thread is: what it does comes after some of the new requests and before the others, of
which it has seen none but has looked at their kinds. -/
def Ordered (serves : W → (o : I.Op) → I.Answer o → W → Prop) (act : Q → W → W) (kind : Q → K)
    (looks : I.Op → K → Prop) (entry : Prog I ε Unit → Prop) (w₀ : W) (new : List Q)
    (running : Option (Prog I ε Unit)) (w : W) : Prop :=
  match running with
  | none => ∃ qs, Serial serves act entry w₀ qs w ∧ ∀ k, lane kind k qs = lane kind k new
  | some p => ∃ qs later w₁ wp p₀ seen, Serial serves act entry w₀ qs w₁ ∧ entry p₀ ∧
      Begun serves act kind looks p₀ w₁ p wp seen ∧ (∀ q ∈ later, seen (kind q)) ∧
      w = acts act later wp ∧ ∀ k, lane kind k (qs ++ later) = lane kind k new

omit [DecidableEq K] in
theorem Serial.requests {w w' : W} {qs : List Q} (h : Serial serves act entry w qs w')
    (later : List Q) : Serial serves act entry w (qs ++ later) (acts act later w') := by
  induction later generalizing qs w' with
  | nil => simpa [acts] using h
  | cons q later ih =>
    have hnext := ih (h.request q)
    rwa [List.append_assoc] at hnext

theorem lane_swap_of_ne {q : Q} {later : List Q}
    (hother : ∀ q' ∈ later, kind q ≠ kind q') (k : K) :
    lane kind k [q] ++ lane kind k later = lane kind k later ++ lane kind k [q] := by
  by_cases hk : kind q = k
  · have hnone : lane kind k later = [] := by
      rw [lane, List.filter_eq_nil_iff]
      exact fun q' hq' hkind => hother q' hq' (hk.trans (of_decide_eq_true hkind).symm)
    rw [hnone, List.append_nil, List.nil_append]
  · have hnone : lane kind k [q] = [] := by simp [lane, hk]
    rw [hnone, List.append_nil, List.nil_append]

namespace Ordered

variable (h : Movable serves act kind looks) {w₀ w w' : W} {new : List Q}
  {running : Option (Prog I ε Unit)}

theorem start {p : Prog I ε Unit} (hentry : entry p) (hp : LooksOnce looks p fun _ => False)
    (ho : Ordered serves act kind looks entry w₀ new none w) :
    Ordered serves act kind looks entry w₀ new (some p) w := by
  obtain ⟨qs, hserial, hlanes⟩ := ho
  exact ⟨qs, [], w, w, p, fun _ => False, hserial, hentry, .start hp w, by simp, rfl,
    by simpa using hlanes⟩

include h in
theorem call {o : I.Op} {k : I.Answer o → Prog I ε Unit} {r : I.Answer o} (hs : serves w o r w')
    (ho : Ordered serves act kind looks entry w₀ new (some (.call o k)) w) :
    Ordered serves act kind looks entry w₀ new (some (k r)) w' := by
  obtain ⟨qs, later, w₁, wp, p₀, seen, hserial, hentry, hbegun, hlater, rfl, hlanes⟩ := ho
  have hnot : ∀ q ∈ later, ¬ looks o (kind q) := fun q hq => hbegun.once.1 _ (hlater q hq)
  obtain ⟨wp', hserve, rfl⟩ := h.acts_behind hnot hs
  exact ⟨qs, later, w₁, wp', p₀, _, hserial, hentry, hbegun.call h hserve,
    fun q hq => .inl (hlater q hq), rfl, hlanes⟩

theorem finish {p : Prog I ε Unit} {out : Except ε Unit}
    (hp : ∀ w, p.Runs serves w out w)
    (ho : Ordered serves act kind looks entry w₀ new (some p) w) :
    Ordered serves act kind looks entry w₀ new none w := by
  obtain ⟨qs, later, w₁, wp, p₀, seen, hserial, hentry, hbegun, hlater, rfl, hlanes⟩ := ho
  have hrun : p₀.Runs serves w₁ out wp := hbegun.runs [] (by simp) out wp (hp wp)
  exact ⟨qs ++ later, (hserial.program hentry hrun).requests later, hlanes⟩

include h in
/-- A request comes last, or if the program has not looked at its kind, ahead of the program. -/
theorem request (q : Q) (ho : Ordered serves act kind looks entry w₀ new running w) :
    Ordered serves act kind looks entry w₀ (new ++ [q]) running (act q w) := by
  cases running with
  | none =>
    obtain ⟨qs, hserial, hlanes⟩ := ho
    refine ⟨qs ++ [q], hserial.request q, fun k => ?_⟩
    rw [lane_append, lane_append, hlanes k]
  | some p =>
    obtain ⟨qs, later, w₁, wp, p₀, seen, hserial, hentry, hbegun, hlater, rfl, hlanes⟩ := ho
    by_cases hseen : seen (kind q)
    · refine ⟨qs, later ++ [q], w₁, wp, p₀, seen, hserial, hentry, hbegun, ?_, ?_, fun k => ?_⟩
      · exact fun q' hq' => (List.mem_append.mp hq').elim (hlater q') fun hlast =>
          List.mem_singleton.mp hlast ▸ hseen
      · exact (acts_append later [q] wp).symm
      · rw [← List.append_assoc, lane_append _ (qs ++ later), lane_append _ new, hlanes k]
    · have hother : ∀ q' ∈ later, kind q ≠ kind q' := fun q' hq' hkind =>
        hseen (hkind ▸ hlater q' hq')
      refine ⟨qs ++ [q], later, act q w₁, act q wp, p₀, seen, hserial.request q, hentry,
        hbegun.request hseen, hlater, h.acts_apart hother wp, fun k => ?_⟩
      have hlast := lane_swap_of_ne hother k
      rw [lane_append, lane_append, List.append_assoc, hlast, ← List.append_assoc, ← lane_append,
        hlanes k, ← lane_append]

include h in
/-- Every step keeps the order, whichever of the two it belongs to. -/
theorem step (honce : ∀ p, entry p → LooksOnce looks p fun _ => False)
    {c c' : Config I ε Unit (W × List Q)} (hs : (requested serves act entry).Step c c')
    (ho : Ordered serves act kind looks entry w₀ new (c.running ()) c.world.1) :
    ∃ added, c'.world.2 = c.world.2 ++ added ∧
      Ordered serves act kind looks entry w₀ (new ++ added) (c'.running ()) c'.world.1 := by
  cases hs with
  | @start t p hrun hentry =>
    obtain rfl : t = () := rfl
    rw [hrun] at ho
    refine ⟨[], (List.append_nil _).symm, ?_⟩
    rw [List.append_nil]
    exact ho.start hentry (honce p hentry)
  | @call t o k r w hrun hserve =>
    obtain rfl : t = () := rfl
    rw [hrun] at ho
    refine ⟨[], hserve.2.trans (List.append_nil _).symm, ?_⟩
    rw [List.append_nil]
    exact ho.call h hserve.1
  | @returned t a hrun =>
    obtain rfl : t = () := rfl
    rw [hrun] at ho
    refine ⟨[], (List.append_nil _).symm, ?_⟩
    rw [List.append_nil]
    exact ho.finish (.pure a)
  | @raised t e hrun =>
    obtain rfl : t = () := rfl
    rw [hrun] at ho
    refine ⟨[], (List.append_nil _).symm, ?_⟩
    rw [List.append_nil]
    exact ho.finish (.throw e)
  | @background w hb =>
    obtain ⟨q, rfl⟩ := hb
    exact ⟨[q], rfl, ho.request h q⟩

end Ordered

end order

end SenseGateway.Effects

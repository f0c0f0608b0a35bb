import Mathlib.Data.List.Chain
import Mathlib.Logic.Function.Basic

namespace SenseGateway.Signals

inductive Edge
  | rising
  | falling
  deriving DecidableEq, Repr

def Edge.of (c : Bool) : Edge := if c then .rising else .falling

/-- The edges of a signal that is at `level` before its first sample. -/
def edges (level : Bool) : List Bool → List Edge
  | [] => []
  | c :: cs => if c = level then edges level cs else Edge.of c :: edges c cs

/-- Two edges in a row are never of one kind, and the first leaves the level of the start. -/
theorem edges_alternate (level : Bool) (cs : List Bool) :
    (edges level cs).IsChain (· ≠ ·) ∧ (edges level cs).head? ≠ some (Edge.of level) := by
  induction cs generalizing level with
  | nil => simp [edges]
  | cons c cs ih =>
    by_cases hc : c = level
    · simpa only [edges, if_pos hc] using ih level
    · have hfirst : Edge.of c ≠ Edge.of level := by
        cases c <;> cases level <;> simp_all [Edge.of]
      have hrest := ih c
      simp only [edges, if_neg hc, List.head?_cons, ne_eq, Option.some.injEq]
      refine ⟨List.isChain_cons.mpr ⟨fun e he heq => ?_, hrest.1⟩, hfirst⟩
      rw [← heq] at he
      exact hrest.2 he

theorem edges_concat (level c : Bool) (cs : List Bool) :
    edges level (cs ++ [c]) =
      edges level cs ++ if c = cs.getLastD level then [] else [Edge.of c] := by
  induction cs generalizing level with
  | nil => by_cases hc : c = level <;> simp only [List.nil_append, edges, hc, List.getLastD]
  | cons b cs ih =>
    rw [List.getLastD_cons, List.cons_append, edges, edges]
    by_cases hb : b = level
    · rw [if_pos hb, if_pos hb, ih level, hb]
    · rw [if_neg hb, if_neg hb, ih b, List.cons_append]

theorem getLastD_append (a : Bool) (cs ds : List Bool) :
    (cs ++ ds).getLastD a = ds.getLastD (cs.getLastD a) := by
  induction cs generalizing a with
  | nil => rfl
  | cons c cs ih => rw [List.cons_append, List.getLastD_cons, List.getLastD_cons, ih]

theorem getLastD_of_forall {a c : Bool} {cs : List Bool} (hne : cs ≠ []) (h : ∀ c' ∈ cs, c' = c) :
    cs.getLastD a = c := by
  induction cs using List.reverseRecOn with
  | nil => exact absurd rfl hne
  | append_singleton cs c' _ =>
    rw [List.getLastD_concat]
    exact h c' (by simp)

theorem getLastD_eq_self {a : Bool} {cs : List Bool} (h : ∀ c ∈ cs, c = a) : cs.getLastD a = a := by
  by_cases hne : cs = []
  · rw [hne, List.getLastD_nil]
  · exact getLastD_of_forall hne h

section detector

variable {K α : Type} [DecidableEq K]

/-- The values that are logged under one key, in order. -/
def ofKey (k : K) (xs : List (K × α)) : List α := (xs.filter fun x => x.1 = k).map Prod.snd

@[simp] theorem mem_ofKey {k : K} {a : α} {xs : List (K × α)} : a ∈ ofKey k xs ↔ (k, a) ∈ xs := by
  simp [ofKey]

theorem ofKey_append (k : K) (xs ys : List (K × α)) :
    ofKey k (xs ++ ys) = ofKey k xs ++ ofKey k ys := by
  simp only [ofKey, List.filter_append, List.map_append]

theorem ofKey_map {β : Type} (f : α → β) (k : K) (xs : List (K × α)) :
    ofKey k (xs.map fun x => (x.1, f x.2)) = (ofKey k xs).map f := by
  simp only [ofKey, List.filter_map, List.map_map, Function.comp_def]

theorem ofKey_singleton_self (k : K) (a : α) : ofKey k [(k, a)] = [a] := by
  simp [ofKey]

theorem ofKey_singleton_ne {j k : K} (h : j ≠ k) (a : α) : ofKey k [(j, a)] = [] := by
  simp [ofKey, h]

/-- A detector has kept its promise on the samples and the edges so far: per key, the edges are
those of the key's samples, and the memory is its last level. -/
def Exact (memory : K → Option Bool) (samples : List (K × Bool)) (found : List (K × Edge)) : Prop :=
  ∀ k, ofKey k found = edges false (ofKey k samples) ∧
    (memory k).getD false = (ofKey k samples).getLastD false

theorem Exact.nil : Exact (fun _ : K => none) [] [] := fun _ => ⟨rfl, rfl⟩

variable {memory : K → Option Bool} {samples : List (K × Bool)} {found : List (K × Edge)}

/-- A sample that does not change its key's level. -/
theorem Exact.same (h : Exact memory samples found) {k : K} {c : Bool}
    (hc : c = (memory k).getD false) : Exact memory (samples ++ [(k, c)]) found := by
  intro j
  have hj := h j
  by_cases hjk : k = j
  · subst hjk
    have hlast : c = (ofKey k samples).getLastD false := hc.trans hj.2
    rw [ofKey_append, ofKey_singleton_self, edges_concat, if_pos hlast, List.append_nil,
      List.getLastD_concat]
    exact ⟨hj.1, hc.symm⟩
  · rw [ofKey_append, ofKey_singleton_ne hjk, List.append_nil]
    exact hj

/-- A sample that changes its key's level. -/
theorem Exact.change (h : Exact memory samples found) {k : K} {c : Bool}
    (hc : c ≠ (memory k).getD false) :
    Exact (Function.update memory k (some c)) (samples ++ [(k, c)])
      (found ++ [(k, Edge.of c)]) := by
  intro j
  have hj := h j
  by_cases hjk : k = j
  · subst hjk
    have hlast : c ≠ (ofKey k samples).getLastD false := fun heq => hc (heq.trans hj.2.symm)
    rw [ofKey_append, ofKey_append, ofKey_singleton_self, ofKey_singleton_self, edges_concat,
      if_neg hlast, hj.1, List.getLastD_concat, Function.update_self]
    exact ⟨rfl, rfl⟩
  · rw [ofKey_append, ofKey_append, ofKey_singleton_ne hjk, ofKey_singleton_ne hjk, List.append_nil,
      List.append_nil, Function.update_of_ne (Ne.symm hjk)]
    exact hj

end detector

end SenseGateway.Signals

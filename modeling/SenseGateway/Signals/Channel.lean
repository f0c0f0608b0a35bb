import Mathlib.Algebra.Group.Nat.Even
import SenseGateway.Signals.Edges

namespace SenseGateway.Signals

/-- The level of a signal after an edge. -/
def Edge.level : Edge → Bool
  | .rising => true
  | .falling => false

@[simp] theorem Edge.level_of (c : Bool) : (Edge.of c).level = c := by cases c <;> rfl

/-- Where a signal that starts low is after these edges. -/
def levelAfter (es : List Edge) : Bool := (es.getLast?.map Edge.level).getD false

@[simp] theorem levelAfter_concat (es : List Edge) (e : Edge) :
    levelAfter (es ++ [e]) = e.level := by
  simp [levelAfter]

/-- Every edge changes the level of a signal that starts low. -/
def Alternates (es : List Edge) : Prop := es.IsChain (· ≠ ·) ∧ es.head? ≠ some .falling

theorem alternates_edges (cs : List Bool) : Alternates (edges false cs) := edges_alternate false cs

theorem Alternates.of_concat {es : List Edge} {e : Edge} (h : Alternates (es ++ [e])) :
    Alternates es ∧ e.level ≠ levelAfter es := by
  obtain ⟨hchain, hhead⟩ := h
  obtain ⟨hes, -, hlink⟩ := List.isChain_append.mp hchain
  cases hlast : es.getLast? with
  | none =>
    obtain rfl : es = [] := List.getLast?_eq_none_iff.mp hlast
    have hrising : e = .rising := by cases e <;> simp_all
    exact ⟨⟨hes, by simp⟩, by simp [hrising, levelAfter, Edge.level]⟩
  | some last =>
    have hne : last ≠ e := hlink last hlast e (by simp)
    have hnil : es ≠ [] := by
      rintro rfl
      cases hlast
    refine ⟨⟨hes, ?_⟩, ?_⟩
    · rwa [List.head?_append_of_ne_nil _ hnil] at hhead
    · simp only [levelAfter, hlast, Option.map_some, Option.getD_some]
      cases e <;> cases last <;> simp_all [Edge.level]

theorem levelAfter_edges (cs : List Bool) : levelAfter (edges false cs) = cs.getLastD false := by
  induction cs using List.reverseRecOn with
  | nil => rfl
  | append_singleton cs c ih =>
    rw [edges_concat, List.getLastD_concat]
    split
    · rename_i hc
      rw [List.append_nil, ih, hc]
    · rw [levelAfter_concat, Edge.level_of]

theorem edges_append (level : Bool) (cs ds : List Bool) :
    edges level (cs ++ ds) = edges level cs ++ edges (cs.getLastD level) ds := by
  induction cs generalizing level with
  | nil => rfl
  | cons c cs ih =>
    rw [List.cons_append, edges, edges, List.getLastD_cons, ih c]
    split
    · rename_i hc
      rw [ih level, hc]
    · rfl

theorem edges_eq_nil_iff (level : Bool) (cs : List Bool) :
    edges level cs = [] ↔ ∀ c ∈ cs, c = level := by
  induction cs with
  | nil => simp [edges]
  | cons c cs ih =>
    rw [edges]
    split
    · rename_i hc
      rw [ih]
      simp [hc]
    · rename_i hc
      simp [hc]

section channel

variable {K : Type} [DecidableEq K]

/-- The level of a key as the other end of a channel knows it: the one after the last edge it has
received. Messages are numbered as they are sent. -/
def heard (received : ℕ → Bool) (k : K) (sent : List (K × Edge)) : Bool :=
  sent.zipIdx.foldl (fun level m => if m.1.1 = k ∧ received m.2 then m.1.2.level else level) false

/-- The number of edges of a key that were lost since the last one received. -/
def lost (received : ℕ → Bool) (k : K) (sent : List (K × Edge)) : ℕ :=
  sent.zipIdx.foldl (fun n m => if m.1.1 = k then if received m.2 then 0 else n + 1 else n) 0

variable (received : ℕ → Bool) (k : K) (sent : List (K × Edge))

theorem heard_concat (m : K × Edge) : heard received k (sent ++ [m]) =
    if m.1 = k ∧ received sent.length then m.2.level else heard received k sent := by
  simp [heard, List.zipIdx_append]

theorem lost_concat (m : K × Edge) : lost received k (sent ++ [m]) =
    if m.1 = k then if received sent.length then 0 else lost received k sent + 1
    else lost received k sent := by
  simp [lost, List.zipIdx_append]

/-- The two ends agree about a signal exactly where an even number of edges has been lost since
the last one received. -/
theorem heard_eq_iff_even {received : ℕ → Bool} {k : K} {sent : List (K × Edge)}
    (h : Alternates (ofKey k sent)) :
    heard received k sent = levelAfter (ofKey k sent) ↔ Even (lost received k sent) := by
  induction sent using List.reverseRecOn with
  | nil => simp [heard, lost, ofKey, levelAfter]
  | append_singleton sent m ih =>
    obtain ⟨j, e⟩ := m
    rw [heard_concat, lost_concat]
    by_cases hj : j = k
    · subst hj
      rw [ofKey_append, ofKey_singleton_self] at h ⊢
      obtain ⟨hsent, hflip⟩ := h.of_concat
      rw [levelAfter_concat]
      cases hr : received sent.length with
      | true => simp
      | false =>
        have hih := ih hsent
        simp only [Bool.false_eq_true, and_false, if_false, if_true, Nat.even_add_one, ← hih]
        -- the edge changed the level at this end only
        cases hheard : heard received j sent <;> cases hlevel : levelAfter (ofKey j sent) <;>
          simp_all
    · rw [ofKey_append, ofKey_singleton_ne hj, List.append_nil] at h ⊢
      simpa [hj] using ih h

/-- Once everything arrives, the first edge of a key makes up for what was lost. -/
theorem lost_append {received : ℕ → Bool} {k : K} {sent new : List (K × Edge)}
    (h : ∀ n, sent.length ≤ n → n < (sent ++ new).length → received n = true) :
    lost received k (sent ++ new) = if ofKey k new = [] then lost received k sent else 0 := by
  induction new using List.reverseRecOn with
  | nil => simp [ofKey]
  | append_singleton new m ih =>
    obtain ⟨j, e⟩ := m
    have harrived : received (sent ++ new).length = true := by
      apply h
      · simp
      · simp only [List.length_append, List.length_cons, List.length_nil]
        omega
    have hnew := ih fun n hn hlt => h n hn (by
      simp only [List.length_append, List.length_cons, List.length_nil] at hlt ⊢
      omega)
    rw [← List.append_assoc, lost_concat, harrived, ofKey_append]
    by_cases hj : j = k
    · subst hj
      simp [ofKey_singleton_self]
    · simp [hj, ofKey_singleton_ne hj, hnew]

end channel

end SenseGateway.Signals

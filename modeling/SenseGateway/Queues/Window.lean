import Mathlib.Data.List.Basic
import Mathlib.Logic.Function.Iterate
import Mathlib.Order.Monotone.Basic
import Mathlib.Order.Nat

namespace SenseGateway.Queues

variable {E : Type}

/-- What is left of a list when the wanted entries are gone. -/
def kept (wanted : E → Bool) (xs : List E) : List E := xs.filter fun e => !wanted e

/-- One sweep over the first `n` entries: the wanted ones leave, unless one of the `n` is fatal. -/
def sweep (wanted fatal : E → Bool) (n : ℕ) (xs : List E) : List E :=
  if (xs.take n).any fatal then xs else kept wanted (xs.take n) ++ xs.drop n

/-- How many entries the first `k` sweeps have come to, while none of them is fatal. -/
def reached (wanted : E → Bool) (n : ℕ) (xs : List E) : ℕ → ℕ
  | 0 => 0
  | k + 1 => reached wanted n xs k + (n - (kept wanted (xs.take (reached wanted n xs k))).length)

/-- What the first `k` sweeps leave, while no entry they have come to is fatal. -/
def leftAfter (wanted : E → Bool) (n : ℕ) (xs : List E) (k : ℕ) : List E :=
  kept wanted (xs.take (reached wanted n xs k)) ++ xs.drop (reached wanted n xs k)

/-- None of the entries the first `k` sweeps have come to is fatal. -/
def Harmless (wanted fatal : E → Bool) (n : ℕ) (xs : List E) (k : ℕ) : Prop :=
  ∀ e ∈ xs.take (reached wanted n xs k), fatal e = false

/-- While a wanted entry is still to come, the next sweep comes to further entries and meets
no fatal one. -/
def Unblocked (wanted fatal : E → Bool) (n : ℕ) (xs : List E) : Prop :=
  ∀ k, (∃ e ∈ xs.drop (reached wanted n xs k), wanted e = true) →
    Harmless wanted fatal n xs (k + 1) ∧ reached wanted n xs k < reached wanted n xs (k + 1)

variable {wanted fatal : E → Bool} {n : ℕ} {xs ys : List E}

theorem mem_kept {e : E} : e ∈ kept wanted xs ↔ e ∈ xs ∧ wanted e = false := by
  simp [kept]

theorem kept_append : kept wanted (xs ++ ys) = kept wanted xs ++ kept wanted ys :=
  List.filter_append _ _

theorem kept_kept : kept wanted (kept wanted xs) = kept wanted xs := by
  simp [kept, List.filter_filter]

/-- A sweep over a window with a fatal entry, or with no wanted one, changes nothing. -/
theorem sweep_eq_self (h : (∃ e ∈ xs.take n, fatal e = true) ∨ ∀ e ∈ xs.take n, wanted e = false) :
    sweep wanted fatal n xs = xs := by
  by_cases hfatal : (xs.take n).any fatal = true
  · exact if_pos hfatal
  · have hnone : ∀ e ∈ xs.take n, wanted e = false := by
      apply h.resolve_left
      simpa using hfatal
    have hkept : kept wanted (xs.take n) = xs.take n := by
      apply List.filter_eq_self.mpr
      intro e he
      rw [hnone e he, Bool.not_false]
    rw [sweep, if_neg hfatal, hkept, List.take_append_drop]

/-- Sweeping commutes with renaming the entries. -/
theorem sweep_map {D : Type} (f : D → E) (xs : List D) :
    sweep wanted fatal n (xs.map f) = (sweep (wanted ∘ f) (fatal ∘ f) n xs).map f := by
  have hany : ((xs.map f).take n).any fatal = (xs.take n).any (fatal ∘ f) := by
    rw [← List.map_take, List.any_map]
  rw [sweep, sweep, hany]
  split
  · rfl
  · rw [List.map_append, kept, kept, ← List.map_take, List.filter_map, List.map_drop]
    rfl

theorem iterate_sweep_map {D : Type} (f : D → E) (m : ℕ) (xs : List D) :
    (sweep wanted fatal n)^[m] (xs.map f) = ((sweep (wanted ∘ f) (fatal ∘ f) n)^[m] xs).map f := by
  have hcomm : Function.Semiconj (List.map f) (sweep (wanted ∘ f) (fatal ∘ f) n)
      (sweep wanted fatal n) := fun xs => (sweep_map f xs).symm
  exact (hcomm.iterate_right m xs).symm

theorem reached_mono : Monotone (reached wanted n xs) :=
  monotone_nat_of_le_succ fun _ => Nat.le_add_right _ _

theorem Harmless.mono {j k : ℕ} (h : Harmless wanted fatal n xs k) (hjk : j ≤ k) :
    Harmless wanted fatal n xs j :=
  fun e he => h e (List.take_subset_take_left xs (reached_mono hjk) he)

/-- The kept entries always fit in the window. -/
theorem kept_length_le (k : ℕ) : (kept wanted (xs.take (reached wanted n xs k))).length ≤ n := by
  induction k with
  | zero => simp [reached, kept]
  | succ k ih =>
    have hmore (m : ℕ) : (kept wanted ((xs.drop (reached wanted n xs k)).take m)).length ≤ m :=
      Nat.le_trans (List.length_filter_le _ _) (List.length_take_le _ _)
    rw [reached, List.take_add, kept_append, List.length_append]
    have := hmore (n - (kept wanted (xs.take (reached wanted n xs k))).length)
    omega

/-- The next window: what was kept, and the entries the sweep comes to for the first time. -/
theorem take_leftAfter (k : ℕ) :
    (leftAfter wanted n xs k).take n =
      kept wanted (xs.take (reached wanted n xs k)) ++ (xs.drop (reached wanted n xs k)).take
        (n - (kept wanted (xs.take (reached wanted n xs k))).length) := by
  rw [leftAfter, List.take_append, List.take_of_length_le (kept_length_le k)]

theorem drop_leftAfter (k : ℕ) :
    (leftAfter wanted n xs k).drop n = xs.drop (reached wanted n xs (k + 1)) := by
  rw [leftAfter, List.drop_append, List.drop_of_length_le (kept_length_le k), List.nil_append,
    List.drop_drop, reached]

theorem sweep_leftAfter {k : ℕ} (h : Harmless wanted fatal n xs (k + 1)) :
    sweep wanted fatal n (leftAfter wanted n xs k) = leftAfter wanted n xs (k + 1) := by
  have hclear : ¬ ((leftAfter wanted n xs k).take n).any fatal = true := by
    rw [take_leftAfter, List.any_eq_true]
    rintro ⟨e, he, hfatal⟩
    have hmem : e ∈ xs.take (reached wanted n xs (k + 1)) := by
      rw [reached, List.take_add, List.mem_append]
      exact (List.mem_append.mp he).imp_left fun he => (mem_kept.mp he).1
    rw [h e hmem] at hfatal
    cases hfatal
  rw [sweep, if_neg hclear, drop_leftAfter, take_leftAfter, leftAfter, reached, List.take_add,
    kept_append, kept_append, kept_kept]

/-- While no fatal entry is met, `k` sweeps leave what was kept of the entries they came to. -/
theorem iterate_sweep {k : ℕ} (h : Harmless wanted fatal n xs k) :
    (sweep wanted fatal n)^[k] xs = leftAfter wanted n xs k := by
  induction k with
  | zero => simp [leftAfter, reached, kept]
  | succ k ih =>
    rw [Function.iterate_succ_apply', ih (h.mono (Nat.le_succ k)), sweep_leftAfter h]

/-- Where the next sweep meets a fatal entry or comes to nothing new, the sweeps have stopped. -/
theorem sweep_stuck {k : ℕ} (h : Harmless wanted fatal n xs k)
    (hstuck : ¬ (Harmless wanted fatal n xs (k + 1) ∧
      reached wanted n xs k < reached wanted n xs (k + 1))) :
    sweep wanted fatal n (leftAfter wanted n xs k) = leftAfter wanted n xs k := by
  by_cases hnext : Harmless wanted fatal n xs (k + 1)
  · have hsame : reached wanted n xs (k + 1) = reached wanted n xs k := by
      have hmono : reached wanted n xs k ≤ reached wanted n xs (k + 1) := reached_mono (Nat.le_succ k)
      have hnot : ¬ reached wanted n xs k < reached wanted n xs (k + 1) := fun hlt =>
        hstuck ⟨hnext, hlt⟩
      omega
    rw [sweep_leftAfter hnext, leftAfter, leftAfter, hsame]
  · obtain ⟨e, he, hfatal⟩ : ∃ e ∈ xs.take (reached wanted n xs (k + 1)), fatal e = true := by
      simpa [Harmless] using hnext
    apply sweep_eq_self
    refine .inl ⟨e, ?_, hfatal⟩
    rw [reached, List.take_add, List.mem_append] at he
    rw [take_leftAfter, List.mem_append]
    refine he.imp_left fun he => ?_
    rw [h e he] at hfatal
    cases hfatal

theorem wanted_mem_leftAfter {k : ℕ} (h : ∃ e ∈ xs.drop (reached wanted n xs k), wanted e = true) :
    ∃ e ∈ leftAfter wanted n xs k, wanted e = true := by
  obtain ⟨e, he, hw⟩ := h
  exact ⟨e, List.mem_append_right _ he, hw⟩

theorem no_wanted_leftAfter {k : ℕ} (h : ∀ e ∈ xs.drop (reached wanted n xs k), wanted e = false) :
    ∀ e ∈ leftAfter wanted n xs k, wanted e = false := by
  intro e he
  exact (List.mem_append.mp he).elim (fun hk => (mem_kept.mp hk).2) (h e)

/-- The first `k` sweeps each come to a further entry, unless nothing wanted is left before. -/
theorem reached_or_cleared (h : Unblocked wanted fatal n xs) (k : ℕ) :
    (∃ j ≤ k, Harmless wanted fatal n xs j ∧
      ∀ e ∈ xs.drop (reached wanted n xs j), wanted e = false) ∨
      Harmless wanted fatal n xs k ∧ k ≤ reached wanted n xs k := by
  induction k with
  | zero => exact .inr ⟨by simp [Harmless, reached], Nat.zero_le _⟩
  | succ k ih =>
    rcases ih with ⟨j, hj, hdone⟩ | ⟨hharmless, hle⟩
    · exact .inl ⟨j, by omega, hdone⟩
    · by_cases hw : ∃ e ∈ xs.drop (reached wanted n xs k), wanted e = true
      · obtain ⟨hnext, hlt⟩ := h k hw
        exact .inr ⟨hnext, by omega⟩
      · exact .inl ⟨k, by omega, hharmless, by simpa using hw⟩

/-- Sweeping rids a list of its wanted entries in as many sweeps as it has entries exactly where
nothing blocks it. -/
theorem cleared_iff_unblocked :
    (∃ m ≤ xs.length, ∀ e ∈ (sweep wanted fatal n)^[m] xs, wanted e = false) ↔
      Unblocked wanted fatal n xs := by
  constructor
  · rintro ⟨m, -, hm⟩ k
    induction k using Nat.strong_induction_on with
    | _ k ih =>
      intro hw
      have hbefore (j : ℕ) (hj : j ≤ k) : ∃ e ∈ xs.drop (reached wanted n xs j), wanted e = true := by
        obtain ⟨e, he, hwe⟩ := hw
        exact ⟨e, List.drop_subset_drop_left xs (reached_mono hj) he, hwe⟩
      have hharmless (j : ℕ) (hj : j ≤ k) : Harmless wanted fatal n xs j := by
        cases j with
        | zero => simp [Harmless, reached]
        | succ j => exact (ih j hj (hbefore j (by omega))).1
      by_contra hstuck
      -- the sweeps stop at the `k`-th, and it leaves a wanted entry, as every one before does
      have hfixed := Function.iterate_fixed (sweep_stuck (hharmless k le_rfl) hstuck)
      obtain ⟨e, he, hwe⟩ : ∃ e ∈ (sweep wanted fatal n)^[m] xs, wanted e = true := by
        by_cases hmk : m ≤ k
        · rw [iterate_sweep (hharmless m hmk)]
          exact wanted_mem_leftAfter (hbefore m hmk)
        · obtain ⟨d, rfl⟩ := Nat.exists_eq_add_of_le' (Nat.le_of_not_le hmk)
          rw [Function.iterate_add_apply, iterate_sweep (hharmless k le_rfl), hfixed d]
          exact wanted_mem_leftAfter hw
      rw [hm e he] at hwe
      cases hwe
  · intro h
    rcases reached_or_cleared h xs.length with ⟨j, hj, hharmless, hdone⟩ | ⟨hharmless, hle⟩
    · refine ⟨j, hj, ?_⟩
      rw [iterate_sweep hharmless]
      exact no_wanted_leftAfter hdone
    · refine ⟨xs.length, le_rfl, ?_⟩
      rw [iterate_sweep hharmless]
      apply no_wanted_leftAfter
      rw [List.drop_of_length_le hle]
      simp

end SenseGateway.Queues

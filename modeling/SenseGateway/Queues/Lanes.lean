import Mathlib.Data.List.Infix
import Mathlib.Data.List.Nodup

namespace SenseGateway.Queues

variable {E K I : Type} [DecidableEq K] {key : E → K}

/-- The entries of one lane, in order. -/
def lane (key : E → K) (k : K) (xs : List E) : List E := xs.filter fun e => key e = k

theorem lane_append (k : K) (xs ys : List E) :
    lane key k (xs ++ ys) = lane key k xs ++ lane key k ys := List.filter_append _ _

theorem mem_lane {k : K} {xs : List E} {e : E} : e ∈ lane key k xs ↔ e ∈ xs ∧ key e = k := by
  simp [lane]

/-- Where whole lanes are kept or dropped, each lane is all there or empty. -/
theorem lane_filter_key (keep : K → Bool) (k : K) (xs : List E) :
    lane key k (xs.filter fun e => keep (key e)) = if keep k then lane key k xs else [] := by
  have hfilter : lane key k (xs.filter fun e => keep (key e)) =
      xs.filter fun e => decide (key e = k) && keep k := by
    rw [lane, List.filter_filter]
    apply List.filter_congr
    intro e _
    by_cases he : key e = k
    · simp only [he]
    · simp only [he, decide_false, Bool.false_and]
  rw [hfilter]
  cases keep k with
  | false => simp
  | true => simp [lane]

/-- Entries that are told apart by `f`: without those the filter keeps of the batch, the others of
the batch are left, and the rest. -/
theorem filter_not_mem_map [DecidableEq I] {f : E → I} {batch rest : List E} {keep : E → Bool}
    (hn : ((batch ++ rest).map f).Nodup) :
    ((batch ++ rest).filter fun e => f e ∉ (batch.filter keep).map f) =
      (batch.filter fun e => !keep e) ++ rest := by
  have hinj {a b : E} (ha : a ∈ batch ++ rest) (hb : b ∈ batch ++ rest) (hab : f a = f b) : a = b :=
    List.inj_on_of_nodup_map hn ha hb hab
  have hdisjoint : ∀ a ∈ batch, ∀ b ∈ rest, f a ≠ f b := by
    rw [List.map_append, List.nodup_append] at hn
    exact fun a ha b hb => hn.2.2 _ (List.mem_map_of_mem ha) _ (List.mem_map_of_mem hb)
  rw [List.filter_append]
  congr 1
  · apply List.filter_congr
    intro e he
    have hmem : f e ∈ (batch.filter keep).map f ↔ keep e = true := by
      constructor
      · intro h
        obtain ⟨a, ha, hae⟩ := List.mem_map.mp h
        have hae := hinj (List.mem_append_left _ (List.mem_filter.mp ha).1)
          (List.mem_append_left _ he) hae
        exact hae ▸ (List.mem_filter.mp ha).2
      · exact fun h => List.mem_map_of_mem (List.mem_filter.mpr ⟨he, h⟩)
    simp [hmem]
  · apply List.filter_eq_self.mpr
    intro e he
    simp only [decide_eq_true_eq]
    intro h
    obtain ⟨a, ha, hae⟩ := List.mem_map.mp h
    exact hdisjoint a (List.mem_filter.mp ha).1 e he hae

/-- In every lane the entries that were taken come first, and those that wait follow. -/
def InOrder (key : E → K) (entered taken waiting : List E) : Prop :=
  ∀ k, lane key k entered = lane key k taken ++ lane key k waiting

namespace InOrder

variable {entered taken waiting : List E}

theorem nil : InOrder key ([] : List E) [] [] := fun _ => rfl

theorem enter (h : InOrder key entered taken waiting) (e : E) :
    InOrder key (entered ++ [e]) taken (waiting ++ [e]) := by
  intro k
  rw [lane_append, lane_append, h k, List.append_assoc]

/-- Of a batch at the front, the entries of some lanes are taken and those of the others stay. -/
theorem take {batch rest : List E} (h : InOrder key entered taken (batch ++ rest))
    (keep : K → Bool) :
    InOrder key entered (taken ++ batch.filter fun e => keep (key e))
      ((batch.filter fun e => !keep (key e)) ++ rest) := by
  intro k
  have hdrop : lane key k (batch.filter fun e => !keep (key e)) = _ :=
    lane_filter_key (fun k => !keep k) k batch
  rw [h k, lane_append, lane_append, lane_append, lane_filter_key, hdrop]
  cases keep k <;> simp

theorem isPrefix (h : InOrder key entered taken waiting) (k : K) :
    lane key k taken <+: lane key k entered := by
  rw [h k]
  exact List.prefix_append _ _

theorem drop (h : InOrder key entered taken waiting) (k : K) :
    lane key k waiting = (lane key k entered).drop (lane key k taken).length := by
  rw [h k, List.drop_left]

theorem mem_or_mem (h : InOrder key entered taken waiting) {e : E} (he : e ∈ entered) :
    e ∈ taken ∨ e ∈ waiting := by
  have hlane : e ∈ lane key (key e) entered := mem_lane.mpr ⟨he, rfl⟩
  rw [h (key e), List.mem_append] at hlane
  exact hlane.imp (fun ht => (mem_lane.mp ht).1) fun hw => (mem_lane.mp hw).1

theorem mem_entered (h : InOrder key entered taken waiting) {e : E} (he : e ∈ taken) :
    e ∈ entered := by
  have hlane : e ∈ lane key (key e) taken := mem_lane.mpr ⟨he, rfl⟩
  exact (mem_lane.mp ((h.isPrefix (key e)).subset hlane)).1

theorem waiting_mem_entered (h : InOrder key entered taken waiting) {e : E} (he : e ∈ waiting) :
    e ∈ entered := by
  have hlane : e ∈ lane key (key e) entered := by
    rw [h (key e)]
    exact List.mem_append_right _ (mem_lane.mpr ⟨he, rfl⟩)
  exact (mem_lane.mp hlane).1

/-- What entered once is taken at most once. -/
theorem nodup_map (h : InOrder key entered taken waiting) {f : E → I}
    (hn : (entered.map f).Nodup) : (taken.map f).Nodup := by
  have hinj : ∀ a ∈ taken, ∀ b ∈ taken, f a = f b → a = b := fun a ha b hb hab =>
    List.inj_on_of_nodup_map hn (h.mem_entered ha) (h.mem_entered hb) hab
  have htaken : taken.Nodup := by
    rw [List.nodup_iff_sublist]
    intro a ha
    have hlane : lane key (key a) [a, a] = [a, a] := by simp [lane]
    have hsub : ([a, a] : List E).Sublist (lane key (key a) taken) := by
      rw [← hlane]
      exact ha.filter _
    have hentered := (hsub.trans (h.isPrefix (key a)).sublist).trans List.filter_sublist
    exact List.nodup_iff_sublist.mp (List.Nodup.of_map f hn) a hentered
  exact htaken.map_on hinj

end InOrder

end SenseGateway.Queues

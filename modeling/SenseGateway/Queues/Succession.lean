import SenseGateway.Queues.Lanes

namespace SenseGateway.Queues

variable {E K I : Type} [DecidableEq K] {key : E → K} {entered taken batch waiting : List E}

/-- Whenever an entry is taken, everything that entered its lane before it has been taken before. -/
def InSuccession (key : E → K) (entered taken : List E) : Prop :=
  ∀ before e after, taken = before ++ e :: after →
    ∀ ahead behind, lane key (key e) entered = ahead ++ e :: behind → ∀ a ∈ ahead, a ∈ before

/-- In every lane the batch is one stretch of what entered, and all that is ahead of it has been
taken. -/
def Continues (key : E → K) (entered taken batch : List E) : Prop :=
  ∀ k, ∃ ahead behind, lane key k entered = ahead ++ lane key k batch ++ behind ∧
    ∀ a ∈ ahead, a ∈ taken

/-- Where the first entry of its lane leaves, told apart from the others by `f`, every other lane
stays as it is. -/
theorem lane_without_first [DecidableEq I] {f : E → I} {e : E} {xs : List E}
    (hn : (xs.map f).Nodup) (hfirst : [e] <+: lane key (key e) xs) (k : K) :
    lane key k xs = lane key k [e] ++ lane key k (xs.filter fun x => f x ≠ f e) := by
  have hmem : e ∈ xs := (mem_lane.mp (hfirst.subset (List.mem_singleton_self e))).1
  have hinj {a : E} (ha : a ∈ xs) (hae : f a = f e) : a = e := List.inj_on_of_nodup_map hn ha hmem hae
  have hcomm : lane key k (xs.filter fun x => f x ≠ f e) =
      (lane key k xs).filter fun x => f x ≠ f e := List.filter_comm ..
  rw [hcomm]
  by_cases hk : key e = k
  · subst hk
    obtain ⟨tail, htail⟩ := hfirst
    have hnodup : (e :: tail).Nodup := by
      have hlane : (lane key (key e) xs).Nodup := (List.Nodup.of_map f hn).filter _
      rwa [← htail] at hlane
    have hothers : ∀ a ∈ tail, f a ≠ f e := fun a ha hae => by
      have hlane : a ∈ lane key (key e) xs := by
        rw [← htail]
        exact List.mem_append_right _ ha
      exact (List.nodup_cons.mp hnodup).1 (hinj (mem_lane.mp hlane).1 hae ▸ ha)
    have htails : (tail.filter fun x => f x ≠ f e) = tail :=
      List.filter_eq_self.mpr fun a ha => decide_eq_true (hothers a ha)
    rw [← htail, List.singleton_append, List.filter_cons_of_neg (by simp), htails]
    simp [lane]
  · have hnone : lane key k [e] = [] := by simp [lane, hk]
    have hothers : ∀ a ∈ lane key k xs, f a ≠ f e := fun a ha hae => by
      obtain ⟨hxs, hkey⟩ := mem_lane.mp ha
      exact hk (hinj hxs hae ▸ hkey)
    rw [hnone, List.nil_append, List.filter_eq_self.mpr fun a ha => decide_eq_true (hothers a ha)]

namespace Continues

theorem mem_entered (h : Continues key entered taken batch) {e : E} (he : e ∈ batch) :
    e ∈ entered := by
  obtain ⟨ahead, behind, hlane, -⟩ := h (key e)
  have hmem : e ∈ lane key (key e) batch := mem_lane.mpr ⟨he, rfl⟩
  have hentered : e ∈ lane key (key e) entered := by
    rw [hlane]
    simp [hmem]
  exact (mem_lane.mp hentered).1

theorem mono {taken' : List E} (h : Continues key entered taken batch) (hsub : taken ⊆ taken') :
    Continues key entered taken' batch := by
  intro k
  obtain ⟨ahead, behind, hlane, htaken⟩ := h k
  exact ⟨ahead, behind, hlane, fun a ha => hsub (htaken a ha)⟩

theorem enter (h : Continues key entered taken batch) (e : E) :
    Continues key (entered ++ [e]) taken batch := by
  intro k
  obtain ⟨ahead, behind, hlane, htaken⟩ := h k
  refine ⟨ahead, behind ++ lane key k [e], ?_, htaken⟩
  rw [lane_append, hlane, List.append_assoc _ behind]

/-- Whole lanes may be left out. -/
theorem filter_key (h : Continues key entered taken batch) (keep : K → Bool) :
    Continues key entered taken (batch.filter fun e => keep (key e)) := by
  intro k
  rw [lane_filter_key]
  cases keep k with
  | false => exact ⟨[], lane key k entered, rfl, nofun⟩
  | true => exact h k

/-- A batch from the front of what waits goes on where it should, if in every lane the waiting
entries are the last ones and the others have been taken. -/
theorem of_front (hunique : entered.Nodup)
    (hlast : ∀ k, lane key k waiting <:+ lane key k entered)
    (hothers : ∀ e ∈ entered, e ∉ waiting → e ∈ taken) (hbatch : batch <+: waiting) :
    Continues key entered taken batch := by
  intro k
  obtain ⟨ahead, hahead⟩ := hlast k
  obtain ⟨rest, rfl⟩ := hbatch
  rw [lane_append, ← List.append_assoc] at hahead
  refine ⟨ahead, lane key k rest, hahead.symm, fun a ha => ?_⟩
  have hlane : (ahead ++ (lane key k batch ++ lane key k rest)).Nodup := by
    rw [← List.append_assoc, hahead]
    exact hunique.filter _
  have hentered : a ∈ lane key k entered := by
    rw [← hahead]
    simp [ha]
  obtain ⟨hmem, hkey⟩ := mem_lane.mp hentered
  refine hothers a hmem fun hwaiting => ?_
  -- an entry stands ahead of its lane's waiting entries or among them, not both
  have hagain : a ∈ lane key k batch ++ lane key k rest := by
    rw [← lane_append]
    exact mem_lane.mpr ⟨hwaiting, hkey⟩
  exact (List.nodup_append.mp hlane).2.2 a ha a hagain rfl

end Continues

namespace InSuccession

theorem nil : InSuccession key entered [] := by
  intro before e after h
  cases before <;> cases h

theorem enter (h : InSuccession key entered taken) {e : E} (hnew : e ∉ taken) :
    InSuccession key (entered ++ [e]) taken := by
  intro before x after htaken ahead behind hlane a ha
  have hx : x ∈ taken := by simp [htaken]
  have hne : x ≠ e := fun hxe => hnew (hxe ▸ hx)
  rw [lane_append] at hlane
  by_cases hkey : key e = key x
  · have hlast : lane key (key x) [e] = [e] := by simp [lane, hkey]
    rw [hlast] at hlane
    -- the new entry is the last of its lane, so it stands behind `x`
    rcases List.eq_nil_or_concat behind with rfl | ⟨behind, b, rfl⟩
    · exact absurd (List.append_inj' hlane rfl).2 (by simpa using hne.symm)
    · have hsplit : lane key (key x) entered ++ [e] = (ahead ++ x :: behind) ++ [b] := by
        simpa using hlane
      exact h before x after htaken ahead behind (List.append_inj' hsplit rfl).1 a ha
  · have hnone : lane key (key x) [e] = [] := by simp [lane, hkey]
    rw [hnone, List.append_nil] at hlane
    exact h before x after htaken ahead behind hlane a ha

/-- A batch that goes on where it should is taken in succession, however much of it was taken
before. -/
theorem append (h : InSuccession key entered taken) (hunique : entered.Nodup)
    (hbatch : Continues key entered taken batch) : InSuccession key entered (taken ++ batch) := by
  intro before e after hsplit ahead behind hlane a ha
  have hcase : (∃ c, taken = before ++ e :: c) ∨ ∃ b, before = taken ++ b ∧ batch = b ++ e :: after := by
    rcases List.append_eq_append_iff.mp hsplit with ⟨b, hb, hbatch⟩ | ⟨c, hc, htail⟩
    · exact .inr ⟨b, hb, hbatch⟩
    · cases c with
      | nil => exact .inr ⟨[], by simpa using hc.symm, by simpa using htail.symm⟩
      | cons x c =>
        obtain ⟨rfl, -⟩ := List.cons.inj htail
        exact .inl ⟨c, hc⟩
  rcases hcase with ⟨c, hc⟩ | ⟨b, rfl, rfl⟩
  · exact h before e c hc ahead behind hlane a ha
  · obtain ⟨front, rest, hstretch, htaken⟩ := hbatch (key e)
    have hcut : lane key (key e) (b ++ e :: after) =
        lane key (key e) b ++ e :: lane key (key e) after := by
      rw [lane_append]
      simp [lane]
    have hstretch' : lane key (key e) entered =
        (front ++ lane key (key e) b) ++ e :: (lane key (key e) after ++ rest) := by
      rw [hstretch, hcut]
      simp
    have hnodup : (lane key (key e) entered).Nodup := hunique.filter _
    rw [hlane] at hnodup hstretch'
    -- the entry stands at one place of its lane only
    have hnot : e ∉ ahead ∧ e ∉ behind := by
      simp only [List.nodup_append, List.nodup_cons, List.mem_cons] at hnodup
      exact ⟨fun hm => hnodup.2.2 e hm e (.inl rfl) rfl, hnodup.2.1.1⟩
    obtain ⟨rfl, -, -⟩ := (List.append_cons_inj_of_notMem hnot.1 hnot.2).mp hstretch'
    rcases List.mem_append.mp ha with ha | ha
    · exact List.mem_append_left _ (htaken a ha)
    · exact List.mem_append_right _ (mem_lane.mp ha).1

end InSuccession

end SenseGateway.Queues

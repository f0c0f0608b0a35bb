import SenseGateway.Signals.Edges

namespace SenseGateway.Signals

section ahead

variable {α : Type}

/-- The elements of a list, each with those ahead of it. -/
def ahead : List α → List (List α × α)
  | [] => []
  | x :: xs => ([], x) :: (ahead xs).map fun p => (x :: p.1, p.2)

@[simp] theorem map_snd_ahead (xs : List α) : (ahead xs).map Prod.snd = xs := by
  induction xs with
  | nil => rfl
  | cons x xs ih => simpa [ahead, Function.comp_def] using ih

theorem mem_ahead {xs before : List α} {x : α} :
    (before, x) ∈ ahead xs ↔ ∃ after, xs = before ++ x :: after := by
  induction xs generalizing before with
  | nil => simp [ahead]
  | cons y xs ih =>
    rw [ahead, List.mem_cons, List.mem_map]
    constructor
    · rintro (heq | ⟨⟨mid, z⟩, hmid, heq⟩)
      · cases heq
        exact ⟨xs, rfl⟩
      · cases heq
        obtain ⟨after, rfl⟩ := ih.mp hmid
        exact ⟨after, rfl⟩
    · rintro ⟨after, hsplit⟩
      cases before with
      | nil =>
        cases hsplit
        exact .inl rfl
      | cons z mid =>
        cases hsplit
        exact .inr ⟨(mid, x), ih.mpr ⟨after, rfl⟩, rfl⟩

/-- Among the elements that are kept, the same ones stand ahead, less those that are not kept. -/
theorem ahead_filter (keep : α → Bool) (xs : List α) : ahead (xs.filter keep) =
    ((ahead xs).filter fun p => keep p.2).map fun p => (p.1.filter keep, p.2) := by
  induction xs with
  | nil => rfl
  | cons x xs ih =>
    cases hx : keep x with
    | true =>
      simp only [List.filter_cons, hx, if_true, ahead, ih, List.filter_map, List.map_cons,
        List.map_map, Function.comp_def, List.filter_nil]
    | false =>
      simp only [List.filter_cons, hx, Bool.false_eq_true, if_false, ahead, ih, List.filter_map,
        List.map_map, Function.comp_def]

/-- What depends on the elements ahead is the same for each that is kept, whether or not the others
are dropped first, exactly where it does not depend on these. -/
theorem map_ahead_filter_eq_iff {β : Type} (keep : α → Bool) (f : List α → α → β) (xs : List α) :
    ((xs.zip ((ahead xs).map fun p => f p.1 p.2)).filter fun p => keep p.1).map Prod.snd =
        (ahead (xs.filter keep)).map (fun p => f p.1 p.2) ↔
      ∀ before x after, xs = before ++ x :: after → keep x = true →
        f before x = f (before.filter keep) x := by
  have hzip : xs.zip ((ahead xs).map fun p => f p.1 p.2) =
      (ahead xs).map fun p => (p.2, f p.1 p.2) := by
    refine Eq.trans ?_ List.zip_map'
    rw [map_snd_ahead]
  have hkept : (ahead xs).filter ((fun p : α × β => keep p.1) ∘ fun p => (p.2, f p.1 p.2)) =
      (ahead xs).filter fun p => keep p.2 := rfl
  rw [hzip, ahead_filter, List.filter_map, hkept, List.map_map, List.map_map, List.map_inj_left]
  constructor
  · intro h before x after hsplit hkeep
    exact h (before, x) (List.mem_filter.mpr ⟨mem_ahead.mpr ⟨after, hsplit⟩, hkeep⟩)
  · rintro h ⟨before, x⟩ hmem
    obtain ⟨hahead, hkeep⟩ := List.mem_filter.mp hmem
    obtain ⟨after, hsplit⟩ := mem_ahead.mp hahead
    exact h before x after hsplit hkeep

end ahead

/-- What a detector remembers of a key after these samples, where `entry` is what it remembered
before. -/
def entryAfter (entry : Option Bool) (cs : List Bool) : Option Bool :=
  cs.foldl (fun entry c => if c = entry.getD false then entry else some c) entry

@[simp] theorem entryAfter_append (entry : Option Bool) (cs ds : List Bool) :
    entryAfter entry (cs ++ ds) = entryAfter (entryAfter entry cs) ds := List.foldl_append

theorem getD_entryAfter (entry : Option Bool) (cs : List Bool) :
    (entryAfter entry cs).getD false = cs.getLastD (entry.getD false) := by
  induction cs generalizing entry with
  | nil => rfl
  | cons c cs ih =>
    have hc : (if c = entry.getD false then entry else some c).getD false = c := by
      split
      · rename_i hc
        exact hc.symm
      · rfl
    refine (ih _).trans ?_
    rw [List.getLastD_cons, hc]

theorem entryAfter_of_forall {entry : Option Bool} {cs : List Bool}
    (h : ∀ c ∈ cs, c = entry.getD false) : entryAfter entry cs = entry := by
  induction cs with
  | nil => rfl
  | cons c cs ih =>
    obtain ⟨hc, hcs⟩ := List.forall_mem_cons.mp h
    refine Eq.trans ?_ (ih hcs)
    change entryAfter (if c = entry.getD false then entry else some c) cs = _
    rw [if_pos hc]

end SenseGateway.Signals

import Mathlib.Data.List.Induction
import Mathlib.Data.List.Nodup

namespace SenseGateway.Python

/-- A dictionary: its entries in the order the keys were first set, each key once. -/
structure Dict (K V : Type) where
  entries : List (K × V)
  nodup : (entries.map Prod.fst).Nodup

namespace Dict

variable {K V : Type}

def empty : Dict K V := ⟨[], List.nodup_nil⟩

def keys (d : Dict K V) : List K := d.entries.map Prod.fst

def values (d : Dict K V) : List V := d.entries.map Prod.snd

variable [DecidableEq K]

theorem keys_replace (k : K) (v : V) (entries : List (K × V)) :
    (entries.map fun e => if e.1 = k then (k, v) else e).map Prod.fst = entries.map Prod.fst := by
  rw [List.map_map]
  refine List.map_congr_left fun e _ => ?_
  by_cases h : e.1 = k <;> simp [h]

/-- `d[k] = v` -/
def set (d : Dict K V) (k : K) (v : V) : Dict K V :=
  if h : k ∈ d.keys then
    ⟨d.entries.map fun e => if e.1 = k then (k, v) else e, by
      rw [keys_replace]
      exact d.nodup⟩
  else
    ⟨d.entries ++ [(k, v)], by
      rw [List.map_append, List.map_singleton, ← List.concat_eq_append]
      exact (List.nodup_concat _ _).mpr ⟨h, d.nodup⟩⟩

@[simp] theorem mem_keys_set (d : Dict K V) (k : K) (v : V) (j : K) :
    j ∈ (d.set k v).keys ↔ j = k ∨ j ∈ d.keys := by
  unfold set
  split
  · rename_i h
    rw [keys, keys_replace]
    exact ⟨.inr, fun hj => hj.elim (fun heq => heq ▸ h) id⟩
  · simp [keys, or_comm]

/-- `d.get(k)` -/
def lookup (d : Dict K V) (k : K) : Option V := d.entries.lookup k

theorem lookup_cons_eq_if (k : K) (e : K × V) (entries : List (K × V)) :
    (e :: entries).lookup k = if k = e.1 then some e.2 else entries.lookup k := by
  rw [List.lookup_cons]
  by_cases h : k = e.1
  · simp [h]
  · rw [beq_eq_false_iff_ne.mpr h, if_neg h]

theorem lookup_map_replace (k j : K) (v : V) (entries : List (K × V)) :
    (entries.map fun e => if e.1 = k then (k, v) else e).lookup j =
      if j = k then (entries.lookup j).map fun _ => v else entries.lookup j := by
  induction entries with
  | nil => simp
  | cons e entries ih =>
    rw [List.map_cons, lookup_cons_eq_if, ih, lookup_cons_eq_if]
    by_cases hk : e.1 = k
    · subst hk
      by_cases hj : j = e.1 <;> simp [hj]
    · by_cases hj : j = k
      · subst hj
        simp [hk, Ne.symm hk]
      · simp [hk, hj]

theorem lookup_eq_none {k : K} {entries : List (K × V)} :
    entries.lookup k = none ↔ k ∉ entries.map Prod.fst := by
  induction entries with
  | nil => simp
  | cons e entries ih =>
    rw [lookup_cons_eq_if, List.map_cons, List.mem_cons, not_or, ← ih]
    by_cases h : k = e.1 <;> simp [h]

theorem lookup_set (d : Dict K V) (k j : K) (v : V) :
    (d.set k v).lookup j = if j = k then some v else d.lookup j := by
  unfold lookup set
  split
  · rename_i hk
    rw [lookup_map_replace]
    by_cases hj : j = k
    · subst hj
      obtain ⟨w, hw⟩ := Option.ne_none_iff_exists'.mp fun h => lookup_eq_none.mp h hk
      simp [hw]
    · simp [hj]
  · rename_i hk
    rw [List.lookup_append, List.lookup_cons, List.lookup_nil]
    by_cases hj : j = k
    · subst hj
      simp [lookup_eq_none.mpr hk]
    · have hne : (j == k) = false := beq_eq_false_iff_ne.mpr hj
      simp [hj, hne]

/-- Of the values written under a key, the last one is there in the end. -/
theorem lookup_foldl_set (writes : List (K × V)) (d : Dict K V) (k : K) :
    (writes.foldl (fun d write => d.set write.1 write.2) d).lookup k =
      ((writes.filter fun write => write.1 = k).getLast?.map Prod.snd).or (d.lookup k) := by
  induction writes using List.reverseRecOn with
  | nil => simp
  | append_singleton writes write ih =>
    rw [List.foldl_append, List.foldl_cons, List.foldl_nil, lookup_set, ih, List.filter_append]
    by_cases h : write.1 = k
    · simp [h]
    · simp [h, Ne.symm h]

/-- A look-up in the entries that pass a test. -/
theorem lookup_filter (d : Dict K V) (p : V → Bool) (k : K) :
    (d.entries.filter fun e => p e.2).lookup k = (d.lookup k).filter p := by
  obtain ⟨entries, hnodup⟩ := d
  unfold lookup
  dsimp only at hnodup ⊢
  induction entries with
  | nil => rfl
  | cons e entries ih =>
    obtain ⟨hnot, hrest⟩ := List.nodup_cons.mp hnodup
    have hlater := ih hrest
    rw [lookup_cons_eq_if, List.filter_cons]
    by_cases hk : k = e.1
    · subst hk
      rw [lookup_eq_none.mpr hnot] at hlater
      cases hp : p e.2 with
      | true => simp [lookup_cons_eq_if, Option.filter, hp]
      | false => simp [hlater, Option.filter, hp]
    · cases hp : p e.2 with
      | true => simp [lookup_cons_eq_if, hk, hlater]
      | false => simp [hk, hlater]

end Dict

end SenseGateway.Python

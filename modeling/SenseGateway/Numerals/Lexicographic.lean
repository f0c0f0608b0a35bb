import Mathlib.Data.List.Lex
import Mathlib.Order.Monotone.Basic
import SenseGateway.Numerals.Positional

namespace SenseGateway.Numerals

section lists

variable {α β : Type} [LT α] [LT β]

/-- Texts that begin with parts of one length compare by these parts first. -/
theorem append_lt_append_iff {l l' r r' : List α} (h : l.length = l'.length) :
    l ++ r < l' ++ r' ↔ l < l' ∨ l = l' ∧ r < r' := by
  induction l generalizing l' with
  | nil =>
    obtain rfl : l' = [] := List.eq_nil_of_length_eq_zero h.symm
    simp
  | cons a l ih =>
    cases l' with
    | nil => cases h
    | cons b l' =>
      have htail := @ih l' (by simpa using h)
      simp only [List.cons_append, List.cons_lt_cons_iff, htail, List.cons.injEq]
      tauto

theorem append_eq_iff {α : Type} {l l' r r' : List α} (h : l.length = l'.length) :
    l ++ r = l' ++ r' ↔ l = l' ∧ r = r' := by
  constructor
  · intro heq
    exact List.append_inj heq h
  · rintro ⟨rfl, rfl⟩
    rfl

theorem map_lt_map_iff {f : α → β} {l l' : List α}
    (hlt : ∀ a ∈ l, ∀ b ∈ l', f a < f b ↔ a < b) (heq : ∀ a ∈ l, ∀ b ∈ l', f a = f b ↔ a = b) :
    l.map f < l'.map f ↔ l < l' := by
  induction l generalizing l' with
  | nil => cases l' <;> simp
  | cons a l ih =>
    cases l' with
    | nil => simp
    | cons b l' =>
      have htail := @ih l' (fun a ha b hb => hlt a (by simp [ha]) b (by simp [hb]))
        fun a ha b hb => heq a (by simp [ha]) b (by simp [hb])
      simp only [List.map_cons, List.cons_lt_cons_iff, htail, hlt a (by simp) b (by simp),
        heq a (by simp) b (by simp)]

end lists

/-- The start of an interval and the place within it compare lexicographically. -/
theorem start_add_lt_iff {start : ℕ → ℕ} (hstart : Monotone start) {a a' b b' : ℕ}
    (h : start a + b < start (a + 1)) (h' : start a' + b' < start (a' + 1)) :
    start a + b < start a' + b' ↔ a < a' ∨ a = a' ∧ b < b' := by
  rcases lt_trichotomy a a' with hlt | rfl | hgt
  · have hle := hstart (Nat.succ_le_of_lt hlt)
    simp only [hlt, true_or, iff_true]
    exact h.trans_le (hle.trans (Nat.le_add_right _ _))
  · simp
  · have hle := hstart (Nat.succ_le_of_lt hgt)
    have hnot : ¬ start a + b < start a' + b' :=
      not_lt.mpr ((h'.trans_le hle).le.trans (Nat.le_add_right _ _))
    simp only [hnot, false_iff]
    omega

theorem mul_add_lt_iff {base a a' b b' : ℕ} (h : b < base) (h' : b' < base) :
    a * base + b < a' * base + b' ↔ a < a' ∨ a = a' ∧ b < b' := by
  refine @start_add_lt_iff (fun n => n * base) (fun _ _ hle => Nat.mul_le_mul_right base hle)
    a a' b b' ?_ ?_
  · rw [Nat.succ_mul]
    omega
  · rw [Nat.succ_mul]
    omega

theorem digits_injective {base width m n : ℕ} (hm : m < base ^ width) (hn : n < base ^ width) :
    digits base width m = digits base width n ↔ m = n := by
  constructor
  · intro h
    rw [← value_digits hm, h, value_digits hn]
  · rintro rfl
    rfl

/-- Numerals of one width compare as their numbers do. -/
theorem digits_lt_iff {base width m n : ℕ} (hm : m < base ^ width) (hn : n < base ^ width) :
    digits base width m < digits base width n ↔ m < n := by
  induction width generalizing m n with
  | zero =>
    simp only [Nat.pow_zero, Nat.lt_one_iff] at hm hn
    simp [digits, hm, hn]
  | succ width ih =>
    have hm' : m / base < base ^ width :=
      Nat.div_lt_of_lt_mul (by rwa [Nat.pow_succ, Nat.mul_comm] at hm)
    have hn' : n / base < base ^ width :=
      Nat.div_lt_of_lt_mul (by rwa [Nat.pow_succ, Nat.mul_comm] at hn)
    have hbase : 0 < base := by
      by_contra hzero
      obtain rfl : base = 0 := by omega
      simp at hm
    have hsplit := @mul_add_lt_iff base (m / base) (n / base) (m % base) (n % base)
      (Nat.mod_lt m hbase) (Nat.mod_lt n hbase)
    rw [Nat.div_add_mod', Nat.div_add_mod'] at hsplit
    rw [digits, digits, append_lt_append_iff (by simp), ih hm' hn', digits_injective hm' hn',
      hsplit]
    simp only [List.cons_lt_cons_iff, List.lt_irrefl, and_false, or_false]

/-- Two pairs compare in the same way. -/
structure SameOrder {α β : Type} [LT α] [LT β] (a a' : α) (b b' : β) : Prop where
  lt : a < a' ↔ b < b'
  eq : a = a' ↔ b = b'

namespace SameOrder

variable {α β γ : Type} [LT α] [LT β] [LT γ]

theorem symm {a a' : α} {b b' : β} (h : SameOrder a a' b b') : SameOrder b b' a a' :=
  ⟨h.lt.symm, h.eq.symm⟩

theorem trans {a a' : α} {b b' : β} {c c' : γ} (h : SameOrder a a' b b')
    (h' : SameOrder b b' c c') : SameOrder a a' c c' :=
  ⟨h.lt.trans h'.lt, h.eq.trans h'.eq⟩

/-- Orders that are total agree on equality if they do on strict inequality. -/
theorem of_lt {α β : Type} [LinearOrder α] [LinearOrder β] {a a' : α} {b b' : β}
    (hlt : a < a' ↔ b < b') (hgt : a' < a ↔ b' < b) : SameOrder a a' b b' where
  lt := hlt
  eq := by
    have heq : a = a' ↔ ¬ a < a' ∧ ¬ a' < a :=
      ⟨fun h => ⟨h.not_lt, h.symm.not_lt⟩, fun h => le_antisymm (not_lt.mp h.2) (not_lt.mp h.1)⟩
    have heq' : b = b' ↔ ¬ b < b' ∧ ¬ b' < b :=
      ⟨fun h => ⟨h.not_lt, h.symm.not_lt⟩, fun h => le_antisymm (not_lt.mp h.2) (not_lt.mp h.1)⟩
    rw [heq, heq', hlt, hgt]

/-- Lists are compared by their parts, where the first parts have one length. -/
theorem append {p p' r r' : List α} {l l' m m' : List β} (h : SameOrder p p' l l')
    (h' : SameOrder r r' m m') (hp : p.length = p'.length) (hl : l.length = l'.length) :
    SameOrder (p ++ r) (p' ++ r') (l ++ m) (l' ++ m') where
  lt := by rw [append_lt_append_iff hp, append_lt_append_iff hl, h.lt, h.eq, h'.lt]
  eq := by rw [append_eq_iff hp, append_eq_iff hl, h.eq, h'.eq]

/-- One more digit of a mixed-radix number. -/
theorem digit {base x x' b b' : ℕ} {l l' : List ℕ} (h : SameOrder x x' l l')
    (hl : l.length = l'.length) (hb : b < base) (hb' : b' < base) :
    SameOrder (x * base + b) (x' * base + b') (l ++ [b]) (l' ++ [b']) where
  lt := by
    rw [mul_add_lt_iff hb hb', append_lt_append_iff hl, h.lt, h.eq]
    simp only [List.cons_lt_cons_iff, List.lt_irrefl, and_false, or_false]
  eq := by
    have hlt := @mul_add_lt_iff base x x' b b' hb hb'
    have hgt := @mul_add_lt_iff base x' x b' b hb' hb
    rw [append_eq_iff hl, ← h.eq, List.singleton_inj]
    omega

end SameOrder

end SenseGateway.Numerals

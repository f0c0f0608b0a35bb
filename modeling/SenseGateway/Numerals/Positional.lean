import Mathlib.Algebra.Order.Group.Nat
import Mathlib.Tactic.Ring

namespace SenseGateway.Numerals

/-- The last `width` digits of a number, the most significant one first. -/
def digits (base : ℕ) : ℕ → ℕ → List ℕ
  | 0, _ => []
  | width + 1, n => digits base width (n / base) ++ [n % base]

/-- The number these digits stand for. -/
def value (base : ℕ) (ds : List ℕ) : ℕ := ds.foldl (fun n d => base * n + d) 0

variable {base : ℕ}

@[simp] theorem length_digits (width n : ℕ) : (digits base width n).length = width := by
  induction width generalizing n with
  | zero => rfl
  | succ width ih => simp [digits, ih]

theorem lt_of_mem_digits (hbase : 0 < base) {width n d : ℕ} (h : d ∈ digits base width n) :
    d < base := by
  induction width generalizing n with
  | zero => cases h
  | succ width ih =>
    rcases List.mem_append.mp h with h | h
    · exact ih h
    · rw [List.mem_singleton.mp h]
      exact Nat.mod_lt n hbase

@[simp] theorem value_concat (ds : List ℕ) (d : ℕ) : value base (ds ++ [d]) = base * value base ds + d := by
  simp [value]

/-- A numeral of enough digits stands for its number. -/
theorem value_digits {width n : ℕ} (h : n < base ^ width) : value base (digits base width n) = n := by
  induction width generalizing n with
  | zero => simp_all [digits, value]
  | succ width ih =>
    have hquotient : n / base < base ^ width :=
      Nat.div_lt_of_lt_mul (by rwa [Nat.pow_succ, Nat.mul_comm] at h)
    rw [digits, value_concat, ih hquotient, Nat.div_add_mod]

end SenseGateway.Numerals

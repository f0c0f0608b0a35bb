import Mathlib.Logic.Relation
import Mathlib.Order.Basic

namespace SenseGateway.Effects

open Relation

variable {T Lock R : Type} [Preorder R]

/-- `t` waits for a lock that `u` holds. -/
def WaitsFor (holds : T → Lock → Prop) (wants : T → Option Lock) (t u : T) : Prop :=
  ∃ k, wants t = some k ∧ holds u k

variable {holds : T → Lock → Prop} {wants : T → Option Lock} {rank : Lock → R}

/-- Along a chain of waiting threads the rank of the lock waited for does not fall. -/
theorem rank_le_of_waits (hrank : ∀ t k j, wants t = some k → holds t j → rank j < rank k)
    {t u : T} (h : TransGen (WaitsFor holds wants) t u) :
    ∃ k j, wants t = some k ∧ holds u j ∧ rank k ≤ rank j := by
  induction h with
  | single h =>
    obtain ⟨k, hk, hj⟩ := h
    exact ⟨k, k, hk, hj, le_rfl⟩
  | tail _ h ih =>
    obtain ⟨k, j, hk, hj, hle⟩ := ih
    obtain ⟨k', hk', hj'⟩ := h
    exact ⟨k, k', hk, hj', hle.trans (hrank _ _ _ hk' hj).le⟩

/-- Threads that only wait for locks of a higher rank than all they hold cannot wait for each
other in a circle, nor a thread for itself. -/
theorem no_deadlock (hrank : ∀ t k j, wants t = some k → holds t j → rank j < rank k) (t : T) :
    ¬ TransGen (WaitsFor holds wants) t t := by
  intro h
  obtain ⟨k, j, hk, hj, hle⟩ := rank_le_of_waits hrank h
  exact (hrank t k j hk hj).not_ge hle

end SenseGateway.Effects

import SenseGateway.Effects.Schedule
import SenseGateway.Poller.World

namespace SenseGateway.Poller

open Python Effects Commands

/-- An environment that is computed: the calls are answered as `friendly` does, and a close hangs
until a move of its own lets it finish. A call that has to wait is not answered. -/
def oblige (t : Thread) (w : World) : (o : Call) → Option (o.Answer × World)
  | .acquire k => if w.holder k = none then some ((), w.grant t k) else none
  | .tryAcquire k => if w.holder k = none then some (true, w.grant t k) else some (false, w)
  | .release k => if w.holder k = some t then some ((), w.free k) else none
  | .filterPendingCloses => some (w.alive.length, { w with pending := w.alive })
  | .appendPendingClose c =>
    some ((), { w with pending := w.pending ++ [c], abandoned := c :: w.abandoned })
  | .warnCloseInFlight => some ((), { w with warned := Function.update w.warned t true })
  | .construct _ _ => some (.ok w.created, { w with created := w.created + 1 })
  | .connect c => some (.ok true,
      { w with connected := c :: w.connected, opened := Function.update w.opened t (some c) })
  | .startClose c => some ((), { w with closing := c :: w.closing })
  | .closeIsAlive c => some (decide (c ∉ w.closed), w)
  | .closeReturned _ => some ((), { w with opened := Function.update w.opened t none })
  | o => some (friendly o, w)

theorem serves_of_oblige {t : Thread} {w w' : World} {o : Call} {r : o.Answer}
    (h : oblige t w o = some (r, w')) : World.serves t w o r w' := by
  cases o with
  | acquire k =>
    simp only [oblige, Option.ite_none_right_eq_some, Option.some.injEq, Prod.mk.injEq] at h
    exact ⟨h.1, h.2.2.symm⟩
  | tryAcquire k =>
    simp only [oblige] at h
    split at h
    · obtain ⟨rfl, rfl⟩ : true = r ∧ w.grant t k = w' := by simpa using h
      exact ⟨‹_›, rfl⟩
    · obtain ⟨rfl, rfl⟩ : false = r ∧ w = w' := by simpa using h
      exact ⟨‹_›, rfl⟩
  | release k =>
    simp only [oblige, Option.ite_none_right_eq_some, Option.some.injEq, Prod.mk.injEq] at h
    exact ⟨h.1, h.2.2.symm⟩
  | filterPendingCloses =>
    simp only [oblige, Option.some.injEq, Prod.mk.injEq] at h
    exact ⟨h.1.symm, h.2.symm⟩
  | closeIsAlive c =>
    simp only [oblige, Option.some.injEq, Prod.mk.injEq] at h
    exact ⟨h.1.symm, h.2.symm⟩
  | construct d p =>
    obtain ⟨rfl, rfl⟩ : Except.ok w.created = r ∧ { w with created := w.created + 1 } = w' := by
      simpa only [oblige, Option.some.injEq, Prod.mk.injEq] using h
    exact ⟨rfl, rfl⟩
  | connect c =>
    simp only [oblige, Option.some.injEq, Prod.mk.injEq] at h
    obtain ⟨rfl, rfl⟩ := h
    rfl
  | _ =>
    simp only [oblige, Option.some.injEq, Prod.mk.injEq] at h
    exact h.2.symm

/-- The obliging environment of the poller. -/
def obliging (settings : Settings) : Driver (machine settings) :=
  ⟨oblige, fun _ _ _ _ _ => serves_of_oblige⟩

theorem entries_runDevice (settings : Settings) (device : Json) :
    (machine settings).entry .poll (runDevice settings device) := ⟨device, rfl⟩

theorem entries_executeCommand (settings : Settings) (command configuration : Json) :
    (machine settings).entry .command (executeCommand settings command configuration) :=
  ⟨command, configuration, rfl⟩

end SenseGateway.Poller

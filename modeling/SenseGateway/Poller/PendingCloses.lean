import Mathlib.Data.List.Nodup
import SenseGateway.Effects.Schedule
import SenseGateway.Python.Value

namespace SenseGateway.Poller.PendingCloses

open Python Effects

/-- The calls of `reap_pending_close_threads` and `close_client_with_timeout`, one for each
statement that touches `_PENDING_CLOSE_THREADS`, its lock or a close thread. A close thread is named
by a number. `reaped` and `returned` are no calls of the source: they mark the return of the one and
of the other function, `reaped` with the number that was returned. -/
inductive Call
  | acquire
  | release
  | tracked
  | isAlive (thread : ℕ)
  | assign (threads : List ℕ)
  | append (thread : ℕ)
  | start
  | join (thread : ℕ)
  | reaped (outstanding : ℕ)
  | returned (thread : ℕ)
  deriving DecidableEq, Repr

/-- `start` answers with the new thread, or with what `Thread.start` raises. -/
abbrev Call.Answer : Call → Type
  | .tracked => List ℕ
  | .isAlive _ => Bool
  | .start => PyExcept ℕ
  | _ => Unit

abbrev calls : Interface := ⟨Call, Call.Answer⟩

abbrev CloseM := Prog calls PyError

def perform (o : Call) : CloseM o.Answer := Prog.perform (I := calls) o

/-- `with _PENDING_CLOSE_THREADS_LOCK: body` -/
def withLock {α : Type} (body : CloseM α) : CloseM α := do
  perform .acquire
  body.ensure (perform .release)

/-- `[t for t in threads if t.is_alive()]` -/
def stillAlive : List ℕ → CloseM (List ℕ)
  | [] => return []
  | t :: threads => do
    let alive ← perform (.isAlive t)
    let rest ← stillAlive threads
    return if alive then t :: rest else rest

/-- What is only logged is left out. -/
def reapPendingCloseThreads : CloseM ℕ := do
  let alive ← withLock do
    let alive ← stillAlive (← perform .tracked)
    perform (.assign alive)
    return alive
  return alive.length

def closeClientWithTimeout : CloseM Unit := do
  perform (.reaped (← reapPendingCloseThreads))
  let thread ← Prog.ofExcept (← perform .start)
  perform (.join thread)
  if ← perform (.isAlive thread) then
    withLock (perform (.append thread))
  perform (.returned thread)

/-- What the last critical section of a thread saw and left: the tracked threads when it took the
lock, the threads it asked whether they are alive, and the tracked threads when it released it. -/
structure Visit where
  before : List ℕ
  found : List (ℕ × Bool)
  after : List ℕ

/-- `tracked` is `_PENDING_CLOSE_THREADS`, and the close threads are numbered from 0 to `started`.
`returned` has those whose call has returned. -/
structure World (T : Type) where
  holder : Option T
  tracked : List ℕ
  started : ℕ
  finished : List ℕ
  returned : List ℕ
  visit : T → Visit

variable {T : Type}

namespace World

def initial : World T := ⟨none, [], 0, [], [], fun _ => ⟨[], [], []⟩⟩

variable [DecidableEq T]

def setVisit (w : World T) (u : T) (v : Visit) : World T :=
  { w with visit := Function.update w.visit u v }

/-- What is tested is only noted in a critical section. -/
def note (w : World T) (u : T) (t : ℕ) (alive : Bool) : World T :=
  if w.holder = some u then
    w.setVisit u { w.visit u with found := (w.visit u).found ++ [(t, alive)] }
  else w

def serves (u : T) (w : World T) : (o : Call) → o.Answer → World T → Prop
  | .acquire, _, w' =>
    w.holder = none ∧ w' = { w.setVisit u ⟨w.tracked, [], w.tracked⟩ with holder := some u }
  | .release, _, w' =>
    w.holder = some u ∧
      w' = { w.setVisit u { w.visit u with after := w.tracked } with holder := none }
  | .tracked, threads, w' => threads = w.tracked ∧ w' = w
  | .isAlive t, alive, w' => alive = decide (t ∉ w.finished) ∧ w' = w.note u t alive
  | .assign threads, _, w' => w' = { w with tracked := threads }
  | .append t, _, w' => w' = { w with tracked := w.tracked ++ [t] }
  | .start, .ok t, w' => t = w.started ∧ w' = { w with started := w.started + 1 }
  | .start, .error _, w' => w' = w
  | .join _, _, w' => w' = w
  | .reaped _, _, w' => w' = w
  | .returned t, _, w' => w' = { w with returned := t :: w.returned }

end World

/-- A close thread that was started finishes. -/
def World.finish (w w' : World T) : Prop :=
  ∃ t < w.started, w' = { w with finished := t :: w.finished }

/-- Any number of threads that run the two functions over and over. -/
def machine (T : Type) [DecidableEq T] : Machine calls PyError T (World T) where
  serves := World.serves
  background _ := World.finish
  entry _ p := p = closeClientWithTimeout ∨
    p = reapPendingCloseThreads.bind fun outstanding => perform (.reaped outstanding)

abbrev CloseConfig (T : Type) := Config calls PyError T (World T)

def initial : CloseConfig T := ⟨.initial, fun _ => none⟩

/-- The threads found alive. -/
def kept (found : List (ℕ × Bool)) : List ℕ := (found.filter Prod.snd).map Prod.fst

/-- A return of `n` from a critical section that asked every tracked thread, counted those alive
and left them tracked. -/
structure Counted (v : Visit) (n : ℕ) : Prop where
  inspected : v.found.map Prod.fst = v.before
  count : n = v.found.countP Prod.snd
  left : v.after = kept v.found

/-- No close that is still alive is forgotten, and every reap counts and removes what it should. -/
structure Accounted [DecidableEq T] (c : CloseConfig T) : Prop where
  once : ∀ t ∈ c.world.returned, t ∉ c.world.finished → c.world.tracked.count t = 1
  counted : ∀ u n k, c.running u = some (.call (.reaped n) k) → Counted (c.world.visit u) n
  removed : ∀ c', (machine T).Step c c' → ∀ t ∈ c.world.tracked, t ∉ c'.world.tracked →
    t ∈ c.world.finished

/-- Where a thread is in a critical section: what it has left to ask and what it has found. Outside
of one, what it found in the last, if that was a reap. -/
inductive Phase
  | outside (last : Option (List (ℕ × Bool)))
  | entered
  | inspecting (rest : List ℕ) (found : List (ℕ × Bool))
  | written (found : List (ℕ × Bool))
  | appended

/-- `own` is the close thread of the call in progress, and whether it is accounted for. -/
structure Local where
  phase : Phase
  own : Option (ℕ × Bool)

namespace Local

def allowed (l : Local) : Call → Prop
  | .acquire => ∃ last, l.phase = .outside last
  | .release => l.phase = .appended ∨ ∃ found, l.phase = .written found
  | .tracked => l.phase = .entered
  | .isAlive t => (∃ rest found, l.phase = .inspecting (t :: rest) found) ∨
      (∃ last, l.phase = .outside last) ∧ l.own = some (t, false)
  | .assign threads => ∃ found, l.phase = .inspecting [] found ∧ threads = kept found
  | .append t => l.phase = .entered ∧ l.own = some (t, false)
  | .start => l.own = none
  | .reaped n => ∃ found, l.phase = .outside (some found) ∧ n = found.countP Prod.snd
  | .returned t => l.own = some (t, true)
  | .join _ => True

def next (l : Local) : (o : Call) → o.Answer → Local
  | .acquire, _ => { l with phase := .entered }
  | .release, _ =>
    match l.phase with
    | .written found => { l with phase := .outside (some found) }
    | _ => { l with phase := .outside none }
  | .tracked, threads => { l with phase := .inspecting threads [] }
  | .isAlive t, alive =>
    match l.phase with
    | .inspecting (_ :: rest) found => { l with phase := .inspecting rest (found ++ [(t, alive)]) }
    | _ => if alive then l else { l with own := some (t, true) }
  | .assign _, _ =>
    match l.phase with
    | .inspecting _ found => { l with phase := .written found }
    | _ => l
  | .append t, _ => ⟨.appended, some (t, true)⟩
  | .start, .ok t => { l with own := some (t, false) }
  | .returned _, _ => { l with own := none }
  | _, _ => l

/-- Between two calls of the two functions. -/
def Idle (l : Local) : Prop := (∃ last, l.phase = .outside last) ∧ l.own = none

end Local

def listProtocol : Protocol calls Local := ⟨Local.allowed, Local.next⟩

section wp

variable {own : Option (ℕ × Bool)}

theorem stillAlive_wp (threads : List ℕ) (found : List (ℕ × Bool)) :
    (stillAlive threads).wp listProtocol
      (fun alive l' => ∃ found', l' = ⟨.inspecting [] (found ++ found'), own⟩ ∧ alive = kept found')
      (fun _ _ => False) ⟨.inspecting threads found, own⟩ := by
  induction threads generalizing found with
  | nil => exact ⟨[], by rw [List.append_nil], rfl⟩
  | cons t threads ih =>
    refine ⟨.inl ⟨threads, found, rfl⟩, fun alive => ?_⟩
    show ((stillAlive threads).bind fun rest =>
      Prog.pure (if alive then t :: rest else rest)).wp listProtocol _ _
        ⟨.inspecting threads (found ++ [(t, alive)]), own⟩
    rw [Prog.wp_bind]
    refine Prog.wp_mono ?_ (fun _ _ => id) (ih (found ++ [(t, alive)]))
    rintro rest l' ⟨found', rfl, rfl⟩
    refine ⟨(t, alive) :: found', by simp, ?_⟩
    cases alive with
    | false => rfl
    | true => rfl

theorem wp_withLock {α : Type} {body : CloseM α} {Q : α → Local → Prop} {E : PyError → Local → Prop}
    {last : Option (List (ℕ × Bool))}
    (h : body.wp listProtocol
      (fun a l' => l'.allowed .release ∧ Q a (l'.next .release ()))
      (fun e l' => l'.allowed .release ∧ E e (l'.next .release ())) ⟨.entered, own⟩) :
    (withLock body).wp listProtocol Q E ⟨.outside last, own⟩ := by
  refine ⟨⟨last, rfl⟩, fun _ => ?_⟩
  show (body.ensure _).wp listProtocol Q E ⟨.entered, own⟩
  rw [Prog.wp_ensure]
  exact Prog.wp_mono (fun _ _ h => ⟨h.1, fun _ => h.2⟩) (fun _ _ h => ⟨h.1, fun _ => h.2⟩) h

theorem reapPendingCloseThreads_wp {last : Option (List (ℕ × Bool))} :
    reapPendingCloseThreads.wp listProtocol
      (fun n l' => ∃ found, l' = ⟨.outside (some found), own⟩ ∧ n = found.countP Prod.snd)
      (fun _ _ => False) ⟨.outside last, own⟩ := by
  have hsection : (withLock do
      let alive ← stillAlive (← perform .tracked)
      perform (.assign alive)
      return alive).wp listProtocol
        (fun alive l' => ∃ found, l' = ⟨.outside (some found), own⟩ ∧ alive = kept found)
        (fun _ _ => False) ⟨.outside last, own⟩ := by
    refine wp_withLock ⟨rfl, fun threads => ?_⟩
    show ((stillAlive threads).bind fun alive => (perform (.assign alive)).bind fun _ =>
      Prog.pure alive).wp listProtocol _ _ ⟨.inspecting threads [], own⟩
    rw [Prog.wp_bind]
    refine Prog.wp_mono ?_ (fun _ _ => False.elim) (stillAlive_wp threads [])
    rintro alive l' ⟨found, rfl, rfl⟩
    exact ⟨⟨found, rfl, rfl⟩, fun _ => ⟨.inr ⟨found, rfl⟩, found, rfl, rfl⟩⟩
  refine (Prog.wp_bind _ _).mpr (Prog.wp_mono ?_ (fun _ _ => id) hsection)
  rintro alive l' ⟨found, rfl, rfl⟩
  refine ⟨found, rfl, ?_⟩
  rw [kept, List.length_map, List.countP_eq_length_filter]

theorem closeClientWithTimeout_wp {last : Option (List (ℕ × Bool))} :
    closeClientWithTimeout.wp listProtocol (fun _ => Local.Idle) (fun _ => Local.Idle)
      ⟨.outside last, none⟩ := by
  refine (Prog.wp_bind _ _).mpr (Prog.wp_mono ?_ (fun _ _ => False.elim) reapPendingCloseThreads_wp)
  rintro n _ ⟨found, rfl, hn⟩
  refine ⟨⟨found, rfl, hn⟩, fun _ => ⟨rfl, fun r => ?_⟩⟩
  cases r with
  | error e => exact ⟨⟨some found, rfl⟩, rfl⟩
  | ok t =>
    refine ⟨trivial, fun _ => ⟨.inr ⟨⟨some found, rfl⟩, rfl⟩, fun alive => ?_⟩⟩
    cases alive with
    | false => exact ⟨rfl, fun _ => ⟨⟨some found, rfl⟩, rfl⟩⟩
    | true =>
      have happend : (withLock (perform (.append t))).wp listProtocol
          (fun _ l' => l' = ⟨.outside none, some (t, true)⟩) (fun _ _ => False)
          ⟨.outside (some found), some (t, false)⟩ :=
        wp_withLock ⟨⟨rfl, rfl⟩, fun _ => ⟨.inl rfl, rfl⟩⟩
      show ((withLock (perform (.append t))).bind fun _ => perform (.returned t)).wp listProtocol _ _
        ⟨.outside (some found), some (t, false)⟩
      refine (Prog.wp_bind _ _).mpr (Prog.wp_mono ?_ (fun _ _ => False.elim) happend)
      rintro _ _ rfl
      exact ⟨rfl, fun _ => ⟨⟨none, rfl⟩, rfl⟩⟩

theorem entry_wp [DecidableEq T] {t : T} {p : CloseM Unit} {l : Local} (hp : (machine T).entry t p) (hl : l.Idle) :
    p.wp listProtocol (fun _ => Local.Idle) (fun _ => Local.Idle) l := by
  obtain ⟨phase, own⟩ := l
  obtain ⟨⟨last, hphase⟩, hown⟩ := hl
  obtain rfl : phase = .outside last := hphase
  obtain rfl : own = none := hown
  rcases hp with rfl | rfl
  · exact closeClientWithTimeout_wp
  · refine (Prog.wp_bind _ _).mpr (Prog.wp_mono ?_ (fun _ _ => False.elim) reapPendingCloseThreads_wp)
    rintro n _ ⟨found, rfl, hn⟩
    exact ⟨⟨found, rfl, hn⟩, fun _ => ⟨⟨some found, rfl⟩, rfl⟩⟩

end wp

/-- The thread is in a critical section. -/
def Phase.Inside : Phase → Prop
  | .outside _ => False
  | _ => True

/-- The phase of a thread against the list and against what its section has noted. -/
def Phase.Fits (tracked : List ℕ) (v : Visit) : Phase → Prop
  | .outside none => True
  | .outside (some found) => v.found = found ∧ found.map Prod.fst = v.before ∧ v.after = kept found
  | .entered => tracked = v.before ∧ v.found = []
  | .inspecting rest found => tracked = v.before ∧ v.found = found ∧
      found.map Prod.fst ++ rest = v.before
  | .written found => tracked = kept found ∧ v.found = found ∧ found.map Prod.fst = v.before
  | .appended => True

/-- The critical sections exclude each other, and each has noted what its thread knows. -/
structure Sections (w : World T) (phases : T → Phase) : Prop where
  holder : ∀ u, w.holder = some u ↔ (phases u).Inside
  fits : ∀ u, (phases u).Fits w.tracked (w.visit u)
  dead : ∀ u t, (t, false) ∈ (w.visit u).found → t ∈ w.finished

/-- The thread is tracked or has finished. -/
def World.Settled (w : World T) (t : ℕ) : Prop := t ∈ w.tracked ∨ t ∈ w.finished

/-- Every close thread is accounted for: by the call that started it, until it is tracked or has
finished. -/
structure Accounts (w : World T) (owns : T → Option (ℕ × Bool)) : Prop where
  nodup : w.tracked.Nodup
  range : ∀ t ∈ w.tracked, t < w.started
  own : ∀ u t b, owns u = some (t, b) → t < w.started
  distinct : ∀ u v t b b', owns u = some (t, b) → owns v = some (t, b') → u = v
  fresh : ∀ u t, owns u = some (t, false) → t ∉ w.tracked
  settled : ∀ u t, owns u = some (t, true) → w.Settled t
  returned : ∀ t ∈ w.returned, w.Settled t

section accounts

variable {w w' : World T} {owns : T → Option (ℕ × Bool)} {u : T} {t : ℕ}

namespace Accounts

theorem congr (h : Accounts w owns) (ht : w'.tracked = w.tracked) (hs : w'.started = w.started)
    (hf : w'.finished = w.finished) (hr : w'.returned = w.returned) : Accounts w' owns := by
  obtain ⟨nodup, range, own, distinct, fresh, settled, returned⟩ := h
  constructor
  · rwa [ht]
  · rwa [ht, hs]
  · rwa [hs]
  · exact distinct
  · rwa [ht]
  · simpa only [World.Settled, ht, hf] using settled
  · simpa only [World.Settled, ht, hf, hr] using returned

/-- Only threads that have finished are dropped from the list. -/
theorem assign (h : Accounts w owns) {threads : List ℕ} (hsub : threads.Sublist w.tracked)
    (hdead : ∀ t ∈ w.tracked, t ∉ threads → t ∈ w.finished) :
    Accounts { w with tracked := threads } owns := by
  have settled (t : ℕ) (ht : w.Settled t) : World.Settled { w with tracked := threads } t := by
    by_cases hmem : t ∈ threads
    · exact .inl hmem
    · exact .inr (ht.elim (fun h => hdead t h hmem) id)
  exact ⟨h.nodup.sublist hsub, fun t ht => h.range t (hsub.mem ht), h.own, h.distinct,
    fun u t hu ht => h.fresh u t hu (hsub.mem ht), fun u t hu => settled t (h.settled u t hu),
    fun t ht => settled t (h.returned t ht)⟩

/-- The list grows by a thread that is settled otherwise or in nobody's hands. -/
theorem track (h : Accounts w owns) (ht : t < w.started) (hnew : t ∉ w.tracked)
    (hothers : ∀ v, owns v ≠ some (t, false)) :
    Accounts { w with tracked := w.tracked ++ [t] } owns := by
  have settled (t' : ℕ) (ht' : w.Settled t') :
      World.Settled { w with tracked := w.tracked ++ [t] } t' :=
    ht'.imp_left fun hmem => List.mem_append_left _ hmem
  refine ⟨?_, fun t' ht' => ?_, h.own, h.distinct, fun v t' hv => ?_,
    fun u t' hu => settled t' (h.settled u t' hu), fun t' ht' => settled t' (h.returned t' ht')⟩
  · exact List.Nodup.append h.nodup (List.nodup_singleton t) (List.disjoint_singleton.mpr hnew)
  · rcases List.mem_append.mp ht' with ht' | ht'
    · exact h.range t' ht'
    · obtain rfl := List.mem_singleton.mp ht'
      exact ht
  · rw [List.mem_append, List.mem_singleton, not_or]
    refine ⟨h.fresh v t' hv, ?_⟩
    rintro rfl
    exact hothers v hv

theorem finish (h : Accounts w owns) : Accounts { w with finished := t :: w.finished } owns := by
  have settled (t' : ℕ) (ht : w.Settled t') :
      World.Settled { w with finished := t :: w.finished } t' := ht.imp_right (List.mem_cons_of_mem t)
  exact ⟨h.nodup, h.range, h.own, h.distinct, h.fresh, fun u t' hu => settled t' (h.settled u t' hu),
    fun t' ht => settled t' (h.returned t' ht)⟩

theorem not_other (h : Accounts w owns) {b : Bool} (hu : owns u = some (t, b)) (v : T) (b' : Bool)
    (hne : v ≠ u) : owns v ≠ some (t, b') := fun hv => hne (h.distinct v u t b' b hv hu)

variable [DecidableEq T]

/-- A thread that enters or leaves the hands of a call, or is settled there. -/
theorem update (h : Accounts w owns) {o : Option (ℕ × Bool)}
    (hown : ∀ t b, o = some (t, b) → t < w.started)
    (hdistinct : ∀ v t b b', v ≠ u → o = some (t, b) → owns v ≠ some (t, b'))
    (hfresh : ∀ t, o = some (t, false) → t ∉ w.tracked)
    (hsettled : ∀ t, o = some (t, true) → w.Settled t) :
    Accounts w (Function.update owns u o) := by
  refine ⟨h.nodup, h.range, fun v t b hv => ?_, fun v v' t b b' hv hv' => ?_, fun v t hv => ?_,
    fun v t hv => ?_, h.returned⟩
  · rcases eq_or_ne v u with rfl | hne
    · exact hown t b (by simpa using hv)
    · exact h.own v t b (by simpa [hne] using hv)
  · rcases eq_or_ne v u with rfl | hne
    · rcases eq_or_ne v' v with rfl | hne'
      · rfl
      · exact absurd (by simpa [hne'] using hv') (hdistinct v' t b b' hne' (by simpa using hv))
    · rcases eq_or_ne v' u with rfl | hne'
      · exact absurd (by simpa [hne] using hv) (hdistinct v t b' b hne (by simpa using hv'))
      · exact h.distinct v v' t b b' (by simpa [hne] using hv) (by simpa [hne'] using hv')
  · rcases eq_or_ne v u with rfl | hne
    · exact hfresh t (by simpa using hv)
    · exact h.fresh v t (by simpa [hne] using hv)
  · rcases eq_or_ne v u with rfl | hne
    · exact hsettled t (by simpa using hv)
    · exact h.settled v t (by simpa [hne] using hv)

theorem release (h : Accounts w owns) : Accounts w (Function.update owns u none) :=
  h.update (fun _ _ => nofun) (fun _ _ _ _ _ => nofun) (fun _ => nofun) fun _ => nofun

theorem settle (h : Accounts w owns) (hu : owns u = some (t, false)) (ht : w.Settled t) :
    Accounts w (Function.update owns u (some (t, true))) := by
  refine h.update ?_ ?_ ?_ ?_
  · rintro _ _ ⟨⟩
    exact h.own u t false hu
  · rintro v _ _ b' hne ⟨⟩
    exact h.not_other hu v b' hne
  · rintro _ ⟨⟩
  · rintro _ ⟨⟩
    exact ht

theorem append (h : Accounts w owns) (hu : owns u = some (t, false)) :
    Accounts { w with tracked := w.tracked ++ [t] } (Function.update owns u (some (t, true))) := by
  -- the list grows while the thread is in nobody's hands
  have hothers : ∀ v b, Function.update owns u none v ≠ some (t, b) := by
    intro v b
    rcases eq_or_ne v u with rfl | hne
    · simp
    · simpa [hne] using h.not_other hu v b hne
  have hgrown := h.release.track (h.own u t false hu) (h.fresh u t hu) fun v => hothers v false
  have hidem : Function.update (Function.update owns u none) u (some (t, true)) =
      Function.update owns u (some (t, true)) := Function.update_idem _ _ _
  rw [← hidem]
  refine hgrown.update ?_ ?_ ?_ ?_
  · rintro _ _ ⟨⟩
    exact h.own u t false hu
  · rintro v _ _ b' - ⟨⟩
    exact hothers v b'
  · rintro _ ⟨⟩
  · rintro _ ⟨⟩
    exact .inl (by simp)

theorem start (h : Accounts w owns) :
    Accounts { w with started := w.started + 1 }
      (Function.update owns u (some (w.started, false))) := by
  have hmore : Accounts { w with started := w.started + 1 } owns :=
    ⟨h.nodup, fun t ht => (h.range t ht).trans w.started.lt_succ_self,
      fun u t b hu => (h.own u t b hu).trans w.started.lt_succ_self, h.distinct, h.fresh, h.settled,
      h.returned⟩
  refine hmore.update ?_ ?_ ?_ ?_
  · rintro _ _ ⟨⟩
    exact w.started.lt_succ_self
  · rintro v _ _ b' - ⟨⟩ hv
    exact (h.own v _ b' hv).ne rfl
  · rintro _ ⟨⟩ ht
    exact (h.range _ ht).ne rfl
  · rintro _ ⟨⟩

/-- A call returns whose thread is accounted for. -/
theorem hand (h : Accounts w owns) (hu : owns u = some (t, true)) :
    Accounts { w with returned := t :: w.returned } (Function.update owns u none) := by
  obtain ⟨nodup, range, own, distinct, fresh, settled, returned⟩ := h.release (u := u)
  refine ⟨nodup, range, own, distinct, fresh, settled, fun t' ht' => ?_⟩
  rcases List.mem_cons.mp ht' with rfl | ht'
  · exact h.settled u t' hu
  · exact returned t' ht'

end Accounts

end accounts

section sections

variable {w w' : World T} {phases : T → Phase} {u : T} {p : Phase}

namespace Sections

/-- While a thread holds the lock, the others are outside of their critical sections. -/
theorem outside (h : Sections w phases) (hu : (phases u).Inside) {v : T} (hne : v ≠ u) :
    ¬ (phases v).Inside := by
  rw [← h.holder] at hu ⊢
  rw [hu]
  exact fun heq => hne (Option.some.inj heq).symm

theorem fits_outside {tracked tracked' : List ℕ} {v : Visit} (hp : ¬ p.Inside)
    (h : p.Fits tracked v) : p.Fits tracked' v := by
  cases p with
  | outside last =>
    cases last with
    | none => exact trivial
    | some found => exact h
  | _ => exact absurd trivial hp

variable [DecidableEq T]

/-- One thread moves, and only in its own section does the list change. -/
theorem step (h : Sections w phases)
    (hholder : ∀ v, w'.holder = some v ↔ (Function.update phases u p v).Inside)
    (hothers : ∀ v, v ≠ u → w'.visit v = w.visit v) (hfinished : w'.finished = w.finished)
    (htracked : w'.tracked = w.tracked ∨ (phases u).Inside)
    (hfits : p.Fits w'.tracked (w'.visit u))
    (hdead : ∀ t, (t, false) ∈ (w'.visit u).found → t ∈ w'.finished) :
    Sections w' (Function.update phases u p) := by
  refine ⟨hholder, fun v => ?_, fun v t ht => ?_⟩
  · rcases eq_or_ne v u with rfl | hne
    · simpa using hfits
    · rw [Function.update_of_ne hne, hothers v hne]
      rcases htracked with heq | hu
      · rw [heq]
        exact h.fits v
      · exact fits_outside (h.outside hu hne) (h.fits v)
  · rcases eq_or_ne v u with rfl | hne
    · exact hdead t ht
    · rw [hothers v hne] at ht
      rw [hfinished]
      exact h.dead v t ht

/-- The same, of a thread that neither takes nor releases the lock. -/
theorem stay (h : Sections w phases) (hholder : w'.holder = w.holder)
    (hinside : p.Inside ↔ (phases u).Inside)
    (hothers : ∀ v, v ≠ u → w'.visit v = w.visit v) (hfinished : w'.finished = w.finished)
    (htracked : w'.tracked = w.tracked ∨ (phases u).Inside)
    (hfits : p.Fits w'.tracked (w'.visit u))
    (hdead : ∀ t, (t, false) ∈ (w'.visit u).found → t ∈ w'.finished) :
    Sections w' (Function.update phases u p) := by
  refine h.step (fun v => ?_) hothers hfinished htracked hfits hdead
  rcases eq_or_ne v u with rfl | hne
  · rw [hholder, h.holder, Function.update_self, hinside]
  · rw [hholder, h.holder, Function.update_of_ne hne]

end Sections

end sections

/-- What the threads know is so. -/
structure Known (w : World T) (ls : T → Local) : Prop where
  sections : Sections w (Local.phase ∘ ls)
  accounts : Accounts w (Local.own ∘ ls)

section machine

variable {w w' : World T} {ls : T → Local} {u : T} {l' : Local}

theorem kept_sublist (found : List (ℕ × Bool)) : (kept found).Sublist (found.map Prod.fst) :=
  List.filter_sublist.map Prod.fst

/-- What is not kept was found dead. -/
theorem dead_of_not_kept {found : List (ℕ × Bool)} {t : ℕ} (ht : t ∈ found.map Prod.fst)
    (hnot : t ∉ kept found) : (t, false) ∈ found := by
  obtain ⟨⟨t', alive⟩, hmem, rfl⟩ := List.mem_map.mp ht
  cases alive with
  | false => exact hmem
  | true =>
    have hkept : (t', true) ∈ found.filter Prod.snd := List.mem_filter.mpr ⟨hmem, rfl⟩
    exact absurd (List.mem_map_of_mem (f := Prod.fst) hkept) hnot

theorem known_finish (h : Known w ls) (hf : World.finish w w') : Known w' ls := by
  obtain ⟨t, -, rfl⟩ := hf
  exact ⟨⟨h.sections.holder, h.sections.fits,
    fun u t' ht' => List.mem_cons_of_mem t (h.sections.dead u t' ht')⟩, h.accounts.finish⟩

theorem known_initial : Known (.initial : World T) fun _ => ⟨.outside none, none⟩ := by
  refine ⟨⟨?_, ?_, ?_⟩, ⟨?_, ?_, ?_, ?_, ?_, ?_, ?_⟩⟩ <;>
    simp [World.initial, Phase.Inside, Phase.Fits]

/-- What a reap writes back lacks only threads that have finished. -/
theorem finished_of_assign (h : Known w ls) {threads : List ℕ}
    (ha : (ls u).allowed (.assign threads)) :
    threads.Sublist w.tracked ∧ ∀ t ∈ w.tracked, t ∉ threads → t ∈ w.finished := by
  obtain ⟨found, hphase, rfl⟩ := ha
  have hfits := h.sections.fits u
  obtain ⟨hbefore, hfound, hall⟩ : w.tracked = (w.visit u).before ∧ (w.visit u).found = found ∧
      found.map Prod.fst = (w.visit u).before := by
    simpa [hphase, Phase.Fits] using hfits
  rw [hbefore, ← hall]
  refine ⟨kept_sublist found, fun t ht hnot => ?_⟩
  have hdead := dead_of_not_kept ht hnot
  rw [← hfound] at hdead
  exact h.sections.dead u t hdead

variable [DecidableEq T]

namespace Known

theorem move (hs : Sections w' (Function.update (Local.phase ∘ ls) u l'.phase))
    (ha : Accounts w' (Function.update (Local.own ∘ ls) u l'.own)) :
    Known w' (Function.update ls u l') := by
  refine ⟨?_, ?_⟩
  · rwa [Function.comp_update]
  · rwa [Function.comp_update]

/-- A move that leaves the close thread of the call as it is. -/
theorem moveSection (hs : Sections w' (Function.update (Local.phase ∘ ls) u l'.phase))
    (ha : Accounts w' (Local.own ∘ ls)) (hown : l'.own = (ls u).own) :
    Known w' (Function.update ls u l') := by
  refine move hs ?_
  rwa [hown, show (ls u).own = (Local.own ∘ ls) u from rfl, Function.update_eq_self]

/-- A move outside of the critical sections. -/
theorem moveOwn (hs : Sections w' (Local.phase ∘ ls))
    (ha : Accounts w' (Function.update (Local.own ∘ ls) u l'.own))
    (hphase : l'.phase = (ls u).phase) : Known w' (Function.update ls u l') := by
  refine move ?_ ha
  rwa [hphase, show (ls u).phase = (Local.phase ∘ ls) u from rfl, Function.update_eq_self]

theorem same (h : Known w ls) : Known w (Function.update ls u (ls u)) := by
  rwa [Function.update_eq_self]

end Known

theorem known_acquire (h : Known w ls) (hs : World.serves u w .acquire () w') :
    Known w' (Function.update ls u ((ls u).next .acquire ())) := by
  obtain ⟨hfree, rfl⟩ := hs
  refine Known.moveSection (h.sections.step (fun v => ?_) (fun v hne => ?_) rfl (.inl rfl) ?_ ?_)
    (h.accounts.congr rfl rfl rfl rfl) rfl
  · rcases eq_or_ne v u with rfl | hne
    · simp [Local.next, Phase.Inside]
    · rw [Function.update_of_ne hne, ← h.sections.holder, hfree]
      simp [hne.symm]
  · exact Function.update_of_ne hne _ _
  · simp [World.setVisit, Local.next, Phase.Fits]
  · simp [World.setVisit]

theorem known_release (h : Known w ls) (hs : World.serves u w .release () w')
    (ha : (ls u).allowed .release) :
    Known w' (Function.update ls u ((ls u).next .release ())) := by
  obtain ⟨hheld, rfl⟩ := hs
  have hfits := h.sections.fits u
  have hothers (v : T) (hne : v ≠ u) : ¬ (ls v).phase.Inside := by
    rw [show (ls v).phase = (Local.phase ∘ ls) v from rfl, ← h.sections.holder, hheld]
    exact fun heq => hne (Option.some.inj heq).symm
  refine Known.moveSection (h.sections.step (fun v => ?_) (fun v hne => ?_) rfl (.inl rfl) ?_ ?_)
    (h.accounts.congr rfl rfl rfl rfl) ?_
  · rcases eq_or_ne v u with rfl | hne
    · rcases ha with hp | ⟨found, hp⟩ <;> simp [Local.next, hp, Phase.Inside]
    · simpa [hne] using hothers v hne
  · exact Function.update_of_ne hne _ _
  · rcases ha with hp | ⟨found, hp⟩
    · simp [Local.next, hp, Phase.Fits]
    · obtain ⟨htracked, hfound, hbefore⟩ : w.tracked = kept found ∧ (w.visit u).found = found ∧
          found.map Prod.fst = (w.visit u).before := by
        simpa [hp, Phase.Fits] using hfits
      simpa [Local.next, hp, Phase.Fits, World.setVisit] using ⟨hfound, hbefore, htracked⟩
  · intro t ht
    exact h.sections.dead u t (by simpa [World.setVisit] using ht)
  · rcases ha with hp | ⟨found, hp⟩ <;> simp [Local.next, hp]

theorem known_tracked (h : Known w ls) (ha : (ls u).allowed .tracked) :
    Known w (Function.update ls u ((ls u).next .tracked w.tracked)) := by
  have hphase : (ls u).phase = .entered := ha
  have hfits := h.sections.fits u
  obtain ⟨hbefore, hfound⟩ : w.tracked = (w.visit u).before ∧ (w.visit u).found = [] := by
    simpa [hphase, Phase.Fits] using hfits
  refine Known.moveSection (h.sections.stay rfl ?_ (fun _ _ => rfl) rfl (.inl rfl) ?_
    (h.sections.dead u)) h.accounts rfl
  · simp [Local.next, hphase, Phase.Inside]
  · exact ⟨hbefore, hfound, hbefore⟩

theorem known_isAlive (h : Known w ls) {t : ℕ} (ha : (ls u).allowed (.isAlive t)) :
    Known (w.note u t (decide (t ∉ w.finished)))
      (Function.update ls u ((ls u).next (.isAlive t) (decide (t ∉ w.finished)))) := by
  have hfits := h.sections.fits u
  have hheld : w.holder = some u ↔ (ls u).phase.Inside := h.sections.holder u
  rcases ha with ⟨rest, found, hphase⟩ | ⟨⟨last, hphase⟩, hown⟩
  · -- in the critical section of a reap
    have hin : w.holder = some u := by simp [hheld, hphase, Phase.Inside]
    obtain ⟨hbefore, hfound, hsplit⟩ : w.tracked = (w.visit u).before ∧
        (w.visit u).found = found ∧ found.map Prod.fst ++ t :: rest = (w.visit u).before := by
      simpa [hphase, Phase.Fits] using hfits
    rw [World.note, if_pos hin]
    refine Known.moveSection (h.sections.stay rfl ?_ (fun v hne => ?_) rfl (.inl rfl) ?_ ?_)
      (h.accounts.congr rfl rfl rfl rfl) ?_
    · simp [Local.next, hphase, Phase.Inside]
    · exact Function.update_of_ne hne _ _
    · simpa [Local.next, hphase, Phase.Fits, World.setVisit] using ⟨hbefore, hfound, hsplit⟩
    · intro t' ht'
      have hor : (t', false) ∈ (w.visit u).found ∨ t' = t ∧ t ∈ w.finished := by
        simpa [World.setVisit] using ht'
      rcases hor with ht' | ⟨rfl, hdead⟩
      · exact h.sections.dead u t' ht'
      · exact hdead
    · simp [Local.next, hphase]
  · -- after the join of the call's own close thread
    have hout : w.holder ≠ some u := by simp [hheld, hphase, Phase.Inside]
    rw [World.note, if_neg hout]
    by_cases ht : t ∈ w.finished
    · refine Known.moveOwn h.sections ?_ ?_
      · simpa [Local.next, hphase, ht] using h.accounts.settle hown (.inr ht)
      · simp [Local.next, hphase, ht]
    · have hsame : (ls u).next (.isAlive t) (decide (t ∉ w.finished)) = ls u := by
        simp [Local.next, hphase, ht]
      rw [hsame]
      exact h.same

theorem known_assign (h : Known w ls) {threads : List ℕ} (ha : (ls u).allowed (.assign threads)) :
    Known { w with tracked := threads } (Function.update ls u ((ls u).next (.assign threads) ())) := by
  obtain ⟨hsub, hdead⟩ := finished_of_assign h ha
  obtain ⟨found, hphase, rfl⟩ := ha
  have hfits := h.sections.fits u
  obtain ⟨-, hfound, hall⟩ : w.tracked = (w.visit u).before ∧ (w.visit u).found = found ∧
      found.map Prod.fst = (w.visit u).before := by
    simpa [hphase, Phase.Fits] using hfits
  refine Known.moveSection (h.sections.stay rfl ?_ (fun _ _ => rfl) rfl (.inr ?_) ?_
    (h.sections.dead u)) (h.accounts.assign hsub hdead) ?_
  · simp [Local.next, hphase, Phase.Inside]
  · simp [hphase, Phase.Inside]
  · simpa [Local.next, hphase, Phase.Fits] using ⟨hfound, hall⟩
  · simp [Local.next, hphase]

theorem known_append (h : Known w ls) {t : ℕ} (ha : (ls u).allowed (.append t)) :
    Known { w with tracked := w.tracked ++ [t] }
      (Function.update ls u ((ls u).next (.append t) ())) := by
  obtain ⟨hphase, hown⟩ := ha
  refine Known.move (h.sections.stay rfl ?_ (fun _ _ => rfl) rfl (.inr ?_) trivial
    (h.sections.dead u)) (h.accounts.append hown)
  · simp [Local.next, hphase, Phase.Inside]
  · simp [hphase, Phase.Inside]

theorem known_serves (h : Known w ls) {o : Call} {r : o.Answer} (hs : World.serves u w o r w')
    (ha : (ls u).allowed o) : Known w' (Function.update ls u ((ls u).next o r)) := by
  cases o with
  | acquire => exact known_acquire h hs
  | release => exact known_release h hs ha
  | tracked =>
    obtain ⟨rfl, rfl⟩ := hs
    exact known_tracked h ha
  | isAlive t =>
    obtain ⟨rfl, rfl⟩ := hs
    exact known_isAlive h ha
  | assign threads =>
    obtain rfl := hs
    exact known_assign h ha
  | append t =>
    obtain rfl := hs
    exact known_append h ha
  | start =>
    cases r with
    | error e =>
      obtain rfl := hs
      exact h.same
    | ok t =>
      obtain ⟨rfl, rfl⟩ := hs
      exact Known.moveOwn ⟨h.sections.holder, h.sections.fits, h.sections.dead⟩ h.accounts.start rfl
  | join t =>
    obtain rfl := hs
    exact h.same
  | reaped n =>
    obtain rfl := hs
    exact h.same
  | returned t =>
    obtain rfl := hs
    exact Known.moveOwn ⟨h.sections.holder, h.sections.fits, h.sections.dead⟩ (h.accounts.hand ha) rfl

/-- The discipline of the list of pending closes. -/
def discipline : Discipline (machine T) Local where
  protocol _ := listProtocol
  idle _ := Local.Idle
  inv := Known
  entry_wp _ _ _ := entry_wp
  serves_inv _ _ _ _ _ _ h hs ha := known_serves h hs ha
  background_inv _ _ _ _ h hb := known_finish h hb

/-- Only a write of the whole list removes anything. -/
theorem tracked_of_serves {o : Call} {r : o.Answer} (hs : World.serves u w o r w') {t : ℕ}
    (ht : t ∈ w.tracked) : t ∈ w'.tracked ∨ ∃ threads, o = .assign threads ∧ w'.tracked = threads := by
  cases o with
  | acquire =>
    obtain ⟨-, rfl⟩ := hs
    exact .inl ht
  | release =>
    obtain ⟨-, rfl⟩ := hs
    exact .inl ht
  | tracked =>
    obtain ⟨-, rfl⟩ := hs
    exact .inl ht
  | isAlive t' =>
    obtain ⟨-, rfl⟩ := hs
    left
    rw [World.note]
    split
    · exact ht
    · exact ht
  | assign threads =>
    obtain rfl := hs
    exact .inr ⟨threads, rfl, rfl⟩
  | append t' =>
    obtain rfl := hs
    exact .inl (List.mem_append_left _ ht)
  | start =>
    cases r with
    | error e =>
      obtain rfl := hs
      exact .inl ht
    | ok t' =>
      obtain ⟨-, rfl⟩ := hs
      exact .inl ht
  | _ =>
    obtain rfl := hs
    exact .inl ht

/-- What the list loses in one step has finished. -/
theorem finished_of_removed {c c' : CloseConfig T} {ls : T → Local} (h : discipline.Holds c ls)
    (hs : (machine T).Step c c') {t : ℕ} (ht : t ∈ c.world.tracked) (hnot : t ∉ c'.world.tracked) :
    t ∈ c.world.finished := by
  cases hs with
  | start => exact absurd ht hnot
  | returned => exact absurd ht hnot
  | raised => exact absurd ht hnot
  | background hb =>
    obtain ⟨t', -, rfl⟩ := hb
    exact absurd ht hnot
  | call hrun hserve =>
    rcases tracked_of_serves hserve ht with hmem | ⟨threads, rfl, heq⟩
    · exact absurd hmem hnot
    · exact (finished_of_assign h.1 (h.allowed hrun)).2 t ht (heq ▸ hnot)

/-- No abandoned close is forgotten. -/
theorem accounted_of_reach {c : CloseConfig T} (hr : (machine T).Reach initial c) : Accounted c := by
  have h₀ : (discipline (T := T)).Holds initial fun _ => ⟨.outside none, none⟩ :=
    ⟨known_initial, fun _ => ⟨⟨none, rfl⟩, rfl⟩⟩
  obtain ⟨ls, h⟩ := Discipline.reach_holds hr h₀
  refine ⟨fun t ht halive => ?_, fun u n k hrun => ?_, fun c' hs t ht hnot => ?_⟩
  · rcases h.1.accounts.returned t ht with hmem | hfin
    · exact List.count_eq_one_of_mem h.1.accounts.nodup hmem
    · exact absurd hfin halive
  · obtain ⟨found, hphase, rfl⟩ : (ls u).allowed (.reaped n) := h.allowed hrun
    have hfits := h.1.sections.fits u
    obtain ⟨rfl, hall, hleft⟩ : (c.world.visit u).found = found ∧
        found.map Prod.fst = (c.world.visit u).before ∧ (c.world.visit u).after = kept found := by
      simpa [hphase, Phase.Fits] using hfits
    exact ⟨hall, rfl, hleft⟩
  · exact finished_of_removed h hs ht hnot

end machine

/-- Nothing raises, and no close finishes. -/
def stuckDriver : Driver (machine Bool) where
  answer u w o :=
    match o with
    | .acquire =>
      if w.holder = none then
        some ((), { w.setVisit u ⟨w.tracked, [], w.tracked⟩ with holder := some u })
      else none
    | .release =>
      if w.holder = some u then
        some ((), { w.setVisit u { w.visit u with after := w.tracked } with holder := none })
      else none
    | .tracked => some (w.tracked, w)
    | .isAlive t => some (decide (t ∉ w.finished), w.note u t (decide (t ∉ w.finished)))
    | .assign threads => some ((), { w with tracked := threads })
    | .append t => some ((), { w with tracked := w.tracked ++ [t] })
    | .start => some (.ok w.started, { w with started := w.started + 1 })
    | .join _ => some ((), w)
    | .reaped _ => some ((), w)
    | .returned t => some ((), { w with returned := t :: w.returned })
  sound u w o r w' h := by
    cases o with
    | acquire =>
      simp only [Option.ite_none_right_eq_some, Option.some.injEq, Prod.mk.injEq] at h
      exact ⟨h.1, h.2.2.symm⟩
    | release =>
      simp only [Option.ite_none_right_eq_some, Option.some.injEq, Prod.mk.injEq] at h
      exact ⟨h.1, h.2.2.symm⟩
    | _ =>
      cases h
      first | rfl | exact ⟨rfl, rfl⟩

/-- One thread abandons a close, another is about to return from a reap that has counted it. -/
theorem accounted_abandoned :
    ∃ c, (machine Bool).Reach initial c ∧
      (c.world.returned = [0] ∧ c.world.finished = [] ∧ (c.world.visit true).found = [(0, true)]) ∧
      Accounted c := by
  obtain ⟨c, hr, hc⟩ := Move.reach_of_schedule (M := machine Bool) initial
    [.start false _ (.inl rfl), .steps stuckDriver false 13,
      .start true _ (.inr rfl), .steps stuckDriver true 5]
    (fun c => c.world.returned = [0] ∧ c.world.finished = [] ∧
      (c.world.visit true).found = [(0, true)]) (by decide)
  exact ⟨c, hr, hc, accounted_of_reach hr⟩

end SenseGateway.Poller.PendingCloses

import SenseGateway.Poller.Visits

namespace SenseGateway.Poller

open Python Effects

/-- What the tag loop reads from a tag before it looks at the time: nothing where the tag is
disabled, and else its key and its interval. -/
def turn (device tag : Json) : PyExcept (Option ((ℤ × ℤ) × PyFloat)) := do
  if !(← tag.getD "enabled" (.bool true)).truthy then return none
  let pollKey := (← (← device.item "id").toInt, ← (← tag.item "id").toInt)
  let pollInterval ← ((← tag.get "poll_interval").orElse (.float (.finite 2))).toFloat
  return some (pollKey, pollInterval)

/-- One attempt, which is stamped whether or not it succeeds. -/
def attemptTag (settings : Settings) (client : Client) (device tag : Json) (pollKey : ℤ × ℤ)
    (currentTime : PyFloat) : PollerM Unit :=
  ((processTag settings client device tag).handle fun _ => Prog.pure ()).ensure
    (perform (.setLastPoll pollKey currentTime))

theorem pollTag_eq (settings : Settings) (client : Client) (device : Json) (currentTime : PyFloat)
    (tag : Json) : pollTag settings client device currentTime tag =
      (Prog.ofExcept (turn device tag)).bind fun
        | none => Prog.pure ()
        | some (pollKey, pollInterval) => (perform (.lastPoll pollKey)).bind fun previousPoll =>
          if (currentTime.sub (previousPoll.getD (.finite 0))).lt pollInterval then Prog.pure ()
          else attemptTag settings client device tag pollKey currentTime := by
  unfold pollTag turn attemptTag
  simp only [Prog.bind_eq, Prog.monadLift_eq, Prog.ofExcept_bind, Prog.bind_assoc]
  congr 1
  funext enabled
  cases enabled.truthy with
  | false => rfl
  | true =>
    show _ = (Prog.ofExcept (device.item "id" >>= fun _ => _)).bind _
    simp only [Prog.ofExcept_bind, Prog.bind_assoc]
    rfl

/-- The attempts of a run: the keys `last_poll_times` is stamped with and the times. -/
def attempts (es : List (Event calls)) : List ((ℤ × ℤ) × PyFloat) :=
  es.filterMap fun e => match e.op with
    | .setLastPoll key time => some (key, time)
    | _ => none

/-- `last_poll_times` -/
abbrev LastPollTimes := ℤ × ℤ → Option PyFloat

/-- The dictionary after these attempts. -/
def LastPollTimes.after (times : LastPollTimes) (stamps : List ((ℤ × ℤ) × PyFloat)) : LastPollTimes :=
  stamps.foldl (fun times stamp => Function.update times stamp.1 (some stamp.2)) times

/-- A look-up finds what is in the dictionary. -/
def Answered (times : LastPollTimes) (e : Event calls) : Prop :=
  match e with
  | ⟨.lastPoll key, r⟩ => r = times key
  | _ => True

/-- Every look-up of a run that starts with the dictionary finds what is in it then. -/
def AnsweredFrom : LastPollTimes → List (Event calls) → Prop
  | _, [] => True
  | times, e :: es => Answered times e ∧ AnsweredFrom (times.after (attempts [e])) es

theorem attempts_append (es es' : List (Event calls)) :
    attempts (es ++ es') = attempts es ++ attempts es' := List.filterMap_append

theorem LastPollTimes.after_append (times : LastPollTimes) (a b : List ((ℤ × ℤ) × PyFloat)) :
    times.after (a ++ b) = (times.after a).after b := List.foldl_append

theorem answeredFrom_append {times : LastPollTimes} {es es' : List (Event calls)} :
    AnsweredFrom times (es ++ es') ↔
      AnsweredFrom times es ∧ AnsweredFrom (times.after (attempts es)) es' := by
  induction es generalizing times with
  | nil => exact (true_and _).symm.to_iff
  | cons e es ih =>
    have hcons : attempts (e :: es) = attempts [e] ++ attempts es := attempts_append [e] es
    show _ ∧ AnsweredFrom _ (es ++ es') ↔ _
    rw [ih, hcons, LastPollTimes.after_append]
    exact and_assoc.symm

theorem attempts_of_not_tag {es : List (Event calls)} (h : ∀ e ∈ es, ¬ TagCall e.op) :
    attempts es = [] := by
  apply List.filterMap_eq_nil_iff.mpr
  intro e he
  have := h e he
  obtain ⟨op, r⟩ := e
  cases op <;> first | rfl | exact absurd trivial this

theorem answeredFrom_of_not_tag {times : LastPollTimes} {es : List (Event calls)}
    (h : ∀ e ∈ es, ¬ TagCall e.op) : AnsweredFrom times es := by
  induction es generalizing times with
  | nil => trivial
  | cons e es ih =>
    obtain ⟨he, hes⟩ := List.forall_mem_cons.mp h
    refine ⟨?_, ih hes⟩
    obtain ⟨op, r⟩ := e
    cases op <;> first | trivial | exact absurd trivial he

/-- Stamps of other keys leave a key alone. -/
theorem LastPollTimes.after_of_not_mem {times : LastPollTimes} {stamps : List ((ℤ × ℤ) × PyFloat)}
    {key : ℤ × ℤ} (h : key ∉ stamps.map Prod.fst) : times.after stamps key = times key := by
  induction stamps generalizing times with
  | nil => rfl
  | cons stamp stamps ih =>
    rw [List.map_cons, List.mem_cons, not_or] at h
    obtain ⟨hne, hmem⟩ := h
    show LastPollTimes.after (Function.update times stamp.1 _) stamps key = _
    rw [ih hmem, Function.update_of_ne hne]

section pass

variable {settings : Settings} {client : Client} {device tag : Json} {currentTime : PyFloat}
  {es : List (Event calls)} {out : PyExcept Unit} {times : LastPollTimes}

theorem attempts_of_processes (h : ∀ e ∈ es, Processes client device tag e.op) : attempts es = [] := by
  apply List.filterMap_eq_nil_iff.mpr
  intro e he
  have := h e he
  obtain ⟨op, r⟩ := e
  cases op <;> first | rfl | skip
  rcases this with ⟨_, h⟩ | ⟨_, -, h⟩
  · cases h
  · exact h.elim

/-- An attempt stamps its key and raises nothing. -/
theorem attemptTag_trace {key : ℤ × ℤ}
    (h : Prog.Trace (attemptTag settings client device tag key currentTime) es (some out)) :
    out = .ok () ∧ attempts es = [(key, currentTime)] := by
  obtain ⟨es', r, rfl, htrace⟩ := (Prog.trace_ensure_call fun _ => rfl).mp h
  have hcaught : ((processTag settings client device tag).handle fun _ => Prog.pure ()).wp
      (.only (Processes client device tag)) (fun _ _ => True) (fun _ _ => False) () :=
    (Prog.wp_handle _ _).mpr (processTag_makes settings client device tag)
  have hmakes := (Prog.Makes.of_trace (Prog.wp_mono (fun _ _ h => h) (fun _ _ _ => trivial) hcaught)
    htrace)
  refine ⟨?_, ?_⟩
  · cases out with
    | ok _ => rfl
    | error e => exact ((htrace.wp hcaught).2.2 e rfl).elim
  · rw [attempts_append, attempts_of_processes hmakes]
    rfl

/-- What one pass of the tag loop does, by its turn. -/
theorem pollTag_trace
    (h : Prog.Trace (pollTag settings client device currentTime tag) es (some out))
    (htimes : AnsweredFrom times es) :
    match turn device tag with
    | .error e => out = .error e ∧ attempts es = []
    | .ok none => out = .ok () ∧ attempts es = []
    | .ok (some (key, interval)) => out = .ok () ∧ attempts es =
        if (currentTime.sub ((times key).getD (.finite 0))).lt interval then []
        else [(key, currentTime)] := by
  rw [pollTag_eq] at h
  cases hturn : turn device tag with
  | error e =>
    rw [hturn] at h
    obtain ⟨rfl, rfl⟩ := Prog.trace_throw.mp h
    exact ⟨rfl, rfl⟩
  | ok verdict =>
    rw [hturn] at h
    rcases verdict with _ | ⟨key, interval⟩
    · obtain ⟨rfl, rfl⟩ := Prog.trace_pure.mp h
      exact ⟨rfl, rfl⟩
    · obtain ⟨previousPoll, es', rfl, hrest⟩ := Prog.trace_call.mp h
      obtain ⟨rfl, -⟩ := htimes
      rw [Prog.pure_bind] at hrest
      show out = .ok () ∧ attempts es' = _
      split
      · rw [if_pos ‹_›] at hrest
        obtain ⟨rfl, rfl⟩ := Prog.trace_pure.mp hrest
        exact ⟨rfl, rfl⟩
      · rw [if_neg ‹_›] at hrest
        exact attemptTag_trace hrest

end pass

/-- A tag of the key is scheduled and due by the dictionary. -/
def Due (times : LastPollTimes) (currentTime : PyFloat) (device : Json) (key : ℤ × ℤ) (tag : Json) :
    Prop :=
  ∃ interval, turn device tag = .ok (some (key, interval)) ∧
    (currentTime.sub ((times key).getD (.finite 0))).lt interval = false

theorem due_iff {times : LastPollTimes} {currentTime : PyFloat} {device tag : Json}
    {key scheduled : ℤ × ℤ} {interval : PyFloat}
    (h : turn device tag = .ok (some (scheduled, interval))) :
    Due times currentTime device key tag ↔ key = scheduled ∧
      (currentTime.sub ((times scheduled).getD (.finite 0))).lt interval = false := by
  simp only [Due, h, Except.ok.injEq, Option.some.injEq, Prod.mk.injEq]
  constructor
  · rintro ⟨_, ⟨rfl, rfl⟩, hlt⟩
    exact ⟨rfl, hlt⟩
  · rintro ⟨rfl, hlt⟩
    exact ⟨interval, ⟨rfl, rfl⟩, hlt⟩

theorem due_congr {times times' : LastPollTimes} {currentTime : PyFloat} {device tag : Json}
    {key : ℤ × ℤ} (h : times key = times' key) :
    Due times currentTime device key tag ↔ Due times' currentTime device key tag := by
  rw [Due, Due, h]

/-- The tags ahead of the first one whose turn raises. -/
def reached (device : Json) (tags : List Json) : List Json :=
  tags.takeWhile fun tag => (turn device tag).isOk

/-- One pass attempts the key of its tag, where that is due. -/
theorem pass_attempts {settings : Settings} {client : Client} {device tag : Json}
    {currentTime : PyFloat} {es : List (Event calls)} {out : PyExcept Unit} {times : LastPollTimes}
    (h : Prog.Trace (pollTag settings client device currentTime tag) es (some out))
    (htimes : AnsweredFrom times es) (key : ℤ × ℤ) :
    key ∈ (attempts es).map Prod.fst ↔ Due times currentTime device key tag := by
  have hpass := pollTag_trace h htimes
  cases hturn : turn device tag with
  | error e =>
    rw [hturn] at hpass
    simp [hpass.2, Due, hturn]
  | ok verdict =>
    rw [hturn] at hpass
    rcases verdict with _ | ⟨scheduled, interval⟩
    · simp [hpass.2, Due, hturn]
    · rw [hpass.2, due_iff hturn]
      by_cases hdue : (currentTime.sub ((times scheduled).getD (.finite 0))).lt interval = true
      · simp [hdue]
      · simp [hdue]

/-- A pass raises just where its turn does. -/
theorem turn_isOk {settings : Settings} {client : Client} {device tag : Json}
    {currentTime : PyFloat} {es : List (Event calls)} {out : PyExcept Unit} {times : LastPollTimes}
    (h : Prog.Trace (pollTag settings client device currentTime tag) es (some out))
    (htimes : AnsweredFrom times es) : (turn device tag).isOk = out.isOk := by
  have hpass := pollTag_trace h htimes
  cases hturn : turn device tag with
  | error e =>
    rw [hturn] at hpass
    rw [hpass.1]
    rfl
  | ok verdict =>
    rw [hturn] at hpass
    have hok : out = .ok () := by
      rcases verdict with _ | _
      · exact hpass.1
      · exact hpass.1
    rw [hok]
    rfl

/-- A loop attempts the keys for which it reaches a tag that is due by the dictionary it starts with. -/
theorem passes_attempts {settings : Settings} {client : Client} {device : Json}
    {currentTime : PyFloat} {tags : List Json} {passes : List (Json × List (Event calls))}
    {out : PyExcept Unit} {times : LastPollTimes}
    (h : Prog.Passes (pollTag settings client device currentTime) tags passes out)
    (htimes : AnsweredFrom times (passes.flatMap Prod.snd)) (key : ℤ × ℤ) :
    key ∈ (attempts (passes.flatMap Prod.snd)).map Prod.fst ↔
      ∃ tag ∈ reached device tags, Due times currentTime device key tag := by
  induction h generalizing times with
  | done => simp [attempts, reached]
  | @raised tag tags es e htrace =>
    -- what raises is not due, and the loop reaches nothing behind it
    rw [List.flatMap_singleton] at htimes ⊢
    have hturn : ¬ (turn device tag).isOk = true := by
      rw [turn_isOk htrace htimes]
      exact Bool.false_ne_true
    have hreached : reached device (tag :: tags) = [] := List.takeWhile_cons_of_neg hturn
    have hnot : ¬ Due times currentTime device key tag := by
      rintro ⟨interval, hdue, -⟩
      rw [hdue] at hturn
      exact hturn rfl
    rw [pass_attempts htrace htimes, hreached]
    simp [hnot]
  | @next tag tags es passes out htrace hpasses ih =>
    rw [List.flatMap_cons, answeredFrom_append] at htimes
    have hpass := pass_attempts htrace htimes.1 key
    have hreached : reached device (tag :: tags) = tag :: reached device tags :=
      List.takeWhile_cons_of_pos (turn_isOk htrace htimes.1)
    rw [List.flatMap_cons, attempts_append, List.map_append, List.mem_append, ih htimes.2, hreached,
      List.exists_mem_cons_iff, ← hpass]
    by_cases hkey : key ∈ (attempts es).map Prod.fst
    · exact iff_of_true (.inl hkey) (.inl hkey)
    · -- the stamps of other keys leave the dictionary alone at this one
      simp only [due_congr (LastPollTimes.after_of_not_mem hkey)]

/-- The stamps of a loop are the time it has read. -/
theorem passes_stamps {settings : Settings} {client : Client} {device : Json} {currentTime : PyFloat}
    {tags : List Json} {passes : List (Json × List (Event calls))} {out : PyExcept Unit}
    (h : Prog.Passes (pollTag settings client device currentTime) tags passes out) :
    ∀ stamp ∈ attempts (passes.flatMap Prod.snd), stamp.2 = currentTime := by
  intro stamp hstamp
  obtain ⟨⟨op, r⟩, he, hop⟩ := List.mem_filterMap.mp hstamp
  obtain ⟨pass, hpass, he⟩ := List.mem_flatMap.mp he
  obtain ⟨-, _, htrace⟩ := h.trace pass hpass
  have hvisits := (pollTag_makes settings client device currentTime pass.1).of_trace htrace _ he
  cases op <;> cases hop
  rcases hvisits with (⟨_, hvisits⟩ | ⟨_, -, hvisits⟩) | ⟨_, _, -, -, hvisits | hvisits⟩
  · cases hvisits
  · exact hvisits.elim
  · cases hvisits
  · cases hvisits
    rfl

section course

variable {settings : Settings} {device : Json} {es : List (Event calls)} {times : LastPollTimes}

theorem attempts_polled {pre mid post : List (Event calls)} (hpre : ∀ e ∈ pre, ¬ TagCall e.op)
    (hpost : ∀ e ∈ post, ¬ TagCall e.op) : attempts (pre ++ (mid ++ post)) = attempts mid := by
  rw [attempts_append, attempts_append, attempts_of_not_tag hpre, attempts_of_not_tag hpost,
    List.nil_append, List.append_nil]

/-- A run that connects reads the time, and attempts the keys that are due then. -/
theorem Course.attempts_due {tags : List Json} (h : Course settings device es) (hconnected : Connected es)
    (htags : tagsOf device = .ok tags) (htimes : AnsweredFrom times es) :
    ∃ currentTime, (⟨.monotonic, currentTime⟩ : Event calls) ∈ es ∧
      (∀ key, key ∈ (attempts es).map Prod.fst ↔
        ∃ tag ∈ reached device tags, Due times currentTime device key tag) ∧
      ∀ stamp ∈ attempts es, stamp.2 = currentTime := by
  cases h with
  | unconnected _ hnot => exact absurd hconnected hnot
  | untagged herror _ => cases htags.symm.trans herror
  | @polled client currentTime tags' passes out pre post htags' hpasses htime hpre hpost =>
    cases htags.symm.trans htags'
    rw [answeredFrom_append, answeredFrom_append, attempts_of_not_tag hpre] at htimes
    refine ⟨currentTime, List.mem_append_left _ htime, fun key => ?_, ?_⟩
    · rw [attempts_polled hpre hpost]
      exact passes_attempts hpasses htimes.2.1 key
    · rw [attempts_polled hpre hpost]
      exact passes_stamps hpasses

end course

/-! An environment that is computed. -/

/-- Nothing fails, the clock stands still and `last_poll_times` is kept. -/
def timed (currentTime : PyFloat) : (o : Call) → LastPollTimes → o.Answer × LastPollTimes
  | .monotonic, times => (currentTime, times)
  | .lastPoll key, times => (times key, times)
  | .setLastPoll key time, times => ((), Function.update times key (some time))
  | o, times => (friendly o, times)

theorem timed_step (currentTime : PyFloat) (o : Call) (times : LastPollTimes) :
    Answered times ⟨o, (timed currentTime o times).1⟩ ∧
      (timed currentTime o times).2 = times.after (attempts [⟨o, (timed currentTime o times).1⟩]) := by
  cases o <;> first | exact ⟨rfl, rfl⟩ | exact ⟨trivial, rfl⟩

theorem answeredFrom_timed {α : Type} (currentTime : PyFloat) (p : PollerM α) (times : LastPollTimes) :
    AnsweredFrom times (p.events (timed currentTime) times) := by
  induction p generalizing times with
  | pure a => exact trivial
  | throw e => exact trivial
  | call o k ih =>
    obtain ⟨hanswer, hnext⟩ := timed_step currentTime o times
    refine ⟨hanswer, ?_⟩
    rw [← hnext]
    exact ih _ _

theorem clock_timed {α : Type} {currentTime time : PyFloat} {p : PollerM α} {times : LastPollTimes}
    (h : (⟨.monotonic, time⟩ : Event calls) ∈ p.events (timed currentTime) times) :
    time = currentTime := by
  induction p generalizing times with
  | pure a => cases h
  | throw e => cases h
  | call o k ih =>
    rcases List.mem_cons.mp h with heq | h
    · cases heq
      rfl
    · exact ih _ h

/-- Whether the event is a client's connection. -/
def isConnection : Event calls → Bool
  | ⟨.connect _, .ok true⟩ => true
  | _ => false

theorem connected_iff (es : List (Event calls)) : Connected es ↔ es.any isConnection = true := by
  rw [List.any_eq_true]
  constructor
  · rintro ⟨client, h⟩
    exact ⟨_, h, rfl⟩
  · rintro ⟨⟨op, r⟩, he, h⟩
    cases op with
    | connect client =>
      match r, he, h with
      | .ok true, he, _ => exact ⟨client, he⟩
    | _ => cases h

instance (es : List (Event calls)) : Decidable (Connected es) :=
  decidable_of_iff _ (connected_iff es).symm

/-- A run of `run_device` at a time, in an environment where nothing fails. -/
def timedEvents (settings : Settings) (device : Json) (times : LastPollTimes) (currentTime : PyFloat) :
    List (Event calls) := (runDevice settings device).events (timed currentTime) times

/-- `last_poll_times` when the process starts. -/
def never : LastPollTimes := fun _ => none

/-- A device entry with these tags. -/
def withTags (fields : List (String × Json)) (tags : List Json) : Json :=
  .obj (("tags", .arr tags) :: fields)

theorem tagsOf_withTags (fields : List (String × Json)) (tags : List Json) :
    tagsOf (withTags fields tags) = .ok tags := rfl

/-- A device on the serial port, and a tag of it that is polled every two seconds. -/
def meterFields : List (String × Json) :=
  [("id", .int 1), ("communication_type", .str "rtu"),
    ("connection", .obj [("serial_port", .str "COM3")])]

def meterTag : Json := .obj [("id", .int 7), ("register_address", .int 40)]

end SenseGateway.Poller

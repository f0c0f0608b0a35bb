import Mathlib.Data.List.Infix
import Mathlib.Tactic.IntervalCases
import SenseGateway.Alarms.Catchup

namespace SenseGateway.Alarms

open Python Signals

/-- The key of a rule in `_active_state`. -/
def ruleKey (rule : Json) : PyExcept DictKey := do (← rule.item "id").hashKey

/-- The list has a rule with this key. -/
def Listed (rules : List Json) (key : DictKey) : Prop := ∃ rule ∈ rules, ruleKey rule = .ok key

instance (rules : List Json) (key : DictKey) : Decidable (Listed rules key) :=
  inferInstanceAs (Decidable (∃ rule ∈ rules, ruleKey rule = .ok key))

/-- An opening of the rule is among the emissions, after each moment of the run at which the rule
was not in the list. -/
def OpenedSinceEntry (mode : Mode) (requests : List Request) (emitted : List Emission)
    (key : DictKey) : Prop :=
  ∀ before, before <+: requests → ¬ Listed (run mode before).alarmRules key →
    ∃ e ∈ emitted.drop (run mode before).emitted.length, e.key = key ∧ e.action = .opened

/-- After every pass that does not raise, each rule found to be triggered has been opened since it
entered the list, and no rule outside of the list is marked active. -/
def StartsAfresh (mode : Mode) (requests : List Request) : Prop :=
  ∀ before clock, before ++ [.evaluateAllRules clock] <+: requests →
    (evaluateAllRules mode clock (run mode before)).2 = .ok () →
      (∀ key, (key, true) ∈ passSamples (run mode before) clock →
        OpenedSinceEntry mode (before ++ [.evaluateAllRules clock])
          (run mode (before ++ [.evaluateAllRules clock])).emitted key) ∧
      ∀ key, (run mode (before ++ [.evaluateAllRules clock])).activeState key = some true →
        Listed (run mode (before ++ [.evaluateAllRules clock])).alarmRules key

/-- No change of the list leaves out a rule that is marked active. -/
def KeepsActive (mode : Mode) (requests : List Request) : Prop :=
  ∀ before alarmRules, before ++ [.setCurrentAlarmRules alarmRules] <+: requests →
    ∀ key, (run mode before).activeState key = some true → Listed (alarmRules.getD []) key

theorem run_concat (mode : Mode) (requests : List Request) (request : Request) :
    run mode (requests ++ [request]) = (run mode requests).step mode request := by
  simp [run]

theorem step_emitted (mode : Mode) (s : Evaluator) (request : Request) :
    s.emitted <+: (s.step mode request).emitted := by
  cases request with
  | setCurrentAlarmRules alarmRules => exact List.prefix_rfl
  | recordLatestReading deviceId tagId value quality now => exact List.prefix_rfl
  | evaluateAllRules clock => exact evaluateRules_emitted mode _ clock 0 _ s

theorem run_emitted_mono {mode : Mode} {before requests : List Request}
    (h : before <+: requests) : (run mode before).emitted <+: (run mode requests).emitted := by
  obtain ⟨after, rfl⟩ := h
  induction after using List.reverseRecOn with
  | nil => simp
  | append_singleton after request ih =>
    rw [← List.append_assoc, run_concat]
    exact ih.trans (step_emitted mode _ request)

/-- A pass works on a snapshot of the list and leaves the list alone. -/
theorem evaluateRules_alarmRules (mode : Mode)
    (readings : DictKey × DictKey → Option LatestReading) (clock : ℕ → ℤ) (i : ℕ)
    (rules : List Json) (s : Evaluator) :
    (evaluateRules mode readings clock i rules s).1.alarmRules = s.alarmRules :=
  evaluateRules_frame (fun _ _ _ _ => rfl) mode readings clock i rules s

theorem ruleKey_of_judgeRule {readings : DictKey × DictKey → Option LatestReading} {now : ℤ}
    {rule : Json} {key : DictKey} {triggered : Bool} {value : PyFloat}
    (h : judgeRule readings now rule = .ok (some (key, triggered, value))) :
    ruleKey rule = .ok key := by
  obtain ⟨reading, -, h⟩ := bind_eq_ok.mp h
  cases reading with
  | none => cases h
  | some reading =>
    obtain ⟨_, -, h⟩ := bind_eq_ok.mp h
    obtain ⟨id, hid, h⟩ := bind_eq_ok.mp h
    obtain ⟨key', hkey, h⟩ := bind_eq_ok.mp h
    cases h
    exact bind_eq_ok.mpr ⟨id, hid, hkey⟩

theorem listed_of_sample {readings : DictKey × DictKey → Option LatestReading} {clock : ℕ → ℤ}
    {i : ℕ} {rules : List Json} {key : DictKey} {c : Bool}
    (h : (key, c) ∈ samplesOf readings clock i rules) : Listed rules key := by
  induction rules generalizing i with
  | nil => cases h
  | cons rule rules ih =>
    have later (h : (key, c) ∈ samplesOf readings clock (i + 1) rules) :
        Listed (rule :: rules) key := by
      obtain ⟨rule', hmem, hkey⟩ := ih h
      exact ⟨rule', List.mem_cons_of_mem _ hmem, hkey⟩
    unfold samplesOf at h
    split at h
    · cases h
    · exact later h
    · rename_i key' triggered value hjudge
      rcases List.mem_cons.mp h with heq | h
      · obtain ⟨rfl, rfl⟩ : key = key' ∧ c = triggered := by simpa using heq
        exact ⟨rule, List.mem_cons_self, ruleKey_of_judgeRule hjudge⟩
      · exact later h

section pass

variable {mode : Mode} {requests : List Request}

theorem OpenedSinceEntry.mono {emitted emitted' : List Emission} {key : DictKey}
    (h : OpenedSinceEntry mode requests emitted key) (hle : emitted <+: emitted') :
    OpenedSinceEntry mode requests emitted' key := by
  intro before hbefore hout
  obtain ⟨e, he, hopened⟩ := h before hbefore hout
  exact ⟨e, (List.IsPrefix.drop hle _).subset he, hopened⟩

/-- An opening emitted now counts for every moment before. -/
theorem openedSinceEntry_concat {emitted : List Emission} {e : Emission}
    (hle : (run mode requests).emitted <+: emitted) (he : e.action = .opened) :
    OpenedSinceEntry mode requests (emitted ++ [e]) e.key := by
  intro before hbefore _
  have hlength : (run mode before).emitted.length ≤ emitted.length :=
    ((run_emitted_mono hbefore).trans hle).length_le
  refine ⟨e, ?_, rfl, he⟩
  rw [List.drop_append_of_le_length hlength]
  simp

/-- What holds in the course of a pass that follows the requests: nothing emitted is lost, and every
rule marked active is in the list and was opened since it entered. -/
structure Accounted (mode : Mode) (requests : List Request) (s : Evaluator) : Prop where
  emitted : (run mode requests).emitted <+: s.emitted
  active : ∀ key, s.activeState key = some true →
    Listed (run mode requests).alarmRules key ∧ OpenedSinceEntry mode requests s.emitted key

/-- A change of state keeps the account: an opening is accounted for, a closing leaves nothing to
account for. -/
theorem Accounted.changeState {s : Evaluator} (h : Accounted mode requests s) (rule : Json)
    {key : DictKey} (hlisted : Listed (run mode requests).alarmRules key) (value : PyFloat)
    (action : Action) :
    Accounted mode requests (changeState mode rule key value action s).1 := by
  refine ⟨h.emitted.trans (List.prefix_append _ _), fun key' hactive => ?_⟩
  by_cases hkey : key' = key
  · subst hkey
    have hopened : action = .opened := by
      simpa [Alarms.changeState] using hactive
    exact ⟨hlisted, openedSinceEntry_concat h.emitted hopened⟩
  · have hbefore : s.activeState key' = some true := by
      simpa [Alarms.changeState, Function.update_of_ne hkey] using hactive
    obtain ⟨hlisted', hopened⟩ := h.active key' hbefore
    exact ⟨hlisted', hopened.mono (List.prefix_append _ _)⟩

theorem Accounted.evaluateRule {s : Evaluator} (h : Accounted mode requests s) {rule : Json}
    (hrule : rule ∈ (run mode requests).alarmRules)
    (readings : DictKey × DictKey → Option LatestReading) (now : ℤ) :
    Accounted mode requests (evaluateRule mode readings now rule s).1 ∧
      ∀ key value, judgeRule readings now rule = .ok (some (key, true, value)) →
        OpenedSinceEntry mode requests (evaluateRule mode readings now rule s).1.emitted key := by
  rcases evaluateRule_cases mode readings now rule s with
    ⟨e, hjudge, heq⟩ | ⟨hjudge, heq⟩ | ⟨key, triggered, value, hjudge, hcase⟩
  · rw [heq]
    exact ⟨h, by simp [hjudge]⟩
  · rw [heq]
    exact ⟨h, by simp [hjudge]⟩
  · have hlisted : Listed (run mode requests).alarmRules key :=
      ⟨rule, hrule, ruleKey_of_judgeRule hjudge⟩
    have hsampled : Accounted mode requests
        { s with evaluated := s.evaluated ++ [(key, triggered)] } := ⟨h.emitted, h.active⟩
    rcases hcase with ⟨hsame, heq⟩ | ⟨-, heq⟩
    · -- the alarm was open already, and its opening is accounted for
      rw [heq]
      refine ⟨hsampled, fun key' value' hjudged => ?_⟩
      obtain ⟨rfl, rfl, -⟩ : key = key' ∧ triggered = true ∧ _ := by simpa [hjudge] using hjudged
      have hactive : s.activeState key = some true := by
        cases hs : s.activeState key <;> simp_all
      exact (h.active key hactive).2
    · have hchanged := hsampled.changeState rule hlisted value
        (if triggered then .opened else .closed)
      rw [heq]
      refine ⟨hchanged, fun key' value' hjudged => ?_⟩
      obtain ⟨rfl, rfl, -⟩ : key = key' ∧ triggered = true ∧ _ := by simpa [hjudge] using hjudged
      exact (hchanged.active key (by simp [Alarms.changeState])).2

theorem Accounted.evaluateRules {s : Evaluator} (h : Accounted mode requests s)
    {rules : List Json} (hrules : ∀ rule ∈ rules, rule ∈ (run mode requests).alarmRules)
    (readings : DictKey × DictKey → Option LatestReading) (clock : ℕ → ℤ) (i : ℕ) :
    Accounted mode requests (evaluateRules mode readings clock i rules s).1 ∧
      ((evaluateRules mode readings clock i rules s).2 = .ok () →
        ∀ key, (key, true) ∈ samplesOf readings clock i rules →
          OpenedSinceEntry mode requests
            (evaluateRules mode readings clock i rules s).1.emitted key) := by
  induction rules generalizing i s with
  | nil => exact ⟨h, fun _ key hkey => by cases hkey⟩
  | cons rule rules ih =>
    obtain ⟨hrule, hopened⟩ := h.evaluateRule (hrules rule List.mem_cons_self) readings (clock i)
    have hrest (r : Json) (hr : r ∈ rules) := hrules r (List.mem_cons_of_mem _ hr)
    unfold Alarms.evaluateRules samplesOf
    generalize hone : Alarms.evaluateRule mode readings (clock i) rule s = r at hrule hopened ⊢
    obtain ⟨s', result⟩ := r
    cases result with
    | error e => exact ⟨hrule, by simp⟩
    | ok _ =>
      obtain ⟨hall, hsamples⟩ := ih hrule hrest (i + 1)
      refine ⟨hall, fun hdone key hkey => ?_⟩
      have hemitted := evaluateRules_emitted mode readings clock (i + 1) rules s'
      split at hkey
      · cases hkey
      · exact hsamples hdone key hkey
      · rename_i key' triggered value hjudge
        rcases List.mem_cons.mp hkey with heq | hkey
        · obtain ⟨rfl, rfl⟩ : key = key' ∧ true = triggered := by simpa using heq
          exact (hopened key value hjudge).mono hemitted
        · exact hsamples hdone key hkey

/-- One more request is one more moment to look at, and only for rules that are not listed then. -/
theorem OpenedSinceEntry.concat {request : Request} {emitted : List Emission} {key : DictKey}
    (h : OpenedSinceEntry mode requests emitted key)
    (hlisted : Listed (run mode (requests ++ [request])).alarmRules key) :
    OpenedSinceEntry mode (requests ++ [request]) emitted key := by
  intro before hbefore hout
  rcases List.prefix_concat_iff.mp hbefore with rfl | hbefore
  · exact absurd hlisted hout
  · exact h before hbefore hout

theorem Listed.pass {key : DictKey} {clock : ℕ → ℤ}
    (h : Listed (run mode requests).alarmRules key) :
    Listed (run mode (requests ++ [.evaluateAllRules clock])).alarmRules key := by
  have hrules : (run mode (requests ++ [.evaluateAllRules clock])).alarmRules =
      (run mode requests).alarmRules := by
    rw [run_concat]
    exact evaluateRules_alarmRules mode _ clock 0 _ _
  rwa [hrules]

/-- A run that drops no active rule has every active rule accounted for. -/
theorem accounted_run (h : KeepsActive mode requests) :
    Accounted mode requests (run mode requests) := by
  induction requests using List.reverseRecOn with
  | nil => exact ⟨List.prefix_rfl, fun key hactive => nomatch hactive⟩
  | append_singleton requests request ih =>
    have hkeeps : KeepsActive mode requests := fun before alarmRules hbefore =>
      h before alarmRules (hbefore.trans (List.prefix_append _ _))
    have haccount := ih hkeeps
    refine ⟨List.prefix_rfl, fun key hactive => ?_⟩
    cases request with
    | setCurrentAlarmRules alarmRules =>
      -- the new list has every active rule, so none of them enters with it
      rw [run_concat] at hactive
      have hlisted : Listed (run mode (requests ++ [.setCurrentAlarmRules alarmRules])).alarmRules
          key := by
        rw [run_concat]
        exact h requests alarmRules List.prefix_rfl key hactive
      have hopened := (haccount.active key hactive).2.concat hlisted
      rw [← run_concat] at hactive
      exact ⟨hlisted, hopened.mono (run_emitted_mono (List.prefix_append _ _))⟩
    | recordLatestReading deviceId tagId value quality now =>
      rw [run_concat] at hactive
      obtain ⟨hlisted, hopened⟩ := haccount.active key hactive
      have hlisted' : Listed (run mode (requests ++
          [.recordLatestReading deviceId tagId value quality now])).alarmRules key := by
        rw [run_concat]
        exact hlisted
      exact ⟨hlisted', (hopened.concat hlisted').mono
        (run_emitted_mono (List.prefix_append _ _))⟩
    | evaluateAllRules clock =>
      -- a pass only makes rules active that are listed
      obtain ⟨hpass, -⟩ := haccount.evaluateRules (fun _ hr => hr)
        (run mode requests).latestReadings clock 0
      have hstate : run mode (requests ++ [.evaluateAllRules clock]) =
          (evaluateRules mode (run mode requests).latestReadings clock 0
            (run mode requests).alarmRules (run mode requests)).1 := run_concat _ _ _
      obtain ⟨hlisted, hopened⟩ := hpass.active key (hstate ▸ hactive)
      rw [← hstate] at hopened
      exact ⟨hlisted.pass, hopened.concat hlisted.pass⟩

/-- A run whose changes of the list drop no active rule starts every rule afresh. -/
theorem startsAfresh_of_keepsActive (h : KeepsActive mode requests) :
    StartsAfresh mode requests := by
  intro before clock hbefore hdone
  have hkeeps : KeepsActive mode (before ++ [.evaluateAllRules clock]) :=
    fun before' alarmRules hbefore' => h before' alarmRules (hbefore'.trans hbefore)
  have hkeeps' : KeepsActive mode before := fun before' alarmRules hbefore' =>
    hkeeps before' alarmRules (hbefore'.trans (List.prefix_append _ _))
  have hstate : run mode (before ++ [.evaluateAllRules clock]) =
      (evaluateRules mode (run mode before).latestReadings clock 0
        (run mode before).alarmRules (run mode before)).1 := run_concat _ _ _
  refine ⟨fun key hsample => ?_, fun key hactive => ((accounted_run hkeeps).active key hactive).1⟩
  obtain ⟨-, hsamples⟩ := (accounted_run hkeeps').evaluateRules (fun _ hr => hr)
    (run mode before).latestReadings clock 0
  have hopened := hsamples hdone key hsample
  rw [← hstate] at hopened
  exact hopened.concat (listed_of_sample hsample).pass

/-- The same condition, by the place of the request in the run. -/
theorem keepsActive_of_getElem?
    (h : ∀ (n : ℕ) alarmRules, requests[n]? = some (.setCurrentAlarmRules alarmRules) →
      ∀ key, (run mode (requests.take n)).activeState key = some true →
        Listed (alarmRules.getD []) key) : KeepsActive mode requests := by
  rintro before alarmRules ⟨after, rfl⟩ key hactive
  refine h before.length alarmRules (by simp) key ?_
  rwa [List.append_assoc, List.take_left]

end pass

/-- A rule opens, closes, leaves the list, and comes back to open once more. -/
def leavingClosed : List Request :=
  [.setCurrentAlarmRules (some [highRule]), .recordLatestReading 10 20 (.finite 60) "good" 0,
    .evaluateAllRules fun _ => 1, .recordLatestReading 10 20 (.finite 10) "good" 2,
    .evaluateAllRules fun _ => 3, .setCurrentAlarmRules none,
    .setCurrentAlarmRules (some [highRule]), .recordLatestReading 10 20 (.finite 60) "good" 4,
    .evaluateAllRules fun _ => 5]

theorem leavingClosed_startsAfresh :
    StartsAfresh .shadow leavingClosed ∧
      events (run .shadow leavingClosed) =
        [(.number (.finite 1), .opened), (.number (.finite 1), .closed),
          (.number (.finite 1), .opened)] := by
  refine ⟨startsAfresh_of_keepsActive (keepsActive_of_getElem? ?_), by decide +kernel⟩
  intro n alarmRules hn key hactive
  have hlt : n < 9 := (List.getElem?_eq_some_iff.mp hn).1
  have hclosed : (run .shadow (leavingClosed.take 5)).activeState =
      Function.update (Function.update (fun _ => none) (.number (.finite 1)) (some true))
        (.number (.finite 1)) (some false) := rfl
  have hclosed' : (run .shadow (leavingClosed.take 6)).activeState =
      (run .shadow (leavingClosed.take 5)).activeState := rfl
  have hnone : (run .shadow (leavingClosed.take 5)).activeState key ≠ some true := by
    rw [hclosed, Function.update_idem]
    by_cases hkey : key = .number (.finite 1) <;> simp [Function.update, hkey]
  interval_cases n <;> simp [leavingClosed] at hn
  · cases hactive
  · exact absurd hactive hnone
  · exact absurd (hclosed' ▸ hactive) hnone

/-- A rule is taken out of the list while its alarm is open, and put back. -/
def leavingOpen : List Request :=
  [.setCurrentAlarmRules (some [highRule]), .recordLatestReading 10 20 (.finite 60) "good" 0,
    .evaluateAllRules fun _ => 1, .setCurrentAlarmRules none,
    .setCurrentAlarmRules (some [highRule]), .evaluateAllRules fun _ => 2]

/-- It stays silent although its condition holds. -/
theorem reappearing_rule_silent : ¬ StartsAfresh .shadow leavingOpen := by
  intro h
  obtain ⟨hopened, -⟩ := h (leavingOpen.take 5) (fun _ => 2) List.prefix_rfl (by decide +kernel)
  have hsince := hopened (.number (.finite 1)) (by decide +kernel) (leavingOpen.take 4)
    ⟨leavingOpen.drop 4, rfl⟩ (by decide +kernel)
  revert hsince
  decide +kernel

end SenseGateway.Alarms

import Mathlib.Data.List.ReduceOption
import Mathlib.Data.List.TakeWhile
import SenseGateway.Alarms.Reappearing
import SenseGateway.Signals.Prefixes

namespace SenseGateway.Alarms

open Python Signals

/-- What a pass emits for each of its rules, in their order. -/
def ruleEvents (mode : Mode) (readings : DictKey × DictKey → Option LatestReading) (clock : ℕ → ℤ) :
    ℕ → List Json → Evaluator → List (Option Emission)
  | _, [], _ => []
  | i, rule :: rules, s =>
    match evaluateRule mode readings (clock i) rule s with
    | (s', .ok ()) =>
      s'.emitted[s.emitted.length]? :: ruleEvents mode readings clock (i + 1) rules s'
    | (s', .error _) => s'.emitted[s.emitted.length]? :: rules.map fun _ => none

def alarmTypes : List Json :=
  [.str "high", .str "high_high", .str "low", .str "low_low", .str "digital_on", .str "digital_off",
    .str "communication_loss"]

/-- A rule has an id, a number or nothing as the threshold, and a type that the evaluator knows. -/
def wellFormed (rule : Json) : Bool :=
  match rule.item "id", rule.get "threshold_value", rule.get "alarm_type" with
  | .ok _, .ok threshold, .ok alarmType =>
    (threshold = .null || threshold.number.isSome) && alarmType ∈ alarmTypes
  | _, _, _ => false

/-- A rule of a pass and the time at which the pass looks at it. -/
abbrev TimedRule := ℤ × Json

def clockOf (rules : List TimedRule) (i : ℕ) : ℤ := (rules.map Prod.fst).getD i 0

/-- The rules of a pass without the malformed ones. -/
def sound (rules : List TimedRule) : List TimedRule := rules.filter fun rule => wellFormed rule.2

/-- The state when a pass over these rules starts. -/
def withRules (rules : List TimedRule) (s : Evaluator) : Evaluator :=
  setCurrentAlarmRules (some (rules.map Prod.snd)) s

/-- The state after the pass. -/
def passOver (mode : Mode) (rules : List TimedRule) (s : Evaluator) : Evaluator :=
  (evaluateAllRules mode (clockOf rules) (withRules rules s)).1

/-- What the pass emits for each of the rules. -/
def eventsOver (mode : Mode) (rules : List TimedRule) (s : Evaluator) : List (Option Emission) :=
  ruleEvents mode s.latestReadings (clockOf rules) 0 (rules.map Prod.snd) (withRules rules s)

/-- The malformed rules of the list make no difference to the well-formed ones. -/
structure IsolatesFaults (mode : Mode) (rules : List TimedRule) (s : Evaluator) : Prop where
  events : ((rules.zip (eventsOver mode rules s)).filter fun p => wellFormed p.1.2).map Prod.snd =
    eventsOver mode (sound rules) s
  state : ∀ rule ∈ sound rules, ∀ key, ruleKey rule.2 = .ok key →
    (passOver mode rules s).activeState key = (passOver mode (sound rules) s).activeState key

/-- The rule is not judged but raises. -/
def raises (readings : DictKey × DictKey → Option LatestReading) (rule : TimedRule) : Bool :=
  match judgeRule readings rule.1 rule.2 with
  | .error _ => true
  | .ok _ => false

/-- The judgement of a rule that has a reading, under the rule's key. -/
def judgement (readings : DictKey × DictKey → Option LatestReading) (rule : TimedRule) :
    Option (DictKey × Bool) :=
  match judgeRule readings rule.1 rule.2 with
  | .ok (some (key, triggered, _)) => some (key, triggered)
  | _ => none

/-- The judgements under a key. -/
def judgements (readings : DictKey × DictKey → Option LatestReading) (rules : List TimedRule)
    (key : DictKey) : List Bool := ofKey key (rules.filterMap (judgement readings))

/-- Whether the key counts as active after these rules have been judged. -/
def standing (s : Evaluator) (rules : List TimedRule) (key : DictKey) : Bool :=
  (judgements s.latestReadings rules key).getLastD ((s.activeState key).getD false)

/-- The rules ahead of the first that raises. -/
def judged (readings : DictKey × DictKey → Option LatestReading) (rules : List TimedRule) :
    List TimedRule := rules.takeWhile fun rule => !raises readings rule

/-- Behind the first rule that raises, up to the next well-formed one that does, a well-formed rule
is judged to be what its key stands at. -/
def SettledBehind (rules : List TimedRule) (s : Evaluator) : Prop :=
  ∀ before rule after, rules = before ++ rule :: after → wellFormed rule.2 = true →
    before.any (raises s.latestReadings) = true → (sound before).any (raises s.latestReadings) = false →
      ∀ key c, judgement s.latestReadings rule = some (key, c) → c = standing s (sound before) key

/-- Behind the first rule that raises, everything is settled. Ahead of it, the malformed rules change
neither what the key of a well-formed rule stands at when its turn comes, nor the entry that is left
for it. -/
structure Undisturbed (rules : List TimedRule) (s : Evaluator) : Prop where
  behind : SettledBehind rules s
  turn : ∀ before rule after, rules = before ++ rule :: after → wellFormed rule.2 = true →
    before.any (raises s.latestReadings) = false →
      ∀ key c, judgement s.latestReadings rule = some (key, c) →
        standing s before key = standing s (sound before) key
  left : ∀ rule ∈ sound rules, ∀ key, ruleKey rule.2 = .ok key →
    entryAfter (s.activeState key)
        (judgements s.latestReadings (judged s.latestReadings rules) key) =
      entryAfter (s.activeState key)
        (judgements s.latestReadings (sound (judged s.latestReadings rules)) key)

/-- The events of the rules are what the pass emits. -/
theorem ruleEvents_emitted (mode : Mode) (readings : DictKey × DictKey → Option LatestReading)
    (clock : ℕ → ℤ) (i : ℕ) (rules : List Json) (s : Evaluator) :
    (evaluateRules mode readings clock i rules s).1.emitted =
      s.emitted ++ (ruleEvents mode readings clock i rules s).reduceOption := by
  have one (now : ℤ) (rule : Json) (s : Evaluator) :
      (evaluateRule mode readings now rule s).1.emitted = s.emitted ++
        [(evaluateRule mode readings now rule s).1.emitted[s.emitted.length]?].reduceOption := by
    rcases evaluateRule_cases mode readings now rule s with
      ⟨e, -, heq⟩ | ⟨-, heq⟩ | ⟨key, triggered, value, -, ⟨-, heq⟩ | ⟨-, heq⟩⟩ <;> rw [heq]
    · simp
    · simp
    · simp
    · simp [changeState]
  induction rules generalizing i s with
  | nil => simp [evaluateRules, ruleEvents]
  | cons rule rules ih =>
    have hrule := one (clock i) rule s
    have hrest : (rules.map fun _ => (none : Option Emission)).reduceOption = [] := by
      simp [List.reduceOption]
    unfold evaluateRules ruleEvents
    generalize evaluateRule mode readings (clock i) rule s = r at hrule ⊢
    obtain ⟨s', result⟩ := r
    cases result with
    | ok _ =>
      refine (ih (i + 1) s').trans ?_
      conv_lhs => rw [show s'.emitted = _ from hrule]
      rw [List.append_assoc, ← List.reduceOption_append]
      rfl
    | error e =>
      have hcons := List.reduceOption_append [s'.emitted[s.emitted.length]?]
        (rules.map fun _ => none)
      rw [hrest, List.append_nil] at hcons
      exact hrule.trans (congrArg (s.emitted ++ ·) hcons.symm)

section pass

variable {mode : Mode} {readings : DictKey × DictKey → Option LatestReading}
  {active : DictKey → Option Bool} {s : Evaluator}

/-- What a pass emits for a rule, by the rules ahead of it. -/
def eventAfter (mode : Mode) (readings : DictKey × DictKey → Option LatestReading)
    (active : DictKey → Option Bool) (before : List TimedRule) (rule : TimedRule) : Option Emission :=
  if before.any (raises readings) then none
  else
    match judgeRule readings rule.1 rule.2 with
    | .ok (some (key, triggered, value)) =>
      if triggered = (judgements readings before key).getLastD ((active key).getD false) then none
      else some ⟨key, if triggered then .opened else .closed, rule.2, value, mode.pushes⟩
    | _ => none

theorem judgements_append (rules rules' : List TimedRule) (key : DictKey) :
    judgements readings (rules ++ rules') key =
      judgements readings rules key ++ judgements readings rules' key := by
  rw [judgements, List.filterMap_append, ofKey_append]
  rfl

theorem judgements_cons (rule : TimedRule) (rules : List TimedRule) (key : DictKey) :
    judgements readings (rule :: rules) key =
      judgements readings [rule] key ++ judgements readings rules key :=
  judgements_append [rule] rules key

/-- The key's entry after the rule has been judged. -/
abbrev activeAfter (readings : DictKey × DictKey → Option LatestReading) (rule : TimedRule)
    (active : DictKey → Option Bool) (key : DictKey) : Option Bool :=
  entryAfter (active key) (judgements readings [rule] key)

theorem eventAfter_cons_of_judged {rule : TimedRule} (h : raises readings rule = false)
    (before : List TimedRule) (rule' : TimedRule) :
    eventAfter mode readings active (rule :: before) rule' =
      eventAfter mode readings (activeAfter readings rule active) before rule' := by
  simp only [eventAfter, List.any_cons, h, Bool.false_or, judgements_cons rule before,
    getLastD_append, activeAfter, getD_entryAfter]

theorem eventAfter_cons_of_raises {rule : TimedRule} (h : raises readings rule = true)
    (before : List TimedRule) (rule' : TimedRule) :
    eventAfter mode readings active (rule :: before) rule' = none := by
  simp [eventAfter, h]

/-- One rule of a pass: how it ends, what it emits, and what it leaves. -/
theorem evaluateRule_spec (hmode : ∀ outcome, mode = .live outcome → Caught outcome) (now : ℤ)
    (rule : Json) :
    (match (evaluateRule mode readings now rule s).2 with
      | .ok _ => raises readings (now, rule) = false
      | .error _ => raises readings (now, rule) = true) ∧
      (evaluateRule mode readings now rule s).1.emitted[s.emitted.length]? =
        eventAfter mode readings s.activeState [] (now, rule) ∧
      (evaluateRule mode readings now rule s).1.activeState =
        activeAfter readings (now, rule) s.activeState := by
  rcases evaluateRule_cases mode readings now rule s with
    ⟨e, hjudge, heq⟩ | ⟨hjudge, heq⟩ | ⟨key, triggered, value, hjudge, ⟨hsame, heq⟩ | ⟨hchange, heq⟩⟩
  · refine ⟨?_, ?_, ?_⟩
    · simp [heq, raises, hjudge]
    · simp [heq, eventAfter, hjudge]
    · funext key
      simp [heq, activeAfter, judgements, judgement, hjudge, entryAfter, ofKey]
  · refine ⟨?_, ?_, ?_⟩
    · simp [heq, raises, hjudge]
    · simp [heq, eventAfter, hjudge]
    · funext key
      simp [heq, activeAfter, judgements, judgement, hjudge, entryAfter, ofKey]
  · refine ⟨?_, ?_, ?_⟩
    · simp [heq, raises, hjudge]
    · simp [heq, eventAfter, hjudge, hsame, judgements, ofKey]
    · funext key'
      rw [heq]
      by_cases hkey : key = key'
      · subst hkey
        simp [activeAfter, judgements, judgement, hjudge, entryAfter, ofKey, hsame]
      · simp [activeAfter, judgements, judgement, hjudge, entryAfter, ofKey, hkey]
  · refine ⟨?_, ?_, ?_⟩
    · simp [heq, raises, hjudge, changeState_ok hmode]
    · simp [heq, eventAfter, hjudge, hchange, judgements, ofKey, changeState]
    · funext key'
      rw [heq]
      by_cases hkey : key = key'
      · subst hkey
        cases triggered <;>
          simp_all [activeAfter, judgements, judgement, entryAfter, ofKey, changeState]
      · simp [activeAfter, judgements, judgement, hjudge, entryAfter, ofKey, hkey, changeState,
          Function.update_of_ne (Ne.symm hkey)]

/-- From place `i` on the clock shows the times of these rules. -/
def Ticks (clock : ℕ → ℤ) (i : ℕ) (rules : List TimedRule) : Prop :=
  ∀ j < rules.length, clock (i + j) = clockOf rules j

theorem Ticks.tail {clock : ℕ → ℤ} {i : ℕ} {rule : TimedRule} {rules : List TimedRule}
    (h : Ticks clock i (rule :: rules)) : Ticks clock (i + 1) rules := by
  intro j hj
  rw [Nat.add_right_comm]
  exact h (j + 1) (Nat.succ_lt_succ hj)

theorem ticks_clockOf (rules : List TimedRule) : Ticks (clockOf rules) 0 rules := by
  intro j _
  rw [Nat.zero_add]

theorem judgement_of_raises {rule : TimedRule} (h : raises readings rule = true) :
    judgement readings rule = none := by
  unfold raises at h
  unfold judgement
  split at h
  · rename_i heq
    rw [heq]
  · cases h

theorem ruleEvents_eq (hmode : ∀ outcome, mode = .live outcome → Caught outcome) {clock : ℕ → ℤ}
    {i : ℕ} {rules : List TimedRule} (hclock : Ticks clock i rules) :
    ruleEvents mode readings clock i (rules.map Prod.snd) s =
      (ahead rules).map fun p => eventAfter mode readings s.activeState p.1 p.2 := by
  induction rules generalizing i s with
  | nil => rfl
  | cons rule rules ih =>
    obtain ⟨now, rule⟩ := rule
    obtain rfl : clock i = now := hclock 0 (Nat.zero_lt_succ _)
    obtain ⟨hresult, hevent, hactive⟩ :=
      @evaluateRule_spec mode readings s hmode (clock i) rule
    rw [List.map_cons, ahead, List.map_cons, List.map_map]
    unfold ruleEvents
    generalize evaluateRule mode readings (clock i) rule s = r at hresult hevent hactive ⊢
    obtain ⟨s', result⟩ := r
    cases result with
    | ok _ =>
      have hjudged : raises readings (clock i, rule) = false := hresult
      refine congrArg₂ List.cons hevent ((ih hclock.tail).trans (List.map_congr_left fun p _ => ?_))
      have hactive : s'.activeState = _ := hactive
      rw [hactive]
      exact (eventAfter_cons_of_judged hjudged p.1 p.2).symm
    | error e =>
      have hraises : raises readings (clock i, rule) = true := hresult
      refine congrArg₂ List.cons hevent ?_
      conv_lhs => rw [← map_snd_ahead rules]
      rw [List.map_map, List.map_map]
      exact List.map_congr_left fun p _ => (eventAfter_cons_of_raises hraises p.1 p.2).symm

theorem evaluateRules_active (hmode : ∀ outcome, mode = .live outcome → Caught outcome)
    {clock : ℕ → ℤ} {i : ℕ} {rules : List TimedRule} (hclock : Ticks clock i rules)
    (key : DictKey) :
    (evaluateRules mode readings clock i (rules.map Prod.snd) s).1.activeState key =
      entryAfter (s.activeState key) (judgements readings (judged readings rules) key) := by
  induction rules generalizing i s with
  | nil => rfl
  | cons rule rules ih =>
    obtain ⟨now, rule⟩ := rule
    obtain rfl : clock i = now := hclock 0 (Nat.zero_lt_succ _)
    obtain ⟨hresult, -, hactive⟩ := @evaluateRule_spec mode readings s hmode (clock i) rule
    rw [List.map_cons]
    unfold evaluateRules judged
    generalize evaluateRule mode readings (clock i) rule s = r at hresult hactive ⊢
    obtain ⟨s', result⟩ := r
    cases result with
    | ok _ =>
      have hjudged : raises readings (clock i, rule) = false := hresult
      have hactive : s'.activeState = activeAfter readings (clock i, rule) s.activeState := hactive
      refine (ih hclock.tail).trans ?_
      rw [hactive, List.takeWhile_cons_of_pos (by simp [hjudged]), judgements_cons, entryAfter_append]
      rfl
    | error e =>
      have hraises : raises readings (clock i, rule) = true := hresult
      rw [List.takeWhile_cons_of_neg (by simp [hraises])]
      refine (congrFun hactive key).trans ?_
      have hnone : judgements readings [(clock i, rule)] key = [] := by
        simp [judgements, judgement_of_raises hraises, ofKey]
      rw [activeAfter, hnone]
      rfl

end pass

section isolation

variable {mode : Mode} {rules before : List TimedRule} {rule : TimedRule} {s : Evaluator}

theorem eventsOver_eq (hmode : ∀ outcome, mode = .live outcome → Caught outcome)
    (rules : List TimedRule) (s : Evaluator) : eventsOver mode rules s =
      (ahead rules).map fun p => eventAfter mode s.latestReadings s.activeState p.1 p.2 :=
  ruleEvents_eq hmode (ticks_clockOf rules)

theorem passOver_active (hmode : ∀ outcome, mode = .live outcome → Caught outcome)
    (rules : List TimedRule) (s : Evaluator) (key : DictKey) :
    (passOver mode rules s).activeState key = entryAfter (s.activeState key)
      (judgements s.latestReadings (judged s.latestReadings rules) key) :=
  evaluateRules_active hmode (ticks_clockOf rules) key

/-- Where a rule's turn comes, by its judgement. -/
theorem eventAfter_cases (mode : Mode) (s : Evaluator) (rule : TimedRule) :
    (judgement s.latestReadings rule = none ∧
      ∀ before, eventAfter mode s.latestReadings s.activeState before rule = none) ∨
    ∃ key c event, judgement s.latestReadings rule = some (key, c) ∧
      ∀ before, eventAfter mode s.latestReadings s.activeState before rule =
        if before.any (raises s.latestReadings) = true ∨ c = standing s before key then none
        else some event := by
  unfold eventAfter judgement standing
  rcases judgeRule s.latestReadings rule.1 rule.2 with e | _ | ⟨key, triggered, value⟩
  · exact .inl ⟨rfl, fun before => ite_self none⟩
  · exact .inl ⟨rfl, fun before => ite_self none⟩
  · refine .inr ⟨key, triggered,
      ⟨key, if triggered then .opened else .closed, rule.2, value, mode.pushes⟩, rfl, fun before => ?_⟩
    dsimp only
    rw [ite_or]

/-- A rule's turn gives the same with and without the malformed rules ahead of it. -/
theorem eventAfter_sound_iff (mode : Mode) (before : List TimedRule) (rule : TimedRule)
    (s : Evaluator) :
    eventAfter mode s.latestReadings s.activeState before rule =
        eventAfter mode s.latestReadings s.activeState (sound before) rule ↔
      (before.any (raises s.latestReadings) = true →
        (sound before).any (raises s.latestReadings) = false →
        ∀ key c, judgement s.latestReadings rule = some (key, c) → c = standing s (sound before) key) ∧
      (before.any (raises s.latestReadings) = false →
        ∀ key c, judgement s.latestReadings rule = some (key, c) →
          standing s before key = standing s (sound before) key) := by
  have hsub : (sound before).any (raises s.latestReadings) = true →
      before.any (raises s.latestReadings) = true := by
    simp only [List.any_eq_true]
    rintro ⟨r, hr, hraises⟩
    exact ⟨r, List.mem_of_mem_filter hr, hraises⟩
  rcases eventAfter_cases mode s rule with ⟨hnone, hevent⟩ | ⟨key, c, event, hsome, hevent⟩
  · rw [hevent, hevent, hnone]
    simp
  · rw [hevent, hevent, hsome]
    have hkey {P : DictKey → Bool → Prop} : (∀ key' c', some (key, c) = some (key', c') → P key' c') ↔
        P key c := by
      refine ⟨fun h => h key c rfl, fun h key' c' heq => ?_⟩
      cases heq
      exact h
    rw [hkey, hkey]
    cases hall : before.any (raises s.latestReadings) with
    | false =>
      have hkept : (sound before).any (raises s.latestReadings) = false :=
        Bool.eq_false_iff.mpr fun h => Bool.eq_false_iff.mp hall (hsub h)
      rw [hkept]
      cases c <;> cases standing s before key <;> cases standing s (sound before) key <;> simp
    | true =>
      cases (sound before).any (raises s.latestReadings) with
      | false => simp
      | true => simp

theorem sound_append (rules rules' : List TimedRule) :
    sound (rules ++ rules') = sound rules ++ sound rules' := by
  simp only [sound, List.filter_append]

theorem not_raises_of_mem_judged {readings : DictKey × DictKey → Option LatestReading}
    (h : rule ∈ judged readings rules) : raises readings rule = false := by
  have hnot := List.mem_takeWhile_imp h
  simpa using hnot

/-- The rules from the first that raises on. -/
abbrev unjudged (readings : DictKey × DictKey → Option LatestReading) (rules : List TimedRule) :
    List TimedRule := rules.dropWhile fun rule => !raises readings rule

theorem any_raises_of_unjudged {readings : DictKey × DictKey → Option LatestReading}
    {after : List TimedRule} (h : unjudged readings rules = before ++ rule :: after)
    (hrule : raises readings rule = false) : before.any (raises readings) = true := by
  have hhead := List.head?_dropWhile_not (fun rule => !raises readings rule) rules
  cases before with
  | nil =>
    rw [show rules.dropWhile _ = rule :: after from h] at hhead
    simp [hrule] at hhead
  | cons first before =>
    rw [show rules.dropWhile _ = first :: (before ++ rule :: after) from h] at hhead
    have hfirst : raises readings first = true := by simpa using hhead
    rw [List.any_cons, hfirst, Bool.true_or]

/-- In a settled pass each well-formed rule of the tail is judged to be what its key stands at. -/
theorem judgement_of_unjudged (h : SettledBehind rules s) {mid : List TimedRule} {key : DictKey}
    {c : Bool}
    (hmid : mid ++ [rule] <+: judged s.latestReadings (sound (unjudged s.latestReadings rules)))
    (hjudgement : judgement s.latestReadings rule = some (key, c)) :
    c = (judgements s.latestReadings mid key).getLastD
      (standing s (sound (judged s.latestReadings rules)) key) := by
  have hrules : judged s.latestReadings rules ++ unjudged s.latestReadings rules = rules :=
    List.takeWhile_append_dropWhile
  have hquiet : ∀ r ∈ mid ++ [rule], raises s.latestReadings r = false := fun r hr =>
    not_raises_of_mem_judged (hmid.subset hr)
  -- the rule stands behind all rules that were judged and the rules of the tail ahead of it
  obtain ⟨after, hafter⟩ := hmid.trans (List.takeWhile_prefix _)
  have hahead : (mid, rule) ∈ ahead (sound (unjudged s.latestReadings rules)) :=
    mem_ahead.mpr ⟨after, by rw [← hafter, List.append_assoc]; rfl⟩
  rw [sound, ahead_filter, List.mem_map] at hahead
  obtain ⟨⟨before, rule'⟩, hmem, heq⟩ := hahead
  obtain ⟨rfl, rfl⟩ : sound before = mid ∧ rule' = rule := Prod.mk.inj heq
  obtain ⟨hahead, hrule⟩ := List.mem_filter.mp hmem
  obtain ⟨after, htail⟩ := mem_ahead.mp hahead
  have hraised := any_raises_of_unjudged htail (hquiet rule' (by simp))
  have hstanding := h (judged s.latestReadings rules ++ before) rule' after
    (by rw [List.append_assoc, ← htail, hrules]) hrule (by simp [hraised]) ?_ key c hjudgement
  · rw [hstanding, standing, sound_append, judgements_append, getLastD_append]
    rfl
  · rw [sound_append, List.any_append, Bool.or_eq_false_iff, List.any_eq_false, List.any_eq_false]
    refine ⟨fun r hr => ?_, fun r hr => ?_⟩
    · simp [not_raises_of_mem_judged (List.mem_of_mem_filter hr)]
    · simp [hquiet r (List.mem_append_left _ hr)]

/-- In a settled pass the well-formed rules behind the first that raises leave no entry. -/
theorem judged_sound (h : SettledBehind rules s) (key : DictKey) :
    entryAfter (s.activeState key)
        (judgements s.latestReadings (judged s.latestReadings (sound rules)) key) =
      entryAfter (s.activeState key)
        (judgements s.latestReadings (sound (judged s.latestReadings rules)) key) := by
  have hrules : judged s.latestReadings rules ++ unjudged s.latestReadings rules = rules :=
    List.takeWhile_append_dropWhile
  have hsound : judged s.latestReadings (sound rules) = sound (judged s.latestReadings rules) ++
      judged s.latestReadings (sound (unjudged s.latestReadings rules)) := by
    conv_lhs => rw [← hrules, sound_append]
    refine List.takeWhile_append_of_pos fun r hr => ?_
    rw [not_raises_of_mem_judged (List.mem_of_mem_filter hr)]
    rfl
  rw [hsound, judgements_append, entryAfter_append]
  refine entryAfter_of_forall ?_
  rw [getD_entryAfter]
  change ∀ c ∈ _, c = standing s (sound (judged s.latestReadings rules)) key
  -- every rule of the tail finds the key as the rules ahead of the tail have left it
  have hprefix : ∀ mid, mid <+: judged s.latestReadings (sound (unjudged s.latestReadings rules)) →
      ∀ c ∈ judgements s.latestReadings mid key,
        c = standing s (sound (judged s.latestReadings rules)) key := by
    intro mid
    induction mid using List.reverseRecOn with
    | nil =>
      rintro - c hc
      cases hc
    | append_singleton mid rule ih =>
      intro hmid c hc
      have hearlier := ih ((List.prefix_append mid [rule]).trans hmid)
      rw [judgements_append, List.mem_append] at hc
      refine hc.elim (hearlier c) fun hc => ?_
      have hjudgement : judgement s.latestReadings rule = some (key, c) := by
        simpa [judgements] using hc
      exact (judgement_of_unjudged h hmid hjudgement).trans (getLastD_eq_self hearlier)
  exact hprefix _ List.prefix_rfl

theorem ruleKey_of_judgement {readings : DictKey × DictKey → Option LatestReading} {key : DictKey}
    {c : Bool} (h : judgement readings rule = some (key, c)) : ruleKey rule.2 = .ok key := by
  unfold judgement at h
  split at h
  · rename_i heq
    cases h
    exact ruleKey_of_judgeRule heq
  · cases h

theorem judgements_sound {readings : DictKey × DictKey → Option LatestReading} {key : DictKey}
    (h : ∀ rule ∈ rules, wellFormed rule.2 = false → ruleKey rule.2 ≠ .ok key) :
    judgements readings (sound rules) key = judgements readings rules key := by
  induction rules with
  | nil => rfl
  | cons rule rules ih =>
    obtain ⟨hrule, hrules⟩ := List.forall_mem_cons.mp h
    rw [judgements_cons, ← ih hrules]
    cases hwell : wellFormed rule.2 with
    | true =>
      have hkept : sound (rule :: rules) = rule :: sound rules := List.filter_cons_of_pos hwell
      rw [hkept, judgements_cons]
    | false =>
      have hnone : judgements readings [rule] key = [] := by
        rw [judgements, List.eq_nil_iff_forall_not_mem]
        intro c hc
        have hjudgement : judgement readings rule = some (key, c) := by simpa using hc
        exact hrule hwell (ruleKey_of_judgement hjudgement)
      have hdropped : sound (rule :: rules) = sound rules := List.filter_cons_of_neg (by simp [hwell])
      rw [hnone, hdropped, List.nil_append]

/-- Where no malformed rule has the key of a well-formed one, only raising matters. -/
theorem undisturbed_of_settled
    (hkeys : ∀ rule ∈ sound rules, ∀ other ∈ rules, wellFormed other.2 = false →
      ∀ key, ruleKey rule.2 = .ok key → ruleKey other.2 ≠ .ok key)
    (h : SettledBehind rules s) : Undisturbed rules s := by
  refine ⟨h, ?_, fun rule hrule key hkey => ?_⟩
  · rintro before rule after rfl hrule - key c hjudgement
    have hmem : rule ∈ sound (before ++ rule :: after) := List.mem_filter.mpr ⟨by simp, hrule⟩
    rw [standing, standing, judgements_sound fun other hother hwell => ?_]
    exact hkeys rule hmem other (List.mem_append_left _ hother) hwell key
      (ruleKey_of_judgement hjudgement)
  · rw [judgements_sound fun other hother hwell => ?_]
    exact hkeys rule hrule other ((List.takeWhile_prefix _).subset hother) hwell key hkey

/-- Malformed rules make no difference to the well-formed ones exactly where they do not disturb
them. -/
theorem isolatesFaults_iff_undisturbed
    (hmode : ∀ outcome, mode = .live outcome → Caught outcome) (rules : List TimedRule)
    (s : Evaluator) : IsolatesFaults mode rules s ↔ Undisturbed rules s := by
  have hevents := map_ahead_filter_eq_iff (fun rule : TimedRule => wellFormed rule.2)
    (eventAfter mode s.latestReadings s.activeState) rules
  have hsplit := fun before rule => eventAfter_sound_iff mode before rule s
  constructor
  · rintro ⟨hsame, hstate⟩
    rw [eventsOver_eq hmode, eventsOver_eq hmode] at hsame
    have hturns := hevents.mp hsame
    have hbehind : SettledBehind rules s := fun before rule after heq hrule =>
      ((hsplit before rule).mp (hturns before rule after heq hrule)).1
    refine ⟨hbehind, fun before rule after heq hrule => ?_, fun rule hrule key hkey => ?_⟩
    · exact ((hsplit before rule).mp (hturns before rule after heq hrule)).2
    · have hentry := hstate rule hrule key hkey
      rwa [passOver_active hmode, passOver_active hmode, judged_sound hbehind] at hentry
  · intro h
    refine ⟨?_, fun rule hrule key hkey => ?_⟩
    · rw [eventsOver_eq hmode, eventsOver_eq hmode]
      refine hevents.mpr fun before rule after heq hrule => (hsplit before rule).mpr ⟨?_, ?_⟩
      · exact h.behind before rule after heq hrule
      · exact h.turn before rule after heq hrule
    · rw [passOver_active hmode, passOver_active hmode, judged_sound h.behind,
        h.left rule hrule key hkey]

end isolation

/-- A rule whose threshold was entered as text. -/
def textRule : Json :=
  .obj [("id", .int 2), ("device_id", .int 10), ("tag_id", .int 20), ("alarm_type", .str "high"),
    ("threshold_value", .str "50")]

/-- The state with one reading, above the threshold of both rules. -/
def hotReading : Evaluator := recordLatestReading 10 20 (.finite 60) "good" 0 .initial

/-- At the end of the list the malformed rule makes no difference. -/
theorem text_last_isolated :
    IsolatesFaults .shadow [(0, highRule), (0, textRule)] hotReading := by
  have hkeys : ∀ rule ∈ sound [(0, highRule), (0, textRule)],
      ∀ other ∈ [((0 : ℤ), highRule), (0, textRule)], wellFormed other.2 = false →
        ruleKey other.2 ≠ ruleKey rule.2 := by decide +kernel
  refine (isolatesFaults_iff_undisturbed (by rintro outcome ⟨⟩) _ _).mpr (undisturbed_of_settled
    (fun rule hrule other hother hwell key hkey hother' =>
      hkeys rule hrule other hother hwell (hother'.trans hkey.symm)) ?_)
  intro before rule after hsplit hrule hraised
  match before, hsplit with
  | [], _ => cases hraised
  | [_], hsplit =>
    cases hsplit
    exact absurd hrule (by decide)
  | _ :: _ :: before, hsplit =>
    have hlength := congrArg List.length hsplit
    simp at hlength

/-- Ahead of the well-formed rule it keeps an alarm from opening. -/
theorem text_first_hinders :
    ¬ ∀ mode, (∀ outcome, mode = .live outcome → Caught outcome) → ∀ rules s,
      IsolatesFaults mode rules s := by
  intro h
  have hevents := (h .shadow (by rintro outcome ⟨⟩) [(0, textRule), (0, highRule)] hotReading).events
  revert hevents
  decide +kernel

end SenseGateway.Alarms

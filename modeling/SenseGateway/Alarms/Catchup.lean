import SenseGateway.Alarms.EdgeDetection
import SenseGateway.Signals.Channel

namespace SenseGateway.Alarms

open Python Signals

/-- How the pushes of a run turn out: what each raises, and whether the cloud receives it. A push
that succeeds has been received; one that fails may have been. -/
structure Link where
  outcome : ℕ → PyExcept Unit
  received : ℕ → Bool
  caught : Caught outcome
  arrives : ∀ n, outcome n = .ok () → received n = true

/-- The state changes pushed so far. -/
def pushes (s : Evaluator) : List (DictKey × Edge) := (events s).map fun e => (e.1, e.2.edge)

/-- The state the cloud has for a rule: that of the last change it received, and closed before. -/
def cloudState (link : Link) (s : Evaluator) (key : DictKey) : Bool :=
  heard link.received key (pushes s)

/-- The conditions a pass evaluates, up to the rule that makes it raise. -/
def samplesOf (readings : DictKey × DictKey → Option LatestReading) (clock : ℕ → ℤ) :
    ℕ → List Json → List (DictKey × Bool)
  | _, [] => []
  | i, rule :: rules =>
    match judgeRule readings (clock i) rule with
    | .error _ => []
    | .ok none => samplesOf readings clock (i + 1) rules
    | .ok (some (key, triggered, _)) => (key, triggered) :: samplesOf readings clock (i + 1) rules

/-- The conditions that a pass in the state `s` evaluates. -/
def passSamples (s : Evaluator) (clock : ℕ → ℤ) : List (DictKey × Bool) :=
  samplesOf s.latestReadings clock 0 s.alarmRules

/-- The state after a pass. -/
def afterPass (link : Link) (s : Evaluator) (clock : ℕ → ℤ) : Evaluator :=
  s.step (.live link.outcome) (.evaluateAllRules clock)

/-- Every push attempted in the pass succeeds. -/
def AllPushed (link : Link) (s : Evaluator) (clock : ℕ → ℤ) : Prop :=
  ∀ n, s.emitted.length ≤ n → n < (afterPass link s clock).emitted.length → link.outcome n = .ok ()

/-- After every pass of the run in which all pushes succeed, the cloud has each condition that the
pass evaluated. -/
def CatchesUp (link : Link) (requests : List Request) : Prop :=
  ∀ before clock, before ++ [.evaluateAllRules clock] <+: requests →
    AllPushed link (run (.live link.outcome) before) clock →
      ∀ sample ∈ passSamples (run (.live link.outcome) before) clock,
        cloudState link (afterPass link (run (.live link.outcome) before) clock) sample.1 = sample.2

/-- In the state before a pass, what the cloud needs of each rule: the pass evaluates one condition
for it, and this changes its state, or an even number of changes have been lost since the last one
the cloud received. -/
def Recovers (link : Link) (s : Evaluator) (clock : ℕ → ℤ) : Prop :=
  ∀ key c, (key, c) ∈ passSamples s clock →
    (∀ c', (key, c') ∈ passSamples s clock → c' = c) ∧
      (c ≠ (s.activeState key).getD false ∨ Even (lost link.received key (pushes s)))

theorem evaluateRule_evaluated (link : Link) (readings : DictKey × DictKey → Option LatestReading)
    (now : ℤ) (rule : Json) (s : Evaluator) :
    match judgeRule readings now rule with
    | .error e => evaluateRule (.live link.outcome) readings now rule s = (s, .error e)
    | .ok none => evaluateRule (.live link.outcome) readings now rule s = (s, .ok ())
    | .ok (some (key, triggered, _)) =>
      (evaluateRule (.live link.outcome) readings now rule s).2 = .ok () ∧
        (evaluateRule (.live link.outcome) readings now rule s).1.evaluated =
          s.evaluated ++ [(key, triggered)] := by
  rcases evaluateRule_cases (.live link.outcome) readings now rule s with
    ⟨e, hjudge, heq⟩ | ⟨hjudge, heq⟩ | ⟨key, triggered, value, hjudge, ⟨-, heq⟩ | ⟨-, heq⟩⟩
  · simp [hjudge, heq]
  · simp [hjudge, heq]
  · simp [hjudge, heq]
  · simp [hjudge, heq, changeState, pushStateChange_caught link.caught]

theorem evaluateRules_evaluated (link : Link) (readings : DictKey × DictKey → Option LatestReading)
    (clock : ℕ → ℤ) (i : ℕ) (rules : List Json) (s : Evaluator) :
    (evaluateRules (.live link.outcome) readings clock i rules s).1.evaluated =
      s.evaluated ++ samplesOf readings clock i rules := by
  induction rules generalizing i s with
  | nil => simp [evaluateRules, samplesOf]
  | cons rule rules ih =>
    have hrule := evaluateRule_evaluated link readings (clock i) rule s
    unfold evaluateRules samplesOf
    generalize evaluateRule (.live link.outcome) readings (clock i) rule s = r at hrule ⊢
    obtain ⟨s', result⟩ := r
    cases hjudge : judgeRule readings (clock i) rule with
    | error e =>
      rw [hjudge] at hrule
      cases hrule
      simp
    | ok judged =>
      rw [hjudge] at hrule
      rcases judged with _ | ⟨key, triggered, value⟩
      · cases hrule
        exact ih (i + 1) s
      · obtain ⟨rfl, hsampled⟩ := hrule
        rw [ih, hsampled, List.append_assoc]
        rfl

theorem evaluateRules_emitted (mode : Mode) (readings : DictKey × DictKey → Option LatestReading)
    (clock : ℕ → ℤ) (i : ℕ) (rules : List Json) (s : Evaluator) :
    s.emitted <+: (evaluateRules mode readings clock i rules s).1.emitted := by
  have one (now : ℤ) (rule : Json) (s : Evaluator) :
      s.emitted <+: (evaluateRule mode readings now rule s).1.emitted := by
    rcases evaluateRule_cases mode readings now rule s with
      ⟨e, -, heq⟩ | ⟨-, heq⟩ | ⟨key, triggered, value, -, ⟨-, heq⟩ | ⟨-, heq⟩⟩
    · simp [heq]
    · simp [heq]
    · simp [heq]
    · rw [heq]
      exact List.prefix_append _ _
  refine evaluateRules_preserves (P := fun s' => s.emitted <+: s'.emitted) ?_ clock i rules
    List.prefix_rfl
  exact fun now rule s' hprefix => hprefix.trans (one now rule s')

theorem detects_afterPass (link : Link) {s : Evaluator} (h : Detects s) (clock : ℕ → ℤ)
    (key : DictKey) :
    ofKey key (pushes (afterPass link s clock)) =
      edges false (ofKey key s.evaluated ++ ofKey key (passSamples s clock)) := by
  have hafter := (@step_detects (.live link.outcome) s h (.evaluateAllRules clock) key).1
  have hsamples : (afterPass link s clock).evaluated = s.evaluated ++ passSamples s clock :=
    evaluateRules_evaluated link s.latestReadings clock 0 s.alarmRules s
  rw [← ofKey_append, ← hsamples]
  exact hafter

/-- What a pass pushes for a rule are the edges from its state before the pass. -/
theorem pushes_afterPass (link : Link) {s : Evaluator} (h : Detects s) (clock : ℕ → ℤ) :
    ∃ new, pushes (afterPass link s clock) = pushes s ++ new ∧
      ∀ key, ofKey key new =
        edges ((s.activeState key).getD false) (ofKey key (passSamples s clock)) := by
  obtain ⟨emitted, hemitted⟩ :=
    evaluateRules_emitted (.live link.outcome) s.latestReadings clock 0 s.alarmRules s
  have hpushes : pushes (afterPass link s clock) =
      pushes s ++ emitted.map fun e => (e.key, e.action.edge) := by
    change ((evaluateRules _ _ _ _ _ _).1.emitted.map _).map _ = _
    rw [← hemitted]
    simp [pushes, events]
  refine ⟨_, hpushes, fun key => ?_⟩
  have hafter := detects_afterPass link h clock key
  rw [hpushes, ofKey_append, edges_append, ← (h key).1, ← (h key).2] at hafter
  exact List.append_cancel_left hafter

/-- After a pass the evaluator has the last condition it evaluated for each rule. -/
theorem levelAfter_afterPass {link : Link} {s : Evaluator} (h : Detects s) (clock : ℕ → ℤ)
    (key : DictKey) :
    levelAfter (ofKey key (pushes (afterPass link s clock))) =
      (ofKey key (passSamples s clock)).getLastD ((s.activeState key).getD false) := by
  rw [detects_afterPass link h clock key, levelAfter_edges, getLastD_append, (h key).2]

/-- The cloud knows the state of a rule after a pass in which all pushes succeed exactly where the
pass changed it, or an even number of changes had been lost before. -/
theorem cloudState_afterPass {link : Link} {s : Evaluator} (h : Detects s) {clock : ℕ → ℤ}
    (hpushed : AllPushed link s clock) (key : DictKey) :
    cloudState link (afterPass link s clock) key =
        (ofKey key (passSamples s clock)).getLastD ((s.activeState key).getD false) ↔
      (∃ c ∈ ofKey key (passSamples s clock), c ≠ (s.activeState key).getD false) ∨
        Even (lost link.received key (pushes s)) := by
  obtain ⟨new, hnew, hedges⟩ := pushes_afterPass link h clock
  have halternates : Alternates (ofKey key (pushes (afterPass link s clock))) := by
    rw [detects_afterPass link h clock key]
    exact alternates_edges _
  have hlength (s : Evaluator) : (pushes s).length = s.emitted.length := by
    simp [pushes, events]
  -- the numbers of the pushes of this pass follow those of the earlier ones
  have hreceived : ∀ n, (pushes s).length ≤ n → n < (pushes s ++ new).length →
      link.received n = true := by
    intro n hn hlt
    rw [← hnew, hlength] at hlt
    rw [hlength] at hn
    exact link.arrives n (hpushed n hn hlt)
  rw [← levelAfter_afterPass h clock key, cloudState, heard_eq_iff_even halternates, hnew,
    lost_append hreceived, hedges key]
  by_cases hnone : edges ((s.activeState key).getD false) (ofKey key (passSamples s clock)) = []
  · -- nothing is pushed, so the cloud is wrong or right as before
    have hsame := (edges_eq_nil_iff _ _).mp hnone
    rw [if_pos hnone, or_iff_right]
    rintro ⟨c, hc, hne⟩
    exact hne (hsame c hc)
  · -- the last edge that is pushed makes up for everything lost before
    have hchange : ∃ c ∈ ofKey key (passSamples s clock), c ≠ (s.activeState key).getD false := by
      by_contra hno
      exact hnone ((edges_eq_nil_iff _ _).mpr fun c hc => by_contra fun hne => hno ⟨c, hc, hne⟩)
    rw [if_neg hnone]
    exact ⟨fun _ => .inl hchange, fun _ => Even.zero⟩

/-- After a pass in which all pushes succeed, the cloud has every condition of the pass exactly
where the state before the pass allows it. -/
theorem pass_agrees_iff {link : Link} {s : Evaluator} (h : Detects s) {clock : ℕ → ℤ}
    (hpushed : AllPushed link s clock) :
    (∀ sample ∈ passSamples s clock,
        cloudState link (afterPass link s clock) sample.1 = sample.2) ↔ Recovers link s clock := by
  have hcloud (key : DictKey) := cloudState_afterPass h hpushed key
  constructor
  · intro hagree key c hc
    have hsame : ∀ c', (key, c') ∈ passSamples s clock → c' = c := fun c' hc' =>
      (hagree (key, c') hc').symm.trans (hagree (key, c) hc)
    have hlast : (ofKey key (passSamples s clock)).getLastD ((s.activeState key).getD false) = c :=
      getLastD_of_forall (List.ne_nil_of_mem (mem_ofKey.mpr hc))
        fun c' hc' => hsame c' (mem_ofKey.mp hc')
    refine ⟨hsame, ?_⟩
    rcases (hcloud key).mp ((hagree (key, c) hc).trans hlast.symm) with ⟨c', hc', hne⟩ | heven
    · exact .inl (hsame c' (mem_ofKey.mp hc') ▸ hne)
    · exact .inr heven
  · rintro hrecovers ⟨key, c⟩ hc
    obtain ⟨hsame, hknown⟩ := hrecovers key c hc
    have hlast : (ofKey key (passSamples s clock)).getLastD ((s.activeState key).getD false) = c :=
      getLastD_of_forall (List.ne_nil_of_mem (mem_ofKey.mpr hc))
        fun c' hc' => hsame c' (mem_ofKey.mp hc')
    refine ((hcloud key).mpr ?_).trans hlast
    exact hknown.imp_left fun hne => ⟨c, mem_ofKey.mpr hc, hne⟩

/-- The cloud catches up in a run exactly where it can in each of its passes without a failure. -/
theorem catchesUp_iff_recovers (link : Link) (requests : List Request) :
    CatchesUp link requests ↔
      ∀ before clock, before ++ [.evaluateAllRules clock] <+: requests →
        AllPushed link (run (.live link.outcome) before) clock →
          Recovers link (run (.live link.outcome) before) clock := by
  have hinitial : Detects .initial := Exact.nil
  have hdetects (before : List Request) : Detects (run (.live link.outcome) before) :=
    foldl_detects hinitial before
  refine forall_congr' fun before => forall_congr' fun clock => ?_
  exact forall_congr' fun _ => forall_congr' fun hpushed => pass_agrees_iff (hdetects before) hpushed

/-- The first push is lost, every later one is received. -/
def firstLost : Link where
  outcome n := if n = 0 then .error ⟨.requestException, "connection refused"⟩ else .ok ()
  received n := decide (n ≠ 0)
  caught := by
    intro n e h
    dsimp only at h
    split at h
    · cases h
      rfl
    · cases h
  arrives := by
    intro n h
    split at h
    · cases h
    · simpa using ‹¬ n = 0›

/-- An alarm whose opening is lost stays closed in the cloud while its condition holds. -/
theorem lost_open_never_retried :
    ¬ CatchesUp firstLost [.setCurrentAlarmRules (some [highRule]),
      .recordLatestReading 10 20 (.finite 60) "good" 0, .evaluateAllRules (fun _ => 1),
      .evaluateAllRules fun _ => 2] := by
  intro h
  have hagree := h [.setCurrentAlarmRules (some [highRule]),
      .recordLatestReading 10 20 (.finite 60) "good" 0, .evaluateAllRules (fun _ => 1)] (fun _ => 2)
    List.prefix_rfl ?_ (.number (.finite 1), true) (by decide +kernel)
  · revert hagree
    decide +kernel
  · intro n hn hlt
    have hlength : n < 1 := hlt
    have hlength' : 1 ≤ n := hn
    omega

end SenseGateway.Alarms

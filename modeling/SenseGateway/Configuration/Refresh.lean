import SenseGateway.Alarms.Evaluator

namespace SenseGateway.Configuration

open Python Alarms

def configRefreshSeconds : ℤ := 60

def configDownloadRetryIntervalSeconds : ℤ := 10

/-- What the threads share of the configuration, with the time the refresh loop keeps for itself. -/
structure Gateway where
  currentConfiguration : Json
  evaluator : Evaluator
  configCache : Option Json
  lastConfigDownload : PyFloat

/-- What one iteration of the loop meets: the time, the body of the response or what the request
raises, and what writing the cache file raises. -/
structure Iteration where
  currentTime : PyFloat
  response : PyExcept Json
  cacheWrite : PyExcept Unit

def downloadConfiguration (response : PyExcept Json) : PyExcept Json := do
  let configuration ← response
  if !(← configuration.get "success").truthy then
    throw ⟨.runtimeError, "Gateway configuration response failed"⟩
  else return configuration

/-- `alarm_rules or []` as the right side of a slice assignment -/
def rulesToHold (alarmRules : Json) : PyExcept (List Json) :=
  match (alarmRules.orElse (.arr [])).iter with
  | .ok rules => .ok rules
  | .error _ => .error ⟨.typeError, "can only assign an iterable"⟩

/-- The file is replaced as a whole, or not at all. -/
def writeConfigCache (cacheWrite : PyExcept Unit) (configuration : Json) (s : Gateway) :
    Gateway × PyExcept Unit :=
  match cacheWrite with
  | .ok () => ({ s with configCache := some configuration }, .ok ())
  | .error e => (s, .error e)

/-- The `try` block of the loop. -/
def refresh (iteration : Iteration) (s : Gateway) : Gateway × PyExcept Unit :=
  match downloadConfiguration iteration.response with
  | .error e => (s, .error e)
  | .ok configuration =>
    match writeConfigCache iteration.cacheWrite configuration
      { s with currentConfiguration := configuration } with
    | (s, .error e) => (s, .error e)
    | (s, .ok ()) =>
      match configuration.get "alarm_rules" >>= rulesToHold with
      | .error e => (s, .error e)
      | .ok rules =>
        ({ s with evaluator := setCurrentAlarmRules (some rules) s.evaluator }, .ok ())

/-- Whether the retry interval has passed. -/
def Gateway.isDue (s : Gateway) (currentTime : PyFloat) : Bool :=
  let retryInterval := if s.currentConfiguration.truthy then configRefreshSeconds
    else configDownloadRetryIntervalSeconds
  (PyFloat.finite retryInterval).le (currentTime.sub s.lastConfigDownload)

/-- One iteration of `run_config_refresh_loop`; whatever the block raises is logged. -/
def Gateway.iterate (s : Gateway) (iteration : Iteration) : Gateway :=
  if s.isDue iteration.currentTime then
    (refresh iteration { s with lastConfigDownload := iteration.currentTime }).1
  else s

/-- The rules a configuration has. -/
def rulesOf (configuration : Json) : List Json :=
  match configuration.get "alarm_rules" with
  | .ok (.arr rules) => rules
  | _ => []

/-- An object whose alarm rules are a list or absent. -/
def HasRules (configuration : Json) : Prop :=
  ∃ fields, configuration = .obj fields ∧
    (Json.lookup "alarm_rules" fields = none ∨
      ∃ rules, Json.lookup "alarm_rules" fields = some (.arr rules))

/-- `main` before it starts the loop, with what it reads from the cache file. -/
def startup (cached : Option Json) : PyExcept Gateway := do
  let configuration := (cached.getD .null).orElse (.obj [])
  let rules ← rulesToHold (← configuration.get "alarm_rules")
  return ⟨configuration, setCurrentAlarmRules (some rules) .initial, cached, .finite 0⟩

/-- The evaluator holds the rules of the current configuration. -/
def Gateway.Coherent (s : Gateway) : Prop :=
  s.evaluator.alarmRules = rulesOf s.currentConfiguration

theorem rulesToHold_of_hasRules {configuration : Json} (h : HasRules configuration) :
    (configuration.get "alarm_rules" >>= rulesToHold) = .ok (rulesOf configuration) := by
  obtain ⟨fields, rfl, habsent | ⟨rules, hrules⟩⟩ := h
  · simp [Json.get, Json.getD, Json.find, Except.map, habsent, bind, Except.bind, rulesToHold,
      Json.orElse, Json.truthy, Json.iter, rulesOf]
  · cases rules <;>
      simp [Json.get, Json.getD, Json.find, Except.map, hrules, bind, Except.bind, rulesToHold,
        Json.orElse, Json.truthy, Json.iter, rulesOf]

/-- The iteration downloads the configuration, which replaces the current one. -/
def Gateway.Downloads (s : Gateway) (iteration : Iteration) (configuration : Json) : Prop :=
  s.isDue iteration.currentTime = true ∧
    downloadConfiguration iteration.response = .ok configuration

/-- What an iteration can do: nothing where no configuration is downloaded, half of the work where
the cache cannot be written, and all of it otherwise. -/
theorem iterate_cases (s : Gateway) {iteration : Iteration}
    (hrules : ∀ configuration, downloadConfiguration iteration.response = .ok configuration →
      HasRules configuration) :
    ((∀ configuration, ¬ s.Downloads iteration configuration) ∧
      (s.iterate iteration).currentConfiguration = s.currentConfiguration ∧
      (s.iterate iteration).evaluator = s.evaluator) ∨
    ∃ configuration, s.Downloads iteration configuration ∧
      (s.iterate iteration).currentConfiguration = configuration ∧
      ((∃ e, iteration.cacheWrite = .error e ∧ (s.iterate iteration).evaluator = s.evaluator) ∨
        iteration.cacheWrite = .ok () ∧
          (s.iterate iteration).evaluator.alarmRules = rulesOf configuration) := by
  unfold Gateway.iterate Gateway.Downloads
  cases hdue : s.isDue iteration.currentTime with
  | false => exact .inl ⟨by simp, rfl, rfl⟩
  | true =>
    rw [if_pos rfl]
    unfold refresh
    cases hdownload : downloadConfiguration iteration.response with
    | error e => exact .inl ⟨by simp, rfl, rfl⟩
    | ok configuration =>
      refine .inr ⟨configuration, ⟨rfl, rfl⟩, ?_⟩
      cases hwrite : iteration.cacheWrite with
      | error e => exact ⟨rfl, .inl ⟨e, rfl, rfl⟩⟩
      | ok _ =>
        simp [writeConfigCache, rulesToHold_of_hasRules (hrules configuration hdownload),
          setCurrentAlarmRules]

section runs

/-- The configurations that the downloads of a run can bring. -/
def WellFormed (iterations : List Iteration) : Prop :=
  ∀ iteration ∈ iterations, ∀ configuration,
    downloadConfiguration iteration.response = .ok configuration → HasRules configuration

/-- After every iteration of the run the evaluator holds the rules of the current configuration,
and an iteration that downloads none changes neither. -/
def AllOrNothing (s : Gateway) (iterations : List Iteration) : Prop :=
  ∀ before iteration, before ++ [iteration] <+: iterations →
    ((before.foldl Gateway.iterate s).iterate iteration).Coherent ∧
      ((∀ configuration, ¬ (before.foldl Gateway.iterate s).Downloads iteration configuration) →
        ((before.foldl Gateway.iterate s).iterate iteration).currentConfiguration =
            (before.foldl Gateway.iterate s).currentConfiguration ∧
          ((before.foldl Gateway.iterate s).iterate iteration).evaluator.alarmRules =
            (before.foldl Gateway.iterate s).evaluator.alarmRules)

/-- Wherever the cache file cannot be written, the downloaded rules are those already held. -/
def FailsHarmlessly (s : Gateway) (iterations : List Iteration) : Prop :=
  ∀ before iteration, before ++ [iteration] <+: iterations → ∀ configuration,
    (before.foldl Gateway.iterate s).Downloads iteration configuration →
      (∃ e, iteration.cacheWrite = .error e) →
        rulesOf configuration = (before.foldl Gateway.iterate s).evaluator.alarmRules

/-- One iteration from a coherent state ends in one, unless the cache write fails between two
different lists of rules. -/
theorem iterate_coherent_iff {s : Gateway} (h : s.Coherent) {iteration : Iteration}
    (hrules : ∀ configuration, downloadConfiguration iteration.response = .ok configuration →
      HasRules configuration) :
    (s.iterate iteration).Coherent ↔ ∀ configuration, s.Downloads iteration configuration →
      (∃ e, iteration.cacheWrite = .error e) → rulesOf configuration = s.evaluator.alarmRules := by
  unfold Gateway.Coherent
  rcases iterate_cases s hrules with
    ⟨hnone, hcurrent, hevaluator⟩ | ⟨configuration, hdownloads, hcurrent, hwrite⟩
  · rw [hcurrent, hevaluator]
    exact ⟨fun _ configuration hdownloads => absurd hdownloads (hnone configuration), fun _ => h⟩
  · have honly (configuration' : Json) (h' : s.Downloads iteration configuration') :
        configuration' = configuration := Except.ok.inj (h'.2.symm.trans hdownloads.2)
    rw [hcurrent]
    rcases hwrite with ⟨e, hfailed, hevaluator⟩ | ⟨hwritten, hevaluator⟩
    · rw [hevaluator]
      refine ⟨fun hheld configuration' h' _ => ?_, fun hsame => ?_⟩
      · rw [honly configuration' h', hheld]
      · exact (hsame configuration hdownloads ⟨e, hfailed⟩).symm
    · rw [hevaluator]
      refine ⟨fun _ configuration' _ ⟨e, hfailed⟩ => ?_, fun _ => rfl⟩
      rw [hwritten] at hfailed
      cases hfailed

/-- The gateway starts with what is cached, and with its rules if they can be held. -/
theorem startup_ok {cached : Option Json} {s : Gateway} (h : startup cached = .ok s) :
    ∃ rules, (((cached.getD .null).orElse (.obj [])).get "alarm_rules" >>= rulesToHold) = .ok rules ∧
      s.currentConfiguration = (cached.getD .null).orElse (.obj []) ∧
        s.evaluator.alarmRules = rules := by
  obtain ⟨alarmRules, hget, h⟩ := bind_eq_ok.mp h
  obtain ⟨rules, hheld, h⟩ := bind_eq_ok.mp h
  cases h
  exact ⟨rules, bind_eq_ok.mpr ⟨alarmRules, hget, hheld⟩, rfl, rfl⟩

theorem startup_coherent {cached : Option Json} {s : Gateway}
    (hcached : ∀ configuration, cached = some configuration → HasRules configuration)
    (h : startup cached = .ok s) : s.Coherent := by
  have hempty : HasRules (.obj []) := ⟨[], rfl, .inl rfl⟩
  have hrules : HasRules ((cached.getD .null).orElse (.obj [])) := by
    cases cached with
    | none => exact hempty
    | some configuration =>
      simp only [Option.getD_some, Json.orElse]
      split
      · exact hcached configuration rfl
      · exact hempty
  obtain ⟨rules, hheld, hcurrent, hset⟩ := startup_ok h
  have hsame := hheld.symm.trans (rulesToHold_of_hasRules hrules)
  rw [Gateway.Coherent, hset, hcurrent]
  exact Except.ok.inj hsame

theorem foldl_coherent {s : Gateway} {iterations : List Iteration} (hs : s.Coherent)
    (hstep : ∀ before iteration, before ++ [iteration] <+: iterations →
      (before.foldl Gateway.iterate s).Coherent →
        ((before.foldl Gateway.iterate s).iterate iteration).Coherent)
    {before : List Iteration} (hbefore : before <+: iterations) :
    (before.foldl Gateway.iterate s).Coherent := by
  induction before using List.reverseRecOn with
  | nil => exact hs
  | append_singleton before iteration ih =>
    rw [List.foldl_concat]
    exact hstep before iteration hbefore (ih ((List.prefix_append _ _).trans hbefore))

/-- A run from the start of the gateway keeps rules and configuration together exactly where every
cache write that fails is one of rules already held. -/
theorem allOrNothing_iff_failsHarmlessly (cached : Option Json) {s : Gateway}
    (hcached : ∀ configuration, cached = some configuration → HasRules configuration)
    (hs : startup cached = .ok s) {iterations : List Iteration} (hwell : WellFormed iterations) :
    AllOrNothing s iterations ↔ FailsHarmlessly s iterations := by
  have hstart := startup_coherent hcached hs
  have hrules {before : List Iteration} {iteration : Iteration}
      (hbefore : before ++ [iteration] <+: iterations) := hwell iteration (hbefore.subset (by simp))
  constructor
  · intro h before iteration hbefore
    have hcoherent := foldl_coherent hstart (fun before iteration hb _ => (h before iteration hb).1)
      ((List.prefix_append _ _).trans hbefore)
    exact (iterate_coherent_iff hcoherent (hrules hbefore)).mp (h before iteration hbefore).1
  · intro h before iteration hbefore
    have hcoherent := foldl_coherent hstart (fun before iteration hb hc =>
      (iterate_coherent_iff hc (hrules hb)).mpr (h before iteration hb))
      ((List.prefix_append _ _).trans hbefore)
    refine ⟨(iterate_coherent_iff hcoherent (hrules hbefore)).mpr (h before iteration hbefore),
      fun hnone => ?_⟩
    rcases iterate_cases (before.foldl Gateway.iterate s) (hrules hbefore) with
      ⟨-, hcurrent, hevaluator⟩ | ⟨configuration, hdownloads, -⟩
    · exact ⟨hcurrent, by rw [hevaluator]⟩
    · exact absurd hdownloads (hnone configuration)

end runs

def ruledConfiguration : Json :=
  .obj [("success", .bool true), ("alarm_rules", .arr [.obj [("id", .int 1)]])]

/-- A download of these rules, with the cache file writable or not. -/
def download (currentTime : PyFloat) (cacheWrite : PyExcept Unit) : Iteration :=
  ⟨currentTime, .ok ruledConfiguration, cacheWrite⟩

def diskFull : PyError := ⟨.other, "[Errno 28] No space left on device"⟩

/-- The gateway as it starts without a cache file. -/
def emptyGateway : Gateway := ⟨.obj [], setCurrentAlarmRules (some []) .initial, none, .finite 0⟩

theorem hasRules_of_download {cacheWrite : PyExcept Unit} {currentTime : PyFloat} {configuration : Json}
    (h : downloadConfiguration (download currentTime cacheWrite).response = .ok configuration) :
    HasRules configuration := by
  obtain rfl : ruledConfiguration = configuration := Except.ok.inj h
  exact ⟨_, rfl, .inr ⟨_, rfl⟩⟩

/-- The cache cannot be written on the second download, which brings the rules already held. -/
theorem allOrNothing_sample :
    AllOrNothing emptyGateway
      [download (.finite 10) (.ok ()), download (.finite 70) (.error diskFull)] := by
  refine (allOrNothing_iff_failsHarmlessly none (fun _ h => nomatch h) rfl ?_).mpr ?_
  · intro iteration hmem configuration h
    rcases List.mem_pair.mp hmem with rfl | rfl <;> exact hasRules_of_download h
  · rintro before iteration ⟨after, heq⟩ configuration ⟨-, hdownload⟩ ⟨e, hfailed⟩
    rcases before with _ | ⟨first, _ | ⟨second, before⟩⟩
    · obtain ⟨rfl, -⟩ := List.cons.inj heq
      cases hfailed
    · obtain ⟨rfl, htail⟩ := List.cons.inj heq
      obtain ⟨rfl, -⟩ := List.cons.inj htail
      obtain rfl : ruledConfiguration = configuration := Except.ok.inj hdownload
      decide +kernel
    · simp at heq

/-- The first download is the current configuration although the evaluator never hears of its
rules. -/
theorem rules_lost_with_full_disk :
    startup none = .ok emptyGateway ∧
      ¬ AllOrNothing emptyGateway [download (.finite 10) (.error diskFull)] := by
  refine ⟨rfl, fun h => ?_⟩
  have hcoherent := (h [] (download (.finite 10) (.error diskFull)) List.prefix_rfl).1
  revert hcoherent
  unfold Gateway.Coherent
  decide +kernel

end SenseGateway.Configuration

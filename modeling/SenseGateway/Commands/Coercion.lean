import SenseGateway.Commands.Acknowledgement

namespace SenseGateway.Commands

open Python Effects Poller

/-- The number a text is a numeral of. -/
def numeral (s : String) : Option ℚ :=
  match intText s with
  | .value n => some n
  | _ =>
    match floatText s with
    | .value q => some q
    | _ => none

/-- The number a commanded value denotes: a boolean is not a number. -/
def denoted : Json → Option ℚ
  | .int n => some n
  | .float (.finite q) => some q
  | .str s => numeral s
  | _ => none

/-- The request writes the value itself. -/
def Carries (value : Json) : WriteRequest → Prop
  | .register _ n _ => denoted value = some n
  | .coil _ on _ => value = .bool on ∨ denoted value = some (if on then 1 else 0)

/-- The values a holding register can take. -/
def fitsRegister (n : ℤ) : Prop := 0 ≤ n ∧ n ≤ 65535

/-- The client raises where it is asked to write any other value to a register. -/
def BoundedRegisters (es : List (Event calls)) : Prop :=
  ∀ client address n slave answer, (client, .register address n slave, answer) ∈ writeResults es →
    ¬ fitsRegister n → ∃ e, answer = .error e

/-- Whatever a run of the command writes and acknowledges as a success is the commanded value. -/
def Uncoerced (settings : Settings) (command configuration : Json) : Prop :=
  ∀ es out, Prog.Trace (executeCommand settings command configuration) es (some out) →
    BoundedRegisters es → (∃ ack ∈ acks es, ack.status = "success") →
      ∃ value, command.get "value" = .ok value ∧
        ∀ client request, (client, request) ∈ writes es → Carries value request

/-- The values that `int` turns into another number, one that fits a register. -/
def LossyForRegister : Json → Prop
  | .bool _ => True
  | .float (.finite q) => (Json.truncate q : ℚ) ≠ q ∧ fitsRegister (Json.truncate q)
  | _ => False

/-- The values that `bool` makes a coil state of although they denote neither 0 nor 1, and the
numerals of 0 and of other numbers, which are true as texts. -/
def LossyForCoil : Json → Prop
  | .bool _ => False
  | .int n => n ≠ 0 ∧ n ≠ 1
  | .float x => x ≠ .finite 0 ∧ x ≠ .finite 1
  | .str s => numeral s ≠ some 1
  | _ => True

def Lossy (commandType : String) (value : Json) : Prop :=
  commandType = "write_register" ∧ LossyForRegister value ∨
    commandType = "write_coil" ∧ LossyForCoil value

theorem intText_of_toInt {s : String} {n : ℤ} (h : (Json.str s).toInt = .ok n) :
    intText s = .value n := by
  simp only [Json.toInt] at h
  cases hs : intText s with
  | value m =>
    rw [hs] at h
    exact congrArg IntText.value (Except.ok.inj h)
  | invalid => simp [hs] at h
  | tooLong digits => simp [hs] at h

theorem carries_register {value : Json} {n address slave : ℤ} (h : value.toInt = .ok n)
    (hfits : fitsRegister n) :
    Carries value (.register address n slave) ↔ ¬ LossyForRegister value := by
  cases value with
  | bool b => simp [Carries, denoted, LossyForRegister]
  | int m =>
    obtain rfl : m = n := Except.ok.inj h
    simp [Carries, denoted, LossyForRegister]
  | float x =>
    cases x with
    | finite q =>
      obtain rfl : Json.truncate q = n := Except.ok.inj h
      simp [Carries, denoted, LossyForRegister, hfits, eq_comm]
    | _ => cases h
  | str s =>
    have hnumeral : numeral s = some (n : ℚ) := by simp [numeral, intText_of_toInt h]
    simp [Carries, denoted, LossyForRegister, hnumeral]
  | _ => cases h

theorem carries_coil (value : Json) (address slave : ℤ) :
    Carries value (.coil address value.truthy slave) ↔ ¬ LossyForCoil value := by
  cases value with
  | null => simp [Carries, denoted, LossyForCoil]
  | bool b => simp [Carries, LossyForCoil, Json.truthy]
  | int n =>
    by_cases h0 : n = 0
    · simp [Carries, denoted, LossyForCoil, Json.truthy, h0]
    · simp [Carries, denoted, LossyForCoil, Json.truthy, h0]
  | float x =>
    by_cases h0 : x = .finite 0
    · simp [Carries, denoted, LossyForCoil, Json.truthy, h0]
    · cases x <;> simp_all [Carries, denoted, LossyForCoil, Json.truthy]
  | str s =>
    by_cases hs : s = ""
    · subst hs
      have hnone : numeral "" = none := by decide
      simp [Carries, denoted, LossyForCoil, hnone]
    · simp [Carries, denoted, LossyForCoil, Json.truthy, hs]
  | arr items => simp [Carries, denoted, LossyForCoil]
  | obj fields => simp [Carries, denoted, LossyForCoil]

/-- What the planned request makes of the commanded value. -/
theorem value_of_plannedWrite {settings : Settings} {order : Order} {params : ClientParams}
    {request : WriteRequest} (h : plannedWrite settings order = .ok (params, request)) :
    (∃ address n slave, order.commandType = "write_register" ∧ order.value.toInt = .ok n ∧
      request = .register address n slave) ∨
    ∃ address slave, order.commandType = "write_coil" ∧
      request = .coil address order.value.truthy slave := by
  obtain ⟨slaveId, h⟩ := writeRequest_of_plannedWrite h
  obtain ⟨address, -, ⟨htype, n, hn, rfl⟩ | ⟨htype, rfl⟩⟩ := writeRequest_cases h
  · exact .inl ⟨address, n, slaveId, htype, hn, rfl⟩
  · exact .inr ⟨address, slaveId, htype, rfl⟩

/-- The request asks no more of a register than it can hold. -/
def Fits : WriteRequest → Prop
  | .register _ n _ => fitsRegister n
  | .coil _ _ _ => True

/-- A planned request that fits its register carries the value exactly where nothing is lost. -/
theorem carries_of_plannedWrite {settings : Settings} {order : Order} {params : ClientParams}
    {request : WriteRequest} (h : plannedWrite settings order = .ok (params, request))
    (hfits : Fits request) :
    Carries order.value request ↔ ¬ Lossy order.commandType order.value := by
  rcases value_of_plannedWrite h with ⟨address, n, slave, htype, hn, rfl⟩ | ⟨address, slave, htype, rfl⟩
  · rw [carries_register hn hfits]
    simp [Lossy, htype]
  · rw [carries_coil]
    simp [Lossy, htype]

theorem fits_of_lossyForRegister {value : Json} {n : ℤ} (hn : value.toInt = .ok n)
    (h : LossyForRegister value) : fitsRegister n := by
  cases value with
  | bool b =>
    obtain rfl : (if b then 1 else 0) = n := Except.ok.inj hn
    cases b <;> simp [fitsRegister]
  | float x =>
    cases x with
    | finite q =>
      obtain rfl : Json.truncate q = n := Except.ok.inj hn
      exact h.2
    | _ => exact h.elim
  | _ => exact h.elim

/-- Whatever loses its value on the way to a register fits one. -/
theorem fits_of_lossy {settings : Settings} {order : Order} {params : ClientParams}
    {request : WriteRequest} (h : plannedWrite settings order = .ok (params, request))
    (hlossy : Lossy order.commandType order.value) : Fits request := by
  rcases value_of_plannedWrite h with ⟨address, n, slave, htype, hn, rfl⟩ | ⟨address, slave, htype, rfl⟩
  · exact fits_of_lossyForRegister hn (by simpa [Lossy, htype] using hlossy)
  · exact trivial

theorem screen_value {command configuration : Json} {order : Order}
    (h : screen command configuration = .ok (.accepted order)) :
    command.get "value" = .ok order.value := by
  obtain ⟨commandId, -, h⟩ := bind_eq_ok.mp h
  obtain ⟨commandType, -, h⟩ := bind_eq_ok.mp h
  obtain ⟨value, hvalue, h⟩ := bind_eq_ok.mp h
  rw [hvalue]
  split at h
  · split at h <;> cases h
  · split at h
    · cases h
    · obtain ⟨found, -, h⟩ := bind_eq_ok.mp h
      rcases found with _ | ⟨device, tag⟩
      · cases h
      · obtain ⟨id, -, h⟩ := bind_eq_ok.mp h
        cases h
        rfl

theorem writes_eq (es : List (Event calls)) :
    writes es = (writeResults es).map fun w => (w.1, w.2.1) := by
  induction es with
  | nil => rfl
  | cons e es ih =>
    obtain ⟨op, r⟩ := e
    cases op with
    | write client request => simpa [writes, writeResults] using ih
    | _ => exact ih

/-- The gate lets the command through to a write that loses its value. -/
def Coerces (settings : Settings) (command configuration : Json) : Prop :=
  ∃ order w, screen command configuration = .ok (.accepted order) ∧
    plannedWrite settings order = .ok w ∧ Lossy order.commandType order.value

theorem uncoerced_of_not_coerces {settings : Settings} {command configuration : Json}
    (h : ¬ Coerces settings command configuration) : Uncoerced settings command configuration := by
  rintro es out htrace hbounded ⟨ack, hack, hsuccess⟩
  have hsettled := (settled_of_trace htrace).resolve_right fun ⟨_, hnone, _⟩ => by simp [hnone] at hack
  obtain ⟨_, -, ack', (hacks : acks es = [ack']), -, hstatus⟩ := hsettled
  obtain rfl : ack = ack' := by simpa [hacks] using hack
  rcases hstatus with ⟨-, client, request, ⟨order, hscreen, -, hplan⟩,
    (hwritten : writeResults es = [(client, request, .ok .done)])⟩ | ⟨hfailed, -⟩
  · refine ⟨order.value, screen_value hscreen, fun client' request' hw => ?_⟩
    -- a write of more than a register holds is never confirmed
    have hfits : Fits request := by
      cases request with
      | register address n slave =>
        by_contra hout
        obtain ⟨e, he⟩ := hbounded client address n slave (.ok .done) (by simp [hwritten]) hout
        cases he
      | coil address on slave => exact trivial
    obtain ⟨rfl, rfl⟩ : client' = client ∧ request' = request := by
      simpa [writes_eq, hwritten] using hw
    refine (carries_of_plannedWrite hplan hfits).mpr fun hlossy => h ⟨order, _, hscreen, hplan, hlossy⟩
  · rw [hfailed] at hsuccess
    exact absurd hsuccess (by decide)

/-- In an environment where nothing fails, every call is answered so. -/
theorem answer_of_friendlyEvents {settings : Settings} {command configuration : Json}
    {e : Event calls} (h : e ∈ friendlyEvents settings command configuration) :
    e.answer = friendly e.op := Prog.answer_of_events h

/-- Where the gate accepts a command and its write can be planned, that write is made and
acknowledged as a success in an environment where nothing fails. -/
theorem friendlyEvents_success {settings : Settings} {command configuration : Json} {order : Order}
    {params : ClientParams} {request : WriteRequest}
    (hscreen : screen command configuration = .ok (.accepted order))
    (hplan : plannedWrite settings order = .ok (params, request)) :
    (∃ ack ∈ acks (friendlyEvents settings command configuration), ack.status = "success") ∧
      ∃ client, writeResults (friendlyEvents settings command configuration) =
        [(client, request, .ok .done)] := by
  have hwrite := writes_friendlyEvents hscreen hplan
  rw [writes_eq] at hwrite
  obtain ⟨⟨client, request', answer⟩, hmem, heq⟩ := List.mem_map.mp hwrite
  obtain ⟨-, rfl⟩ : client = _ ∧ request' = request := by simpa using heq
  obtain ⟨e, he, hresult⟩ := List.mem_filterMap.mp hmem
  have hdone : answer = .ok .done := by
    have hanswer := answer_of_friendlyEvents he
    obtain ⟨op, r⟩ := e
    cases op with
    | write client' request' =>
      simp only [Option.some.injEq, Prod.mk.injEq] at hresult
      exact hresult.2.2.symm.trans hanswer
    | _ => simp at hresult
  subst hdone
  -- a confirmed write rules out that the one acknowledgement tells of a failure
  obtain ⟨out, htrace⟩ := friendlyEvents_trace settings command configuration
  rcases settled_of_trace htrace with ⟨_, -, ack, hacks, -, hstatus⟩ | ⟨hnone, -⟩
  · rcases hstatus with ⟨hsuccess, client', request', -, hwritten⟩ | ⟨-, hfailed⟩
    · refine ⟨⟨ack, by simp [show acks _ = [ack] from hacks], hsuccess⟩, client, ?_⟩
      have hlast : writeResults _ = [(client', request', .ok .done)] := hwritten
      rw [hlast] at hmem ⊢
      rw [List.mem_singleton.mp hmem]
    · exact absurd rfl (hfailed _ hmem)
  · simp [hnone] at hmem

/-- A command keeps the value it is given exactly where the gate lets no lossy write through. -/
theorem uncoerced_iff_not_coerces (settings : Settings) (command configuration : Json) :
    Uncoerced settings command configuration ↔ ¬ Coerces settings command configuration := by
  refine ⟨?_, uncoerced_of_not_coerces⟩
  rintro hsafe ⟨order, ⟨params, request⟩, hscreen, hplan, hlossy⟩
  have hfits := fits_of_lossy hplan hlossy
  obtain ⟨hsuccess, client, hwritten⟩ := friendlyEvents_success hscreen hplan
  obtain ⟨out, htrace⟩ := friendlyEvents_trace settings command configuration
  have hbounded : BoundedRegisters (friendlyEvents settings command configuration) := by
    intro client' address n slave answer hmem hout
    rw [hwritten] at hmem
    obtain ⟨-, rfl, -⟩ : client' = client ∧ .register address n slave = request ∧ _ := by
      simpa using hmem
    exact absurd hfits hout
  obtain ⟨value, hvalue, hcarries⟩ := hsafe _ out htrace hbounded hsuccess
  obtain rfl : value = order.value := Except.ok.inj (hvalue.symm.trans (screen_value hscreen))
  have hcarried := hcarries client request (by simp [writes_eq, hwritten])
  exact (carries_of_plannedWrite hplan hfits).mp hcarried hlossy

/-- A command to switch off a coil, with the state as a text. -/
def offCommand : Json :=
  .obj [("command_id", .int 9), ("command_type", .str "write_coil"),
    ("device_id", .int 1), ("tag_id", .int 7), ("value", .str "false")]

/-- The coil is switched on, and the command acknowledged as a success. -/
theorem coil_switched_on_for_false :
    ¬ Uncoerced sampleSettings offCommand sampleConfiguration := by
  intro hsafe
  obtain ⟨out, htrace⟩ := friendlyEvents_trace sampleSettings offCommand sampleConfiguration
  have hwritten : writeResults (friendlyEvents sampleSettings offCommand sampleConfiguration) =
      [(serialClient 0 1, .coil 40 true 1, .ok .done)] := by decide
  have hbounded : BoundedRegisters
      (friendlyEvents sampleSettings offCommand sampleConfiguration) := by
    intro client address n slave answer hmem
    simp [hwritten] at hmem
  obtain ⟨value, hvalue, hcarries⟩ := hsafe _ out htrace hbounded
    ⟨⟨.int 9, "success", "", none⟩, by decide, rfl⟩
  obtain rfl : Json.str "false" = value := Except.ok.inj hvalue
  rcases hcarries (serialClient 0 1) (.coil 40 true 1) (by simp [writes_eq, hwritten]) with h | h
  · cases h
  · have hnone : denoted (.str "false") = none := by decide
    simp [hnone] at h

end SenseGateway.Commands

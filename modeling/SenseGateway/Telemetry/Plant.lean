import SenseGateway.Commands.Outline
import SenseGateway.Effects.Logs
import SenseGateway.Poller.Layouts
import SenseGateway.Poller.Locking

namespace SenseGateway.Telemetry

open Python Effects Poller

/-- A holding register of a device, as a client reaches it. -/
structure Register where
  params : ClientParams
  slave : ℤ
  address : ℤ
  deriving DecidableEq, Repr

/-- What the holding registers of the devices contain. -/
abbrev Plant := Register → ℤ

/-- What fits a register. -/
def Word (value : ℤ) : Prop := 0 ≤ value ∧ value < 65536

instance (value : ℤ) : Decidable (Word value) := inferInstanceAs (Decidable (_ ∧ _))

/-- The register that a tag of a device entry names. -/
def registerOf (settings : Settings) (device tag : Json) : PyExcept Register := do
  let (connection, communicationType) ← Commands.connectionOf device
  let params ← clientParams settings communicationType connection
  let slave ← Commands.slaveIdOf connection
  let address ← (← tag.item "register_address").toInt
  return ⟨params, slave, address⟩

/-- The contents of so many registers from one on. -/
def Plant.words (plant : Plant) (register : Register) (count : ℤ) : List ℤ :=
  (List.range count.toNat).map fun i => plant { register with address := register.address + i }

/-- The register a call tries to write and the value. -/
def written : Event calls → Option (Register × ℤ)
  | ⟨.write client (.register address value slave), _⟩ => some (⟨client.params, slave, address⟩, value)
  | _ => none

/-- The device has confirmed the write. -/
def confirmed : Event calls → Bool
  | ⟨.write _ _, .ok .done⟩ => true
  | _ => false

/-- The registers a call has read, and from which on. -/
def readings : Event calls → Option (Register × ReadRequest × List ℤ)
  | ⟨.read client request, .ok (.registers registers)⟩ =>
    some (⟨client.params, request.slave, request.address⟩, request, registers)
  | _ => none

/-- A read of holding registers is answered with what they contain. A write that is confirmed has taken
effect; any other may have. Everything else is answered in any way. -/
def Plant.serves (_ : Thread) (plant : Plant) (o : Call) (r : o.Answer) (plant' : Plant) : Prop :=
  match written ⟨o, r⟩ with
  | some (register, value) =>
    plant' = plant ∧ confirmed ⟨o, r⟩ = false ∨
      Word value ∧ plant' = Function.update plant register value
  | none => plant' = plant ∧ ∀ register request registers,
      readings ⟨o, r⟩ = some (register, request, registers) → request.functionCode = 3 →
        registers = plant.words register request.count

/-- The poll thread, which polls these device entries, and the command thread with the devices. What is
not `ours` can be written by others, too. -/
def plantMachine (settings : Settings) (polled : Json → Prop) (ours : Register → Prop) :
    Machine calls PyError Thread Plant where
  serves := Plant.serves
  background _ plant plant' := ∃ register value, ¬ ours register ∧ Word value ∧
    plant' = Function.update plant register value
  entry
    | .poll, p => ∃ device, polled device ∧ p = runDevice settings device
    | .command, p => ∃ command configuration, p = Commands.executeCommand settings command configuration

/-- After these calls the register can contain the value: it is there from the start, or a call has
tried to write it; and it is not older than a write that was confirmed. -/
structure Current (start : Plant) (log : List (Thread × Event calls)) (register : Register)
    (value : ℤ) : Prop where
  source : value = start register ∨ ∃ x ∈ log, written x.2 = some (register, value)
  notOlder : ∀ before x after n, log = before ++ x :: after → written x.2 = some (register, n) →
    confirmed x.2 = true → value = n ∨ ∃ y ∈ after, written y.2 = some (register, value)

section current

variable {start plant : Plant} {log : List (Thread × Event calls)} {x : Thread × Event calls}
  {register : Register} {value : ℤ}

theorem current_start : Current start [] register (start register) :=
  ⟨.inl rfl, fun before x after n h => by simp at h⟩

/-- A value that a call tries to write can be there afterwards. -/
theorem current_written (h : written x.2 = some (register, value)) :
    Current start (log ++ [x]) register value := by
  refine ⟨.inr ⟨x, by simp, h⟩, fun before y after n hcut hwritten _ => ?_⟩
  rcases cut_snoc hcut with ⟨-, rfl, -⟩ | ⟨rest, rfl, -⟩
  · rw [h] at hwritten
    cases hwritten
    exact .inl rfl
  · exact .inr ⟨x, by simp, h⟩

/-- A call that does not write the register for certain leaves what can be there. -/
theorem Current.snoc (hcurrent : Current start log register value)
    (h : ∀ n, written x.2 = some (register, n) → confirmed x.2 = false) :
    Current start (log ++ [x]) register value := by
  refine ⟨hcurrent.source.imp_right fun ⟨y, hy, hwritten⟩ => ⟨y, by simp [hy], hwritten⟩, ?_⟩
  intro before y after n hcut hwritten hconfirmed
  rcases cut_snoc hcut with ⟨-, rfl, -⟩ | ⟨rest, rfl, hlog⟩
  · rw [h n hwritten] at hconfirmed
    cases hconfirmed
  · -- what has been written since is still written since
    refine (hcurrent.notOlder before y rest n hlog hwritten hconfirmed).imp_right ?_
    rintro ⟨z, hz, hwritten⟩
    exact ⟨z, by simp [hz], hwritten⟩

/-- The plant holds words, in our registers current ones. -/
structure Fits (ours : Register → Prop) (start : Plant) (plant : Plant)
    (log : List (Thread × Event calls)) : Prop where
  word : ∀ register, Word (plant register)
  current : ∀ register, ours register → Current start log register (plant register)

variable {ours : Register → Prop}

theorem fits_start (h : ∀ register, Word (start register)) : Fits ours start start [] :=
  ⟨h, fun _ _ => current_start⟩

theorem word_update (hword : ∀ register, Word (plant register)) (hvalue : Word value) :
    ∀ other, Word (Function.update plant register value other) := by
  intro other
  by_cases hother : other = register
  · subst hother
    simpa using hvalue
  · simpa [hother] using hword other

theorem Fits.serves {t : Thread} {o : Call} {r : o.Answer} {plant' : Plant}
    (h : Fits ours start plant log) (hs : Plant.serves t plant o r plant') :
    Fits ours start plant' (log ++ [(t, ⟨o, r⟩)]) := by
  unfold Plant.serves at hs
  split at hs
  · rename_i register value hwritten
    rcases hs with ⟨rfl, hconfirmed⟩ | ⟨hvalue, rfl⟩
    · exact ⟨h.word, fun other hother => (h.current other hother).snoc fun _ _ => hconfirmed⟩
    · refine ⟨word_update h.word hvalue, fun other hother => ?_⟩
      by_cases hsame : other = register
      · subst hsame
        rw [Function.update_self]
        exact current_written hwritten
      · rw [Function.update_of_ne hsame]
        refine (h.current other hother).snoc fun n hn => ?_
        cases hwritten.symm.trans hn
        exact absurd rfl hsame
  · rename_i hwritten
    obtain ⟨rfl, -⟩ := hs
    refine ⟨h.word, fun other hother => (h.current other hother).snoc fun n hn => ?_⟩
    cases hwritten.symm.trans hn

/-- Others write registers that are not ours. -/
theorem Fits.update (h : Fits ours start plant log) (hours : ¬ ours register) (hvalue : Word value) :
    Fits ours start (Function.update plant register value) log := by
  refine ⟨word_update h.word hvalue, fun other hother => ?_⟩
  have hne : other ≠ register := by
    rintro rfl
    exact hours hother
  rw [Function.update_of_ne hne]
  exact h.current other hother

end current

/-- `int(tag.get("function_code") or 3)` -/
def functionCodeOf (tag : Json) : PyExcept ℤ := do
  ((← tag.get "function_code").orElse (.int 3)).toInt

/-- `int(tag.get("register_count") or 1)` -/
def registerCountOf (tag : Json) : PyExcept ℤ := do
  ((← tag.get "register_count").orElse (.int 1)).toInt

/-- A tag of one register that is shown as it is. -/
structure Plain (tag : Json) : Prop where
  registerCount : registerCountOf tag = .ok 1
  dataType : ∃ dataType, tag.getD "data_type" (.str "float32") = .ok dataType ∧
    lower (strip dataType.toStr) ∈ DataType.uint16.names
  byteOrder : ∃ byteOrder, tag.getD "byte_order" (.str "big") = .ok byteOrder ∧
    lower byteOrder.toStr ∉ ["little", "swapped"]
  conversion : ∃ decimalPlaces, conversion tag = .ok (.finite 1, .finite 0, decimalPlaces) ∧
    0 ≤ decimalPlaces

section plain

theorem words_one (plant : Plant) (register : Register) : plant.words register 1 = [plant register] := by
  simp [Plant.words]

theorem registers_uint16 {byteOrder wordOrder : Json} (h : lower byteOrder.toStr ∉ ["little", "swapped"])
    {n : ℕ} (hn : n < 2 ^ 16) :
    DataType.uint16.registers byteOrder wordOrder ⟨n, hn⟩ = [(n : ℤ)] := by
  have hword : 256 * (n / 256 % 256) + n % 256 = n := by omega
  simp [DataType.registers, DataType.words, DataType.pattern, layout, wordsOfBytes, Numerals.digits,
    h, hword]

theorem convert_self {decimalPlaces n : ℤ} (hplaces : 0 ≤ decimalPlaces) (hn : n.natAbs < 2 ^ 53) :
    convert (.finite 1) (.finite 0) decimalPlaces (.finite n) = .ok (.finite n) := by
  have hround := roundDouble_intCast hn
  have hscaled : (n : ℚ) / (10 : ℚ) ^ (-decimalPlaces) = ((n * 10 ^ decimalPlaces.toNat : ℤ) : ℚ) := by
    have hpower : (10 : ℚ) ^ decimalPlaces = (10 : ℚ) ^ decimalPlaces.toNat := by
      rw [← zpow_natCast, Int.toNat_of_nonneg hplaces]
    rw [zpow_neg, div_inv_eq_mul, hpower]
    push_cast
    rfl
  have hunit : (10 : ℚ) ^ (-decimalPlaces) ≠ 0 := zpow_ne_zero _ (by norm_num)
  simp only [convert, PyFloat.mul, PyFloat.add, mul_one, add_zero, hround, roundDecimals]
  rw [hscaled, roundHalfEven_intCast, ← hscaled, div_mul_cancel₀ _ hunit, hround]

/-- Such a tag shows the word in its register. -/
theorem Plain.value {settings : Settings} {tag : Json} (h : Plain tag) {n : ℤ} (hn : Word n)
    {value : PyFloat} (hvalue : engineeringValue settings tag [n] = .ok value) : value = .finite n := by
  obtain ⟨dataType, hdataType, hname⟩ := h.dataType
  obtain ⟨byteOrder, hbyteOrder, hbig⟩ := h.byteOrder
  obtain ⟨decimalPlaces, hconversion, hplaces⟩ := h.conversion
  obtain ⟨k, rfl⟩ := Int.eq_ofNat_of_zero_le hn.1
  have hk : k < 2 ^ 16 := by exact_mod_cast hn.2
  rw [engineeringValue_eq] at hvalue
  obtain ⟨decoded, hdecoded, hvalue⟩ := bind_eq_ok.mp hvalue
  obtain ⟨dataType', hdataType', hdecoded⟩ := bind_eq_ok.mp hdecoded
  obtain ⟨byteOrder', hbyteOrder', hdecoded⟩ := bind_eq_ok.mp hdecoded
  obtain ⟨wordOrder, -, hdecoded⟩ := bind_eq_ok.mp hdecoded
  cases hdataType.symm.trans hdataType'
  cases hbyteOrder.symm.trans hbyteOrder'
  -- a register of its own is decoded to the word it holds
  have hk' : decodeRegisters [(k : ℤ)] dataType byteOrder wordOrder = .ok (.finite k) := by
    rw [← registers_uint16 hbig hk]
    exact decodeRegisters_of_value hname byteOrder wordOrder ⟨k, hk⟩
  cases hk'.symm.trans hdecoded
  rw [hconversion] at hvalue
  have hself := convert_self (n := k) hplaces (by omega)
  exact (Except.ok.inj (hself.symm.trans hvalue)).symm

end plain

end SenseGateway.Telemetry

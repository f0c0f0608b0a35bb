import SenseGateway.Python.JsonRoundTrip

namespace SenseGateway.Python

/-- A value that `json.loads` can return at this recursion limit: well formed, with integers that have
a text, and not nested more deeply. -/
inductive Json.Fits : ℕ → Json → Prop
  | null (depth : ℕ) : Fits depth .null
  | bool (depth : ℕ) (b : Bool) : Fits depth (.bool b)
  | int (depth : ℕ) {n : ℤ} (h : (Nat.toDigits 10 n.natAbs).length ≤ maxStrDigits) : Fits depth (.int n)
  | float (depth : ℕ) {x : PyFloat} (h : IsPyFloat x) : Fits depth (.float x)
  | str (depth : ℕ) (s : String) : Fits depth (.str s)
  | arr {depth : ℕ} {items : List Json} (h : ∀ item ∈ items, Fits depth item) :
    Fits (depth + 1) (.arr items)
  | obj {depth : ℕ} {fields : List (String × Json)} (nodup : (fields.map Prod.fst).Nodup)
      (h : ∀ field ∈ fields, Fits depth field.2) : Fits (depth + 1) (.obj fields)

theorem Json.Fits.wellFormed {depth : ℕ} {v : Json} (h : v.Fits depth) : v.WellFormed := by
  induction h with
  | null => exact .null
  | bool depth b => exact .bool b
  | int => exact .int _
  | float depth h => exact .float h
  | str depth s => exact .str s
  | arr _ ih => exact .arr ih
  | obj nodup _ ih => exact .obj nodup ih

theorem exists_writeItems {sep : Separators} {depth : ℕ} {items : List Json}
    (h : ∀ item ∈ items, ∃ text, writeValue sep depth item = .ok text) :
    ∃ texts, writeItems sep depth items = .ok texts := by
  induction items with
  | nil => exact ⟨[], rfl⟩
  | cons x xs ih =>
    obtain ⟨⟨text, htext⟩, hrest⟩ := List.forall_mem_cons.mp h
    obtain ⟨texts, htexts⟩ := ih hrest
    exact ⟨text :: texts, by rw [writeItems, htext, htexts]; rfl⟩

theorem exists_writeFields {sep : Separators} {depth : ℕ} {fields : List (String × Json)}
    (h : ∀ field ∈ fields, ∃ text, writeValue sep depth field.2 = .ok text) :
    ∃ texts, writeFields sep depth fields = .ok texts := by
  induction fields with
  | nil => exact ⟨[], rfl⟩
  | cons field fields ih =>
    obtain ⟨key, x⟩ := field
    obtain ⟨⟨text, htext⟩, hrest⟩ := List.forall_mem_cons.mp h
    obtain ⟨texts, htexts⟩ := ih hrest
    exact ⟨_, by rw [writeFields, htext, htexts]; rfl⟩

/-- A value that can have been read can be written, at the same limit. -/
theorem Json.Fits.exists_writeValue (sep : Separators) {depth : ℕ} {v : Json} (h : v.Fits depth) :
    ∃ text, writeValue sep depth v = .ok text := by
  induction h with
  | null => exact ⟨_, rfl⟩
  | bool => exact ⟨_, rfl⟩
  | int depth h => exact ⟨_, if_neg (Nat.not_lt.mpr h)⟩
  | float => exact ⟨_, rfl⟩
  | str => exact ⟨_, rfl⟩
  | @arr depth items _ ih =>
    obtain ⟨texts, htexts⟩ := exists_writeItems ih
    exact ⟨_, by rw [writeValue, if_neg (Nat.succ_ne_zero depth), Nat.add_sub_cancel, htexts]; rfl⟩
  | @obj depth fields nodup _ ih =>
    obtain ⟨texts, htexts⟩ := exists_writeFields ih
    exact ⟨_, by rw [writeValue, if_neg (Nat.succ_ne_zero depth), Nat.add_sub_cancel, htexts]; rfl⟩

section reading

/-- Whatever the scanner returns is such a value. -/
def Gives {α : Type} (P : α → Prop) (scan : Scanner α) : Prop :=
  ∀ ⦃cs a rest⦄, scan cs = .ok (a, rest) → P a

theorem ofDigitChars_lt {cs : List Char} (h : ∀ c ∈ cs, c.isDigit = true) :
    Nat.ofDigitChars 10 cs 0 < 10 ^ cs.length := by
  induction cs using List.reverseRecOn with
  | nil => simp
  | append_singleton cs c ih =>
    have hc : c.toNat - '0'.toNat < 10 := by
      have hdigit := Char.isDigit_iff_toNat.mp (h c (by simp))
      simp at hdigit ⊢
      omega
    have hlt := ih fun d hd => h d (List.mem_append_left [c] hd)
    rw [Nat.ofDigitChars_append, Nat.ofDigitChars_cons, Nat.ofDigitChars_nil, List.length_append,
      List.length_singleton, Nat.pow_succ]
    omega

/-- The digits of a whole part, of which the number is below the power of ten. -/
theorem scanWhole_gives : Gives (fun whole => digitsValue whole < 10 ^ whole.length ∧ whole ≠ [])
    scanWhole := by
  intro cs whole rest h
  cases cs with
  | nil => cases h
  | cons c cs =>
    rw [scanWhole] at h
    split at h
    · cases h
      exact ⟨by decide, by simp⟩
    split at h
    · rename_i hdigit
      cases h
      have hall : ∀ d ∈ (c :: cs).takeWhile Char.isDigit, d.isDigit = true :=
        List.all_eq_true.mp List.all_takeWhile
      rw [digitsValue_digitsOf, digitsOf, List.length_map, List.takeWhile_cons_of_pos hdigit]
      rw [List.takeWhile_cons_of_pos hdigit] at hall
      exact ⟨ofDigitChars_lt hall, by simp⟩
    · cases h

theorem numeralValue_fits (depth : ℕ) {negative : Bool} {whole fraction : List ℕ} {exponent : Option ℤ}
    (hwhole : digitsValue whole < 10 ^ whole.length ∧ whole ≠ []) {v : Json}
    (h : numeralValue negative whole fraction exponent = .ok v) : v.Fits depth := by
  unfold numeralValue at h
  split at h
  · split at h
    · cases h
    · rename_i hshort
      cases h
      refine .int depth ?_
      have habs : (if negative = true then -(digitsValue whole : ℤ) else digitsValue whole).natAbs =
          digitsValue whole := by
        cases negative <;> simp
      rw [habs]
      -- the number has no more digits than its numeral
      refine le_trans ?_ (Nat.not_lt.mp hshort)
      exact (Nat.length_toDigits_le_iff (by decide) (List.length_pos_iff.mpr hwhole.2)).mpr hwhole.1
  · dsimp only at h
    cases h
    exact .float depth fun q hq => isDouble_of_roundDouble hq

theorem scanNumber_fits (depth : ℕ) : Gives (Json.Fits depth) scanNumber := by
  intro cs v rest h
  obtain ⟨⟨whole, rest⟩, hwhole, h⟩ := bind_eq_ok.mp h
  obtain ⟨value, hvalue, h⟩ := bind_eq_ok.mp h
  cases h
  exact numeralValue_fits depth (scanWhole_gives hwhole) hvalue

theorem scanLiteral_fits (depth : ℕ) {cs rest : List Char} {v : Json}
    (h : scanLiteral cs = some (v, rest)) : v.Fits depth := by
  obtain ⟨l, hmem, h⟩ := List.exists_of_findSome?_eq_some h
  split at h
  · cases h
    simp only [literals, List.mem_cons, List.not_mem_nil, or_false] at hmem
    rcases hmem with rfl | rfl | rfl | rfl | rfl | rfl
    · exact .null depth
    · exact .bool depth true
    · exact .bool depth false
    · exact .float depth isPyFloat_nan
    · exact .float depth (isPyFloat_infinity false)
    · exact .float depth (isPyFloat_infinity true)
  · cases h

variable {scan : Scanner Json} {P : Json → Prop}

theorem scanItems_gives (hscan : Gives P scan) (bound : ℕ) :
    Gives (fun items => ∀ item ∈ items, P item) (scanItems scan bound) := by
  induction bound with
  | zero => nofun
  | succ bound ih =>
    intro cs items _ h
    obtain ⟨⟨item, rest⟩, hitem, h⟩ := bind_eq_ok.mp h
    dsimp only at h
    split at h
    · cases h
    split at h
    · cases h
      exact List.forall_mem_singleton.mpr (hscan hitem)
    split at h
    · obtain ⟨⟨items, rest'⟩, hitems, h⟩ := bind_eq_ok.mp h
      cases h
      exact List.forall_mem_cons.mpr ⟨hscan hitem, ih hitems⟩
    · cases h

theorem scanFields_gives (hscan : Gives P scan) (bound : ℕ) :
    Gives (fun fields => ∀ field ∈ fields, P field.2) (scanFields scan bound) := by
  induction bound with
  | zero => nofun
  | succ bound ih =>
    intro cs fields _ h
    obtain ⟨⟨key, rest⟩, -, h⟩ := bind_eq_ok.mp h
    obtain ⟨⟨value, rest'⟩, hvalue, h⟩ := bind_eq_ok.mp h
    dsimp only at h
    split at h
    · cases h
    split at h
    · cases h
      exact List.forall_mem_singleton.mpr (hscan hvalue)
    split at h
    · obtain ⟨⟨fields, rest''⟩, hfields, h⟩ := bind_eq_ok.mp h
      cases h
      exact List.forall_mem_cons.mpr ⟨hscan hvalue, ih hfields⟩
    · cases h

/-- What is set in an object is one of the values that were in it, or the new one. -/
theorem forall_entries_set {d : Dict String Json} {key : String} {v : Json}
    (hd : ∀ entry ∈ d.entries, P entry.2) (hv : P v) : ∀ entry ∈ (d.set key v).entries, P entry.2 := by
  intro entry hentry
  unfold Dict.set at hentry
  split at hentry
  · obtain ⟨e, he, rfl⟩ := List.mem_map.mp hentry
    split
    · exact hv
    · exact hd e he
  · rcases List.mem_append.mp hentry with h | h
    · exact hd entry h
    · obtain rfl := List.mem_singleton.mp h
      exact hv

theorem forall_foldl_set {fields : List (String × Json)} (hfields : ∀ field ∈ fields, P field.2)
    {d : Dict String Json} (hd : ∀ entry ∈ d.entries, P entry.2) :
    ∀ entry ∈ (fields.foldl (fun object field => object.set field.1 field.2) d).entries, P entry.2 := by
  induction fields generalizing d with
  | nil => exact hd
  | cons field fields ih =>
    obtain ⟨hfield, hrest⟩ := List.forall_mem_cons.mp hfields
    exact ih hrest (forall_entries_set hd hfield)

theorem objectOf_fits {depth : ℕ} {fields : List (String × Json)}
    (h : ∀ field ∈ fields, field.2.Fits depth) : (objectOf fields).Fits (depth + 1) :=
  .obj (Dict.nodup _) (forall_foldl_set h nofun)

theorem scanArray_fits {depth : ℕ} (hscan : Gives (Json.Fits depth) scan) :
    Gives (Json.Fits (depth + 1)) (scanArray scan) := by
  intro cs v _ h
  unfold scanArray at h
  split at h
  · cases h
    exact .arr nofun
  · obtain ⟨⟨items, rest⟩, hitems, ⟨⟩⟩ := map_eq_ok.mp h
    exact .arr (scanItems_gives hscan _ hitems)

theorem scanObject_fits {depth : ℕ} (hscan : Gives (Json.Fits depth) scan) :
    Gives (Json.Fits (depth + 1)) (scanObject scan) := by
  intro cs v _ h
  unfold scanObject at h
  split at h
  · cases h
  split at h
  · cases h
    exact .obj List.nodup_nil nofun
  · obtain ⟨⟨fields, rest⟩, hfields, ⟨⟩⟩ := map_eq_ok.mp h
    exact objectOf_fits (scanFields_gives hscan _ hfields)

theorem scanOnce_fits {depth : ℕ} {array object : Scanner Json} (harray : Gives (Json.Fits depth) array)
    (hobject : Gives (Json.Fits depth) object) : Gives (Json.Fits depth) (scanOnce array object) := by
  intro cs v _ h
  cases cs with
  | nil => cases h
  | cons c cs =>
    rw [scanOnce] at h
    split at h
    · obtain ⟨⟨s, rest⟩, -, ⟨⟩⟩ := map_eq_ok.mp h
      exact .str depth s
    split at h
    · exact hobject h
    split at h
    · exact harray h
    split at h
    · rename_i r hliteral
      cases h
      exact scanLiteral_fits depth hliteral
    · exact scanNumber_fits depth h

theorem scanValue_fits (depth : ℕ) : Gives (Json.Fits depth) (scanValue depth) := by
  induction depth with
  -- at the last depth no array and no object is read
  | zero => exact scanOnce_fits nofun nofun
  | succ depth ih => exact scanOnce_fits (scanArray_fits ih) (scanObject_fits ih)

theorem loads_fits {depth : ℕ} {text : String} {v : Json} (h : loads depth text = .ok v) :
    v.Fits depth := by
  unfold loads at h
  split at h
  · cases h
  · obtain ⟨⟨value, rest⟩, hvalue, h⟩ := bind_eq_ok.mp h
    dsimp only at h
    split at h
    · cases h
      exact scanValue_fits depth hvalue
    · cases h

end reading

section ascii

def IsAscii (cs : List Char) : Prop := ∀ c ∈ cs, c.toNat < 0x80

theorem isAscii_nil : IsAscii [] := by
  intro c hc
  cases hc

theorem isAscii_append {as bs : List Char} (ha : IsAscii as) (hb : IsAscii bs) : IsAscii (as ++ bs) :=
  fun c hc => (List.mem_append.mp hc).elim (ha c) (hb c)

theorem isAscii_cons {c : Char} {cs : List Char} (hc : c.toNat < 0x80) (hcs : IsAscii cs) :
    IsAscii (c :: cs) := List.forall_mem_cons.mpr ⟨hc, hcs⟩

theorem isAscii_flatMap {α : Type} {f : α → List Char} (h : ∀ a, IsAscii (f a)) (as : List α) :
    IsAscii (as.flatMap f) := by
  intro c hc
  obtain ⟨a, -, hc⟩ := List.mem_flatMap.mp hc
  exact h a c hc

theorem isAscii_of_isDigit {cs : List Char} (h : ∀ c ∈ cs, c.isDigit = true) : IsAscii cs := by
  intro c hc
  have hdigit := Char.isDigit_iff_toNat.mp (h c hc)
  simp at hdigit
  omega

theorem isAscii_of_isBlank {cs : List Char} (h : cs.all isBlank = true) : IsAscii cs := by
  intro c hc
  have hblank := List.all_eq_true.mp h c hc
  simp [isBlank] at hblank
  omega

theorem digitChar_lt_128 {d : ℕ} (h : d < 16) : (Nat.digitChar d).toNat < 0x80 := by
  interval_cases d <;> decide

theorem isAscii_writeUnit (n : ℕ) : IsAscii (writeUnit n) := by
  have hdigit (k : ℕ) : (Nat.digitChar (k % 16)).toNat < 0x80 :=
    digitChar_lt_128 (Nat.mod_lt k (by decide))
  refine isAscii_cons (by decide) (isAscii_cons (by decide) ?_)
  exact isAscii_cons (hdigit _) (isAscii_cons (hdigit _) (isAscii_cons (hdigit _)
    (isAscii_cons (hdigit _) nofun)))

theorem isAscii_writeChar (c : Char) : IsAscii (writeChar c) := by
  have hescape {e : Char} (he : e.toNat < 0x80) : IsAscii [backslash, e] :=
    isAscii_cons (by decide) (isAscii_cons he nofun)
  unfold writeChar
  split
  · rename_i hspecial
    rcases hspecial with rfl | rfl
    · exact hescape (by decide)
    · exact hescape (by decide)
  split
  · exact hescape (by decide)
  split
  · exact hescape (by decide)
  split
  · exact hescape (by decide)
  split
  · exact hescape (by decide)
  split
  · exact hescape (by decide)
  split
  · exact isAscii_cons (by omega) nofun
  split
  · exact isAscii_writeUnit _
  · exact isAscii_append (isAscii_writeUnit _) (isAscii_writeUnit _)

theorem isAscii_writeString (s : String) : IsAscii (writeString s) :=
  isAscii_cons (by decide) (isAscii_append (isAscii_flatMap isAscii_writeChar _)
    (isAscii_cons (by decide) isAscii_nil))

theorem NumberText.isAscii (n : NumberText) : IsAscii n.text := by
  have hpoint : IsAscii (pointText n.fraction) := by
    unfold pointText
    split
    · exact nofun
    · exact isAscii_cons (by decide) (isAscii_of_isDigit n.fraction_digits)
  have hexponent : IsAscii (exponentText n.exponent) := by
    cases he : n.exponent with
    | none => exact nofun
    | some e =>
      refine isAscii_cons (by decide) (isAscii_cons ?_ (isAscii_of_isDigit (n.exponent_digits e he).2))
      split <;> decide
  refine isAscii_append ?_ (isAscii_append (isAscii_of_isDigit n.whole_digits)
    (isAscii_append hpoint hexponent))
  split
  · exact isAscii_cons (by decide) nofun
  · exact nofun

theorem isAscii_writeFloat {x : PyFloat} (hx : IsPyFloat x) : IsAscii (writeFloat x).toList := by
  have hpositive {a : ℚ} (ha : 0 < a) (hd : IsDouble a) : IsAscii (reprMagnitude a).toList := by
    obtain ⟨n, -, htext, -⟩ := spells_reprMagnitude (shortestDigits_spec ha hd).1
    rw [← htext]
    exact n.isAscii
  have hof (s : String) (hs : s.toList.all (fun c => c.toNat < 0x80) = true) : IsAscii s.toList :=
    fun c hc => of_decide_eq_true (List.all_eq_true.mp hs c hc)
  cases x with
  | finite q =>
    have hdouble := hx q rfl
    unfold writeFloat PyFloat.repr
    dsimp only
    split_ifs with hzero hneg
    · exact hof _ rfl
    · rw [String.toList_append]
      exact isAscii_append (hof _ rfl) (hpositive (abs_pos.mpr hzero) (abs_of_neg hneg ▸ hdouble.neg))
    · exact hpositive (lt_of_le_of_ne (not_lt.mp hneg) (Ne.symm hzero)) hdouble
  | infinity negative => cases negative <;> exact hof _ rfl
  | nan => exact hof _ rfl

theorem isAscii_intercalate {s : List Char} {texts : List (List Char)} (hs : IsAscii s)
    (h : ∀ text ∈ texts, IsAscii text) : IsAscii (s.intercalate texts) := by
  induction texts with
  | nil => exact nofun
  | cons text texts ih =>
    obtain ⟨htext, hrest⟩ := List.forall_mem_cons.mp h
    cases texts with
    | nil => simpa [List.intercalate] using htext
    | cons text' texts =>
      rw [intercalate_cons_cons]
      exact isAscii_append htext (isAscii_append hs (ih hrest))

theorem forall_of_forall₂ {α β : Type} {R : α → β → Prop} {P : β → Prop} {as : List α} {bs : List β}
    (h : List.Forall₂ R as bs) (hP : ∀ a ∈ as, ∀ b, R a b → P b) : ∀ b ∈ bs, P b := by
  induction h with
  | nil => exact nofun
  | cons hx _ ih =>
    obtain ⟨hfirst, hrest⟩ := List.forall_mem_cons.mp hP
    exact List.forall_mem_cons.mpr ⟨hfirst _ hx, ih hrest⟩

/-- Whatever is written is ASCII, which every codec of a platform agrees on. -/
theorem isAscii_writeValue {sep : Separators} {depth : ℕ} {v : Json} {text : List Char}
    (hv : v.WellFormed) (h : writeValue sep depth v = .ok text) : IsAscii text := by
  have hitem : IsAscii sep.item := isAscii_cons (by decide) (isAscii_of_isBlank sep.blankComma)
  have hkey : IsAscii sep.key := isAscii_cons (by decide) (isAscii_of_isBlank sep.blankColon)
  have hof (s : String) (hs : s.toList.all (fun c => c.toNat < 0x80) = true) : IsAscii s.toList :=
    fun c hc => of_decide_eq_true (List.all_eq_true.mp hs c hc)
  induction hv generalizing depth text with
  | null =>
    cases h
    exact hof _ rfl
  | bool b =>
    cases h
    cases b <;> exact hof _ rfl
  | int n =>
    change writeInt n = .ok text at h
    unfold writeInt at h
    dsimp only at h
    split at h
    · cases h
    · obtain rfl := Except.ok.inj h
      split
      · exact isAscii_cons (by decide) (isAscii_of_isDigit toDigits_digits)
      · exact isAscii_of_isDigit toDigits_digits
  | float hx =>
    cases h
    exact isAscii_writeFloat hx
  | str s =>
    cases h
    exact isAscii_writeString s
  | arr _ ih =>
    obtain ⟨-, texts, htexts, rfl⟩ := writeValue_arr h
    have hall := forall_of_forall₂ (writeItems_forall₂ htexts) fun x hx t ht => ih x hx ht
    exact isAscii_cons (by decide) (isAscii_append (isAscii_intercalate hitem hall)
      (isAscii_cons (by decide) isAscii_nil))
  | obj _ _ ih =>
    obtain ⟨-, texts, htexts, rfl⟩ := writeValue_obj h
    have hall : ∀ t ∈ texts, IsAscii t :=
      forall_of_forall₂ (writeFields_forall₂ htexts) fun field hfield t ht => by
        obtain ⟨value, rfl, hvalue⟩ := ht
        exact isAscii_append (isAscii_append (isAscii_writeString _) hkey) (ih field hfield hvalue)
    exact isAscii_cons (by decide) (isAscii_append (isAscii_intercalate hitem hall)
      (isAscii_cons (by decide) isAscii_nil))

theorem isAscii_dumps {sep : Separators} {depth : ℕ} {v : Json} {text : String} (hv : v.WellFormed)
    (h : dumps sep depth v = .ok text) : IsAscii text.toList := by
  obtain ⟨cs, hcs, rfl⟩ := map_eq_ok.mp h
  rw [String.toList_ofList]
  exact isAscii_writeValue hv hcs

end ascii

/-- Whatever has been read can be written, and reads back as itself. -/
theorem exists_dumps_of_fits (sep : Separators) {depth : ℕ} {v : Json} (h : v.Fits depth) :
    ∃ text, dumps sep depth v = .ok text ∧ loads depth text = .ok v := by
  obtain ⟨cs, hcs⟩ := h.exists_writeValue sep
  have hdumps : dumps sep depth v = .ok (String.ofList cs) := by rw [dumps, hcs]; rfl
  exact ⟨_, hdumps, loads_dumps le_rfl h.wellFormed hdumps⟩

end SenseGateway.Python

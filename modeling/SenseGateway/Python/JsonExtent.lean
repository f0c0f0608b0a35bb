import SenseGateway.Python.JsonText

namespace SenseGateway.Python

/-- An end of the text that is not all of it. -/
def Behind (rest cs : List Char) : Prop := rest <:+ cs ∧ rest.length < cs.length

/-- Whatever is read, something is, and the rest of the text is left. -/
def Consumes {α : Type} (scan : Scanner α) : Prop :=
  ∀ ⦃cs a rest⦄, scan cs = .ok (a, rest) → Behind rest cs

theorem Behind.of_suffix {c : Char} {rest cs : List Char} (h : rest <:+ cs) : Behind rest (c :: cs) :=
  ⟨h.trans (List.suffix_cons c cs), Nat.lt_succ_of_le h.length_le⟩

theorem Behind.after {a b c : List Char} (h : Behind a b) (hbc : b <:+ c) : Behind a c :=
  ⟨h.1.trans hbc, h.2.trans_le hbc.length_le⟩

theorem Behind.before {a b c : List Char} (h : Behind b c) (hab : a <:+ b) : Behind a c :=
  ⟨hab.trans h.1, hab.length_le.trans_lt h.2⟩

theorem skipBlanks_suffix (cs : List Char) : skipBlanks cs <:+ cs := List.dropWhile_suffix _

/-- What stands behind the first character that is not blank. -/
theorem suffix_of_skipBlanks {c : Char} {rest cs : List Char} (h : skipBlanks cs = c :: rest) :
    rest <:+ cs :=
  (List.suffix_cons c rest).trans (h ▸ skipBlanks_suffix cs)

theorem scanUnits_consumes : Consumes scanUnits := by
  intro cs
  fun_induction scanUnits cs with
  | case1 => nofun
  | case2 cs =>
    rintro _ _ ⟨⟩
    exact .of_suffix List.suffix_rfl
  | case3 h₁ h₂ h₃ h₄ rest n _ _ ih =>
    intro _ _ h
    obtain ⟨⟨_, _⟩, hread, ⟨⟩⟩ := map_eq_ok.mp h
    exact (ih hread).after (List.drop_suffix 6 (_ :: _ :: h₁ :: h₂ :: h₃ :: h₄ :: rest))
  | case4 => nofun
  | case5 e rest _ n _ _ ih =>
    intro _ _ h
    obtain ⟨⟨_, _⟩, hread, ⟨⟩⟩ := map_eq_ok.mp h
    exact (ih hread).after (List.drop_suffix 2 (_ :: e :: rest))
  | case6 => nofun
  | case7 => nofun
  | case8 => nofun
  | case9 c cs _ _ _ ih =>
    intro _ _ h
    obtain ⟨⟨_, _⟩, hread, ⟨⟩⟩ := map_eq_ok.mp h
    exact (ih hread).after (List.suffix_cons c cs)

theorem scanString_consumes : Consumes scanString := by
  intro cs _ _ h
  obtain ⟨⟨_, _⟩, hread, ⟨⟩⟩ := map_eq_ok.mp h
  exact scanUnits_consumes hread

theorem scanWhole_consumes : Consumes scanWhole := by
  intro cs _ _ h
  cases cs with
  | nil => cases h
  | cons c cs =>
    rw [scanWhole] at h
    split at h
    · cases h
      exact .of_suffix List.suffix_rfl
    split at h
    · rename_i hdigit
      cases h
      rw [List.dropWhile_cons_of_pos hdigit]
      exact .of_suffix (List.dropWhile_suffix _)
    · cases h

theorem scanFraction_suffix (cs : List Char) : (scanFraction cs).2 <:+ cs := by
  unfold scanFraction
  split
  · split
    · exact List.suffix_rfl
    · exact (List.dropWhile_suffix _).trans (List.suffix_cons _ _)
  · exact List.suffix_rfl

theorem takeSign_suffix (cs : List Char) : (takeSign cs).2 <:+ cs := by
  unfold takeSign
  split
  · exact List.suffix_cons _ _
  · exact List.suffix_cons _ _
  · exact List.suffix_rfl

theorem takeMinus_suffix (cs : List Char) : (takeMinus cs).2 <:+ cs := by
  unfold takeMinus
  split
  · exact List.suffix_cons _ _
  · exact List.suffix_rfl

theorem scanExponent_suffix (cs : List Char) : (scanExponent cs).2 <:+ cs := by
  cases cs with
  | nil => exact List.suffix_rfl
  | cons c cs =>
    rw [scanExponent]
    split
    · dsimp only
      split
      · exact List.suffix_rfl
      · exact ((List.dropWhile_suffix _).trans (takeSign_suffix cs)).trans (List.suffix_cons _ _)
    · exact List.suffix_rfl

theorem scanNumber_consumes : Consumes scanNumber := by
  intro cs _ _ h
  obtain ⟨⟨whole, rest⟩, hwhole, h⟩ := bind_eq_ok.mp h
  obtain ⟨value, -, h⟩ := bind_eq_ok.mp h
  cases h
  have hexponent := (scanExponent_suffix (scanFraction rest).2).trans (scanFraction_suffix rest)
  exact ((scanWhole_consumes hwhole).before hexponent).after (takeMinus_suffix cs)

theorem scanLiteral_consumes {cs rest : List Char} {value : Json}
    (h : scanLiteral cs = some (value, rest)) : Behind rest cs := by
  obtain ⟨l, hmem, h⟩ := List.exists_of_findSome?_eq_some h
  split at h
  · rename_i hprefix
    cases h
    have hlength : 0 < l.1.length := (by decide : ∀ l ∈ literals, 0 < l.1.length) l hmem
    have hle := (List.isPrefixOf_iff_prefix.mp hprefix).length_le
    rw [String.length_toList] at hle
    exact ⟨List.drop_suffix _ _, by rw [List.length_drop]; omega⟩
  · cases h

section collections

variable {scan : Scanner Json}

theorem scanItems_consumes (hscan : Consumes scan) (bound : ℕ) :
    Consumes (scanItems scan bound) := by
  induction bound with
  | zero => nofun
  | succ bound ih =>
    intro cs _ _ h
    obtain ⟨⟨item, rest⟩, hitem, h⟩ := bind_eq_ok.mp h
    dsimp only at h
    split at h
    · cases h
    · rename_i c rest' hblanks
      have hrest' := (hscan hitem).before (suffix_of_skipBlanks hblanks)
      split at h
      · cases h
        exact hrest'
      split at h
      · obtain ⟨⟨items, rest''⟩, hitems, h⟩ := bind_eq_ok.mp h
        cases h
        exact (ih hitems).after ((skipBlanks_suffix rest').trans hrest'.1)
      · cases h

theorem scanKey_consumes : Consumes scanKey := by
  intro cs _ _ h
  cases cs with
  | nil => cases h
  | cons c cs =>
    rw [scanKey] at h
    split at h
    · obtain ⟨⟨key, rest⟩, hkey, h⟩ := bind_eq_ok.mp h
      dsimp only at h
      split at h
      · rename_i rest' hblanks
        cases h
        have hrest' := (suffix_of_skipBlanks hblanks).trans (scanString_consumes hkey).1
        exact .of_suffix ((skipBlanks_suffix rest').trans hrest')
      · cases h
    · cases h

theorem scanFields_consumes (hscan : Consumes scan) (bound : ℕ) :
    Consumes (scanFields scan bound) := by
  induction bound with
  | zero => nofun
  | succ bound ih =>
    intro cs _ _ h
    obtain ⟨⟨key, rest⟩, hkey, h⟩ := bind_eq_ok.mp h
    obtain ⟨⟨value, rest'⟩, hvalue, h⟩ := bind_eq_ok.mp h
    have hvalue' := (hscan hvalue).after (scanKey_consumes hkey).1
    dsimp only at h
    split at h
    · cases h
    · rename_i c rest'' hblanks
      have hrest'' := hvalue'.before (suffix_of_skipBlanks hblanks)
      split at h
      · cases h
        exact hrest''
      split at h
      · obtain ⟨⟨fields, _⟩, hfields, h⟩ := bind_eq_ok.mp h
        cases h
        exact (ih hfields).after ((skipBlanks_suffix rest'').trans hrest''.1)
      · cases h

theorem scanArray_consumes (hscan : Consumes scan) : Consumes (scanArray scan) := by
  intro cs _ _ h
  unfold scanArray at h
  split at h
  · rename_i hblanks
    cases h
    have hrest := skipBlanks_suffix cs
    rw [hblanks] at hrest
    exact (Behind.of_suffix List.suffix_rfl).after hrest
  · obtain ⟨⟨items, rest⟩, hitems, ⟨⟩⟩ := map_eq_ok.mp h
    exact (scanItems_consumes hscan _ hitems).after (skipBlanks_suffix cs)

theorem scanObject_consumes (hscan : Consumes scan) : Consumes (scanObject scan) := by
  intro cs _ _ h
  have hblanks := skipBlanks_suffix cs
  unfold scanObject at h
  split at h
  · cases h
  · rename_i c cs' heq
    rw [heq] at hblanks
    split at h
    · cases h
      exact (Behind.of_suffix List.suffix_rfl).after hblanks
    · obtain ⟨⟨fields, rest⟩, hfields, ⟨⟩⟩ := map_eq_ok.mp h
      exact (scanFields_consumes hscan _ hfields).after hblanks

theorem scanOnce_consumes {array object : Scanner Json} (harray : Consumes array)
    (hobject : Consumes object) : Consumes (scanOnce array object) := by
  intro cs _ _ h
  cases cs with
  | nil => cases h
  | cons c cs =>
    rw [scanOnce] at h
    split at h
    · obtain ⟨⟨s, rest⟩, hs, ⟨⟩⟩ := map_eq_ok.mp h
      exact .of_suffix (scanString_consumes hs).1
    split at h
    · exact .of_suffix (hobject h).1
    split at h
    · exact .of_suffix (harray h).1
    split at h
    · rename_i r hliteral
      cases h
      exact scanLiteral_consumes hliteral
    · exact scanNumber_consumes h

end collections

theorem scanValue_consumes (depth : ℕ) : Consumes (scanValue depth) := by
  induction depth with
  | zero => exact scanOnce_consumes nofun nofun
  | succ depth ih => exact scanOnce_consumes (scanArray_consumes ih) (scanObject_consumes ih)

theorem scanValue_nil (depth : ℕ) : scanValue depth [] = .error .malformed := by
  cases depth <;> rfl

section bounds

variable {scan : Scanner Json}

theorem scanItems_eq_of_length_le (hscan : Consumes scan) (hnil : scan [] = .error .malformed)
    {cs : List Char} {m n : ℕ} (hm : cs.length ≤ m) (hn : cs.length ≤ n) :
    scanItems scan m cs = scanItems scan n cs := by
  induction m generalizing cs n with
  | zero =>
    obtain rfl : cs = [] := List.eq_nil_of_length_eq_zero (Nat.le_zero.mp hm)
    cases n with
    | zero => rfl
    | succ n => simp [scanItems, hnil, bind, Except.bind]
  | succ m ih =>
    cases n with
    | zero =>
      obtain rfl : cs = [] := List.eq_nil_of_length_eq_zero (Nat.le_zero.mp hn)
      simp [scanItems, hnil, bind, Except.bind]
    | succ n =>
      rw [scanItems, scanItems]
      cases hitem : scan cs with
      | error f => rfl
      | ok r =>
        obtain ⟨item, rest⟩ := r
        dsimp only [bind, Except.bind]
        split
        · rfl
        · rename_i c rest' hblanks
          have hrest' := (hscan hitem).before (suffix_of_skipBlanks hblanks)
          have hlength := (hrest'.before (skipBlanks_suffix rest')).2
          rw [ih (by omega) (by omega : _ ≤ n)]

theorem scanFields_eq_of_length_le (hscan : Consumes scan) {cs : List Char} {m n : ℕ}
    (hm : cs.length ≤ m) (hn : cs.length ≤ n) : scanFields scan m cs = scanFields scan n cs := by
  induction m generalizing cs n with
  | zero =>
    obtain rfl : cs = [] := List.eq_nil_of_length_eq_zero (Nat.le_zero.mp hm)
    cases n <;> rfl
  | succ m ih =>
    cases n with
    | zero =>
      obtain rfl : cs = [] := List.eq_nil_of_length_eq_zero (Nat.le_zero.mp hn)
      rfl
    | succ n =>
      rw [scanFields, scanFields]
      cases hkey : scanKey cs with
      | error f => rfl
      | ok r =>
        obtain ⟨key, rest⟩ := r
        dsimp only [bind, Except.bind]
        cases hvalue : scan rest with
        | error f => rfl
        | ok r =>
          obtain ⟨value, rest'⟩ := r
          have hvalue' := (hscan hvalue).after (scanKey_consumes hkey).1
          dsimp only
          split
          · rfl
          · rename_i c rest'' hblanks
            have hrest'' := hvalue'.before (suffix_of_skipBlanks hblanks)
            have hlength := (hrest''.before (skipBlanks_suffix rest'')).2
            rw [ih (by omega) (by omega : _ ≤ n)]

/-- A text has no more items than characters: the bound is never what ends a list. -/
theorem scanItems_bound (depth : ℕ) {cs : List Char} {bound : ℕ} (h : cs.length ≤ bound) :
    scanItems (scanValue depth) bound cs = scanItems (scanValue depth) cs.length cs :=
  scanItems_eq_of_length_le (scanValue_consumes depth) (scanValue_nil depth) h le_rfl

theorem scanFields_bound (depth : ℕ) {cs : List Char} {bound : ℕ} (h : cs.length ≤ bound) :
    scanFields (scanValue depth) bound cs = scanFields (scanValue depth) cs.length cs :=
  scanFields_eq_of_length_le (scanValue_consumes depth) h le_rfl

end bounds

section errors

/-- Whatever the scanner rejects is no part of a document. -/
def OnlyMalformed {α : Type} (scan : Scanner α) : Prop :=
  ∀ ⦃cs f⦄, scan cs = .error f → f = .malformed

/-- The text has more digits in a row than `int` reads. -/
def HasLongRun (cs : List Char) : Prop :=
  ∃ part, part <:+ cs ∧ maxStrDigits < (part.takeWhile Char.isDigit).length

/-- How many lists and objects the text opens at most. -/
def openings (cs : List Char) : ℕ := cs.countP fun c => c = '[' ∨ c = openBrace

theorem scanUnits_onlyMalformed : OnlyMalformed scanUnits := by
  intro cs
  fun_induction scanUnits cs with
  | case2 => nofun
  | case3 h₁ h₂ h₃ h₄ rest n _ _ ih => exact fun f h => ih (map_eq_error.mp h)
  | case5 e rest _ n _ _ ih => exact fun f h => ih (map_eq_error.mp h)
  | case9 c cs _ _ _ ih => exact fun f h => ih (map_eq_error.mp h)
  | _ => exact fun f h => (Except.error.inj h).symm

theorem scanString_onlyMalformed : OnlyMalformed scanString :=
  fun _ _ h => scanUnits_onlyMalformed (map_eq_error.mp h)

theorem scanWhole_onlyMalformed : OnlyMalformed scanWhole := by
  intro cs f h
  cases cs with
  | nil => exact (Except.error.inj h).symm
  | cons c cs =>
    rw [scanWhole] at h
    split at h
    · cases h
    split at h
    · cases h
    · exact (Except.error.inj h).symm

theorem scanKey_onlyMalformed : OnlyMalformed scanKey := by
  intro cs f h
  cases cs with
  | nil => exact (Except.error.inj h).symm
  | cons c cs =>
    rw [scanKey] at h
    split at h
    · obtain h | ⟨⟨key, rest⟩, -, h⟩ := bind_eq_error.mp h
      · exact scanString_onlyMalformed h
      dsimp only at h
      split at h
      · cases h
      · exact (Except.error.inj h).symm
    · exact (Except.error.inj h).symm

theorem length_scanWhole_le {cs rest : List Char} {whole : List ℕ}
    (h : scanWhole cs = .ok (whole, rest)) :
    whole.length ≤ (cs.takeWhile Char.isDigit).length := by
  cases cs with
  | nil => cases h
  | cons c cs =>
    rw [scanWhole] at h
    split at h
    · rename_i hzero
      cases h
      subst hzero
      rw [List.takeWhile_cons_of_pos (by decide)]
      simp
    split at h
    · cases h
      exact (List.length_map _).le
    · cases h

theorem numeralValue_error {negative : Bool} {whole fraction : List ℕ} {exponent : Option ℤ}
    {f : Flaw} (h : numeralValue negative whole fraction exponent = .error f) :
    f = .digits whole.length ∧ maxStrDigits < whole.length := by
  unfold numeralValue at h
  split at h
  · split at h
    · rename_i hlong
      exact ⟨(Except.error.inj h).symm, hlong⟩
    · cases h
  · cases h

/-- A number is rejected for its digits only if there are too many of them. -/
theorem scanNumber_error {cs : List Char} {f : Flaw} (h : scanNumber cs = .error f)
    (hf : f ≠ .malformed) : (∃ count, f = .digits count) ∧ HasLongRun cs := by
  obtain h | ⟨⟨whole, rest⟩, hwhole, h⟩ := bind_eq_error.mp h
  · exact absurd (scanWhole_onlyMalformed h) hf
  obtain h | ⟨value, -, h⟩ := bind_eq_error.mp h
  · obtain ⟨hdigits, hlong⟩ := numeralValue_error h
    have hle := length_scanWhole_le hwhole
    exact ⟨⟨_, hdigits⟩, _, takeMinus_suffix cs, hlong.trans_le hle⟩
  · cases h

variable {scan : Scanner Json} {f : Flaw}

/-- An error other than a syntax error comes from one of the items. -/
theorem scanItems_error (hscan : Consumes scan) (hf : f ≠ .malformed) {bound : ℕ} {cs : List Char}
    (h : scanItems scan bound cs = .error f) : ∃ part, part <:+ cs ∧ scan part = .error f := by
  induction bound generalizing cs with
  | zero => exact absurd (Except.error.inj h).symm hf
  | succ bound ih =>
    obtain h | ⟨⟨item, rest⟩, hitem, h⟩ := bind_eq_error.mp h
    · exact ⟨cs, List.suffix_rfl, h⟩
    dsimp only at h
    split at h
    · exact absurd (Except.error.inj h).symm hf
    · rename_i c rest' hblanks
      have hrest' := (suffix_of_skipBlanks hblanks).trans (hscan hitem).1
      split at h
      · cases h
      split at h
      · obtain h | ⟨⟨items, rest''⟩, -, h⟩ := bind_eq_error.mp h
        · obtain ⟨part, hpart, herror⟩ := ih h
          exact ⟨part, hpart.trans ((skipBlanks_suffix rest').trans hrest'), herror⟩
        · cases h
      · exact absurd (Except.error.inj h).symm hf

theorem scanFields_error (hscan : Consumes scan) (hf : f ≠ .malformed) {bound : ℕ} {cs : List Char}
    (h : scanFields scan bound cs = .error f) : ∃ part, part <:+ cs ∧ scan part = .error f := by
  induction bound generalizing cs with
  | zero => exact absurd (Except.error.inj h).symm hf
  | succ bound ih =>
    obtain h | ⟨⟨key, rest⟩, hkey, h⟩ := bind_eq_error.mp h
    · exact absurd (scanKey_onlyMalformed h) hf
    have hbehind := (scanKey_consumes hkey).1
    obtain h | ⟨⟨value, rest'⟩, hvalue, h⟩ := bind_eq_error.mp h
    · exact ⟨rest, hbehind, h⟩
    dsimp only at h
    split at h
    · exact absurd (Except.error.inj h).symm hf
    · rename_i c rest'' hblanks
      have hrest'' := (suffix_of_skipBlanks hblanks).trans ((hscan hvalue).1.trans hbehind)
      split at h
      · cases h
      split at h
      · obtain h | ⟨⟨fields, _⟩, -, h⟩ := bind_eq_error.mp h
        · obtain ⟨part, hpart, herror⟩ := ih h
          exact ⟨part, hpart.trans ((skipBlanks_suffix rest'').trans hrest''), herror⟩
        · cases h
      · exact absurd (Except.error.inj h).symm hf

theorem scanArray_error (hscan : Consumes scan) (hf : f ≠ .malformed) {cs : List Char}
    (h : scanArray scan cs = .error f) : ∃ part, part <:+ cs ∧ scan part = .error f := by
  unfold scanArray at h
  split at h
  · cases h
  · obtain ⟨part, hpart, herror⟩ := scanItems_error hscan hf (map_eq_error.mp h)
    exact ⟨part, hpart.trans (skipBlanks_suffix cs), herror⟩

theorem scanObject_error (hscan : Consumes scan) (hf : f ≠ .malformed) {cs : List Char}
    (h : scanObject scan cs = .error f) : ∃ part, part <:+ cs ∧ scan part = .error f := by
  unfold scanObject at h
  split at h
  · exact absurd (Except.error.inj h).symm hf
  · rename_i c cs' hblanks
    split at h
    · cases h
    · obtain ⟨part, hpart, herror⟩ := scanFields_error hscan hf (map_eq_error.mp h)
      exact ⟨part, hpart.trans (hblanks ▸ skipBlanks_suffix cs), herror⟩

theorem scanOnce_error {array object : Scanner Json} (hf : f ≠ .malformed) {cs : List Char}
    (h : scanOnce array object cs = .error f) :
    (∃ c rest, cs = c :: rest ∧ (c = '[' ∨ c = openBrace) ∧
      (array rest = .error f ∨ object rest = .error f)) ∨
      (∃ count, f = .digits count) ∧ HasLongRun cs := by
  cases cs with
  | nil => exact absurd (Except.error.inj h).symm hf
  | cons c cs =>
    rw [scanOnce] at h
    split at h
    · exact absurd (scanString_onlyMalformed (map_eq_error.mp h)) hf
    split at h
    · rename_i hopen
      exact .inl ⟨c, cs, rfl, .inr hopen, .inr h⟩
    split at h
    · rename_i hopen
      exact .inl ⟨c, cs, rfl, .inl hopen, .inl h⟩
    split at h
    · cases h
    · exact .inr (scanNumber_error h hf)

/-- An error below the top level is one of a value behind an opening bracket. -/
theorem scanValue_succ_error (hf : f ≠ .malformed) {depth : ℕ} {cs : List Char}
    (h : scanValue (depth + 1) cs = .error f) :
    (∃ c rest part, cs = c :: rest ∧ (c = '[' ∨ c = openBrace) ∧ part <:+ rest ∧
      scanValue depth part = .error f) ∨ (∃ count, f = .digits count) ∧ HasLongRun cs := by
  have hscan := scanValue_consumes depth
  obtain ⟨c, rest, hcs, hopen, h⟩ | h := scanOnce_error hf h
  · obtain ⟨part, hpart, herror⟩ :=
      h.elim (scanArray_error hscan hf) (scanObject_error hscan hf)
    exact .inl ⟨c, rest, part, hcs, hopen, hpart, herror⟩
  · exact .inr h

theorem openings_cons {c : Char} (hopen : c = '[' ∨ c = openBrace) (cs : List Char) :
    openings (c :: cs) = openings cs + 1 :=
  List.countP_cons_of_pos (by simpa using hopen)

theorem openings_le_of_suffix {part cs : List Char} (h : part <:+ cs) :
    openings part ≤ openings cs := h.sublist.countP_le

theorem HasLongRun.of_suffix {part cs : List Char} (h : HasLongRun part) (hpart : part <:+ cs) :
    HasLongRun cs := by
  obtain ⟨run, hrun, hlong⟩ := h
  exact ⟨run, hrun.trans hpart, hlong⟩

/-- Only a text that opens more lists and objects than the limit is nested too deeply. -/
theorem lt_openings_of_depth {collection : String} {depth : ℕ} {cs : List Char}
    (h : scanValue depth cs = .error (.depth collection)) : depth < openings cs := by
  have hf : Flaw.depth collection ≠ .malformed := nofun
  induction depth generalizing cs with
  | zero =>
    obtain ⟨c, rest, rfl, hopen, -⟩ | ⟨⟨_, h⟩, -⟩ := scanOnce_error hf h
    · rw [openings_cons hopen]
      exact Nat.succ_pos _
    · cases h
  | succ depth ih =>
    obtain ⟨c, rest, part, rfl, hopen, hpart, herror⟩ | ⟨⟨_, h⟩, -⟩ := scanValue_succ_error hf h
    · have hle := openings_le_of_suffix hpart
      have hlt := ih herror
      rw [openings_cons hopen]
      omega
    · cases h

theorem hasLongRun_of_digits {count depth : ℕ} {cs : List Char}
    (h : scanValue depth cs = .error (.digits count)) : HasLongRun cs := by
  have hf : Flaw.digits count ≠ .malformed := nofun
  induction depth generalizing cs with
  | zero =>
    obtain ⟨_, _, -, -, h | h⟩ | ⟨-, h⟩ := scanOnce_error hf h
    · cases h
    · cases h
    · exact h
  | succ depth ih =>
    obtain ⟨c, rest, part, rfl, -, hpart, herror⟩ | ⟨-, h⟩ := scanValue_succ_error hf h
    · exact (ih herror).of_suffix (hpart.trans (List.suffix_cons c rest))
    · exact h

/-- What `loads` raises other than a syntax error is raised by the value it reads. -/
theorem loads_error (hf : f ≠ .malformed) {depth : ℕ} {text : String}
    (h : loads depth text = .error f) :
    scanValue depth (skipBlanks text.toList) = .error f := by
  unfold loads at h
  split at h
  · exact absurd (Except.error.inj h).symm hf
  obtain h | ⟨⟨value, rest⟩, -, h⟩ := bind_eq_error.mp h
  · exact h
  dsimp only at h
  split at h
  · cases h
  · exact absurd (Except.error.inj h).symm hf

/-- A text with few brackets and no long numbers is read, or is no document. -/
theorem loads_plain {depth : ℕ} {text : String} (hdepth : openings text.toList ≤ depth)
    (hdigits : ¬ HasLongRun text.toList) (h : loads depth text = .error f) : f = .malformed := by
  by_contra hf
  have hvalue := loads_error hf h
  have hblanks := skipBlanks_suffix text.toList
  cases f with
  | malformed => exact hf rfl
  | digits count => exact hdigits ((hasLongRun_of_digits hvalue).of_suffix hblanks)
  | depth collection =>
    have hlt := (lt_openings_of_depth hvalue).trans_le (openings_le_of_suffix hblanks)
    exact hlt.not_ge hdepth

end errors

end SenseGateway.Python

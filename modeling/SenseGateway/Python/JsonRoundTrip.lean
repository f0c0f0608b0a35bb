import SenseGateway.Python.JsonScalars

namespace SenseGateway.Python

/-- A value as `json.loads` returns it: every key of an object is there once, and every number that
is not an integer is a double. -/
inductive Json.WellFormed : Json → Prop
  | null : WellFormed .null
  | bool (b : Bool) : WellFormed (.bool b)
  | int (n : ℤ) : WellFormed (.int n)
  | float {x : PyFloat} (h : IsPyFloat x) : WellFormed (.float x)
  | str (s : String) : WellFormed (.str s)
  | arr {items : List Json} (h : ∀ item ∈ items, WellFormed item) : WellFormed (.arr items)
  | obj {fields : List (String × Json)} (nodup : (fields.map Prod.fst).Nodup)
      (h : ∀ field ∈ fields, WellFormed field.2) : WellFormed (.obj fields)

theorem skipBlanks_of_not_blank {c : Char} (h : isBlank c = false) (cs : List Char) :
    skipBlanks (c :: cs) = c :: cs := by
  have hc : ¬ (decide (c.toNat ∈ [0x20, 0x9, 0xa, 0xd])) = true := by
    change ¬ isBlank c = true
    simp [h]
  exact List.dropWhile_cons_of_neg hc

theorem skipBlanks_append {blanks : List Char} (h : blanks.all isBlank = true) (cs : List Char) :
    skipBlanks (blanks ++ cs) = skipBlanks cs :=
  List.dropWhile_append_of_pos fun c hc => List.all_eq_true.mp h c hc

/-- The first character of a value is no blank, and none that a list could end with. -/
def StartsValue (text : List Char) : Prop :=
  ∃ c cs, text = c :: cs ∧ isBlank c = false ∧ c ≠ ']' ∧ c ≠ closeBrace ∧ c.toNat < 0x80

theorem NumberText.startsValue (n : NumberText) : StartsValue n.text := by
  have hlead := n.whole_lead
  have hdigits := n.whole_digits
  unfold NumberText.text
  cases hwhole : n.whole with
  | nil => simp [hwhole] at hlead
  | cons c cs =>
    have hc : c.isDigit = true := hdigits c (by rw [hwhole]; exact List.mem_cons_self)
    cases n.negative with
    | true => exact ⟨'-', _, rfl, rfl, by decide, by decide, by decide⟩
    | false =>
      refine ⟨c, _, rfl, (ne_quote_of_isDigit hc).2.2.2, ?_, ?_, ?_⟩
      · rintro rfl
        cases hc
      · rintro rfl
        cases hc
      · rw [Char.isDigit_iff_toNat] at hc
        simp at hc
        omega

theorem Spells.startsValue {text : List Char} {value : ℚ} (h : Spells text value) :
    StartsValue text := by
  obtain ⟨n, -, rfl, -⟩ := h
  exact n.startsValue

theorem startsValue_minus (text : List Char) : StartsValue ('-' :: text) :=
  ⟨'-', text, rfl, rfl, by decide, by decide, by decide⟩

theorem startsValue_writeFloat {x : PyFloat} (hx : IsPyFloat x) : StartsValue (writeFloat x).toList := by
  cases x with
  | finite q =>
    unfold writeFloat PyFloat.repr
    dsimp only
    split_ifs with hzero hneg
    · exact ⟨'0', _, rfl, rfl, by decide, by decide, by decide⟩
    · rw [String.toList_append]
      exact startsValue_minus _
    · have hpos : 0 < q := lt_of_le_of_ne (not_lt.mp hneg) (Ne.symm hzero)
      exact (spells_reprMagnitude (shortestDigits_spec hpos (hx q rfl)).1).startsValue
  | infinity negative =>
    cases negative
    · exact ⟨'I', _, rfl, rfl, by decide, by decide, by decide⟩
    · exact startsValue_minus _
  | nan => exact ⟨'N', _, rfl, rfl, by decide, by decide, by decide⟩

theorem startsValue_writeInt {n : ℤ} {text : List Char} (h : writeInt n = .ok text) :
    StartsValue text := by
  unfold writeInt at h
  dsimp only at h
  split at h
  · cases h
  · obtain rfl := Except.ok.inj h
    split
    · exact startsValue_minus _
    · have hstarts := (NumberText.mk false (Nat.toDigits 10 n.natAbs) [] none toDigits_digits
        (toDigits_lead _) nofun nofun).startsValue
      simpa [NumberText.text, NumberText.pointText, NumberText.exponentText] using hstarts

variable {sep : Separators}

/-- Nothing is written of an array at the last depth. -/
theorem writeValue_arr {depth : ℕ} {items : List Json} {text : List Char}
    (h : writeValue sep depth (.arr items) = .ok text) :
    depth ≠ 0 ∧ ∃ texts, writeItems sep (depth - 1) items = .ok texts ∧
      text = '[' :: (sep.item.intercalate texts ++ [']']) := by
  rw [writeValue] at h
  split at h
  · cases h
  · rename_i hdepth
    obtain ⟨texts, htexts, rfl⟩ := map_eq_ok.mp h
    exact ⟨hdepth, texts, htexts, rfl⟩

theorem writeValue_obj {depth : ℕ} {fields : List (String × Json)} {text : List Char}
    (h : writeValue sep depth (.obj fields) = .ok text) :
    depth ≠ 0 ∧ ∃ texts, writeFields sep (depth - 1) fields = .ok texts ∧
      text = openBrace :: (sep.item.intercalate texts ++ [closeBrace]) := by
  rw [writeValue] at h
  split at h
  · cases h
  · rename_i hdepth
    obtain ⟨texts, htexts, rfl⟩ := map_eq_ok.mp h
    exact ⟨hdepth, texts, htexts, rfl⟩

theorem startsValue_writeValue {depth : ℕ} {v : Json} {text : List Char} (hv : v.WellFormed)
    (h : writeValue sep depth v = .ok text) : StartsValue text := by
  cases hv with
  | null =>
    cases h
    exact ⟨'n', _, rfl, rfl, by decide, by decide, by decide⟩
  | bool b =>
    cases h
    cases b
    · exact ⟨'f', _, rfl, rfl, by decide, by decide, by decide⟩
    · exact ⟨'t', _, rfl, rfl, by decide, by decide, by decide⟩
  | int n => exact startsValue_writeInt h
  | float hx =>
    cases h
    exact startsValue_writeFloat hx
  | str s =>
    cases h
    exact ⟨doubleQuote, _, rfl, rfl, by decide, by decide, by decide⟩
  | arr =>
    obtain ⟨-, texts, -, rfl⟩ := writeValue_arr h
    exact ⟨'[', _, rfl, rfl, by decide, by decide, by decide⟩
  | obj =>
    obtain ⟨-, texts, -, rfl⟩ := writeValue_obj h
    exact ⟨openBrace, _, rfl, rfl, by decide, by decide, by decide⟩

theorem intercalate_cons_cons {α : Type} (sep x y : List α) (xs : List (List α)) :
    sep.intercalate (x :: y :: xs) = x ++ (sep ++ sep.intercalate (y :: xs)) := by
  simp [List.intercalate, List.intersperse]

/-- The text of a value, read by the scanner as this value. -/
def ReadAs (scan : Scanner Json) (v : Json) (text : List Char) : Prop :=
  StartsValue text ∧ ∀ rest, Delimited rest → scan (text ++ rest) = .ok (v, rest)

theorem delimited_close (rest : List Char) :
    Delimited (']' :: rest) ∧ Delimited (closeBrace :: rest) := by
  constructor
  · intro c hc
    exact .inr (.inl (Option.some.inj hc).symm)
  · intro c hc
    exact .inr (.inr (Option.some.inj hc).symm)

theorem delimited_item (rest : List Char) : Delimited (sep.item ++ rest) := by
  intro c hc
  exact .inl (Option.some.inj hc).symm

theorem skipBlanks_startsValue {text : List Char} (h : StartsValue text) (rest : List Char) :
    skipBlanks (text ++ rest) = text ++ rest := by
  obtain ⟨c, cs, rfl, hblank, -⟩ := h
  exact skipBlanks_of_not_blank hblank _

theorem startsValue_intercalate {s text : List Char} (h : StartsValue text) (texts : List (List Char)) :
    StartsValue (s.intercalate (text :: texts)) := by
  obtain ⟨c, cs, rfl, hc⟩ := h
  cases texts with
  | nil => exact ⟨c, cs, by simp [List.intercalate], hc⟩
  | cons t texts => exact ⟨c, _, by rw [intercalate_cons_cons]; rfl, hc⟩

theorem scanItems_writeItems {scan : Scanner Json} {items : List Json} {texts : List (List Char)}
    (h : List.Forall₂ (ReadAs scan) items texts) (hne : items ≠ []) {bound : ℕ}
    (hbound : items.length ≤ bound) (rest : List Char) :
    scanItems scan bound (sep.item.intercalate texts ++ ']' :: rest) = .ok (items, rest) := by
  induction h generalizing bound with
  | nil => exact absurd rfl hne
  | @cons x text xs texts hx hxs ih =>
    obtain ⟨bound, rfl⟩ :=
      Nat.exists_eq_succ_of_ne_zero (Nat.ne_of_gt (Nat.lt_of_lt_of_le (by simp) hbound))
    have hlength : xs.length ≤ bound := by simpa using hbound
    cases hxs with
    | nil =>
      have hone : sep.item.intercalate [text] = text := by simp [List.intercalate]
      rw [hone, scanItems, hx.2 _ (delimited_close rest).1]
      rfl
    | @cons y text' ys texts' hy hys =>
      have hcomma : ',' ≠ ']' := by decide
      have hblank : skipBlanks (sep.item ++ (sep.item.intercalate (text' :: texts') ++ ']' :: rest)) =
          ',' :: (sep.afterComma ++ (sep.item.intercalate (text' :: texts') ++ ']' :: rest)) :=
        skipBlanks_of_not_blank rfl _
      have hnext := skipBlanks_startsValue (startsValue_intercalate (s := sep.item) hy.1 texts')
        (']' :: rest)
      rw [intercalate_cons_cons, List.append_assoc, List.append_assoc, scanItems,
        hx.2 _ (delimited_item _)]
      dsimp only [bind, Except.bind]
      rw [hblank]
      dsimp only
      rw [if_neg hcomma, if_pos rfl, skipBlanks_append sep.blankComma, hnext, ih (by simp) hlength]
      rfl

/-- The text of a field, read by the scanner as this field. -/
def FieldReadAs (sep : Separators) (scan : Scanner Json) (field : String × Json)
    (text : List Char) : Prop :=
  ∃ value, text = writeString field.1 ++ sep.key ++ value ∧ ReadAs scan field.2 value

theorem startsValue_writeString (s : String) (rest : List Char) : StartsValue (writeString s ++ rest) :=
  ⟨doubleQuote, _, rfl, rfl, by decide, by decide, by decide⟩

theorem FieldReadAs.startsValue {scan : Scanner Json} {field : String × Json} {text : List Char}
    (h : FieldReadAs sep scan field text) : StartsValue text := by
  obtain ⟨value, rfl, -⟩ := h
  rw [List.append_assoc]
  exact startsValue_writeString _ _

theorem scanKey_writeString (key : String) {text : List Char} (h : StartsValue text) (rest : List Char) :
    scanKey (writeString key ++ sep.key ++ text ++ rest) = .ok (key, text ++ rest) := by
  have hread := scanString_writeString key (sep.key ++ (text ++ rest))
  have hcolon : skipBlanks (sep.key ++ (text ++ rest)) = ':' :: (sep.afterColon ++ (text ++ rest)) :=
    skipBlanks_of_not_blank rfl _
  have htext : writeString key ++ sep.key ++ text ++ rest = doubleQuote ::
      (key.toList.flatMap writeChar ++ doubleQuote :: (sep.key ++ (text ++ rest))) := by
    simp [writeString]
  rw [htext, scanKey, if_pos rfl, hread]
  dsimp only [bind, Except.bind]
  rw [hcolon]
  exact congrArg (fun cs => Except.ok (key, cs)) ((skipBlanks_append sep.blankColon _).trans
    (skipBlanks_startsValue h rest))

theorem scanFields_writeFields {scan : Scanner Json} {fields : List (String × Json)}
    {texts : List (List Char)} (h : List.Forall₂ (FieldReadAs sep scan) fields texts) (hne : fields ≠ [])
    {bound : ℕ} (hbound : fields.length ≤ bound) (rest : List Char) :
    scanFields scan bound (sep.item.intercalate texts ++ closeBrace :: rest) = .ok (fields, rest) := by
  induction h generalizing bound with
  | nil => exact absurd rfl hne
  | @cons field text fields texts hfield hfields ih =>
    obtain ⟨bound, rfl⟩ :=
      Nat.exists_eq_succ_of_ne_zero (Nat.ne_of_gt (Nat.lt_of_lt_of_le (by simp) hbound))
    have hlength : fields.length ≤ bound := by simpa using hbound
    obtain ⟨key, v⟩ := field
    obtain ⟨value, rfl, hstarts, hread⟩ := hfield
    cases hfields with
    | nil =>
      have hone : sep.item.intercalate [writeString key ++ sep.key ++ value] =
          writeString key ++ sep.key ++ value := by simp [List.intercalate]
      have hblank : skipBlanks (closeBrace :: rest) = closeBrace :: rest :=
        skipBlanks_of_not_blank rfl rest
      rw [hone, scanFields, scanKey_writeString key hstarts]
      dsimp only [bind, Except.bind]
      rw [hread _ (delimited_close rest).2]
      dsimp only
      rw [hblank]
      exact if_pos rfl
    | @cons field' text' fields' texts' hfield' hfields' =>
      have hcomma : ',' ≠ closeBrace := by decide
      have hblank :
          skipBlanks (sep.item ++ (sep.item.intercalate (text' :: texts') ++ closeBrace :: rest)) =
          ',' :: (sep.afterComma ++ (sep.item.intercalate (text' :: texts') ++ closeBrace :: rest)) :=
        skipBlanks_of_not_blank rfl _
      have hnext := skipBlanks_startsValue
        (startsValue_intercalate (s := sep.item) hfield'.startsValue texts') (closeBrace :: rest)
      rw [intercalate_cons_cons, List.append_assoc (writeString key ++ sep.key ++ value),
        List.append_assoc sep.item, scanFields, scanKey_writeString key hstarts]
      dsimp only [bind, Except.bind]
      rw [hread _ (delimited_item _)]
      dsimp only
      rw [hblank]
      dsimp only
      rw [if_neg hcomma, if_pos rfl, skipBlanks_append sep.blankComma, hnext, ih (by simp) hlength]
      rfl

theorem foldl_set_of_nodup (fields : List (String × Json)) (d : Dict String Json)
    (h : (d.entries ++ fields).map Prod.fst |>.Nodup) :
    (fields.foldl (fun object field => object.set field.1 field.2) d).entries = d.entries ++ fields := by
  induction fields generalizing d with
  | nil => simp
  | cons field fields ih =>
    have hnew : field.1 ∉ d.keys := by
      rw [List.map_append, List.nodup_append] at h
      exact fun hmem => h.2.2 _ hmem _ List.mem_cons_self rfl
    have hset : (d.set field.1 field.2).entries = d.entries ++ [field] := by
      unfold Dict.set
      rw [dif_neg hnew]
    rw [List.foldl_cons, ih _ (by rwa [hset, List.append_assoc]), hset, List.append_assoc]
    rfl

theorem objectOf_of_nodup {fields : List (String × Json)} (h : (fields.map Prod.fst).Nodup) :
    objectOf fields = .obj fields := by
  rw [objectOf, foldl_set_of_nodup fields Dict.empty h]
  rfl

theorem length_le_intercalate {s : List Char} {texts : List (List Char)}
    (h : ∀ text ∈ texts, text ≠ []) : texts.length ≤ (s.intercalate texts).length := by
  induction texts with
  | nil => simp
  | cons text texts ih =>
    obtain ⟨htext, hrest⟩ := List.forall_mem_cons.mp h
    have hpos := List.length_pos_iff.mpr htext
    have hle := ih hrest
    cases texts with
    | nil => simpa [List.intercalate, Nat.one_le_iff_ne_zero] using htext
    | cons text' texts =>
      rw [intercalate_cons_cons, List.length_append, List.length_append, List.length_cons]
      omega

theorem StartsValue.ne_nil {text : List Char} (h : StartsValue text) : text ≠ [] := by
  obtain ⟨c, cs, rfl, -⟩ := h
  exact List.cons_ne_nil c cs

theorem startsValue_of_forall₂ {α : Type} {R : α → List Char → Prop}
    (hR : ∀ a text, R a text → StartsValue text) {as : List α} {texts : List (List Char)}
    (h : List.Forall₂ R as texts) : ∀ text ∈ texts, StartsValue text := by
  induction h with
  | nil => simp
  | cons hx _ ih => exact List.forall_mem_cons.mpr ⟨hR _ _ hx, ih⟩

/-- There are as many items as the scanner allows at most. -/
theorem length_le_of_forall₂ {α : Type} {R : α → List Char → Prop}
    (hR : ∀ a text, R a text → StartsValue text) {as : List α} {texts : List (List Char)}
    (h : List.Forall₂ R as texts) (s rest : List Char) :
    as.length ≤ (s.intercalate texts ++ rest).length := by
  rw [h.length_eq, List.length_append]
  exact (length_le_intercalate fun text ht => (startsValue_of_forall₂ hR h text ht).ne_nil).trans
    (Nat.le_add_right _ _)

theorem scanArray_writeItems {scan : Scanner Json} {items : List Json} {texts : List (List Char)}
    (h : List.Forall₂ (ReadAs scan) items texts) (rest : List Char) :
    scanArray scan (sep.item.intercalate texts ++ ']' :: rest) = .ok (.arr items, rest) := by
  cases h with
  | nil => rfl
  | @cons x text xs texts hx hxs =>
    have hall := List.Forall₂.cons hx hxs
    have hitems : scanItems scan _ (sep.item.intercalate (text :: texts) ++ ']' :: rest) =
        .ok (x :: xs, rest) := scanItems_writeItems hall (List.cons_ne_nil x xs)
      (length_le_of_forall₂ (fun _ _ h => h.1) hall sep.item (']' :: rest)) rest
    have hstarts := startsValue_intercalate (s := sep.item) hx.1 texts
    rw [scanArray, skipBlanks_startsValue hstarts]
    obtain ⟨c, cs, heq, -, hclose, -⟩ := hstarts
    rw [heq] at hitems ⊢
    split
    · rename_i hbracket
      exact absurd (List.cons.inj hbracket).1 hclose
    · rw [hitems]
      rfl

theorem scanObject_writeFields {scan : Scanner Json} {fields : List (String × Json)}
    {texts : List (List Char)} (h : List.Forall₂ (FieldReadAs sep scan) fields texts)
    (hnodup : (fields.map Prod.fst).Nodup) (rest : List Char) :
    scanObject scan (sep.item.intercalate texts ++ closeBrace :: rest) = .ok (.obj fields, rest) := by
  cases h with
  | nil => rfl
  | @cons x text xs texts hx hxs =>
    have hall := List.Forall₂.cons hx hxs
    have hfields := scanFields_writeFields hall (List.cons_ne_nil x xs)
      (length_le_of_forall₂ (fun _ _ h => h.startsValue) hall sep.item (closeBrace :: rest)) rest
    have hstarts := startsValue_intercalate (s := sep.item) hx.startsValue texts
    rw [scanObject, skipBlanks_startsValue hstarts]
    obtain ⟨c, cs, heq, -, -, hclose, -⟩ := hstarts
    rw [heq] at hfields ⊢
    rw [List.cons_append] at hfields ⊢
    dsimp only
    rw [if_neg hclose, hfields, Except.map, objectOf_of_nodup hnodup]

theorem writeItems_forall₂ {depth : ℕ} {items : List Json} {texts : List (List Char)}
    (h : writeItems sep depth items = .ok texts) :
    List.Forall₂ (fun x text => writeValue sep depth x = .ok text) items texts := by
  induction items generalizing texts with
  | nil =>
    cases h
    exact .nil
  | cons x xs ih =>
    rw [writeItems] at h
    obtain ⟨text, htext, h⟩ := bind_eq_ok.mp h
    obtain ⟨texts, htexts, h⟩ := bind_eq_ok.mp h
    cases h
    exact .cons htext (ih htexts)

theorem writeFields_forall₂ {depth : ℕ} {fields : List (String × Json)} {texts : List (List Char)}
    (h : writeFields sep depth fields = .ok texts) :
    List.Forall₂ (fun field text => ∃ value, text = writeString field.1 ++ sep.key ++ value ∧
      writeValue sep depth field.2 = .ok value) fields texts := by
  induction fields generalizing texts with
  | nil =>
    cases h
    exact .nil
  | cons field fields ih =>
    obtain ⟨key, x⟩ := field
    rw [writeFields] at h
    obtain ⟨text, htext, h⟩ := bind_eq_ok.mp h
    obtain ⟨texts, htexts, h⟩ := bind_eq_ok.mp h
    cases h
    exact .cons ⟨text, rfl, htext⟩ (ih htexts)

theorem forall₂_of_mem {α β : Type} {R S : α → β → Prop} {as : List α} {bs : List β}
    (h : List.Forall₂ R as bs) (hRS : ∀ a ∈ as, ∀ b, R a b → S a b) : List.Forall₂ S as bs := by
  induction h with
  | nil => exact .nil
  | cons hx _ ih =>
    obtain ⟨hfirst, hrest⟩ := List.forall_mem_cons.mp hRS
    exact .cons (hfirst _ hx) (ih hrest)

theorem scanValue_eq_scanOnce (limit : ℕ) :
    ∃ array object, scanValue limit = scanOnce array object := by
  cases limit with
  | zero => exact ⟨_, _, rfl⟩
  | succ limit => exact ⟨_, _, rfl⟩

theorem scanOnce_writeString (array object : Scanner Json) (s : String) (rest : List Char) :
    scanOnce array object (writeString s ++ rest) = .ok (.str s, rest) := by
  have htext : writeString s ++ rest =
      doubleQuote :: (s.toList.flatMap writeChar ++ doubleQuote :: rest) := by simp [writeString]
  rw [htext, scanOnce, if_pos rfl, scanString_writeString]
  rfl

theorem scanValue_bracket {limit : ℕ} {items : List Json} {texts : List (List Char)}
    (h : List.Forall₂ (ReadAs (scanValue limit)) items texts) (rest : List Char) :
    scanValue (limit + 1) ('[' :: (sep.item.intercalate texts ++ [']']) ++ rest) =
      .ok (.arr items, rest) := by
  have hbracket : '[' ≠ doubleQuote ∧ '[' ≠ openBrace := by decide
  rw [List.cons_append, List.append_assoc, scanValue, scanOnce, if_neg hbracket.1,
    if_neg hbracket.2, if_pos rfl]
  exact scanArray_writeItems h rest

theorem scanValue_brace {limit : ℕ} {fields : List (String × Json)} {texts : List (List Char)}
    (h : List.Forall₂ (FieldReadAs sep (scanValue limit)) fields texts)
    (hnodup : (fields.map Prod.fst).Nodup) (rest : List Char) :
    scanValue (limit + 1) (openBrace :: (sep.item.intercalate texts ++ [closeBrace]) ++ rest) =
      .ok (.obj fields, rest) := by
  have hbrace : openBrace ≠ doubleQuote := by decide
  rw [List.cons_append, List.append_assoc, scanValue, scanOnce, if_neg hbrace, if_pos rfl]
  exact scanObject_writeFields h hnodup rest

/-- What is written of a value is read as this value, at the same recursion limit or a higher one. -/
theorem scanValue_writeValue {depth limit : ℕ} (hlimit : depth ≤ limit) {v : Json} {text : List Char}
    (hv : v.WellFormed) (h : writeValue sep depth v = .ok text) {rest : List Char}
    (hrest : Delimited rest) : scanValue limit (text ++ rest) = .ok (v, rest) := by
  induction limit using Nat.strong_induction_on generalizing depth v text rest with
  | _ limit ih =>
    obtain ⟨array, object, hscan⟩ := scanValue_eq_scanOnce limit
    cases hv with
    | null =>
      cases h
      rw [hscan]
      rfl
    | bool b =>
      cases h
      rw [hscan]
      cases b <;> rfl
    | int n =>
      rw [hscan]
      exact scanOnce_writeInt h hrest array object
    | float hx =>
      cases h
      rw [hscan]
      exact scanOnce_writeFloat hx hrest array object
    | str s =>
      cases h
      rw [hscan]
      exact scanOnce_writeString array object s rest
    | @arr items hitems =>
      obtain ⟨hdepth, texts, htexts, rfl⟩ := writeValue_arr h
      obtain ⟨below, rfl⟩ := Nat.exists_eq_succ_of_ne_zero (show limit ≠ 0 by omega)
      have hread : List.Forall₂ (ReadAs (scanValue below)) items texts :=
        forall₂_of_mem (writeItems_forall₂ htexts) fun x hx t ht =>
          ⟨startsValue_writeValue (hitems x hx) ht, fun r hr =>
            ih below (Nat.lt_succ_self below) (by omega) (hitems x hx) ht hr⟩
      exact scanValue_bracket hread rest
    | @obj fields hnodup hfields =>
      obtain ⟨hdepth, texts, htexts, rfl⟩ := writeValue_obj h
      obtain ⟨below, rfl⟩ := Nat.exists_eq_succ_of_ne_zero (show limit ≠ 0 by omega)
      have hread : List.Forall₂ (FieldReadAs sep (scanValue below)) fields texts :=
        forall₂_of_mem (writeFields_forall₂ htexts) fun field hfield t ht => by
          obtain ⟨value, rfl, hvalue⟩ := ht
          exact ⟨value, rfl, startsValue_writeValue (hfields field hfield) hvalue, fun r hr =>
            ih below (Nat.lt_succ_self below) (by omega) (hfields field hfield) hvalue hr⟩
      exact scanValue_brace hread hnodup rest

/-- `json.loads(json.dumps(value))` is the value. -/
theorem loads_dumps {depth limit : ℕ} (hlimit : depth ≤ limit) {v : Json} {text : String}
    (hv : v.WellFormed) (h : dumps sep depth v = .ok text) : loads limit text = .ok v := by
  obtain ⟨cs, hcs, rfl⟩ := map_eq_ok.mp h
  obtain ⟨c, rest, rfl, hblank, -, -, hascii⟩ := startsValue_writeValue hv hcs
  have hmark : ¬ (String.ofList (c :: rest)).toList.head? = some (Char.ofNat 0xfeff) := by
    rw [String.toList_ofList, List.head?_cons]
    rintro ⟨⟩
    exact absurd hascii (by decide)
  have hread : scanValue limit ((c :: rest) ++ []) = .ok (v, []) :=
    scanValue_writeValue hlimit hv hcs nofun
  rw [List.append_nil] at hread
  rw [loads, if_neg hmark, String.toList_ofList, skipBlanks_of_not_blank hblank, hread]
  rfl

end SenseGateway.Python

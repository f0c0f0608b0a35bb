import SenseGateway.Poller.Surplus
import SenseGateway.Texts.Words

namespace SenseGateway.Poller

open Python Texts

/-- What stands for every character outside ASCII where only the ASCII ones matter. -/
def foreignChar : Char := Char.ofNat 0xfffd

def outlineChar (c : Char) : Char := if c.toNat < 128 then c else foreignChar

/-- A text but for the case of its letters. The characters outside ASCII, whose cases `lower` does
not know, all count as one. -/
def caseless (cs : List Char) : List Char := (cs.flatMap lowerChar).map outlineChar

/-- What separates the words of a word order. -/
def isSeparator (c : Char) : Bool := isSpace c || c ∈ ['_', '-', '/']

/-- The words of a word order, but for the case of their letters. -/
def orderWords (text : String) : List (List Char) := (wordsBy isSeparator text.toList).map caseless

/-- The texts differ only in letter case and in leading or trailing whitespace. -/
def SameTrimmed (a b : String) : Prop :=
  caseless (stripChars a.toList) = caseless (stripChars b.toList)

/-- The texts differ only in letter case, in leading or trailing whitespace, and in the choice and
the number of separators between words. -/
def SameWords (a b : String) : Prop := orderWords a = orderWords b

/-- Two values of a setting: the same, or two texts that differ in spelling only. -/
inductive Respelled (same : String → String → Prop) : Json → Json → Prop
  | refl (x : Json) : Respelled same x x
  | text {a b : String} : same a b → Respelled same (.str a) (.str b)

/-- The three settings that `decode_registers` reads. -/
structure DecodeSettings where
  dataType : Json
  byteOrder : Json
  wordOrder : Json

/-- The settings differ only in spelling. -/
structure DecodeSettings.Respelled (s s' : DecodeSettings) : Prop where
  dataType : Poller.Respelled SameTrimmed s.dataType s'.dataType
  byteOrder : Poller.Respelled SameTrimmed s.byteOrder s'.byteOrder
  wordOrder : Poller.Respelled SameWords s.wordOrder s'.wordOrder

def DecodeSettings.decode (s : DecodeSettings) (registers : List ℤ) : PyExcept PyFloat :=
  decodeRegisters registers s.dataType s.byteOrder s.wordOrder

/-- The settings decode the registers to the same value or raise the same error, where an error
that quotes the type quotes each as it is spelled. -/
def SameResult (s s' : DecodeSettings) (registers : List ℤ) : Prop :=
  s.decode registers = s'.decode registers ∨
    s.decode registers = .error (unsupported s.dataType) ∧
      s'.decode registers = .error (unsupported s'.dataType)

/-- Whether `prepare_registers` takes the byte order for a swapped one. -/
def isByteSwapped (byteOrder : Json) : Bool := lower byteOrder.toStr ∈ ["little", "swapped"]

/-- Exchanging the bytes of the registers makes no difference to what the settings decode: the type
is not supported, there are too few registers, or the ones decoded hold the same value both ways. -/
def DecodeSettings.Symmetric (s : DecodeSettings) (registers : List ℤ) : Prop :=
  ∀ t : DataType, lower (strip s.dataType.toStr) ∈ t.names → t.words ≤ registers.length →
    t.Alike (.str "big") s.wordOrder (window t.words s.wordOrder registers)
      (swapBytesInWords (window t.words s.wordOrder registers))

section texts

/-- A character that is not a capital letter is its own lower case. -/
theorem toLower_cases (c : Char) :
    c.toLower = c ∨ 65 ≤ c.toNat ∧ c.toNat ≤ 90 ∧ c.toLower.toNat = c.toNat + 32 := by
  unfold Char.toLower
  split
  · rename_i h
    have hrange : 65 ≤ c.toNat ∧ c.toNat ≤ 90 := by
      simpa [UInt32.le_iff_toNat_le] using h
    refine .inr ⟨hrange.1, hrange.2, ?_⟩
    show (c.val + 32).toNat = c.val.toNat + 32
    have hval : c.val.toNat ≤ 90 := hrange.2
    rw [UInt32.toNat_add, Nat.mod_eq_of_lt]
    · rfl
    · exact Nat.lt_of_le_of_lt (Nat.add_le_add_right hval _) (by decide)
  · exact .inl rfl

theorem isSpace_iff {c : Char} : isSpace c = true ↔ c.toNat ∈ [0x9, 0xa, 0xb, 0xc, 0xd, 0x1c, 0x1d,
    0x1e, 0x1f, 0x20, 0x85, 0xa0, 0x1680, 0x2000, 0x2001, 0x2002, 0x2003, 0x2004, 0x2005, 0x2006,
    0x2007, 0x2008, 0x2009, 0x200a, 0x2028, 0x2029, 0x202f, 0x205f, 0x3000] := by
  simp [isSpace]

theorem isSeparator_iff {c : Char} : isSeparator c = true ↔
    isSpace c = true ∨ c.toNat = 95 ∨ c.toNat = 45 ∨ c.toNat = 47 := by
  have hchar (d : Char) : c = d ↔ c.toNat = d.toNat := Char.toNat_inj.symm
  simp [isSeparator, hchar]

theorem lowerChar_ne_nil (c : Char) : lowerChar c ≠ [] := by
  unfold lowerChar
  split
  · exact List.cons_ne_nil _ _
  · split <;> exact List.cons_ne_nil _ _

/-- A separator is its own lower case. -/
theorem lowerChar_of_separator {c : Char} (h : isSeparator c = true) : lowerChar c = [c] := by
  have hnat := isSeparator_iff.mp h
  rw [isSpace_iff] at hnat
  simp only [List.mem_cons, List.not_mem_nil, or_false] at hnat
  unfold lowerChar
  rw [if_neg (by omega), if_neg (by omega)]
  rcases toLower_cases c with hsame | ⟨hlow, hhigh, -⟩
  · rw [hsame]
  · omega

/-- No other character has one in its lower case. -/
theorem not_separator_of_mem_lowerChar {c d : Char} (h : isSeparator c = false) (hd : d ∈ lowerChar c) :
    isSeparator d = false := by
  unfold lowerChar at hd
  split at hd
  · obtain rfl : d = 'k' := by simpa using hd
    decide
  · split at hd
    · rcases (by simpa using hd : d = 'i' ∨ d = Char.ofNat 0x307) with rfl | rfl <;> decide
    · obtain rfl : d = c.toLower := by simpa using hd
      rcases toLower_cases c with hsame | ⟨hlow, hhigh, hnat⟩
      · rwa [hsame]
      · rw [Bool.eq_false_iff]
        intro hsep
        rw [isSeparator_iff, isSpace_iff, hnat] at hsep
        simp only [List.mem_cons, List.not_mem_nil, or_false] at hsep
        omega

/-- What the three replacements of `is_word_swapped` do to a character. -/
def spaceOut (c : Char) : Char :=
  let c := if c = '_' then ' ' else c
  let c := if c = '-' then ' ' else c
  if c = '/' then ' ' else c

theorem spaceOut_of_separator {c : Char} (h : isSeparator c = true) : isSpace (spaceOut c) = true := by
  have hcases : isSpace c = true ∨ c ∈ ['_', '-', '/'] := by simpa [isSeparator] using h
  simp only [List.mem_cons, List.not_mem_nil, or_false] at hcases
  by_cases hmark : c = '_' ∨ c = '-' ∨ c = '/'
  · rcases hmark with rfl | rfl | rfl <;> decide
  · have hspace : isSpace c = true := hcases.resolve_right hmark
    simp only [not_or] at hmark
    simpa [spaceOut, hmark] using hspace

theorem spaceOut_of_not_separator {c : Char} (h : isSeparator c = false) :
    spaceOut c = c ∧ isSpace c = false := by
  have hcases : isSpace c = false ∧ c ∉ ['_', '-', '/'] := by simpa [isSeparator] using h
  simp only [List.mem_cons, List.not_mem_nil, or_false, not_or] at hcases
  exact ⟨by simp [spaceOut, hcases.2], hcases.1⟩

theorem splitWords_eq (s : String) : splitWords s = (wordsBy isSpace s.toList).map String.ofList := by
  rw [splitWords, filter_splitBy]

/-- The words that `is_word_swapped` joins are those of the text in lower case. -/
theorem splitWords_spaced (text : String) :
    splitWords (replaceChar '/' ' ' (replaceChar '-' ' ' (replaceChar '_' ' ' (lower text)))) =
      ((wordsBy isSeparator text.toList).map (List.flatMap lowerChar)).map String.ofList := by
  have htext : (replaceChar '/' ' ' (replaceChar '-' ' ' (replaceChar '_' ' ' (lower text)))).toList =
      text.toList.flatMap fun c => (lowerChar c).map spaceOut := by
    simp only [replaceChar, lower, String.toList_ofList, List.map_map, List.map_flatMap]
    rfl
  rw [splitWords_eq, htext, wordsBy_flatMap (p := isSeparator)]
  · refine congrArg _ (List.map_congr_left fun w hw => ?_)
    refine List.flatMap_congr fun c hc => ?_
    have hother := not_sep_of_mem_wordsBy hw c hc
    conv_rhs => rw [← List.map_id (lowerChar c)]
    exact List.map_congr_left fun d hd =>
      (spaceOut_of_not_separator (not_separator_of_mem_lowerChar hother hd)).1
  · intro c hc
    exact ⟨spaceOut c, by rw [lowerChar_of_separator hc]; rfl, spaceOut_of_separator hc⟩
  · intro c hc d hd
    obtain ⟨e, he, rfl⟩ := List.mem_map.mp hd
    obtain ⟨hsame, hspace⟩ := spaceOut_of_not_separator (not_separator_of_mem_lowerChar hc he)
    rwa [hsame]
  · intro c
    simpa using lowerChar_ne_nil c

theorem ascii_of_all {literals : List String}
    (h : literals.all (fun s => s.toList.all fun c => c.toNat < 128) = true) :
    ∀ s ∈ literals, ∀ c ∈ s.toList, c.toNat < 128 := by
  simpa only [List.all_eq_true, decide_eq_true_eq] using h

/-- A list of texts in ASCII has a text or not by its outline. -/
theorem mem_iff_outline {literals : List String}
    (hascii : ∀ s ∈ literals, ∀ c ∈ s.toList, c.toNat < 128) (cs : List Char) :
    String.ofList cs ∈ literals ↔ String.ofList (cs.map outlineChar) ∈ literals := by
  have hsame (h : ∀ c ∈ cs, c.toNat < 128) : cs.map outlineChar = cs := by
    conv_rhs => rw [← List.map_id cs]
    exact List.map_congr_left fun c hc => if_pos (h c hc)
  constructor
  · intro h
    rw [hsame]
    · exact h
    · simpa using hascii _ h
  · intro h
    rw [← hsame]
    · exact h
    · intro c hc
      have hout := hascii _ h (outlineChar c) (by simpa using ⟨c, hc, rfl⟩)
      by_contra hforeign
      rw [outlineChar, if_neg hforeign] at hout
      exact absurd hout (by decide)

theorem mem_iff_of_caseless {literals : List String}
    (hascii : ∀ s ∈ literals, ∀ c ∈ s.toList, c.toNat < 128) {a b : List Char}
    (h : caseless a = caseless b) :
    String.ofList (a.flatMap lowerChar) ∈ literals ↔ String.ofList (b.flatMap lowerChar) ∈ literals := by
  have hsame : (a.flatMap lowerChar).map outlineChar = (b.flatMap lowerChar).map outlineChar := h
  rw [mem_iff_outline hascii, hsame, ← mem_iff_outline hascii]

/-- The words joined by spaces, in lower case. -/
def joinedWords (text : String) : List Char :=
  [' '].intercalate ((wordsBy isSeparator text.toList).map (List.flatMap lowerChar))

theorem isWordSwapped_text (text : String) :
    isWordSwapped (.str text) = decide (String.ofList (joinedWords text) ∈ swappedWordOrders) := by
  have htext : (Json.orElse (.str text) (.str "")).toStr = text := by
    by_cases h : text = ""
    · subst h
      rfl
    · simp [Json.orElse, Json.truthy, h, Json.toStr]
  have hjoin : " ".intercalate (splitWords
      (replaceChar '/' ' ' (replaceChar '-' ' ' (replaceChar '_' ' ' (lower text))))) =
        String.ofList (joinedWords text) := by
    have hwords (ws : List (List Char)) : (ws.map String.ofList).map String.toList = ws := by
      rw [List.map_map]
      exact List.map_id'' (fun _ => String.toList_ofList) ws
    rw [splitWords_spaced, ← String.toList_inj, String.toList_intercalate, hwords]
    exact String.toList_ofList.symm
  unfold isWordSwapped
  rw [htext]
  dsimp only
  rw [hjoin]

theorem isWordSwapped_of_sameWords {a b : String} (h : SameWords a b) :
    isWordSwapped (.str a) = isWordSwapped (.str b) := by
  have houtline (text : String) : (joinedWords text).map outlineChar = [' '].intercalate (orderWords text) := by
    rw [joinedWords, map_intercalate, List.map_map]
    rfl
  have hascii : ∀ s ∈ swappedWordOrders, ∀ c ∈ s.toList, c.toNat < 128 := ascii_of_all (by decide)
  rw [isWordSwapped_text, isWordSwapped_text, decide_eq_decide, mem_iff_outline hascii, houtline, h,
    ← houtline, ← mem_iff_outline hascii]

end texts

/-- The spelling of the word order does not matter. -/
theorem isWordSwapped_congr {x y : Json} (h : Respelled SameWords x y) :
    isWordSwapped x = isWordSwapped y := by
  cases h with
  | refl => rfl
  | text h => exact isWordSwapped_of_sameWords h

/-- Nor does that of the type. -/
theorem mem_names_congr {x y : Json} (h : Respelled SameTrimmed x y) (t : DataType) :
    lower (strip x.toStr) ∈ t.names ↔ lower (strip y.toStr) ∈ t.names := by
  cases h with
  | refl => rfl
  | @text a b h =>
    have hascii : ∀ s ∈ t.names, ∀ c ∈ s.toList, c.toNat < 128 :=
      ascii_of_all (by cases t <;> decide)
    have hlower (text : String) : lower (strip text) =
        String.ofList ((stripChars text.toList).flatMap lowerChar) := by
      rw [lower, strip, String.toList_ofList]
    show lower (strip a) ∈ t.names ↔ lower (strip b) ∈ t.names
    rw [hlower, hlower]
    exact mem_iff_of_caseless hascii h

section orders

variable {byteOrder byteOrder' wordOrder wordOrder' : Json}

theorem prepareRegisters_congr (hbytes : isByteSwapped byteOrder = isByteSwapped byteOrder')
    (hwords : isWordSwapped wordOrder = isWordSwapped wordOrder') (registers : List ℤ) :
    prepareRegisters registers byteOrder wordOrder = prepareRegisters registers byteOrder' wordOrder' := by
  have hbytes' : lower byteOrder.toStr ∈ ["little", "swapped"] ↔
      lower byteOrder'.toStr ∈ ["little", "swapped"] := by
    simpa only [isByteSwapped, decide_eq_decide] using hbytes
  unfold prepareRegisters
  simp only [hwords, hbytes']

/-- To exchange the bytes is to prepare the exchanged registers. -/
theorem prepareRegisters_of_byteSwapped (h : isByteSwapped byteOrder = true) (registers : List ℤ) :
    prepareRegisters registers byteOrder wordOrder =
      prepareRegisters (swapBytesInWords registers) (.str "big") wordOrder := by
  have hbig : lower (Json.str "big").toStr ∉ ["little", "swapped"] := by decide
  have hlittle : lower byteOrder.toStr ∈ ["little", "swapped"] := by simpa [isByteSwapped] using h
  unfold prepareRegisters
  dsimp only
  rw [if_pos hlittle, if_neg hbig]
  split
  · exact List.map_reverse
  · rfl

theorem prepareRegisters_of_not_byteSwapped (h : isByteSwapped byteOrder = false)
    (registers : List ℤ) :
    prepareRegisters registers byteOrder wordOrder = prepareRegisters registers (.str "big") wordOrder :=
  prepareRegisters_congr (h.trans (by decide)) rfl registers

/-- What registers of the right number hold in two byte orders. -/
theorem unpack_orders_iff (t : DataType) {registers : List ℤ} (h : registers.length = t.words) :
    t.unpack (registersToBytes (prepareRegisters registers byteOrder wordOrder)) =
        t.unpack (registersToBytes (prepareRegisters registers byteOrder' wordOrder)) ↔
      isByteSwapped byteOrder = isByteSwapped byteOrder' ∨
        t.Alike (.str "big") wordOrder registers (swapBytesInWords registers) := by
  have hswap : (swapBytesInWords registers).length = t.words := by rw [swapBytesInWords, List.length_map, h]
  have hexchange := unpack_eq_iff (.str "big") wordOrder t h hswap
  cases hbytes : isByteSwapped byteOrder with
  | true =>
    cases hbytes' : isByteSwapped byteOrder' with
    | true =>
      rw [prepareRegisters_congr (hbytes.trans hbytes'.symm) rfl]
      simp
    | false =>
      rw [prepareRegisters_of_byteSwapped hbytes, prepareRegisters_of_not_byteSwapped hbytes', eq_comm,
        hexchange]
      simp
  | false =>
    cases hbytes' : isByteSwapped byteOrder' with
    | true =>
      rw [prepareRegisters_of_not_byteSwapped hbytes, prepareRegisters_of_byteSwapped hbytes', hexchange]
      simp
    | false =>
      rw [prepareRegisters_congr (hbytes.trans hbytes'.symm) rfl]
      simp

end orders

theorem DataType.eq_of_mem_names {t t' : DataType} {name : String} (h : name ∈ t.names)
    (h' : name ∈ t'.names) : t = t' := by
  by_contra hne
  have hdisjoint : ∀ name ∈ t.names, name ∉ t'.names := by
    cases t <;> cases t' <;> first | exact absurd rfl hne | decide
  exact hdisjoint name h h'

/-- Any two settings that differ in spelling only give the same result exactly where their byte
orders are both taken for swapped ones, or neither is, or the order of the bytes makes no difference. -/
theorem respelled_sameResult_iff {s s' : DecodeSettings} (h : s.Respelled s') (registers : List ℤ) :
    SameResult s s' registers ↔
      isByteSwapped s.byteOrder = isByteSwapped s'.byteOrder ∨ s.Symmetric registers := by
  have hwords := isWordSwapped_congr h.wordOrder
  have hnames := mem_names_congr h.dataType
  by_cases hsupported : ∃ t : DataType, lower (strip s.dataType.toStr) ∈ t.names
  · obtain ⟨t, ht⟩ := hsupported
    have ht' := (hnames t).mp ht
    by_cases hlength : t.words ≤ registers.length
    · have hdecode := decodeRegisters_of_window s.byteOrder s.wordOrder ht hlength
      have hdecode' := decodeRegisters_of_window s'.byteOrder s'.wordOrder ht' hlength
      have hwindow : window t.words s'.wordOrder registers = window t.words s.wordOrder registers := by
        simp only [window, hwords]
      rw [hwindow, prepareRegisters_congr rfl hwords.symm] at hdecode'
      have hsymmetric : s.Symmetric registers ↔ t.Alike (.str "big") s.wordOrder
          (window t.words s.wordOrder registers)
          (swapBytesInWords (window t.words s.wordOrder registers)) := by
        refine ⟨fun hs => hs t ht hlength, fun halike t' hname _ => ?_⟩
        obtain rfl := DataType.eq_of_mem_names ht hname
        exact halike
      rw [hsymmetric, ← unpack_orders_iff t (length_window s.wordOrder hlength), SameResult,
        DecodeSettings.decode, DecodeSettings.decode, hdecode, hdecode']
      simp
    · -- too few registers are the same error whatever the order
      have hshort (byteOrder wordOrder : Json) :
          (registersToBytes (prepareRegisters registers byteOrder wordOrder)).length < 2 * t.words := by
        rw [length_registersToBytes, length_prepareRegisters]
        omega
      refine iff_of_true (.inl ?_) (.inr fun t' hname hlength' => ?_)
      · rw [DecodeSettings.decode, DecodeSettings.decode, decodeRegisters_eq ht, decodeRegisters_eq ht',
          if_pos (hshort _ _), if_pos (hshort _ _)]
      · obtain rfl := DataType.eq_of_mem_names ht hname
        exact absurd hlength' hlength
  · rw [not_exists] at hsupported
    have hsupported' : ∀ t : DataType, lower (strip s'.dataType.toStr) ∉ t.names :=
      fun t ht => hsupported t ((hnames t).mpr ht)
    exact iff_of_true (.inr ⟨decodeRegisters_unsupported hsupported _ _ _,
      decodeRegisters_unsupported hsupported' _ _ _⟩) (.inr fun t ht => absurd ht (hsupported t))

/-- The spellings of a swapped float. -/
theorem swap_spelled_twice :
    SameResult ⟨.str "float32", .str "big", .str "Swap / Little Word"⟩
      ⟨.str " FLOAT32", .str "Big", .str "swap_little-word"⟩ [13488, 19028] := by
  have hdataType : SameTrimmed "float32" " FLOAT32" := by
    unfold SameTrimmed
    decide
  have hbyteOrder : SameTrimmed "big" "Big" := by
    unfold SameTrimmed
    decide
  have hwordOrder : SameWords "Swap / Little Word" "swap_little-word" := by
    unfold SameWords
    decide +kernel
  exact (respelled_sameResult_iff ⟨.text hdataType, .text hbyteOrder, .text hwordOrder⟩ _).mpr
    (.inl (by decide))

/-- A byte order with a blank in front is not recognized. -/
theorem blank_hides_byteOrder :
    ¬ ∀ s s' : DecodeSettings, s.Respelled s' → ∀ registers, SameResult s s' registers := by
  intro h
  have hspelling : SameTrimmed "little" " little" := by
    unfold SameTrimmed
    decide
  have hsame := h ⟨.str "uint16", .str "little", .str "normal"⟩ ⟨.str "uint16", .str " little", .str "normal"⟩
    ⟨.refl _, .text hspelling, .refl _⟩ [1]
  revert hsame
  unfold SameResult
  decide +kernel

end SenseGateway.Poller

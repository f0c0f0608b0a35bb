import Mathlib.Data.List.TakeWhile
import SenseGateway.Poller.Device
import SenseGateway.Python.Dict

namespace SenseGateway.Configuration

open Python Poller

/-- `s.split(c)`, the parts as lists of characters -/
def splitAt (c : Char) (s : String) : List String := (s.toList.splitOn c).map String.ofList

/-- `s.partition(c)`: what stands ahead of the first `c`, and what stands behind it. -/
def partition (c : Char) (s : String) : String × String :=
  (String.ofList (s.toList.takeWhile (· ≠ c)), String.ofList ((s.toList.dropWhile (· ≠ c)).drop 1))

/-- What an entry makes `overrides` hold: nothing where its id is no integer, whatever stands for the
word order. -/
def entryWrite (entry : String) : Option (ℤ × String) :=
  let (tagId, wordOrder) := partition ':' entry
  match intText (strip tagId) with
  | .value n => some (n, strip wordOrder)
  | _ => none

/-- `overrides` when the loop is done. -/
def collectOverrides (entries : List String) : Dict ℤ String :=
  entries.foldl
    (fun overrides entry => match entryWrite entry with
      | some (tagId, wordOrder) => overrides.set tagId wordOrder
      | none => overrides)
    .empty

def parseWordOrderOverrides (raw : String) : List (ℤ × String) :=
  (collectOverrides (splitAt ',' raw)).entries.filter fun e => e.2 != ""

-- the example of the docstring
example : parseWordOrderOverrides "23:swapped,24:swapped" = [(23, "swapped"), (24, "swapped")] := by
  decide +kernel

/-- The override a well-formed entry asks for: it has an integer id, a colon and a word order that is
not blank. -/
def wellFormedWrite (entry : String) : Option (ℤ × String) :=
  if ':' ∈ entry.toList then (entryWrite entry).filter fun write => write.2 != "" else none

/-- The map of the well-formed entries alone: the last one for a tag wins. -/
def wellFormedOverrides (entries : List String) (tagId : ℤ) : Option String :=
  (((entries.filterMap wellFormedWrite).filter fun write => write.1 = tagId).getLast?).map Prod.snd

/-- The result is the map of the well-formed entries. -/
def SkipsMalformed (raw : String) : Prop :=
  ∀ tagId, (parseWordOrderOverrides raw).lookup tagId = wellFormedOverrides (splitAt ',' raw) tagId

/-- An entry that is well formed and names the tag. -/
def Overrides (tagId : ℤ) (entry : String) : Prop := ∃ wordOrder, wellFormedWrite entry = some (tagId, wordOrder)

/-- An entry with the tag's id and a blank word order, or none. -/
def Blanks (tagId : ℤ) (entry : String) : Prop := entryWrite entry = some (tagId, "")

/-- No entry with an integer id and a blank word order comes behind a well-formed one for the same tag
and ahead of no other. -/
def Unblanked (entries : List String) : Prop :=
  ∀ before entry after, entries = before ++ entry :: after → ∀ tagId, Blanks tagId entry →
    (∃ earlier ∈ before, Overrides tagId earlier) → ∃ later ∈ after, Overrides tagId later

theorem wellFormedWrite_eq (entry : String) :
    wellFormedWrite entry = (entryWrite entry).filter fun write => write.2 != "" := by
  unfold wellFormedWrite
  split
  · rfl
  · rename_i hcolon
    -- without a colon nothing stands behind it
    have hall : ∀ c ∈ entry.toList, decide (c ≠ ':') = true := by
      intro c hc
      rw [decide_eq_true_eq]
      rintro rfl
      exact hcolon hc
    have hblank : strip (partition ':' entry).2 = "" := by
      rw [partition, List.dropWhile_eq_nil_iff.mpr hall]
      rfl
    unfold entryWrite
    dsimp only
    rw [hblank]
    split
    · rfl
    · rfl

/-- Of a list of values, the last one passes a test exactly where it is the last of those that pass,
if no value that fails comes between the last two of them. -/
theorem getLast?_filter_iff {α β : Type} (f : α → Option β) (p : β → Bool) (xs : List α) :
    (xs.filterMap f).getLast?.filter p = ((xs.filterMap f).filter p).getLast? ↔
      ∀ before x after, xs = before ++ x :: after → ∀ v, f x = some v → p v = false →
        (before.filterMap f).any p = true → (after.filterMap f).any p = true := by
  constructor
  · rintro h before x after rfl v hx hv hbefore
    by_contra hafter
    rw [Bool.not_eq_true, List.any_eq_false] at hafter
    have hnone : (after.filterMap f).filter p = [] := List.filter_eq_nil_iff.mpr hafter
    have hfails : ∀ w ∈ (x :: after).filterMap f, p w = false := by
      rw [List.filterMap_cons_some hx, List.forall_mem_cons]
      exact ⟨hv, fun w hw => by simpa using hafter w hw⟩
    have hlast : ((before ++ x :: after).filterMap f).getLast?.filter p = none := by
      rw [List.filterMap_append, List.getLast?_append_of_ne_nil _ (by simp [hx])]
      cases hw : ((x :: after).filterMap f).getLast? with
      | none => rfl
      | some w => simp [Option.filter, hfails w (List.mem_of_mem_getLast? hw)]
    rw [hlast, List.filterMap_append, List.filterMap_cons_some hx, List.filter_append,
      List.filter_cons_of_neg (by simp [hv]), hnone, List.append_nil, eq_comm,
      List.getLast?_eq_none_iff, List.filter_eq_nil_iff] at h
    obtain ⟨w, hw, hpass⟩ := List.any_eq_true.mp hbefore
    exact h w hw hpass
  · intro h
    cases hlast : (xs.filterMap f).getLast? with
    | none => simp [List.getLast?_eq_none_iff.mp hlast]
    | some v =>
      obtain ⟨vs, hvs⟩ := List.getLast?_eq_some_iff.mp hlast
      cases hv : p v with
      | true => simp [hvs, Option.filter, hv]
      | false =>
        obtain ⟨before, rest, rfl, hbefore, hrest⟩ := List.filterMap_eq_append_iff.mp hvs
        obtain ⟨skipped, x, after, rfl, hskipped, hx, hafter⟩ := List.filterMap_eq_cons_iff.mp hrest
        have hsplit := h (before ++ skipped) x after (by simp) v hx hv
        have hnone : skipped.filterMap f = [] := List.filterMap_eq_nil_iff.mpr hskipped
        rw [List.filterMap_append, hnone, List.append_nil, hafter, hbefore] at hsplit
        have hfails : ∀ w ∈ vs, p w = false := by simpa using hsplit
        have hfilter : vs.filter p = [] := List.filter_eq_nil_iff.mpr (by simpa using hfails)
        simp [hvs, Option.filter, hv, hfilter]

section lookups

variable (tagId : ℤ)

/-- What an entry writes for one tag. -/
def writeFor (tagId : ℤ) (entry : String) : Option String :=
  ((entryWrite entry).filter fun write => write.1 = tagId).map Prod.snd

theorem filterMap_writeFor (entries : List String) :
    ((entries.filterMap entryWrite).filter fun write => write.1 = tagId).map Prod.snd =
      entries.filterMap (writeFor tagId) := by
  rw [List.filter_filterMap, List.map_filterMap]
  rfl

theorem lookup_parse (raw : String) :
    (parseWordOrderOverrides raw).lookup tagId =
      ((splitAt ',' raw).filterMap (writeFor tagId)).getLast?.filter (· != "") := by
  have hcollect (entries : List String) : collectOverrides entries =
      (entries.filterMap entryWrite).foldl (fun d write => d.set write.1 write.2) .empty := by
    rw [List.foldl_filterMap]
    refine congrArg (fun step => List.foldl step Dict.empty entries) ?_
    funext overrides entry
    cases entryWrite entry <;> rfl
  rw [parseWordOrderOverrides, Dict.lookup_filter _ (· != ""), hcollect, Dict.lookup_foldl_set,
    ← filterMap_writeFor, List.getLast?_map]
  simp [Dict.lookup, Dict.empty]

theorem wellFormedOverrides_eq (entries : List String) :
    wellFormedOverrides entries tagId =
      ((entries.filterMap (writeFor tagId)).filter (· != "")).getLast? := by
  have hwrites : entries.filterMap wellFormedWrite =
      (entries.filterMap entryWrite).filter fun write => write.2 != "" := by
    rw [List.filter_filterMap]
    exact List.filterMap_congr fun entry _ => wellFormedWrite_eq entry
  rw [wellFormedOverrides, hwrites, ← filterMap_writeFor, List.filter_map, List.getLast?_map,
    List.filter_comm]
  rfl

theorem writeFor_eq_some {entry wordOrder : String} :
    writeFor tagId entry = some wordOrder ↔ entryWrite entry = some (tagId, wordOrder) := by
  unfold writeFor
  cases h : entryWrite entry with
  | none => simp
  | some write =>
    obtain ⟨n, text⟩ := write
    by_cases hn : n = tagId
    · simp [Option.filter, hn]
    · simp [Option.filter, hn]

theorem overrides_iff {entry : String} :
    Overrides tagId entry ↔ ∃ wordOrder, writeFor tagId entry = some wordOrder ∧ wordOrder ≠ "" := by
  refine exists_congr fun wordOrder => ?_
  rw [wellFormedWrite_eq, writeFor_eq_some, Option.filter_eq_some_iff]
  simp

theorem any_writeFor_iff (entries : List String) :
    (entries.filterMap (writeFor tagId)).any (· != "") = true ↔
      ∃ entry ∈ entries, Overrides tagId entry := by
  simp only [overrides_iff, List.any_eq_true, List.mem_filterMap, bne_iff_ne]
  constructor
  · rintro ⟨wordOrder, ⟨entry, hentry, hwrite⟩, hne⟩
    exact ⟨entry, hentry, wordOrder, hwrite, hne⟩
  · rintro ⟨entry, hentry, wordOrder, hwrite, hne⟩
    exact ⟨wordOrder, ⟨entry, hentry, hwrite⟩, hne⟩

end lookups

/-- Malformed entries have no effect exactly where no blank one wipes out an override. -/
theorem skipsMalformed_iff_unblanked (raw : String) :
    SkipsMalformed raw ↔ Unblanked (splitAt ',' raw) := by
  have htag (tagId : ℤ) := getLast?_filter_iff (writeFor tagId) (· != "") (splitAt ',' raw)
  simp only [SkipsMalformed, lookup_parse, wellFormedOverrides_eq, htag, any_writeFor_iff,
    writeFor_eq_some]
  constructor
  · intro h before entry after hsplit tagId hblank
    exact h tagId before entry after hsplit "" hblank (by simp)
  · intro h tagId before entry after hsplit wordOrder hwrite hblank
    obtain rfl : wordOrder = "" := by simpa using hblank
    exact h before entry after hsplit tagId hwrite

/-- A blank entry behind a well-formed one for the same tag takes the override away. -/
theorem blank_entry_wipes_override : ¬ ∀ raw, SkipsMalformed raw := by
  intro h
  have hlookup := h "23:swapped,23:" 23
  revert hlookup
  decide +kernel

end SenseGateway.Configuration

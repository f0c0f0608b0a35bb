import Mathlib.Data.List.SplitBy
import Mathlib.Data.List.TakeWhile

namespace SenseGateway.Texts

variable {α β : Type} {p : α → Bool}

/-- The maximal runs of elements between separators. -/
def wordsBy (p : α → Bool) (cs : List α) : List (List α) := (cs.splitOnP p).filter fun w => !w.isEmpty

theorem wordsBy_append_cons (xs : List α) {sep : α} (h : p sep = true) (ys : List α) :
    wordsBy p (xs ++ sep :: ys) = wordsBy p xs ++ wordsBy p ys := by
  rw [wordsBy, List.splitOnP_append_cons xs ys h, List.filter_append]
  rfl

theorem wordsBy_cons {sep : α} (h : p sep = true) (ys : List α) :
    wordsBy p (sep :: ys) = wordsBy p ys := wordsBy_append_cons [] h ys

theorem wordsBy_of_forall_not {w : List α} (hw : w ≠ []) (h : ∀ c ∈ w, p c = false) :
    wordsBy p w = [w] := by
  rw [wordsBy, List.splitOnP_eq_singleton h]
  simpa using hw

/-- Separators ahead of a text are not part of any word. -/
theorem wordsBy_append_of_forall {xs : List α} (h : ∀ c ∈ xs, p c = true) (ys : List α) :
    wordsBy p (xs ++ ys) = wordsBy p ys := by
  induction xs with
  | nil => rfl
  | cons x xs ih =>
    rw [List.cons_append, wordsBy_cons (h x List.mem_cons_self)]
    exact ih fun c hc => h c (List.mem_cons_of_mem _ hc)

theorem not_sep_of_mem_wordsBy {cs w : List α} (h : w ∈ wordsBy p cs) : ∀ c ∈ w, p c = false := by
  replace h := (List.mem_filter.mp h).1
  induction cs generalizing w with
  | nil =>
    obtain rfl : w = [] := by simpa using h
    exact fun _ => nofun
  | cons c cs ih =>
    rw [List.splitOnP_cons_eq_if_modifyHead] at h
    by_cases hc : p c = true
    · rw [if_pos hc, List.mem_cons] at h
      rcases h with rfl | h
      · exact fun _ => nofun
      · exact ih h
    · obtain ⟨first, rest, hsplit⟩ := List.exists_cons_of_ne_nil (List.splitOnP_ne_nil p cs)
      rw [if_neg hc, hsplit, List.modifyHead_cons, List.mem_cons] at h
      rcases h with rfl | h
      · intro d hd
        rcases List.mem_cons.mp hd with rfl | hd
        · simpa using hc
        · exact ih (hsplit ▸ List.mem_cons_self) d hd
      · exact ih (hsplit ▸ List.mem_cons_of_mem _ h)

section flatMap

variable {q : β → Bool} {f : α → List β}

theorem splitOnP_append_of_forall_not {xs : List α} (h : ∀ c ∈ xs, p c = false) (ys : List α) :
    (xs ++ ys).splitOnP p = (ys.splitOnP p).modifyHead (xs ++ ·) := by
  induction xs with
  | nil =>
    rw [List.nil_append]
    cases ys.splitOnP p <;> rfl
  | cons x xs ih =>
    rw [List.cons_append, List.splitOnP_cons_eq_if_modifyHead, if_neg (by simp [h x List.mem_cons_self]),
      ih fun c hc => h c (List.mem_cons_of_mem _ hc)]
    cases ys.splitOnP p <;> rfl

/-- A translation of characters that keeps separators and the others apart works word by word. -/
theorem splitOnP_flatMap (hsep : ∀ c, p c = true → ∃ d, f c = [d] ∧ q d = true)
    (hother : ∀ c, p c = false → ∀ d ∈ f c, q d = false) (cs : List α) :
    (cs.flatMap f).splitOnP q = (cs.splitOnP p).map (List.flatMap f) := by
  induction cs with
  | nil => rfl
  | cons c cs ih =>
    rw [List.flatMap_cons, List.splitOnP_cons_eq_if_modifyHead]
    by_cases hc : p c = true
    · obtain ⟨d, hd, hq⟩ := hsep c hc
      rw [hd, List.singleton_append, List.splitOnP_cons_eq_if_modifyHead, if_pos hq, if_pos hc, ih]
      rfl
    · rw [splitOnP_append_of_forall_not (hother c (by simpa using hc)), if_neg hc, ih]
      cases cs.splitOnP p <;> rfl

theorem wordsBy_flatMap (hsep : ∀ c, p c = true → ∃ d, f c = [d] ∧ q d = true)
    (hother : ∀ c, p c = false → ∀ d ∈ f c, q d = false) (hne : ∀ c, f c ≠ []) (cs : List α) :
    wordsBy q (cs.flatMap f) = (wordsBy p cs).map (List.flatMap f) := by
  rw [wordsBy, splitOnP_flatMap hsep hother, wordsBy, List.filter_map]
  refine congrArg _ (List.filter_congr fun w _ => ?_)
  cases w with
  | nil => rfl
  | cons c w => simp [hne c]

end flatMap

section groups

variable {c : α} {cs : List α}

theorem class_of_mem_run {d : α} (h : d ∈ c :: cs.takeWhile fun d => p c == p d) : p d = p c := by
  rcases List.mem_cons.mp h with rfl | h
  · rfl
  · have hsame : (p c == p d) = true := List.mem_takeWhile_imp (p := fun d => p c == p d) h
    exact (beq_iff_eq.mp hsame).symm

theorem class_of_head?_rest {d : α} (h : d ∈ (cs.dropWhile fun d => p c == p d).head?) :
    (p c == p d) = false := by
  have hhead := List.head?_dropWhile_not (fun d => p c == p d) cs
  rw [show (cs.dropWhile fun d => p c == p d).head? = some d from h] at hhead
  exact hhead

/-- The first run of a class ends where the class changes. -/
theorem splitBy_cons (p : α → Bool) (c : α) (cs : List α) :
    (c :: cs).splitBy (fun a b => p a == p b) =
      (c :: cs.takeWhile fun d => p c == p d) ::
        (cs.dropWhile fun d => p c == p d).splitBy fun a b => p a == p b := by
  have hcs : c :: cs = (c :: cs.takeWhile fun d => p c == p d) ++ cs.dropWhile fun d => p c == p d :=
    congrArg (c :: ·) List.takeWhile_append_dropWhile.symm
  have hrun : (c :: cs.takeWhile fun d => p c == p d).splitBy (fun a b => p a == p b) =
      [c :: cs.takeWhile fun d => p c == p d] := by
    refine List.splitBy_of_isChain (List.cons_ne_nil _ _) (List.Pairwise.isChain ?_)
    refine List.pairwise_of_forall_mem_list fun a ha b hb => ?_
    rw [class_of_mem_run ha, class_of_mem_run hb]
    exact beq_self_eq_true _
  conv_lhs => rw [hcs]
  rw [List.splitBy_append, hrun, List.singleton_append]
  intro a ha b hb
  rw [class_of_mem_run (List.mem_of_mem_getLast? ha)]
  exact class_of_head?_rest hb

/-- Grouping a text into runs of separators and runs of others finds the same words. -/
theorem filter_splitBy (p : α → Bool) (cs : List α) :
    (cs.splitBy fun a b => p a == p b).filter (fun w => !w.any p) = wordsBy p cs := by
  induction hn : cs.length using Nat.strong_induction_on generalizing cs with
  | _ n ih =>
    cases cs with
    | nil => rfl
    | cons c cs =>
      have hlength : (cs.dropWhile fun d => p c == p d).length < n := by
        rw [← hn]
        exact Nat.lt_succ_of_le (List.length_dropWhile_le _ cs)
      have hrest := ih _ hlength (cs.dropWhile fun d => p c == p d) rfl
      have hcs : c :: cs =
          (c :: cs.takeWhile fun d => p c == p d) ++ cs.dropWhile fun d => p c == p d :=
        congrArg (c :: ·) List.takeWhile_append_dropWhile.symm
      rw [splitBy_cons, List.filter_cons, hrest]
      conv_rhs => rw [hcs]
      cases hc : p c with
      | true =>
        have hall : ∀ d ∈ c :: cs.takeWhile fun d => p c == p d, p d = true :=
          fun d hd => (class_of_mem_run hd).trans hc
        rw [hc] at hall
        rw [wordsBy_append_of_forall hall, if_neg]
        simp [hc]
      | false =>
        have hall : ∀ d ∈ c :: cs.takeWhile fun d => p c == p d, p d = false :=
          fun d hd => (class_of_mem_run hd).trans hc
        rw [hc] at hall
        rw [if_pos (by simpa using hall)]
        cases hr : cs.dropWhile fun d => false == p d with
        | nil =>
          rw [List.append_nil, wordsBy_of_forall_not (List.cons_ne_nil _ _) hall]
          rfl
        | cons d rest =>
          have hd : p d = true := by
            have hhead : d ∈ (cs.dropWhile fun d => p c == p d).head? := by rw [hc, hr]; rfl
            have hborder : (p c == p d) = false := class_of_head?_rest hhead
            simpa [hc] using hborder
          rw [wordsBy_append_cons _ hd, wordsBy_of_forall_not (List.cons_ne_nil _ _) hall,
            wordsBy_cons hd]
          rfl

end groups

theorem map_intercalate (f : α → β) (sep : List α) (xs : List (List α)) :
    (sep.intercalate xs).map f = (sep.map f).intercalate (xs.map (List.map f)) := by
  induction xs with
  | nil => rfl
  | cons x xs ih =>
    cases xs with
    | nil => simp
    | cons y xs =>
      rw [List.map_cons] at ih ⊢
      rw [List.map_cons, List.intercalate_cons_cons, List.intercalate_cons_cons, List.map_append,
        List.map_append, ih]

end SenseGateway.Texts

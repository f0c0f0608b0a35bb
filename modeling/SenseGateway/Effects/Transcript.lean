import Mathlib.Data.List.TakeWhile
import SenseGateway.Effects.Prog

namespace SenseGateway.Effects

section stretches

variable {α : Type} {starts stops : α → Bool} {l l₁ l₂ : List α}

/-- The stretches of a list that begin at an element of `starts` and end before the next one of
`stops`. -/
def stretches (starts stops : α → Bool) : List α → List (List α)
  | [] => []
  | a :: l =>
    if starts a then (a :: l.takeWhile (!stops ·)) :: stretches starts stops l
    else stretches starts stops l

theorem stretches_append_of_none (h : ∀ a ∈ l₁, starts a = false) :
    stretches starts stops (l₁ ++ l₂) = stretches starts stops l₂ := by
  induction l₁ with
  | nil => rfl
  | cons a l₁ ih =>
    have ha := h a List.mem_cons_self
    rw [List.cons_append, stretches, if_neg (by simp [ha])]
    exact ih fun b hb => h b (List.mem_cons_of_mem _ hb)

theorem stretches_eq_nil (h : ∀ a ∈ l, starts a = false) : stretches starts stops l = [] := by
  rw [← List.append_nil l]
  exact stretches_append_of_none h

theorem takeWhile_append_of_head {p : α → Bool} (h : ∀ a ∈ l₂.head?, p a = false) :
    (l₁ ++ l₂).takeWhile p = l₁.takeWhile p := by
  induction l₁ with
  | nil =>
    cases l₂ with
    | nil => rfl
    | cons a l₂ => exact List.takeWhile_cons_of_neg (by simp [h a rfl])
  | cons a l₁ ih => simp only [List.cons_append, List.takeWhile_cons, ih]

/-- A list that goes on with a stop adds stretches of its own and leaves the others alone. -/
theorem stretches_append (h : ∀ a ∈ l₂.head?, stops a) :
    stretches starts stops (l₁ ++ l₂) = stretches starts stops l₁ ++ stretches starts stops l₂ := by
  induction l₁ with
  | nil => rfl
  | cons a l₁ ih =>
    have htake : (l₁ ++ l₂).takeWhile (!stops ·) = l₁.takeWhile (!stops ·) :=
      takeWhile_append_of_head fun b hb => by simp [h b hb]
    rw [List.cons_append, stretches, stretches, htake, ih]
    split
    · rfl
    · rfl

theorem stretches_cons {a : α} (ha : starts a) (hl : ∀ b ∈ l, stops b = false)
    (hstarts : ∀ b, starts b → stops b) : stretches starts stops (a :: l) = [a :: l] := by
  have hnone : stretches starts stops l = [] := by
    refine stretches_eq_nil fun b hb => ?_
    have hb' := hl b hb
    by_contra hs
    simp [hstarts b (by simpa using hs)] at hb'
  have htake : l.takeWhile (!stops ·) = l :=
    List.takeWhile_eq_self_iff.mpr fun b hb => by simp [hl b hb]
  rw [stretches, if_pos ha, hnone, htake]

/-- A list that is put together from stretches is taken apart into them. -/
theorem stretches_flatten {ls : List (List α)} (hstarts : ∀ b, starts b → stops b)
    (h : ∀ l ∈ ls, ∃ a rest, l = a :: rest ∧ starts a ∧ ∀ b ∈ rest, stops b = false) :
    stretches starts stops ls.flatten = ls := by
  induction ls with
  | nil => rfl
  | cons l ls ih =>
    have hls := ih fun l' hl' => h l' (List.mem_cons_of_mem _ hl')
    obtain ⟨a, rest, rfl, ha, hrest⟩ := h l List.mem_cons_self
    have hhead : ∀ b ∈ ls.flatten.head?, stops b := by
      cases ls with
      | nil => simp
      | cons l' ls =>
        obtain ⟨b, rest', rfl, hb, -⟩ := h l' (by simp)
        simpa using hstarts b hb
    rw [List.flatten_cons, stretches_append hhead, stretches_cons ha hrest hstarts, hls]
    rfl

end stretches

/-- What the surroundings of a program may answer in each state that they can be in, and the state
they are in after the answer. -/
structure Surroundings (I : Interface) (L : Type) where
  answers : L → (o : I.Op) → I.Answer o → Prop
  next : L → (o : I.Op) → I.Answer o → L

namespace Surroundings

variable {I : Interface} {L : Type} (S : Surroundings I L)

def after (l : L) (es : List (Event I)) : L := es.foldl (fun l e => S.next l e.op e.answer) l

/-- Every answer of the list is one that may be given where it is given. -/
def Answers : L → List (Event I) → Prop
  | _, [] => True
  | l, e :: es => S.answers l e.op e.answer ∧ Answers (S.next l e.op e.answer) es

theorem after_append (l : L) (es es' : List (Event I)) :
    S.after l (es ++ es') = S.after (S.after l es) es' := List.foldl_append

theorem answers_append (l : L) (es es' : List (Event I)) :
    S.Answers l (es ++ es') ↔ S.Answers l es ∧ S.Answers (S.after l es) es' := by
  induction es generalizing l with
  | nil => exact (true_and _).symm.to_iff
  | cons e es ih =>
    show _ ∧ S.Answers _ (es ++ es') ↔ (_ ∧ S.Answers _ es) ∧ _
    rw [ih, and_assoc]
    rfl

end Surroundings

end SenseGateway.Effects

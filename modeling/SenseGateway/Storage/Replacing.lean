import Mathlib.Data.List.Infix
import Mathlib.Logic.Function.Basic

namespace SenseGateway.Storage

variable {α R : Type}

/-- The files of a disk by number, what they contain, and the two names a writer uses: one that is
shared with the readers, and one for the file it is writing. -/
structure Disk (α : Type) where
  contents : ℕ → List α
  unused : ℕ
  shared : Option ℕ
  temporary : Option ℕ

/-- A write under way: the open file, the whole text, and what is not written yet. -/
structure Write (α : Type) where
  file : ℕ
  text : List α
  rest : List α

/-- A read under way: the open file, and what has been read of it. -/
structure Read (α : Type) where
  file : ℕ
  got : List α

/-- A disk with one writer at a time and any number of readers. -/
structure World (α R : Type) where
  disk : Disk α
  writing : Option (Write α)
  reading : R → Option (Read α)

/-- What others can see of a step. -/
inductive Event (α R : Type)
  | silent
  | published (text : List α)
  | opened (r : R)
  | finished (r : R) (bytes : List α)

namespace Disk

/-- Opening the temporary file for writing empties it, or makes a new one. -/
def openTemporary (d : Disk α) : ℕ × Disk α :=
  match d.temporary with
  | some f => (f, { d with contents := Function.update d.contents f [] })
  | none =>
    (d.unused, { d with
      contents := Function.update d.contents d.unused []
      unused := d.unused + 1
      temporary := some d.unused })

def append (d : Disk α) (f : ℕ) (chunk : List α) : Disk α :=
  { d with contents := Function.update d.contents f (d.contents f ++ chunk) }

/-- The temporary file gets the shared name. -/
def replace (d : Disk α) (f : ℕ) : Disk α := { d with shared := some f, temporary := none }

end Disk

variable [DecidableEq R]

/-- One step of the writer or of a reader. A write can stop anywhere, be it by an error or because
the writer is gone, and leaves the temporary file as it is. -/
inductive Step : World α R → Event α R → World α R → Prop
  | start {w} (text : List α) : w.writing = none →
      Step w .silent ⟨w.disk.openTemporary.2, some ⟨w.disk.openTemporary.1, text, text⟩, w.reading⟩
  | append {w f text} (chunk rest : List α) : w.writing = some ⟨f, text, chunk ++ rest⟩ →
      Step w .silent ⟨w.disk.append f chunk, some ⟨f, text, rest⟩, w.reading⟩
  | publish {w f text} : w.writing = some ⟨f, text, []⟩ →
      Step w (.published text) ⟨w.disk.replace f, none, w.reading⟩
  | abandon {w} : Step w .silent ⟨w.disk, none, w.reading⟩
  | open {w f} (r : R) : w.disk.shared = some f →
      Step w (.opened r) ⟨w.disk, w.writing, Function.update w.reading r (some ⟨f, []⟩)⟩
  | read {w f got} (r : R) (n : ℕ) : w.reading r = some ⟨f, got⟩ →
      Step w .silent ⟨w.disk, w.writing, Function.update w.reading r
        (some ⟨f, got ++ ((w.disk.contents f).drop got.length).take n⟩)⟩
  | finish {w f got} (r : R) : w.reading r = some ⟨f, got⟩ →
      (w.disk.contents f).drop got.length = [] →
      Step w (.finished r got) ⟨w.disk, w.writing, Function.update w.reading r none⟩
  | giveUp {w} (r : R) : Step w .silent ⟨w.disk, w.writing, Function.update w.reading r none⟩

inductive Run : World α R → List (Event α R) → World α R → Prop
  | refl (w) : Run w [] w
  | snoc {w es v e u} : Run w es v → Step v e u → Run w (es ++ [e]) u

/-- What the shared name is for: a register that holds a text as a whole, or nothing, and what each
reader found in it. -/
structure Register (α R : Type) where
  value : Option (List α)
  seen : R → Option (List α)

def Register.next (g : Register α R) : Event α R → Register α R
  | .published text => { g with value := some text }
  | .opened r => { g with seen := Function.update g.seen r g.value }
  | _ => g

def Register.after (g : Register α R) (es : List (Event α R)) : Register α R := es.foldl next g

/-- The disk at the start: the shared file, if there is one, holds a text as a whole, and nothing is
being written or read. A temporary file may be left over. -/
structure Quiet (w : World α R) : Prop where
  distinct : ∀ f, w.disk.temporary = some f → w.disk.shared ≠ some f
  used : ∀ f, w.disk.temporary = some f ∨ w.disk.shared = some f → f < w.disk.unused
  writing : w.writing = none
  reading : ∀ r, w.reading r = none

/-- The register the disk stands for. -/
def World.register (w : World α R) : Register α R := ⟨w.disk.shared.map w.disk.contents, fun _ => none⟩

/-- The disk holds what the register does, and no file that is shared or being read is written. -/
structure Implements (g : Register α R) (w : World α R) : Prop where
  value : w.disk.shared.map w.disk.contents = g.value
  shared : ∀ f, w.disk.shared = some f → f < w.disk.unused ∧ w.disk.temporary ≠ some f
  temporary : ∀ f, w.disk.temporary = some f → f < w.disk.unused
  writing : ∀ a ∈ w.writing, w.disk.temporary = some a.file ∧ w.disk.contents a.file ++ a.rest = a.text
  reading : ∀ r, ∀ b ∈ w.reading r, b.file < w.disk.unused ∧ w.disk.temporary ≠ some b.file ∧
    b.got <+: w.disk.contents b.file ∧ g.seen r = some (w.disk.contents b.file)

omit [DecidableEq R] in
theorem Quiet.implements {w : World α R} (h : Quiet w) : Implements w.register w where
  value := rfl
  shared f hf := ⟨h.used f (.inr hf), fun htemp => h.distinct f htemp hf⟩
  temporary f hf := h.used f (.inl hf)
  writing a ha := by simp [h.writing] at ha
  reading r b hb := by simp [h.reading r] at hb

/-- The file that is written is the temporary one, and new to everybody else. -/
theorem openTemporary_spec (d : Disk α) (htemp : ∀ f, d.temporary = some f → f < d.unused) :
    d.openTemporary.2.temporary = some d.openTemporary.1 ∧ d.openTemporary.2.shared = d.shared ∧
      d.openTemporary.2.contents d.openTemporary.1 = [] ∧ d.unused ≤ d.openTemporary.2.unused ∧
      d.openTemporary.1 < d.openTemporary.2.unused ∧
      ∀ f, f < d.unused → d.temporary ≠ some f →
        f ≠ d.openTemporary.1 ∧ d.openTemporary.2.contents f = d.contents f := by
  unfold Disk.openTemporary
  cases h : d.temporary with
  | some t =>
    refine ⟨rfl, rfl, Function.update_self _ _ _, le_rfl, htemp t h, fun f _ hne => ?_⟩
    have hft : f ≠ t := fun heq => hne (congrArg some heq.symm)
    exact ⟨hft, Function.update_of_ne hft _ _⟩
  | none =>
    refine ⟨rfl, rfl, Function.update_self _ _ _, Nat.le_succ _, Nat.lt_succ_self _, fun f hf _ => ?_⟩
    have hfu : f ≠ d.unused := Nat.ne_of_lt hf
    exact ⟨hfu, Function.update_of_ne hfu _ _⟩

section implements

variable {g : Register α R} {w : World α R}

omit [DecidableEq R] in
theorem Implements.start (h : Implements g w) (text : List α) :
    Implements g ⟨w.disk.openTemporary.2, some ⟨w.disk.openTemporary.1, text, text⟩, w.reading⟩ := by
  obtain ⟨htemp, hshared, hempty, hle, hlt, hother⟩ := openTemporary_spec w.disk h.temporary
  refine ⟨?_, ?_, ?_, ?_, ?_⟩
  · dsimp only
    rw [hshared, ← h.value]
    cases hs : w.disk.shared with
    | none => rfl
    | some f => exact congrArg some (hother f (h.shared f hs).1 (h.shared f hs).2).2
  · intro f hf
    dsimp only at hf ⊢
    rw [hshared] at hf
    obtain ⟨hused, hne⟩ := h.shared f hf
    rw [htemp]
    exact ⟨hused.trans_le hle, fun heq => (hother f hused hne).1 (Option.some.inj heq).symm⟩
  · intro f hf
    dsimp only at hf
    rw [htemp] at hf
    obtain rfl := Option.some.inj hf
    exact hlt
  · intro a ha
    obtain rfl := Option.some.inj ha
    exact ⟨htemp, by dsimp only; rw [hempty, List.nil_append]⟩
  · intro r b hb
    obtain ⟨hused, hne, hprefix, hseen⟩ := h.reading r b hb
    obtain ⟨hfile, hcontents⟩ := hother b.file hused hne
    dsimp only
    rw [hcontents, htemp]
    exact ⟨hused.trans_le hle, fun heq => hfile (Option.some.inj heq).symm, hprefix, hseen⟩

omit [DecidableEq R] in
theorem Implements.append (h : Implements g w) {f : ℕ} {text chunk rest : List α}
    (hw : w.writing = some ⟨f, text, chunk ++ rest⟩) :
    Implements g ⟨w.disk.append f chunk, some ⟨f, text, rest⟩, w.reading⟩ := by
  obtain ⟨htemp, htext⟩ := h.writing _ hw
  dsimp only at htemp htext
  have hother {k : ℕ} (hk : w.disk.temporary ≠ some k) :
      (w.disk.append f chunk).contents k = w.disk.contents k :=
    Function.update_of_ne (fun heq : k = f => hk (heq ▸ htemp)) _ _
  refine ⟨?_, h.shared, h.temporary, ?_, ?_⟩
  · rw [← h.value]
    change w.disk.shared.map _ = _
    cases hs : w.disk.shared with
    | none => rfl
    | some k => exact congrArg some (hother (h.shared k hs).2)
  · intro a ha
    obtain rfl := Option.some.inj ha
    have hself : (w.disk.append f chunk).contents f = w.disk.contents f ++ chunk :=
      Function.update_self _ _ _
    exact ⟨htemp, by dsimp only; rw [hself, List.append_assoc, htext]⟩
  · intro r b hb
    obtain ⟨hused, hne, hprefix, hseen⟩ := h.reading r b hb
    dsimp only
    rw [hother hne]
    exact ⟨hused, hne, hprefix, hseen⟩

theorem Implements.publish (h : Implements g w) {f : ℕ} {text : List α}
    (hw : w.writing = some ⟨f, text, []⟩) :
    Implements (g.next (.published text)) ⟨w.disk.replace f, none, w.reading⟩ := by
  obtain ⟨htemp, htext⟩ := h.writing _ hw
  dsimp only at htemp htext
  rw [List.append_nil] at htext
  refine ⟨congrArg some htext, ?_, nofun, nofun, ?_⟩
  · intro k hk
    obtain rfl := Option.some.inj hk
    exact ⟨h.temporary f htemp, nofun⟩
  · -- whoever has the old file open goes on reading it
    intro r b hb
    obtain ⟨hused, -, hprefix, hseen⟩ := h.reading r b hb
    exact ⟨hused, nofun, hprefix, hseen⟩

/-- A reader may be in any state that has read a part of the file it saw. -/
theorem Implements.setReading (h : Implements g w) (r : R) {seen : R → Option (List α)}
    (hseen : ∀ s, s ≠ r → seen s = g.seen s) {read : Option (Read α)}
    (hread : ∀ b ∈ read, b.file < w.disk.unused ∧ w.disk.temporary ≠ some b.file ∧
      b.got <+: w.disk.contents b.file ∧ seen r = some (w.disk.contents b.file)) :
    Implements ⟨g.value, seen⟩ ⟨w.disk, w.writing, Function.update w.reading r read⟩ := by
  refine ⟨h.value, h.shared, h.temporary, h.writing, fun s b hb => ?_⟩
  by_cases hs : s = r
  · subst hs
    dsimp only at hb
    rw [Function.update_self] at hb
    exact hread b hb
  · dsimp only at hb ⊢
    rw [Function.update_of_ne hs] at hb
    rw [hseen s hs]
    exact h.reading s b hb

/-- A step of the disk is one of the register, and whoever is done has read what it saw. -/
theorem Implements.step (h : Implements g w) {e : Event α R} {v : World α R} (hs : Step w e v) :
    Implements (g.next e) v ∧ ∀ r bytes, e = .finished r bytes → g.seen r = some bytes := by
  cases hs with
  | start text => exact ⟨h.start text, nofun⟩
  | append chunk rest hw => exact ⟨h.append hw, nofun⟩
  | publish hw => exact ⟨h.publish hw, nofun⟩
  | abandon => exact ⟨⟨h.value, h.shared, h.temporary, nofun, h.reading⟩, nofun⟩
  | @«open» f r hf =>
    refine ⟨h.setReading r (fun s hs => Function.update_of_ne hs _ _) fun b hb => ?_, nofun⟩
    obtain rfl := Option.some.inj hb
    obtain ⟨hused, hne⟩ := h.shared f hf
    refine ⟨hused, hne, List.nil_prefix, ?_⟩
    rw [Function.update_self, ← h.value, hf]
    rfl
  | @read f got r n hr =>
    obtain ⟨hused, hne, hprefix, hseen⟩ := h.reading r _ hr
    refine ⟨h.setReading r (fun _ _ => rfl) fun b hb => ?_, nofun⟩
    obtain rfl := Option.some.inj hb
    refine ⟨hused, hne, ?_, hseen⟩
    obtain ⟨rest, hrest⟩ := hprefix
    dsimp only at hrest ⊢
    rw [← hrest, List.drop_left, List.prefix_append_right_inj]
    exact List.take_prefix n rest
  | @finish f got r hr hend =>
    obtain ⟨-, -, hprefix, hseen⟩ := h.reading r _ hr
    refine ⟨h.setReading r (fun _ _ => rfl) nofun, fun s bytes heq => ?_⟩
    obtain ⟨rfl, rfl⟩ := Event.finished.inj heq
    -- nothing is left of the file, so what was got is all of it
    obtain ⟨rest, hrest⟩ := hprefix
    dsimp only at hrest hseen
    rw [← hrest, List.drop_left] at hend
    rw [hseen, ← hrest, hend, List.append_nil]
  | giveUp r => exact ⟨h.setReading r (fun _ _ => rfl) nofun, nofun⟩

end implements

theorem Run.implements {g : Register α R} {w v : World α R} {es : List (Event α R)} (hr : Run w es v)
    (h : Implements g w) : Implements (g.after es) v := by
  induction hr with
  | refl => exact h
  | snoc _ hs ih =>
    rw [Register.after, List.foldl_append]
    exact (ih.step hs).1

/-- Every reader that gets to the end of the file has read the text that had the shared name when it
opened it, as a whole. -/
theorem Run.finished {w v : World α R} {es : List (Event α R)} (hr : Run w es v) (hw : Quiet w)
    {before : List (Event α R)} {r : R} {bytes : List α} (h : before ++ [.finished r bytes] <+: es) :
    (w.register.after before).seen r = some bytes := by
  induction hr with
  | refl => exact absurd (List.eq_nil_of_prefix_nil h) (by simp)
  | snoc hr hs ih =>
    rcases List.prefix_concat_iff.mp h with heq | h
    · obtain ⟨rfl, rfl⟩ := List.append_inj' heq rfl |>.imp id List.singleton_inj.mp
      exact ((hr.implements hw.implements).step hs).2 r bytes rfl
    · exact ih h

/-- A shared file that is there stays there. -/
theorem Run.shared {w v : World α R} {es : List (Event α R)} (hr : Run w es v)
    (h : w.disk.shared.isSome = true) : v.disk.shared.isSome = true := by
  induction hr with
  | refl => exact h
  | snoc _ hs ih =>
    cases hs with
    | start text _ =>
      dsimp only
      unfold Disk.openTemporary
      split <;> exact ih
    | publish => rfl
    | _ => exact ih

/-- What a reader sees is what was published last before it opened the file. -/
theorem Register.seen_after (g : Register α R) {before between : List (Event α R)} {r : R}
    (h : .opened r ∉ between) :
    (g.after (before ++ .opened r :: between)).seen r = (g.after before).value := by
  have hkeep (k : Register α R) : (k.after between).seen r = k.seen r := by
    induction between generalizing k with
    | nil => rfl
    | cons e es ih =>
      obtain ⟨hne, hrest⟩ := not_or.mp (List.mem_cons.not.mp h)
      refine (ih hrest _).trans ?_
      cases e with
      | opened s =>
        have hsr : r ≠ s := fun heq => hne (heq ▸ rfl)
        exact Function.update_of_ne hsr _ _
      | _ => rfl
  rw [Register.after, List.foldl_append, List.foldl_cons]
  refine (hkeep _).trans ?_
  exact Function.update_self _ _ _

end SenseGateway.Storage

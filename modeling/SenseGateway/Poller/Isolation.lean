import Mathlib.Data.List.TakeWhile
import SenseGateway.Poller.Timetable

namespace SenseGateway.Poller

open Python Effects

/-- What is scheduled for a tag does not depend on the other tags. -/
theorem turn_withTags (fields : List (String × Json)) (tags : List Json) (tag : Json) :
    turn (withTags fields tags) tag = turn (.obj fields) tag := by
  have hid : (withTags fields tags).item "id" = (Json.obj fields).item "id" := by
    simp [withTags, Json.item, Json.lookup]
  simp only [turn, hid]

/-- A run of `run_device` that connects, by a history of polls and at a time. -/
structure Polls (settings : Settings) (device : Json) (times : LastPollTimes) (currentTime : PyFloat)
    (es : List (Event calls)) : Prop where
  ran : ∃ out, Prog.Trace (runDevice settings device) es (some out)
  connected : Connected es
  answered : AnsweredFrom times es
  clock : ∀ time, (⟨.monotonic, time⟩ : Event calls) ∈ es → time = currentTime

/-- A list of tags, each of them with a mark that tells the faulty ones. -/
abbrev MarkedTags := List (Json × Bool)

namespace MarkedTags

variable (entries : MarkedTags)

def all : List Json := entries.map Prod.fst

def sound : List Json := (entries.filter fun entry => !entry.2).map Prod.fst

/-- Every tag whose turn raises is marked: one that is no object, whose id is missing or no integer,
or whose interval is no number. -/
def MarksMalformed (fields : List (String × Json)) : Prop :=
  ∀ entry ∈ entries, (∃ e, turn (.obj fields) entry.1 = .error e) → entry.2 = true

/-- The faulty tags make no difference to which tags are attempted among the others that are
enabled. -/
def SameAttempts (fields : List (String × Json)) (es es' : List (Event calls)) : Prop :=
  ∀ tag ∈ entries.sound, ∀ key interval, turn (.obj fields) tag = .ok (some (key, interval)) →
    (key ∈ (attempts es).map Prod.fst ↔ key ∈ (attempts es').map Prod.fst)

/-- No sound tag that is due stands behind a malformed one, unless a tag of its id that is due stands
ahead of it; and no faulty tag ahead of the malformed ones is due under the id of sound tags of which
none is. -/
structure Unhindered (fields : List (String × Json)) (times : LastPollTimes) (currentTime : PyFloat) :
    Prop where
  ahead : ∀ tag ∈ entries.sound, ∀ key, Due times currentTime (.obj fields) key tag →
    ∃ tag' ∈ reached (.obj fields) entries.all, Due times currentTime (.obj fields) key tag'
  own : ∀ entry ∈ entries, entry.2 = true → entry.1 ∈ reached (.obj fields) entries.all →
    ∀ key, Due times currentTime (.obj fields) key entry.1 →
      ∀ tag ∈ entries.sound, ∀ interval, turn (.obj fields) tag = .ok (some (key, interval)) →
        ∃ tag' ∈ entries.sound, Due times currentTime (.obj fields) key tag'

variable {entries} {fields : List (String × Json)} {times : LastPollTimes} {currentTime : PyFloat}

theorem mem_sound {tag : Json} : tag ∈ entries.sound ↔ (tag, false) ∈ entries := by
  simp [sound]

theorem mem_all {tag : Json} : tag ∈ entries.all ↔ ∃ faulty, (tag, faulty) ∈ entries := by
  simp [all]

/-- No tag of a list without malformed ones is out of reach. -/
theorem reached_sound (h : entries.MarksMalformed fields) :
    reached (.obj fields) entries.sound = entries.sound := by
  apply List.takeWhile_eq_self_iff.mpr
  intro tag htag
  cases hturn : turn (.obj fields) tag with
  | ok _ => rfl
  | error e => cases h _ (mem_sound.mp htag) ⟨e, hturn⟩

theorem mem_of_reached {device tag : Json} {tags : List Json} (h : tag ∈ reached device tags) :
    tag ∈ tags := (List.takeWhile_sublist _).subset h

end MarkedTags

theorem Due.turn {times : LastPollTimes} {currentTime : PyFloat} {device tag : Json} {key : ℤ × ℤ}
    (h : Due times currentTime device key tag) :
    ∃ interval, turn device tag = .ok (some (key, interval)) := by
  obtain ⟨interval, hturn, -⟩ := h
  exact ⟨interval, hturn⟩

/-- The keys a run attempts that connects. -/
theorem Polls.attempts_iff {settings : Settings} {fields : List (String × Json)} {tags : List Json}
    {times : LastPollTimes} {currentTime : PyFloat} {es : List (Event calls)}
    (h : Polls settings (withTags fields tags) times currentTime es) (key : ℤ × ℤ) :
    key ∈ (attempts es).map Prod.fst ↔
      ∃ tag ∈ reached (.obj fields) tags, Due times currentTime (.obj fields) key tag := by
  obtain ⟨out, htrace⟩ := h.ran
  obtain ⟨time, htime, hkeys, -⟩ := (runDevice_course htrace).attempts_due h.connected
    (tagsOf_withTags fields tags) h.answered
  obtain rfl := h.clock time htime
  rw [hkeys key]
  simp only [reached, Due, turn_withTags]

/-- With and without its faulty tags, a device attempts the same of the other tags exactly where the
faulty ones do not hinder them. -/
theorem sameAttempts_iff_unhindered {settings : Settings} {fields : List (String × Json)}
    {entries : MarkedTags} {times : LastPollTimes} {currentTime : PyFloat}
    {es es' : List (Event calls)} (hmarks : entries.MarksMalformed fields)
    (hall : Polls settings (withTags fields entries.all) times currentTime es)
    (hsound : Polls settings (withTags fields entries.sound) times currentTime es') :
    entries.SameAttempts fields es es' ↔ entries.Unhindered fields times currentTime := by
  have hall := hall.attempts_iff
  have hsound := hsound.attempts_iff
  rw [MarkedTags.reached_sound hmarks] at hsound
  constructor
  · intro hsame
    refine ⟨fun tag htag key hdue => ?_, fun entry hentry hfaulty hreached key hdue tag htag => ?_⟩
    · obtain ⟨interval, hturn⟩ := hdue.turn
      exact (hall key).mp ((hsame tag htag key interval hturn).mpr ((hsound key).mpr ⟨tag, htag, hdue⟩))
    · intro interval hturn
      exact (hsound key).mp ((hsame tag htag key interval hturn).mp
        ((hall key).mpr ⟨entry.1, hreached, hdue⟩))
  · rintro ⟨hahead, hown⟩ tag htag key interval hturn
    rw [hall, hsound]
    constructor
    · rintro ⟨tag', hreached, hdue⟩
      obtain ⟨faulty, hentry⟩ := MarkedTags.mem_all.mp (MarkedTags.mem_of_reached hreached)
      cases faulty with
      | false => exact ⟨tag', MarkedTags.mem_sound.mpr hentry, hdue⟩
      | true => exact hown _ hentry rfl hreached key hdue tag htag interval hturn
    · rintro ⟨tag', htag', hdue⟩
      exact hahead tag' htag' key hdue

theorem polls_timed {settings : Settings} {device : Json} {times : LastPollTimes}
    {currentTime : PyFloat} (h : Connected (timedEvents settings device times currentTime)) :
    Polls settings device times currentTime (timedEvents settings device times currentTime) where
  ran := by
    unfold timedEvents
    exact ⟨_, Prog.trace_events _ _ _⟩
  connected := h
  answered := answeredFrom_timed _ _ _
  clock _ := clock_timed

/-- A tag whose id was entered as a word. -/
def misnamedTag : Json := .obj [("id", .str "voltage"), ("register_address", .int 40)]

/-- The run over these tags when the clock shows 100 seconds. -/
def meterEvents (tags : List Json) : List (Event calls) :=
  timedEvents ⟨"", []⟩ (withTags meterFields tags) never (.finite 100)

theorem meterEvents_polls (tags : List Json) (h : Connected (meterEvents tags)) :
    Polls ⟨"", []⟩ (withTags meterFields tags) never (.finite 100) (meterEvents tags) :=
  polls_timed h

theorem turn_meterTag : turn (.obj meterFields) meterTag = .ok (some ((1, 7), .finite 2)) := rfl

theorem turn_misnamedTag : ∃ e, turn (.obj meterFields) misnamedTag = .error e := ⟨_, rfl⟩

theorem marksMalformed_sample {entries : MarkedTags}
    (h : entries ⊆ [(meterTag, false), (misnamedTag, true)]) :
    entries.MarksMalformed meterFields := by
  intro entry hentry herror
  obtain ⟨e, he⟩ := herror
  rcases List.mem_cons.mp (h hentry) with rfl | hentry
  · cases turn_meterTag.symm.trans he
  · rw [List.mem_singleton.mp hentry]

/-- A malformed tag at the end of the list hinders none. -/
theorem misnamed_last_unhindered :
    MarkedTags.SameAttempts [(meterTag, false), (misnamedTag, true)] meterFields
      (meterEvents [meterTag, misnamedTag]) (meterEvents [meterTag]) := by
  refine (sameAttempts_iff_unhindered (marksMalformed_sample (List.Subset.refl _))
    (meterEvents_polls _ (by decide +kernel)) (meterEvents_polls _ (by decide +kernel))).mpr ⟨?_, ?_⟩
  · intro tag htag key hdue
    obtain rfl : tag = meterTag := by simpa [MarkedTags.sound] using htag
    exact ⟨meterTag, List.mem_cons_self, hdue⟩
  · intro entry hentry hfaulty hreached key hdue
    obtain rfl : entry = (misnamedTag, true) := by
      rcases List.mem_cons.mp hentry with rfl | hentry
      · cases hfaulty
      · exact List.mem_singleton.mp hentry
    obtain ⟨interval, hturn⟩ := hdue.turn
    obtain ⟨e, he⟩ := turn_misnamedTag
    cases hturn.symm.trans he

/-- A malformed tag keeps the one behind it from being polled. -/
theorem misnamed_first_hinders :
    ¬ ∀ (settings : Settings) (fields : List (String × Json)) (entries : MarkedTags)
      (times : LastPollTimes) (currentTime : PyFloat) (es es' : List (Event calls)),
      entries.MarksMalformed fields →
      Polls settings (withTags fields entries.all) times currentTime es →
      Polls settings (withTags fields entries.sound) times currentTime es' →
      entries.SameAttempts fields es es' := by
  intro h
  have hsame := h _ _ [(misnamedTag, true), (meterTag, false)] _ _ _ _
    (marksMalformed_sample (by simp)) (meterEvents_polls [misnamedTag, meterTag] (by decide +kernel))
    (meterEvents_polls [meterTag] (by decide +kernel)) meterTag (by simp [MarkedTags.sound])
    (1, 7) _ turn_meterTag
  have hbehind : attempts (meterEvents [misnamedTag, meterTag]) = [] := by decide +kernel
  have halone : attempts (meterEvents [meterTag]) = [((1, 7), .finite 100)] := by decide +kernel
  rw [hbehind, halone] at hsame
  simp at hsame

end SenseGateway.Poller

import Mathlib.Data.List.Sort
import SenseGateway.Calendar.IsoText
import SenseGateway.Python.Value

namespace SenseGateway.History

open Python Calendar

/-- A row of `telemetry_history`. The table is the list of its rows in the order of their ids. -/
structure Row where
  deviceId : ℤ
  tagId : ℤ
  value : PyFloat
  quality : String
  sourceTimestamp : String
  createdAt : String
  deriving DecidableEq, Repr

/-- The columns `get_recent_readings` selects. -/
structure Reading where
  value : PyFloat
  quality : String
  sourceTimestamp : String
  deriving DecidableEq, Repr

def historyRetentionDays : ℕ := 30

def utcNowIso (now : DateTime) : String := now.isoformat

/-- The new rows, or what SQLite raises; a NaN it stores as NULL. -/
def recordReading (now : DateTime) (deviceId tagId : ℤ) (value : PyFloat)
    (quality sourceTimestamp : String) (rows : List Row) : PyExcept (List Row) :=
  if ¬ (fitsInteger deviceId ∧ fitsInteger tagId) then
    .error ⟨.overflowError, "Python int too large to convert to SQLite INTEGER"⟩
  else if value = .nan then
    .error ⟨.integrityError, "NOT NULL constraint failed: telemetry_history.value"⟩
  else .ok (rows ++ [⟨deviceId, tagId, value, quality, sourceTimestamp, utcNowIso now⟩])

/-- The number it returns, or what it raises, and the rows it leaves. -/
def pruneOldHistory (now : DateTime) (rows : List Row) : PyExcept ℕ × List Row :=
  match now.minusDays historyRetentionDays with
  | none => (.error ⟨.overflowError, "date value out of range"⟩, rows)
  | some cutoff =>
    (.ok (rows.countP fun row => row.createdAt < cutoff.isoformat),
      rows.filter fun row => ¬ row.createdAt < cutoff.isoformat)

/-- Rows of one timestamp come in the order of their ids. -/
def getRecentReadings (deviceId tagId : ℤ) (sinceIso : String) (rows : List Row) : List Reading :=
  let selected := rows.filter fun row =>
    row.deviceId = deviceId ∧ row.tagId = tagId ∧ sinceIso ≤ row.sourceTimestamp
  (selected.insertionSort fun a b => a.sourceTimestamp ≤ b.sourceTimestamp).map fun row =>
    ⟨row.value, row.quality, row.sourceTimestamp⟩

/-- A reading with the points in time at which it was taken and recorded. -/
structure Entry where
  deviceId : ℤ
  tagId : ℤ
  value : PyFloat
  quality : String
  source : DateTime
  created : DateTime

/-- The row of an entry: its timestamps are outputs of `utc_now_iso`. -/
def Entry.row (e : Entry) : Row :=
  ⟨e.deviceId, e.tagId, e.value, e.quality, utcNowIso e.source, utcNowIso e.created⟩

def Entry.reading (e : Entry) : Reading := ⟨e.value, e.quality, utcNowIso e.source⟩

/-- Created strictly more than the retention time before `now`. -/
def Expired (now : DateTime) (e : Entry) : Prop :=
  e.created.instant + historyRetentionDays * dayLength < now.instant

instance (now : DateTime) : DecidablePred (Expired now) := fun _ => inferInstanceAs (Decidable (_ < _))

/-- The tables that recording and pruning come to from an empty one. -/
inductive Reached : List Row → Prop
  | empty : Reached []
  | record {rows rows' now source deviceId tagId value quality} :
      Reached rows → recordReading now deviceId tagId value quality (utcNowIso source) rows = .ok rows' →
      Reached rows'
  | prune {rows} (now : DateTime) : Reached rows → Reached (pruneOldHistory now rows).2

section timestamps

variable {t u : DateTime}

theorem utcNowIso_lt_iff : utcNowIso t < utcNowIso u ↔ t.instant < u.instant :=
  (t.isoformat_sameOrder u).lt

theorem utcNowIso_le_iff : utcNowIso t ≤ utcNowIso u ↔ t.instant ≤ u.instant := by
  rw [← not_lt, ← not_lt, utcNowIso_lt_iff]

end timestamps

/-- The text of the cutoff tells the expired entries from the others. -/
theorem expired_iff {now cutoff : DateTime} (h : now.minusDays historyRetentionDays = some cutoff)
    (e : Entry) : e.row.createdAt < cutoff.isoformat ↔ Expired now e := by
  have hnow := DateTime.instant_minusDays h
  have htext : e.row.createdAt < cutoff.isoformat ↔ e.created.instant < cutoff.instant :=
    utcNowIso_lt_iff
  rw [htext]
  unfold Expired
  omega

/-- In the first days of the calendar nothing has expired. -/
theorem not_expired {now : DateTime} (h : now.instant < historyRetentionDays * dayLength)
    (e : Entry) : ¬ Expired now e := by
  unfold Expired
  omega

theorem pruneOldHistory_rows (now : DateTime) (entries : List Entry) :
    (pruneOldHistory now (entries.map Entry.row)).2 =
      (entries.filter fun e => ¬ Expired now e).map Entry.row := by
  unfold pruneOldHistory
  cases hcutoff : now.minusDays historyRetentionDays with
  | none =>
    have hnone := not_expired (DateTime.instant_of_minusDays_none hcutoff)
    simp [hnone]
  | some cutoff =>
    simp only [List.filter_map, Function.comp_def, expired_iff hcutoff]

theorem pruneOldHistory_count (now : DateTime) (entries : List Entry) :
    (pruneOldHistory now (entries.map Entry.row)).1 =
      if now.instant < historyRetentionDays * dayLength then
        .error ⟨.overflowError, "date value out of range"⟩
      else .ok (entries.countP fun e => Expired now e) := by
  unfold pruneOldHistory
  cases hcutoff : now.minusDays historyRetentionDays with
  | none => rw [if_pos (DateTime.instant_of_minusDays_none hcutoff)]
  | some cutoff =>
    have hnow := DateTime.instant_minusDays hcutoff
    rw [if_neg (by omega)]
    simp only [List.countP_map, Function.comp_def, expired_iff hcutoff]

theorem recordReading_eq_ok {now : DateTime} {deviceId tagId : ℤ} {value : PyFloat}
    {quality sourceTimestamp : String} {rows rows' : List Row} :
    recordReading now deviceId tagId value quality sourceTimestamp rows = .ok rows' ↔
      (fitsInteger deviceId ∧ fitsInteger tagId) ∧ value ≠ .nan ∧
        rows' = rows ++ [⟨deviceId, tagId, value, quality, sourceTimestamp, utcNowIso now⟩] := by
  unfold recordReading
  split
  · rename_i hfits
    exact ⟨nofun, fun h => absurd h.1 hfits⟩
  · rename_i hfits
    split
    · rename_i hnan
      exact ⟨nofun, fun h => absurd hnan h.2.1⟩
    · rename_i hnan
      rw [Except.ok.injEq]
      exact ⟨fun h => ⟨not_not.mp hfits, hnan, h.symm⟩, fun h => h.2.2.symm⟩

/-- A table that refuses a finite value has not found a NULL in it. -/
theorem recordReading_not_null {value : PyFloat} (hvalue : value.isFinite = true) (now : DateTime)
    (deviceId tagId : ℤ) (quality sourceTimestamp : String) (rows : List Row) :
    recordReading now deviceId tagId value quality sourceTimestamp rows ≠
      .error ⟨.integrityError, "NOT NULL constraint failed: telemetry_history.value"⟩ := by
  have hnan : value ≠ .nan := by
    rintro rfl
    cases hvalue
  unfold recordReading
  rw [if_neg hnan]
  split
  · simp
  · simp

/-- The rows that recording and pruning come to all have timestamps of `utc_now_iso`. -/
theorem entries_of_reached {rows : List Row} (h : Reached rows) :
    ∃ entries : List Entry, rows = entries.map Entry.row := by
  induction h with
  | empty => exact ⟨[], rfl⟩
  | @record rows rows' now source deviceId tagId value quality _ hrow ih =>
    obtain ⟨entries, rfl⟩ := ih
    refine ⟨entries ++ [⟨deviceId, tagId, value, quality, source, now⟩], ?_⟩
    rw [(recordReading_eq_ok.mp hrow).2.2, List.map_append]
    rfl
  | prune now _ ih =>
    obtain ⟨entries, rfl⟩ := ih
    exact ⟨_, pruneOldHistory_rows now entries⟩

/-- The entries of a device and a tag taken at or after a point in time, the oldest first. -/
def recent (deviceId tagId : ℤ) (since : DateTime) (entries : List Entry) : List Entry :=
  (entries.filter fun e =>
    e.deviceId = deviceId ∧ e.tagId = tagId ∧ since.instant ≤ e.source.instant).insertionSort
      fun a b => a.source.instant ≤ b.source.instant

theorem getRecentReadings_eq (deviceId tagId : ℤ) (since : DateTime) (entries : List Entry) :
    getRecentReadings deviceId tagId (utcNowIso since) (entries.map Entry.row) =
      (recent deviceId tagId since entries).map Entry.reading := by
  have hselected : (entries.map Entry.row).filter (fun row =>
      row.deviceId = deviceId ∧ row.tagId = tagId ∧ utcNowIso since ≤ row.sourceTimestamp) =
        (entries.filter fun e =>
          e.deviceId = deviceId ∧ e.tagId = tagId ∧ since.instant ≤ e.source.instant).map
            Entry.row := by
    simp only [List.filter_map, Function.comp_def, Entry.row, utcNowIso_le_iff]
  have hsorted := List.map_insertionSort
    (fun a b : Entry => a.source.instant ≤ b.source.instant)
    (fun a b : Row => a.sourceTimestamp ≤ b.sourceTimestamp) Entry.row
    (entries.filter fun e =>
      e.deviceId = deviceId ∧ e.tagId = tagId ∧ since.instant ≤ e.source.instant)
    (fun a _ b _ => utcNowIso_le_iff.symm)
  unfold getRecentReadings recent
  rw [hselected]
  dsimp only
  rw [← hsorted, List.map_map]
  rfl

/-- The history is kept and read by the points in time behind its texts: pruning deletes the
entries that have expired and returns their number, unless `now` is so early that the calendar has
no cutoff, and what is read back are the entries since a point in time in their order. -/
theorem history_by_instant (entries : List Entry) (now since : DateTime) (deviceId tagId : ℤ) :
    (pruneOldHistory now (entries.map Entry.row)).2 =
        (entries.filter fun e => ¬ Expired now e).map Entry.row ∧
    (pruneOldHistory now (entries.map Entry.row)).1 =
        (if now.instant < historyRetentionDays * dayLength then
          .error ⟨.overflowError, "date value out of range"⟩
        else .ok (entries.countP fun e => Expired now e)) ∧
    ∃ readings : List Entry,
      getRecentReadings deviceId tagId (utcNowIso since) (entries.map Entry.row) =
        readings.map Entry.reading ∧
      readings.Perm (entries.filter fun e =>
        e.deviceId = deviceId ∧ e.tagId = tagId ∧ since.instant ≤ e.source.instant) ∧
      readings.Pairwise fun a b => a.source.instant ≤ b.source.instant := by
  refine ⟨pruneOldHistory_rows now entries, pruneOldHistory_count now entries,
    recent deviceId tagId since entries, getRecentReadings_eq deviceId tagId since entries,
    List.perm_insertionSort _ _, ?_⟩
  have htotal : Std.Total fun a b : Entry => a.source.instant ≤ b.source.instant :=
    ⟨fun a b => le_total a.source.instant b.source.instant⟩
  have htrans : IsTrans Entry fun a b => a.source.instant ≤ b.source.instant :=
    ⟨fun _ _ _ hab hbc => le_trans hab hbc⟩
  exact List.pairwise_insertionSort _ _

end SenseGateway.History

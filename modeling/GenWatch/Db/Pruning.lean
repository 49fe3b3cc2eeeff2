import GenWatch.Prelude.Chunks
import GenWatch.Db.Rollup

/-! # Pruning while others write

A prune releases the write lock after each chunk. It returns in the end, with the number
of rows it has deleted: those that were too old when it began. Nothing else that was in
the table, or that others insert meanwhile, is lost.
-/

namespace GenWatch

open Chunks Transition

/-- How a prune and the writers beside it change a table. -/
abbrev PruneStep {ρ κ : Type*} (key : ρ → κ) : Type _ := State key → Label ρ κ → Option (State key)

structure Stored (ρ : Type*) where
  rowid : ℤ
  row : ρ

section Prune

variable {ρ κ : Type*} {key : ρ → κ} [DecidableEq κ]

/-- `WHERE ts < ?{extra}` -/
def olderRow (ts : ρ → ℚ) (olderThanTs : ℚ) (extra : ρ → Bool) (r : ρ) : Bool :=
  ts r < olderThanTs ∧ extra r = true

/-- Delete the older rows in chunks until a chunk comes up short, with the lock released between
the chunks. -/
def pruneChunked (ts : ρ → ℚ) (olderThanTs : ℚ) (chunk : ℕ) (extra : ρ → Bool := fun _ => true) :
    PruneStep key :=
  Chunks.step (olderRow ts olderThanTs extra) chunk

end Prune

namespace Pruning

def rawTelemetry (olderThanTs : ℚ) (chunk : ℕ := 5000) :
    PruneStep (Stored.rowid (ρ := TelemetryRow)) :=
  pruneChunked (fun r => r.row.ts) olderThanTs chunk

/-- The buckets are under their epochs, which are their row ids. -/
def rollup1m (olderThanTs : ℚ) (chunk : ℕ := 5000) : PruneStep MinuteRow.ts :=
  pruneChunked (fun r => r.ts) (truncInt olderThanTs) chunk

def rollup1h (olderThanTs : ℚ) (chunk : ℕ := 5000) : PruneStep HourRow.ts :=
  pruneChunked (fun r => r.ts) (truncInt olderThanTs) chunk

/-- Alarms and warnings are always kept. -/
def events (olderThanTs : ℚ) (chunk : ℕ := 5000) : PruneStep (Stored.rowid (ρ := EventRow)) :=
  pruneChunked (fun r => r.row.ts) olderThanTs chunk fun r =>
    r.row.severity = .info ∨ r.row.severity = .ok

end Pruning

/-- What a prune with other writers beside it is to do to a table, wherever it stands. -/
structure PrunesExactly {ρ κ : Type*} {key : ρ → κ} (old : ρ → Bool) (chunk : ℕ) (t : Table key)
    (ls : List (Label ρ κ)) (step : PruneStep key) (s : State key) : Prop where
  /-- Once it has returned, the old rows are gone, it says how many, and the rest is as it was. -/
  rows : s.returned = true →
    s.table.rows = (t.rows.filter fun r => !old r) ++ ls.filterMap Label.inserted ∧
      s.total = t.rows.countP old
  /-- Until then it has lost no row that is not old. -/
  kept : ∀ r, old r = false → (r ∈ s.table.rows ↔ r ∈ t.rows ∨ .insert r ∈ ls)
  /-- It returns after the first chunk that is not full. -/
  chunks : ls.countP Label.isDelete ≤ t.rows.countP old / chunk + 1
  last : s.returned = true → ls.countP Label.isDelete = t.rows.countP old / chunk + 1
  /-- Nothing holds it up. -/
  goes_on : s.returned = false → ∃ keys s', step s (.delete keys) = some s'

section Prune

variable {ρ κ : Type*} {key : ρ → κ} [DecidableEq κ] {ts : ρ → ℚ} {olderThanTs : ℚ} {chunk : ℕ}
  {extra : ρ → Bool} {t : Table key} {ls : List (Label ρ κ)} {s : State key}

theorem olderRow_of_le {r : ρ} (h : olderThanTs ≤ ts r) :
    olderRow ts olderThanTs extra r = false := by
  simp [olderRow, h]

theorem pruned_of_pruneChunked (hchunk : 1 ≤ chunk)
    (hins : ∀ row, .insert row ∈ ls → olderThanTs ≤ ts row)
    (hrun : run (pruneChunked ts olderThanTs chunk extra) (start t) ls = some s) :
    Pruned (olderRow ts olderThanTs extra) chunk t ls s :=
  pruned_of_run hchunk (fun row hrow => olderRow_of_le (hins row hrow)) hrun

theorem prunesExactly_of_run (hchunk : 1 ≤ chunk)
    (hins : ∀ row, .insert row ∈ ls → olderThanTs ≤ ts row)
    (hrun : run (pruneChunked ts olderThanTs chunk extra) (start t) ls = some s) :
    PrunesExactly (olderRow ts olderThanTs extra) chunk t ls
      (pruneChunked ts olderThanTs chunk extra) s := by
  have hpruned := pruned_of_pruneChunked hchunk hins hrun
  have htotal : s.total ≤ t.rows.countP (olderRow ts olderThanTs extra) := by
    have := hpruned.counted
    omega
  constructor
  · exact fun hreturned => ⟨hpruned.rows hreturned, hpruned.total hreturned⟩
  · exact fun r hr => hpruned.mem_iff hr
  · rw [hpruned.chunks]
    have hdiv : s.total / chunk ≤ t.rows.countP (olderRow ts olderThanTs extra) / chunk :=
      Nat.div_le_div_right htotal
    split <;> omega
  · intro hreturned
    rw [hpruned.chunks, hpruned.total hreturned, if_pos hreturned]
  · exact exists_delete

end Prune

/-! ### A prune that nobody interrupts -/

section Uninterrupted

variable {chunk : ℕ} {olderThanTs : ℚ} {db : Database}

theorem olderRow_all {ρ : Type*} (ts : ρ → ℚ) (olderThanTs : ℚ) :
    olderRow ts olderThanTs (fun _ => true) = fun r => decide (ts r < olderThanTs) := by
  funext r
  simp [olderRow]

theorem olderRow_epoch {ρ : Type*} (ts : ρ → ℤ) (olderThanTs : ℤ) :
    olderRow (fun r => (ts r : ℚ)) olderThanTs (fun _ => true) =
      fun r => decide (ts r < olderThanTs) := by
  funext r
  simp [olderRow]

theorem map_row_of_uninterrupted {ρ : Type*} (old : ρ → Bool)
    {t : Table (Stored.rowid (ρ := ρ))} {ls : List (Label (Stored ρ) ℤ)} {s : State Stored.rowid}
    (h : Pruned (fun r => old r.row) chunk t ls s) (hchunk : 0 < chunk)
    (hreturned : s.returned = true) (hnone : ∀ row, .insert row ∉ ls) :
    s.table.rows.map Stored.row = Sql.deleteChunks old chunk
      ((t.rows.map Stored.row).length + 1) (t.rows.map Stored.row) := by
  rw [h.rows_of_uninterrupted hreturned hnone,
    Sql.deleteChunks_eq_filter old hchunk _ _ (Nat.lt_succ_of_le List.countP_le_length),
    List.filter_map]
  rfl

theorem table_of_uninterrupted {ρ κ : Type*} {key : ρ → κ} {old : ρ → Bool} {t : Table key}
    {ls : List (Label ρ κ)} {s : State key} (h : Pruned old chunk t ls s) (hchunk : 0 < chunk)
    (hreturned : s.returned = true) (hnone : ∀ row, .insert row ∉ ls) :
    s.table = t.deleteChunks old chunk := by
  rw [Table.deleteChunks_eq_deleteWhere t old hchunk]
  exact Table.ext (h.rows_of_uninterrupted hreturned hnone)

theorem telemetry_of_uninterrupted {t : Table Stored.rowid} {ls} {s}
    (ht : t.rows.map Stored.row = db.telemetry)
    (hrun : run (Pruning.rawTelemetry olderThanTs Database.pruneChunk) (start t) ls = some s)
    (hreturned : s.returned = true) (hnone : ∀ row, .insert row ∉ ls) :
    s.table.rows.map Stored.row = (db.pruneRawTelemetry olderThanTs).telemetry := by
  have hpruned := pruned_of_pruneChunked (by decide) (fun row h => absurd h (hnone row)) hrun
  rw [olderRow_all] at hpruned
  have hrows := map_row_of_uninterrupted (fun r : TelemetryRow => r.ts < olderThanTs) hpruned
    (by decide) hreturned hnone
  rw [hrows, ht]
  rfl

theorem telemetry1m_of_uninterrupted {ls} {s}
    (hrun : run (Pruning.rollup1m olderThanTs Database.pruneChunk) (start db.telemetry1m) ls =
      some s)
    (hreturned : s.returned = true) (hnone : ∀ row, .insert row ∉ ls) :
    s.table = (db.pruneRollup1m olderThanTs).telemetry1m := by
  have hpruned := pruned_of_pruneChunked (by decide) (fun row h => absurd h (hnone row)) hrun
  rw [olderRow_epoch] at hpruned
  exact table_of_uninterrupted hpruned (by decide) hreturned hnone

theorem telemetry1h_of_uninterrupted {ls} {s}
    (hrun : run (Pruning.rollup1h olderThanTs Database.pruneChunk) (start db.telemetry1h) ls =
      some s)
    (hreturned : s.returned = true) (hnone : ∀ row, .insert row ∉ ls) :
    s.table = (db.pruneRollup1h olderThanTs).telemetry1h := by
  have hpruned := pruned_of_pruneChunked (by decide) (fun row h => absurd h (hnone row)) hrun
  rw [olderRow_epoch] at hpruned
  exact table_of_uninterrupted hpruned (by decide) hreturned hnone

theorem events_of_uninterrupted {t : Table Stored.rowid} {ls} {s}
    (ht : t.rows.map Stored.row = db.events)
    (hrun : run (Pruning.events olderThanTs Database.pruneChunk) (start t) ls = some s)
    (hreturned : s.returned = true) (hnone : ∀ row, .insert row ∉ ls) :
    s.table.rows.map Stored.row = (db.pruneEvents olderThanTs).events := by
  have hpruned := pruned_of_pruneChunked (by decide) (fun row h => absurd h (hnone row)) hrun
  have hold : olderRow (fun r : Stored EventRow => r.row.ts) olderThanTs
      (fun r => r.row.severity = .info ∨ r.row.severity = .ok) = fun r =>
      decide (r.row.ts < olderThanTs ∧ (r.row.severity = .info ∨ r.row.severity = .ok)) := by
    funext r
    simp [olderRow]
  rw [hold] at hpruned
  have hrows := map_row_of_uninterrupted (fun r : EventRow =>
    r.ts < olderThanTs ∧ (r.severity = .info ∨ r.severity = .ok)) hpruned (by decide) hreturned
    hnone
  rw [hrows, ht]
  rfl

end Uninterrupted

/-- However the chunks are chosen and whatever is inserted between them, a prune deletes the older
rows of its table and no others; of the events it leaves every alarm and warning. -/
theorem prune_chunked_exact {ρ κ : Type*} {key : ρ → κ} [DecidableEq κ] (ts : ρ → ℚ)
    (olderThanTs : ℚ) (extra : ρ → Bool) {chunk : ℕ} (hchunk : 1 ≤ chunk) :
    (∀ (t : Table key) ls s, (∀ row, .insert row ∈ ls → olderThanTs ≤ ts row) →
      run (pruneChunked ts olderThanTs chunk extra) (start t) ls = some s →
      PrunesExactly (olderRow ts olderThanTs extra) chunk t ls
        (pruneChunked ts olderThanTs chunk extra) s) ∧
    ∀ (t : Table Stored.rowid) ls s, (∀ row, .insert row ∈ ls → olderThanTs ≤ row.row.ts) →
      run (Pruning.events olderThanTs chunk) (start t) ls = some s →
      ∀ r ∈ t.rows, r.row.severity = .alarm ∨ r.row.severity = .warn → r ∈ s.table.rows := by
  constructor
  · intro t ls s hins hrun
    exact prunesExactly_of_run hchunk hins hrun
  · intro t ls s hins hrun r hr hseverity
    have hold : olderRow (fun r : Stored EventRow => r.row.ts) olderThanTs
        (fun r => r.row.severity = .info ∨ r.row.severity = .ok) r = false := by
      rcases hseverity with h | h <;> simp [olderRow, h]
    exact ((prunesExactly_of_run hchunk hins hrun).kept r hold).mpr (Or.inl hr)

def noteAndAlarm : Table (Stored.rowid (ρ := EventRow)) :=
  ⟨[⟨1, 0, .info, .config, .reloaded, none⟩, ⟨2, 0, .alarm, .config, .reloaded, none⟩], by decide⟩

/-- A chunk for the note, a new note from another writer, and one more chunk that finds nothing. -/
def noteGoes : List (Label (Stored EventRow) ℤ) :=
  [.delete [1], .insert ⟨3, 20, .info, .config, .reloaded, none⟩, .delete []]

/-- One old note is deleted in chunks of one row, between which a new note comes. -/
theorem note_pruned : ∃ s, run (Pruning.events 10 1) (start noteAndAlarm) noteGoes = some s ∧
    s.table.rows.map Stored.rowid = [2, 3] ∧ s.returned = true ∧
    PrunesExactly (olderRow (fun r : Stored EventRow => r.row.ts) 10
        fun r => r.row.severity = .info ∨ r.row.severity = .ok) 1 noteAndAlarm noteGoes
      (Pruning.events 10 1) s := by
  obtain ⟨s, hrun, hs⟩ : ∃ s, run (Pruning.events 10 1) (start noteAndAlarm) noteGoes = some s ∧
      (s.table.rows.map Stored.rowid, s.returned) = ([2, 3], true) :=
    Option.map_eq_some_iff.mp (by decide +kernel)
  obtain ⟨hrows, hreturned⟩ := Prod.mk.inj hs
  refine ⟨s, hrun, hrows, hreturned, ?_⟩
  refine (prune_chunked_exact (fun r : Stored EventRow => r.row.ts) 10
    (fun r => r.row.severity = .info ∨ r.row.severity = .ok) (le_refl 1)).1 noteAndAlarm noteGoes s
    (fun row hrow => ?_) hrun
  simp only [noteGoes, List.mem_cons, List.not_mem_nil, or_false, reduceCtorEq, false_or] at hrow
  obtain rfl := Label.insert.inj hrow
  decide

end GenWatch

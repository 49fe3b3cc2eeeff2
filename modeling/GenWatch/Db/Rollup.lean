import GenWatch.Db.Tables

/-! # Rollup and pruning

Raw telemetry is aggregated into minutes and minutes into hours, over a window of
time; a bucket that has rows in the window is replaced. Pruning deletes the rows
before a point in time, in chunks.
-/

namespace GenWatch

def Table.deleteChunks {ρ κ : Type*} {key : ρ → κ} (t : Table key) (p : ρ → Bool) (chunk : ℕ) :
    Table key :=
  ⟨Sql.deleteChunks p chunk (t.rows.length + 1) t.rows,
    t.nodup.sublist ((Sql.deleteChunks_sublist p chunk _ t.rows).map key)⟩

theorem Table.deleteChunks_eq_deleteWhere {ρ κ : Type*} {key : ρ → κ} (t : Table key)
    (p : ρ → Bool) {chunk : ℕ} (hc : 0 < chunk) : t.deleteChunks p chunk = t.deleteWhere p := by
  simp only [Table.deleteChunks, Table.deleteWhere, Table.mk.injEq]
  exact Sql.deleteChunks_eq_filter p hc _ _ (Nat.lt_succ_of_le List.countP_le_length)

namespace Database

variable (db : Database)

/-- Append a raw row: each column holds the value of its register, if it was decoded. -/
def writeTelemetry (ts : ℚ) (values : Values) (state : EngineState) (alarmRaw : ℤ) : Database :=
  { db with telemetry := db.telemetry ++ [⟨ts, fun c => values c.register, state, alarmRaw⟩] }

/-- Aggregate the raw rows of `[fromTs, toTs)` into minutes. -/
def aggregateRollup1m (fromTs toTs : ℚ) : Database :=
  { db with
    telemetry1m := db.telemetry1m.upsertGroups TelemetryRow.minute MinuteRow.ofGroup
      (db.telemetry.filter fun r => fromTs ≤ r.ts ∧ r.ts < toTs) }

/-- Aggregate the minutes of `[int(fromTs), int(toTs))` into hours. -/
def aggregateRollup1h (fromTs toTs : ℚ) : Database :=
  { db with
    telemetry1h := db.telemetry1h.upsertGroups MinuteRow.hour HourRow.ofGroup
      (db.telemetry1m.rows.filter fun r => truncInt fromTs ≤ r.ts ∧ r.ts < truncInt toTs) }

def pruneChunk : ℕ := 5000

def pruneRawTelemetry (olderThan : ℚ) : Database :=
  { db with
    telemetry := Sql.deleteChunks (fun r => r.ts < olderThan) pruneChunk
      (db.telemetry.length + 1) db.telemetry }

def pruneRollup1m (olderThan : ℚ) : Database :=
  { db with
    telemetry1m := db.telemetry1m.deleteChunks (fun r => r.ts < truncInt olderThan) pruneChunk }

def pruneRollup1h (olderThan : ℚ) : Database :=
  { db with
    telemetry1h := db.telemetry1h.deleteChunks (fun r => r.ts < truncInt olderThan) pruneChunk }

variable {db} in
theorem telemetry1m_pruneRollup1m {olderThan : ℚ} :
    (db.pruneRollup1m olderThan).telemetry1m =
      db.telemetry1m.deleteWhere fun r => r.ts < truncInt olderThan :=
  Table.deleteChunks_eq_deleteWhere _ _ (by decide)

variable {db} in
theorem telemetry1h_pruneRollup1h {olderThan : ℚ} :
    (db.pruneRollup1h olderThan).telemetry1h =
      db.telemetry1h.deleteWhere fun r => r.ts < truncInt olderThan :=
  Table.deleteChunks_eq_deleteWhere _ _ (by decide)

/-- Warnings and alarms are kept whatever their age. -/
def pruneEvents (olderThan : ℚ) : Database :=
  { db with
    events := Sql.deleteChunks
      (fun r => r.ts < olderThan ∧ (r.severity = .info ∨ r.severity = .ok)) pruneChunk
      (db.events.length + 1) db.events }

section Frame

variable {db} {olderThan : ℚ}

@[simp] theorem telemetry1m_pruneRawTelemetry :
    (db.pruneRawTelemetry olderThan).telemetry1m = db.telemetry1m := rfl

@[simp] theorem telemetry1m_pruneRollup1h :
    (db.pruneRollup1h olderThan).telemetry1m = db.telemetry1m := rfl

@[simp] theorem telemetry1m_pruneEvents :
    (db.pruneEvents olderThan).telemetry1m = db.telemetry1m := rfl

@[simp] theorem telemetry1h_pruneRawTelemetry :
    (db.pruneRawTelemetry olderThan).telemetry1h = db.telemetry1h := rfl

@[simp] theorem telemetry1h_pruneRollup1m :
    (db.pruneRollup1m olderThan).telemetry1h = db.telemetry1h := rfl

@[simp] theorem telemetry1h_pruneEvents :
    (db.pruneEvents olderThan).telemetry1h = db.telemetry1h := rfl

end Frame

end Database

end GenWatch

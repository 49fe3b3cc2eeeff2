import GenWatch.Db.Rollup

/-! # The retention service

A tick rolls the last hour of raw telemetry up into minutes, short of the current
one, then the last two hours of minutes into hours, and prunes each table past its
configured age.
-/

namespace GenWatch

/-- Ages in days; hours and events are kept for ever when theirs is not positive. -/
structure RetentionConfig where
  rawDays : ℤ
  rollup1mDays : ℤ
  rollup1hDays : ℤ
  eventsDays : ℤ

def RetentionConfig.default : RetentionConfig := ⟨7, 90, 730, 30⟩

namespace RetentionService

variable (cfg : RetentionConfig) (now : ℚ) (db : Database)

def daysBack (days : ℤ) : ℚ := now - days * 86400

def rollup : Database :=
  (db.aggregateRollup1m (now - 3600) (now - 60)).aggregateRollup1h (now - 2 * 3600) now

def prune : Database :=
  let db := db.pruneRawTelemetry (daysBack now cfg.rawDays)
  let db := db.pruneRollup1m (daysBack now cfg.rollup1mDays)
  let db := if 0 < cfg.rollup1hDays then db.pruneRollup1h (daysBack now cfg.rollup1hDays) else db
  if 0 < cfg.eventsDays then db.pruneEvents (daysBack now cfg.eventsDays) else db

def tick : Database := prune cfg now (rollup now db)

end RetentionService

end GenWatch

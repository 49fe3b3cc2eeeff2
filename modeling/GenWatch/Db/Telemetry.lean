import Mathlib.Tactic.Linarith
import Mathlib.Tactic.Positivity
import GenWatch.Prelude.Sql
import GenWatch.Modbus.Registers

/-! # Telemetry tables

Raw telemetry is one wide row for each base poll, with a column for each metric
that may be `NULL`. Two coarser tables hold one row for each minute and for each
hour, under the epoch of the bucket.
-/

namespace GenWatch

inductive Metric where
  | rpm
  | hz
  | kw
  | oilP
  | coolT
  | batt
  | vAb
  | vBc
  | vCa
  | iA
  | iB
  | iC
  | fuelPct
  deriving DecidableEq, Repr

def Metric.register : Metric → String
  | .rpm => "rpm"
  | .hz => "frequency"
  | .kw => "total_kw"
  | .oilP => "oil_pressure"
  | .coolT => "coolant_temp"
  | .batt => "battery_volts"
  | .vAb => "gen_voltage_ab"
  | .vBc => "gen_voltage_bc"
  | .vCa => "gen_voltage_ca"
  | .iA => "gen_current_a"
  | .iB => "gen_current_b"
  | .iC => "gen_current_c"
  | .fuelPct => "fuel_level_pct"

def minuteAvgMetrics : List Metric := [.rpm, .hz, .kw, .oilP, .coolT, .batt, .vAb, .iA]

def minuteRangeMetrics : List Metric := [.rpm, .hz, .kw]

def hourAvgMetrics : List Metric := [.rpm, .hz, .kw, .oilP, .coolT, .batt]

structure TelemetryRow where
  ts : ℚ
  metric : Metric → Option ℚ
  state : EngineState
  alarmRaw : ℤ

structure MinuteRow where
  ts : ℤ
  avg : Metric → Option ℚ
  min : Metric → Option ℚ
  max : Metric → Option ℚ
  samples : ℕ

structure HourRow where
  ts : ℤ
  avg : Metric → Option ℚ
  samples : ℕ
  runtimeS : ℤ
  kwh : ℚ

namespace TelemetryRow

def minute (r : TelemetryRow) : ℤ := truncInt (r.ts / 60) * 60

variable {r : TelemetryRow}

theorem minute_le (h : 0 ≤ r.ts) : (r.minute : ℚ) ≤ r.ts := by
  have hf := Int.floor_le (r.ts / 60)
  rw [minute, truncInt_of_nonneg (by positivity)]
  push_cast
  linarith

theorem lt_minute_add (h : 0 ≤ r.ts) : r.ts < r.minute + 60 := by
  have hf := Int.lt_floor_add_one (r.ts / 60)
  rw [minute, truncInt_of_nonneg (by positivity)]
  push_cast
  linarith

theorem minute_nonneg (h : 0 ≤ r.ts) : 0 ≤ r.minute :=
  mul_nonneg (le_truncInt (by rw [Int.cast_zero]; positivity)) (by decide)

theorem dvd_minute (r : TelemetryRow) : 60 ∣ r.minute := Dvd.intro_left _ rfl

theorem minute_eq_iff {minute : ℤ} (h : 0 ≤ r.ts) (hdvd : 60 ∣ minute) :
    r.minute = minute ↔ minute ≤ r.ts ∧ r.ts < minute + 60 := by
  have hle := minute_le h
  have hlt := lt_minute_add h
  constructor
  · rintro rfl
    exact ⟨hle, hlt⟩
  · rintro ⟨hfrom, hto⟩
    have h₁ : r.minute < minute + 60 := by exact_mod_cast hle.trans_lt hto
    have h₂ : minute < r.minute + 60 := by exact_mod_cast hfrom.trans_lt hlt
    have := r.dvd_minute
    omega

end TelemetryRow

namespace MinuteRow

def ofGroup (ts : ℤ) (g : List TelemetryRow) : MinuteRow where
  ts := ts
  avg c := if c ∈ minuteAvgMetrics then Sql.avg (g.map fun r => r.metric c) else none
  min c := if c ∈ minuteRangeMetrics then Sql.min (g.map fun r => r.metric c) else none
  max c := if c ∈ minuteRangeMetrics then Sql.max (g.map fun r => r.metric c) else none
  samples := g.length

def hour (r : MinuteRow) : ℤ := r.ts.tdiv 3600 * 3600

theorem hour_eq_iff {r : MinuteRow} {hour : ℤ} (h : 0 ≤ r.ts) (hdvd : 3600 ∣ hour) :
    r.hour = hour ↔ hour ≤ r.ts ∧ r.ts < hour + 3600 := by
  rw [MinuteRow.hour, Int.tdiv_eq_ediv_of_nonneg h]
  omega

end MinuteRow

namespace HourRow

/-- The number of raw samples behind some minutes. -/
def samplesOf (g : List MinuteRow) : ℕ := (g.map MinuteRow.samples).sum

def weightedMean (g : List MinuteRow) (c : Metric) : Option ℚ :=
  Sql.divNullIf (Sql.sum (g.map fun r => (r.avg c).map fun x => x * r.samples)) (samplesOf g)

/-- The energy of some minutes, each at its average power. -/
def kwhOf (g : List MinuteRow) : ℚ := (Sql.sum (g.map fun r => r.avg .kw)).getD 0 / 60

def ofGroup (ts : ℤ) (g : List MinuteRow) : HourRow where
  ts := ts
  avg c := if c ∈ hourAvgMetrics then weightedMean g c else none
  samples := samplesOf g
  runtimeS := 0
  kwh := kwhOf g

end HourRow

end GenWatch

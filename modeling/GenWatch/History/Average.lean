import GenWatch.History.Hourly
import GenWatch.Prelude.Grouping

/-! # Hourly averages

The hour table weights the average of each minute by the minute's rows, also by those in
which the metric is missing. So the hourly average is the mean of the samples when the
rows that lack the metric are spread evenly over the minutes, and otherwise only where
the values happen to cancel the excess weight out.
-/

namespace GenWatch

namespace TelemetryRow

def samplesIn (c : Metric) (rows : List TelemetryRow) : ℕ :=
  rows.countP fun r => (r.metric c).isSome

def totalIn (c : Metric) (rows : List TelemetryRow) : ℚ :=
  (rows.map fun r => (r.metric c).getD 0).sum

/-- The row with another value for its sample of the metric, if it has one. -/
def revalue (c : Metric) (v : TelemetryRow → ℚ) (r : TelemetryRow) : TelemetryRow :=
  { r with metric := Function.update r.metric c ((r.metric c).map fun _ => v r) }

def meanIn (c : Metric) (rows : List TelemetryRow) : Option ℚ :=
  if samplesIn c rows = 0 then none else some (totalIn c rows / samplesIn c rows)

theorem avg_eq_meanIn (c : Metric) (rows : List TelemetryRow) :
    Sql.avg (rows.map fun r => r.metric c) = meanIn c rows := by
  rw [Sql.avg_eq, List.countP_map, List.map_map]
  rfl

theorem totalIn_eq_zero {c : Metric} {rows : List TelemetryRow} (h : samplesIn c rows = 0) :
    totalIn c rows = 0 := by
  rw [samplesIn, List.countP_eq_zero] at h
  refine List.sum_eq_zero fun x hx => ?_
  obtain ⟨r, hr, rfl⟩ := List.mem_map.mp hx
  have hnone : r.metric c = none := by simpa using h r hr
  rw [hnone, Option.getD_none]

end TelemetryRow

open TelemetryRow

namespace History

def rowsOf (db : Database) (hour : ℤ) : List TelemetryRow :=
  db.telemetry.filter fun r => hour ≤ r.ts ∧ r.ts < hour + 3600

def minuteKeys (rows : List TelemetryRow) : Finset ℤ := (rows.map minute).toFinset

def ofMinute (rows : List TelemetryRow) (k : ℤ) : List TelemetryRow :=
  rows.filter fun r => r.minute = k

/-- What the hour table has as the average of a metric. -/
def hourlyAverage (db : Database) (hour : ℤ) (c : Metric) : Option ℚ :=
  (db.telemetry1h.find? hour).bind fun row => row.avg c

/-- The rows of a minute beyond its share of the metric's samples, scaled by both totals. -/
def excessRows (c : Metric) (rows : List TelemetryRow) (k : ℤ) : ℚ :=
  (ofMinute rows k).length * (samplesIn c rows : ℚ) -
    samplesIn c (ofMinute rows k) * (rows.length : ℚ)

/-- The excess rows of the minutes, each at its average, cancel out. -/
def Cancels (c : Metric) (rows : List TelemetryRow) : Prop :=
  ∑ k ∈ minuteKeys rows, (meanIn c (ofMinute rows k)).getD 0 * excessRows c rows k = 0

instance (c : Metric) (rows : List TelemetryRow) : Decidable (Cancels c rows) :=
  inferInstanceAs (Decidable (_ = _))

/-- Every minute has the metric in the same share of its rows. -/
def EvenlySampled (c : Metric) (rows : List TelemetryRow) : Prop :=
  ∀ k ∈ minuteKeys rows, (ofMinute rows k).length * samplesIn c rows =
    samplesIn c (ofMinute rows k) * rows.length

instance (c : Metric) (rows : List TelemetryRow) : Decidable (EvenlySampled c rows) :=
  inferInstanceAs (Decidable (∀ _ ∈ _, _))

/-- All timestamps are seconds since the epoch. -/
structure Dated (db : Database) : Prop where
  raw : ∀ r ∈ db.telemetry, 0 ≤ r.ts
  minutes : ∀ r ∈ db.telemetry1m.rows, 0 ≤ r.ts

/-- A window over the whole hour. -/
def Covers (hour : ℤ) (fromTs toTs : ℚ) : Prop := fromTs ≤ hour ∧ hour + 3600 ≤ toTs

section Groups

variable {c : Metric} {rows : List TelemetryRow}

theorem minute_mem_minuteKeys {r : TelemetryRow} (hr : r ∈ rows) : r.minute ∈ minuteKeys rows := by
  rw [minuteKeys, List.mem_toFinset]
  exact List.mem_map_of_mem hr

theorem sum_length_ofMinute :
    ∑ k ∈ minuteKeys rows, ((ofMinute rows k).length : ℚ) = rows.length := by
  have hsum := Grouping.sum_groups minute (fun _ => (1 : ℚ)) rows fun _ => minute_mem_minuteKeys
  simpa [ofMinute] using hsum

theorem sum_samplesIn_ofMinute :
    ∑ k ∈ minuteKeys rows, (samplesIn c (ofMinute rows k) : ℚ) = samplesIn c rows := by
  have hsum := Grouping.sum_groups minute (fun _ => (1 : ℚ))
    (rows.filter fun r => (r.metric c).isSome)
    fun r hr => minute_mem_minuteKeys (List.mem_filter.mp hr).1
  simpa [samplesIn, ofMinute, List.countP_eq_length_filter, List.filter_filter, Bool.and_comm]
    using hsum

theorem sum_totalIn_ofMinute :
    ∑ k ∈ minuteKeys rows, totalIn c (ofMinute rows k) = totalIn c rows :=
  Grouping.sum_groups minute _ rows fun _ => minute_mem_minuteKeys

theorem excessRows_eq (k : ℤ) : excessRows c rows k =
    Grouping.excess (minuteKeys rows) (fun k => ((ofMinute rows k).length : ℚ))
      (fun k => (samplesIn c (ofMinute rows k) : ℚ)) k := by
  rw [excessRows, Grouping.excess, sum_samplesIn_ofMinute, sum_length_ofMinute]

theorem evenlySampled_iff :
    EvenlySampled c rows ↔ ∀ k ∈ minuteKeys rows, excessRows c rows k = 0 := by
  refine forall₂_congr fun k _ => ?_
  rw [excessRows, sub_eq_zero]
  exact_mod_cast Iff.rfl

theorem getD_meanIn : (meanIn c rows).getD 0 = totalIn c rows / samplesIn c rows := by
  rw [meanIn]
  split
  · rename_i h
    rw [h, Nat.cast_zero, div_zero, Option.getD_none]
  · rfl

def minuteRows (rows : List TelemetryRow) : List MinuteRow :=
  (rows.map minute).dedup.map fun k => MinuteRow.ofGroup k (ofMinute rows k)

theorem sum_minuteRows (f : MinuteRow → ℚ) :
    ((minuteRows rows).map f).sum =
      ∑ k ∈ minuteKeys rows, f (MinuteRow.ofGroup k (ofMinute rows k)) := by
  rw [minuteRows, List.map_map]
  rfl

theorem avg_ofGroup (hc : c ∈ hourAvgMetrics) (k : ℤ) (g : List TelemetryRow) :
    (MinuteRow.ofGroup k g).avg c = meanIn c g := by
  have hc' : c ∈ minuteAvgMetrics := by
    revert hc
    cases c <;> decide
  show (if c ∈ minuteAvgMetrics then _ else _) = _
  rw [if_pos hc', avg_eq_meanIn]

theorem countP_minuteRows_eq_zero (hc : c ∈ hourAvgMetrics) :
    (minuteRows rows).countP (fun r => (r.avg c).isSome) = 0 ↔ samplesIn c rows = 0 := by
  rw [List.countP_eq_zero, ← Nat.cast_eq_zero (R := ℚ), ← sum_samplesIn_ofMinute,
    Finset.sum_eq_zero_iff_of_nonneg fun k _ => Nat.cast_nonneg _]
  simp only [minuteRows, List.mem_map, List.mem_dedup, forall_exists_index, and_imp,
    forall_apply_eq_imp_iff₂, avg_ofGroup hc, minuteKeys, List.mem_toFinset]
  refine forall₂_congr fun r hr => ?_
  rw [meanIn]
  split <;> simp_all

theorem weightedMean_minuteRows (hc : c ∈ hourAvgMetrics) (hne : rows ≠ []) :
    HourRow.weightedMean (minuteRows rows) c =
      if samplesIn c rows = 0 then none
      else some (Grouping.weightedMean (minuteKeys rows)
        (fun k => ((ofMinute rows k).length : ℚ)) (fun k => (samplesIn c (ofMinute rows k) : ℚ))
        fun k => totalIn c (ofMinute rows k)) := by
  have hlen : (HourRow.samplesOf (minuteRows rows) : ℚ) = rows.length := by
    rw [HourRow.samplesOf, Nat.cast_list_sum, List.map_map, sum_minuteRows, ← sum_length_ofMinute]
    rfl
  have hpos : (rows.length : ℚ) ≠ 0 := by simpa using hne
  have hsome : ((minuteRows rows).map fun r => (r.avg c).map fun x : ℚ => x * r.samples).countP
      Option.isSome = 0 ↔ samplesIn c rows = 0 := by
    rw [List.countP_map, ← countP_minuteRows_eq_zero hc]
    simp [Function.comp_def]
  have hterm : ∀ k, (((MinuteRow.ofGroup k (ofMinute rows k)).avg c).map fun x : ℚ =>
        x * (MinuteRow.ofGroup k (ofMinute rows k)).samples).getD 0 =
      totalIn c (ofMinute rows k) / samplesIn c (ofMinute rows k) * (ofMinute rows k).length := by
    intro k
    rw [avg_ofGroup hc, ← getD_meanIn]
    cases meanIn c (ofMinute rows k) with
    | none => simp
    | some x => rfl
  rw [HourRow.weightedMean, Sql.divNullIf, hlen, if_neg hpos, Sql.sum_eq, List.map_map,
    sum_minuteRows]
  simp only [hsome, Function.comp_apply, hterm]
  split
  · rfl
  · rw [Option.map_some, Grouping.weightedMean, sum_length_ofMinute]

/-- The weighted mean of the minutes is the mean of the samples exactly when the excess cancels. -/
theorem weightedMean_eq_meanIn_iff (hc : c ∈ hourAvgMetrics) (hne : rows ≠ []) :
    HourRow.weightedMean (minuteRows rows) c = meanIn c rows ↔ Cancels c rows := by
  rw [weightedMean_minuteRows hc hne, meanIn]
  split
  · rename_i hnone
    have hzero : ∀ k ∈ minuteKeys rows, excessRows c rows k = 0 := by
      intro k hk
      have hmin : (samplesIn c (ofMinute rows k) : ℚ) = 0 := by
        have hsum : ∑ k ∈ minuteKeys rows, (samplesIn c (ofMinute rows k) : ℚ) = 0 := by
          rw [sum_samplesIn_ofMinute, hnone, Nat.cast_zero]
        rw [Finset.sum_eq_zero_iff_of_nonneg fun _ _ => Nat.cast_nonneg _] at hsum
        exact hsum k hk
      rw [excessRows, hnone, hmin, Nat.cast_zero, mul_zero, zero_mul, sub_self]
    exact iff_of_true rfl (Finset.sum_eq_zero fun k hk => by rw [hzero k hk, mul_zero])
  · rename_i hsome
    have hcount : ∑ k ∈ minuteKeys rows, (samplesIn c (ofMinute rows k) : ℚ) ≠ 0 := by
      rw [sum_samplesIn_ofMinute]
      exact_mod_cast hsome
    have hweight : ∑ k ∈ minuteKeys rows, ((ofMinute rows k).length : ℚ) ≠ 0 := by
      rw [sum_length_ofMinute]
      simpa using hne
    have htotal : ∀ k ∈ minuteKeys rows, (samplesIn c (ofMinute rows k) : ℚ) = 0 →
        totalIn c (ofMinute rows k) = 0 :=
      fun k _ h0 => totalIn_eq_zero (Nat.cast_eq_zero.mp h0)
    have hiff := Grouping.weightedMean_eq_iff htotal hcount hweight
    rw [sum_totalIn_ofMinute, sum_samplesIn_ofMinute] at hiff
    rw [Option.some_inj, hiff, Cancels]
    simp only [getD_meanIn, excessRows_eq]

end Groups

section Rollup

variable {db : Database} {hour : ℤ} {fromTs toTs : ℚ}

theorem minute_within_iff {r : TelemetryRow} (hr : 0 ≤ r.ts) (hdvd : 3600 ∣ hour) :
    (hour ≤ r.minute ∧ r.minute < hour + 3600) ↔ hour ≤ r.ts ∧ r.ts < hour + 3600 := by
  have hle := minute_le hr
  have hlt := lt_minute_add hr
  have hmin := r.dvd_minute
  constructor
  · rintro ⟨hfrom, hto⟩
    have hfrom' : (hour : ℚ) ≤ r.minute := by exact_mod_cast hfrom
    have hto' : (r.minute : ℚ) + 60 ≤ hour + 3600 := by
      have : r.minute + 60 ≤ hour + 3600 := by omega
      exact_mod_cast this
    exact ⟨hfrom'.trans hle, hlt.trans_le hto'⟩
  · rintro ⟨hfrom, hto⟩
    have h₁ : hour < r.minute + 60 := by exact_mod_cast hfrom.trans_lt hlt
    have h₂ : r.minute < hour + 3600 := by exact_mod_cast hle.trans_lt hto
    omega

theorem perm_minutesOf (hd : Dated db) (hdvd : 3600 ∣ hour) (hcov : Covers hour fromTs toTs)
    (hfresh : minutesOf db hour = []) :
    (minutesOf (db.aggregateRollup1m fromTs toTs) hour).Perm (minuteRows (rowsOf db hour)) := by
  let window := db.telemetry.filter fun r => fromTs ≤ r.ts ∧ r.ts < toTs
  have hrows : (window.filter fun r => hour ≤ r.minute ∧ r.minute < hour + 3600) =
      rowsOf db hour := by
    simp only [window, rowsOf, List.filter_filter]
    refine List.filter_congr fun r hr => ?_
    rw [← Bool.decide_and, decide_eq_decide, minute_within_iff (hd.raw r hr) hdvd]
    constructor
    · exact fun h => h.1
    · exact fun h => ⟨h, hcov.1.trans h.1, h.2.trans_le hcov.2⟩
  have hgroup : ∀ k ∈ ((rowsOf db hour).map minute).dedup,
      (window.filter fun r => r.minute = k) = ofMinute (rowsOf db hour) k := by
    intro k hk
    obtain ⟨x, hx, rfl⟩ := List.mem_map.mp (List.mem_dedup.mp hk)
    rw [← hrows] at hx ⊢
    have hin := (List.mem_filter.mp hx).2
    rw [ofMinute, List.filter_filter (l := window)]
    refine List.filter_congr fun r _ => ?_
    by_cases hr : r.minute = x.minute
    · simpa [hr] using hin
    · simp [hr]
  have hold : ∀ r ∈ db.telemetry1m.rows, decide (hour ≤ r.ts ∧ r.ts < hour + 3600) = false := by
    intro r hr
    have hnot := List.filter_eq_nil_iff.mp hfresh r hr
    simpa using hnot
  have hkey : ∀ k g, (MinuteRow.ofGroup k g).ts = k := fun _ _ => rfl
  have hperm : (minutesOf (db.aggregateRollup1m fromTs toTs) hour).Perm _ :=
    Table.perm_filter_upsertGroups (p := fun ts => hour ≤ ts ∧ ts < hour + 3600) hkey hold window
  rw [hrows, List.map_congr_left fun k hk => congrArg (MinuteRow.ofGroup k) (hgroup k hk)] at hperm
  exact hperm

/-- The second rollup rewrites the row of an hour with minutes from all of them. -/
theorem find?_aggregateRollup1h (hmin : ∀ r ∈ db.telemetry1m.rows, 0 ≤ r.ts) (hdvd : 3600 ∣ hour)
    (hcov : Covers hour fromTs toTs) :
    (db.aggregateRollup1h fromTs toTs).telemetry1h.find? hour =
      if minutesOf db hour = [] then db.telemetry1h.find? hour
      else some (HourRow.ofGroup hour (minutesOf db hour)) := by
  let window := db.telemetry1m.rows.filter fun r => truncInt fromTs ≤ r.ts ∧ r.ts < truncInt toTs
  have hfrom : truncInt fromTs ≤ hour := truncInt_le hcov.1
  have hto : hour + 3600 ≤ truncInt toTs := le_truncInt (by exact_mod_cast hcov.2)
  have hgroup : (window.filter fun r => r.hour = hour) = minutesOf db hour := by
    simp only [window, minutesOf, List.filter_filter]
    refine List.filter_congr fun r hr => ?_
    rw [← Bool.decide_and, decide_eq_decide, MinuteRow.hour_eq_iff (hmin r hr) hdvd]
    omega
  have hfind : (db.aggregateRollup1h fromTs toTs).telemetry1h.find? hour = _ :=
    Table.find?_upsertGroups (fun _ _ => rfl) window hour
  have hex : (∃ r ∈ window, r.hour = hour) ↔ minutesOf db hour ≠ [] := by
    rw [← hgroup, ne_eq, List.filter_eq_nil_iff]
    simp
  rw [hfind, hgroup]
  by_cases hnil : minutesOf db hour = []
  · rw [if_pos hnil, if_neg (fun h => hex.mp h hnil)]
  · rw [if_neg hnil, if_pos (hex.mpr hnil)]

theorem Dated.aggregateRollup1m (hd : Dated db) :
    ∀ r ∈ (db.aggregateRollup1m fromTs toTs).telemetry1m.rows, 0 ≤ r.ts := by
  intro r hr
  rcases Table.mem_upsertGroups (fun _ _ => rfl) hr with hr | ⟨x, hx, rfl⟩
  · exact hd.minutes r hr
  · exact minute_nonneg (hd.raw x (List.mem_filter.mp hx).1)

theorem weightedMean_perm {g g' : List MinuteRow} (h : g.Perm g') (c : Metric) :
    HourRow.weightedMean g c = HourRow.weightedMean g' c := by
  have hlen : HourRow.samplesOf g = HourRow.samplesOf g' := (h.map _).sum_eq
  have hsum := h.map fun r => (r.avg c).map fun x : ℚ => x * r.samples
  rw [HourRow.weightedMean, HourRow.weightedMean, hlen, Sql.sum_eq, Sql.sum_eq,
    hsum.countP_eq, (hsum.map _).sum_eq]

def rollUp (db : Database) (fromTs toTs fromTs' toTs' : ℚ) : Database :=
  (db.aggregateRollup1m fromTs toTs).aggregateRollup1h fromTs' toTs'

/-- A database with the raw rows of an hour and nothing else of it. -/
structure Unrolled (db : Database) (hour : ℤ) : Prop extends Dated db where
  noMinutes : minutesOf db hour = []
  noHour : rowsOf db hour = [] → db.telemetry1h.find? hour = none

variable {fromTs' toTs' : ℚ} {c : Metric}

theorem hourlyAverage_rollUp (hu : Unrolled db hour) (hdvd : 3600 ∣ hour)
    (hcov : Covers hour fromTs toTs) (hcov' : Covers hour fromTs' toTs')
    (hc : c ∈ hourAvgMetrics) :
    hourlyAverage (rollUp db fromTs toTs fromTs' toTs') hour c =
      if rowsOf db hour = [] then none else
        HourRow.weightedMean (minuteRows (rowsOf db hour)) c := by
  have hperm := perm_minutesOf hu.toDated hdvd hcov hu.noMinutes
  have hnil : minutesOf (db.aggregateRollup1m fromTs toTs) hour = [] ↔ rowsOf db hour = [] := by
    rw [← List.length_eq_zero_iff, hperm.length_eq, List.length_eq_zero_iff, minuteRows,
      List.map_eq_nil_iff, List.dedup_eq_nil, List.map_eq_nil_iff]
  rw [hourlyAverage, rollUp, find?_aggregateRollup1h hu.aggregateRollup1m hdvd hcov']
  by_cases hrows : rowsOf db hour = []
  · rw [if_pos (hnil.mpr hrows), if_pos hrows]
    show (db.telemetry1h.find? hour).bind _ = none
    rw [hu.noHour hrows, Option.bind_none]
  · rw [if_neg (mt hnil.mp hrows), if_neg hrows, Option.bind_some]
    show (if c ∈ hourAvgMetrics then _ else _) = _
    rw [if_pos hc, weightedMean_perm hperm]

theorem hourlyAverage_eq_iff (hu : Unrolled db hour) (hdvd : 3600 ∣ hour)
    (hcov : Covers hour fromTs toTs) (hcov' : Covers hour fromTs' toTs')
    (hc : c ∈ hourAvgMetrics) :
    hourlyAverage (rollUp db fromTs toTs fromTs' toTs') hour c = meanIn c (rowsOf db hour) ↔
      Cancels c (rowsOf db hour) := by
  rw [hourlyAverage_rollUp hu hdvd hcov hcov' hc]
  by_cases hrows : rowsOf db hour = []
  · rw [if_pos hrows, hrows]
    exact iff_of_true rfl (by simp [Cancels, minuteKeys])
  · rw [if_neg hrows, weightedMean_eq_meanIn_iff hc hrows]

end Rollup

section Revalue

/-- The database in which the samples of the metric have other values. -/
def revalue (c : Metric) (v : TelemetryRow → ℚ) (db : Database) : Database :=
  { db with telemetry := db.telemetry.map (TelemetryRow.revalue c v) }

variable {db : Database} {hour : ℤ} {c : Metric} {v : TelemetryRow → ℚ} {rows : List TelemetryRow}

theorem rowsOf_revalue :
    rowsOf (revalue c v db) hour = (rowsOf db hour).map (TelemetryRow.revalue c v) := by
  rw [rowsOf, rowsOf, revalue, List.filter_map]
  rfl

theorem ofMinute_revalue (k : ℤ) :
    ofMinute (rows.map (TelemetryRow.revalue c v)) k =
      (ofMinute rows k).map (TelemetryRow.revalue c v) := by
  rw [ofMinute, ofMinute, List.filter_map]
  rfl

theorem samplesIn_revalue :
    samplesIn c (rows.map (TelemetryRow.revalue c v)) = samplesIn c rows := by
  rw [samplesIn, samplesIn, List.countP_map]
  refine List.countP_congr fun r _ => ?_
  simp [TelemetryRow.revalue]

theorem minuteKeys_revalue :
    minuteKeys (rows.map (TelemetryRow.revalue c v)) = minuteKeys rows := by
  rw [minuteKeys, minuteKeys, List.map_map]
  rfl

theorem excessRows_revalue (k : ℤ) :
    excessRows c (rows.map (TelemetryRow.revalue c v)) k = excessRows c rows k := by
  rw [excessRows, excessRows, ofMinute_revalue, samplesIn_revalue, samplesIn_revalue,
    List.length_map, List.length_map]

theorem totalIn_revalue_const {x : ℚ} (hv : ∀ r ∈ rows, v r = x) :
    totalIn c (rows.map (TelemetryRow.revalue c v)) = x * samplesIn c rows := by
  induction rows with
  | nil => simp [totalIn, samplesIn]
  | cons r rows ih =>
    have hrest := ih fun y hy => hv y (List.mem_cons_of_mem r hy)
    have hr := hv r List.mem_cons_self
    simp only [totalIn, List.map_cons, List.sum_cons, samplesIn, List.countP_cons] at hrest ⊢
    rw [hrest]
    cases hm : r.metric c with
    | none => simp [TelemetryRow.revalue, hm]
    | some y => simp [TelemetryRow.revalue, hm, hr, mul_add, add_comm]

theorem forall_cancels_iff :
    (∀ v, Cancels c (rows.map (TelemetryRow.revalue c v))) ↔ EvenlySampled c rows := by
  rw [evenlySampled_iff]
  constructor
  · intro h
    have hweight : ∀ k ∈ minuteKeys rows, 0 ≤ ((ofMinute rows k).length : ℚ) :=
      fun k _ => Nat.cast_nonneg _
    have hcount : ∀ k ∈ minuteKeys rows, 0 ≤ (samplesIn c (ofMinute rows k) : ℚ) :=
      fun k _ => Nat.cast_nonneg _
    have hall := (Grouping.forall_excess_cancels_iff hweight hcount).mp ?_
    · intro k hk
      rw [excessRows_eq, hall k hk]
    · intro mean
      have hmean := h fun r => mean r.minute
      rw [Cancels, minuteKeys_revalue] at hmean
      refine (Finset.sum_congr rfl fun k _ => ?_).trans hmean
      have hk : ∀ r ∈ ofMinute rows k, mean r.minute = mean k := fun r hr => by
        have hr' : r.minute = k := by simpa [ofMinute] using (List.mem_filter.mp hr).2
        rw [hr']
      rw [getD_meanIn, excessRows_revalue, ofMinute_revalue, totalIn_revalue_const hk,
        samplesIn_revalue, excessRows_eq]
  · intro h v
    rw [Cancels, minuteKeys_revalue]
    refine Finset.sum_eq_zero fun k hk => ?_
    rw [excessRows_revalue, h k hk, mul_zero]

theorem Unrolled.revalue (hu : Unrolled db hour) (c : Metric) (v : TelemetryRow → ℚ) :
    Unrolled (revalue c v db) hour where
  raw r hr := by
    obtain ⟨x, hx, rfl⟩ := List.mem_map.mp hr
    exact hu.raw x hx
  minutes := hu.minutes
  noMinutes := hu.noMinutes
  noHour h := by
    rw [rowsOf_revalue, List.map_eq_nil_iff] at h
    exact hu.noHour h

end Revalue

/-- For every collection of raw rows of an hour, rolled up over windows that cover it: the hour
table has the mean of a metric's samples exactly when the excess rows of the minutes cancel out, and
has it whatever the values of the samples exactly when all minutes have the metric in the same share
of their rows. -/
theorem hourly_average_iff (db : Database) (hour : ℤ) (fromTs toTs fromTs' toTs' : ℚ) (c : Metric)
    (hu : Unrolled db hour) (hdvd : 3600 ∣ hour) (hcov : Covers hour fromTs toTs)
    (hcov' : Covers hour fromTs' toTs') (hc : c ∈ hourAvgMetrics) :
    (hourlyAverage (rollUp db fromTs toTs fromTs' toTs') hour c = meanIn c (rowsOf db hour) ↔
      Cancels c (rowsOf db hour)) ∧
    ((∀ v, hourlyAverage (rollUp (revalue c v db) fromTs toTs fromTs' toTs') hour c =
        meanIn c (rowsOf (revalue c v db) hour)) ↔ EvenlySampled c (rowsOf db hour)) := by
  constructor
  · exact hourlyAverage_eq_iff hu hdvd hcov hcov' hc
  · rw [← forall_cancels_iff]
    refine forall_congr' fun v => ?_
    rw [hourlyAverage_eq_iff (hu.revalue c v) hdvd hcov hcov' hc, rowsOf_revalue]

def powerSamples (samples : List (ℚ × Option ℚ)) : Database :=
  samples.foldl (fun db s => db.writeTelemetry s.1
    (fun name => if name = "total_kw" then s.2 else none) .running 0) .empty

/-- Each of two minutes lacks the power in one of its two rows. -/
def evenSamples : Database := powerSamples [(0, some 10), (30, none), (60, some 40), (90, none)]

theorem even_samples_averaged :
    hourlyAverage (rollUp evenSamples 0 3600 0 3600) 0 .kw = some 25 := by
  have hu : Unrolled evenSamples 0 :=
    { raw := by decide +kernel, minutes := by decide +kernel, noMinutes := by decide +kernel,
      noHour := fun _ => rfl }
  have hiff := hourly_average_iff evenSamples 0 0 3600 0 3600 .kw hu (by decide)
    (by simp [Covers]) (by simp [Covers]) (by decide)
  rw [hiff.1.mpr (by decide +kernel)]
  decide +kernel

/-- The second row of the first minute lacks the power. -/
def unevenSamples : Database := powerSamples [(0, some 10), (30, none), (60, some 40)]

/-- The minute that lacks a sample counts twice: 20 kW are stored instead of 25. -/
theorem missing_sample_skews_average :
    Unrolled unevenSamples 0 ∧
      hourlyAverage (rollUp unevenSamples 0 3600 0 3600) 0 .kw = some 20 ∧
      meanIn .kw (rowsOf unevenSamples 0) = some 25 := by
  refine ⟨?_, by decide +kernel, by decide +kernel⟩
  exact { raw := by decide +kernel, minutes := by decide +kernel, noMinutes := by decide +kernel,
          noHour := fun _ => rfl }

end History

end GenWatch

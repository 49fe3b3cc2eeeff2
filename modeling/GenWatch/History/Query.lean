import Mathlib.Data.List.Sort
import GenWatch.Prelude.Stride
import GenWatch.Db.Tables

/-! # History queries

A query picks the table by the span it asks for and by the metrics the table has, reads
the rows of the span in time order, and thins them out to about the number of points it
was asked for. A value that is `NULL` is returned as zero, and a whole second that SQLite
has no integer for is an error.
-/

namespace GenWatch

open Stride

inductive HistoryTier where
  | raw
  | minute
  | hour
  deriving DecidableEq, Repr

def rawTierMaxSpanS : ℚ := 6 * 3600

def rollup1mMaxSpanS : ℚ := 14 * 86400

/-- The coarsest table that bounds the points of the span and has the metric. -/
def historyTier (metric : Metric) (fromTs toTs : ℚ) : HistoryTier :=
  let span := max 1 (toTs - fromTs)
  if span ≤ rawTierMaxSpanS then .raw
  else if span ≤ rollup1mMaxSpanS ∧ metric ∈ minuteAvgMetrics then .minute
  else if metric ∈ hourAvgMetrics then .hour
  else if metric ∈ minuteAvgMetrics then .minute
  else .raw

/-- The integer is too large for SQLite. -/
structure OverflowError where
  value : ℤ
  deriving DecidableEq, Repr

/-- SQLite has this integer. -/
def Fits (n : ℤ) : Prop := -2 ^ 63 ≤ n ∧ n < 2 ^ 63

instance : DecidablePred Fits := fun _ => inferInstanceAs (Decidable (_ ∧ _))

/-- An integer becomes a parameter of a query. -/
def bindInt (n : ℤ) : Except OverflowError ℤ := if Fits n then .ok n else .error ⟨n⟩

/-- The bounds that a table is queried with: whole seconds but for raw rows. -/
def historyBounds (fromTs toTs : ℚ) : HistoryTier → Except OverflowError (ℚ × ℚ)
  | .raw => .ok (fromTs, toTs)
  | .minute | .hour => do
    let first ← bindInt (truncInt fromTs)
    let last ← bindInt (truncInt toTs)
    return (first, last)

/-- A time and what the table has for a metric then. -/
abbrev Sample := ℚ × Option ℚ

def EarlierEq (a b : Sample) : Prop := a.1 ≤ b.1

instance : DecidableRel EarlierEq := fun a b => inferInstanceAs (Decidable (a.1 ≤ b.1))

instance : Std.Total EarlierEq := ⟨fun a b => le_total a.1 b.1⟩

instance : IsTrans Sample EarlierEq := ⟨fun _ _ _ => le_trans⟩

namespace Database

variable (db : Database)

/-- The samples of a table in time order, rows of one time in the order they were written. -/
def samples (tier : HistoryTier) (metric : Metric) : List Sample :=
  List.insertionSort EarlierEq <|
    match tier with
    | .raw => db.telemetry.map fun r => (r.ts, r.metric metric)
    | .minute => db.telemetry1m.rows.map fun r => ((r.ts : ℚ), r.avg metric)
    | .hour => db.telemetry1h.rows.map fun r => ((r.ts : ℚ), r.avg metric)

def selectHistory (tier : HistoryTier) (metric : Metric) (bounds : ℚ × ℚ) : List Sample :=
  (db.samples tier metric).filter fun r => bounds.1 ≤ r.1 ∧ r.1 ≤ bounds.2

variable (metric : Metric) (fromTs toTs : ℚ) (maxPoints : ℕ)

def readTelemetry : Except OverflowError (List (ℚ × ℚ)) := do
  let tier := historyTier metric fromTs toTs
  let bounds ← historyBounds fromTs toTs tier
  return (thin maxPoints (db.selectHistory tier metric bounds)).map fun r => (r.1, r.2.getD 0)

/-- The points stored for a metric in the table of the query, within the span. -/
def storedPoints : List (ℚ × ℚ) :=
  ((db.samples (historyTier metric fromTs toTs) metric).filter fun r =>
    (⌊fromTs⌋ : ℚ) ≤ r.1 ∧ r.1 ≤ toTs).filterMap fun r => r.2.map (r.1, ·)

/-- What the points of an answer are to be like. -/
structure FaithfulPoints (points : List (ℚ × ℚ)) : Prop where
  bounded : points.length ≤ maxPoints
  ordered : points.Pairwise fun p q => p.1 ≤ q.1
  stored : points.Sublist (db.storedPoints metric fromTs toTs)

/-- The query is answered, with points that are stored. -/
def Faithful (answer : Except OverflowError (List (ℚ × ℚ))) : Prop :=
  ∃ points, answer = .ok points ∧ db.FaithfulPoints metric fromTs toTs maxPoints points

/-- The stored rows that the query is about: those of its table from one bound to the other, in time
order. -/
def spanRows : List Sample :=
  let tier := historyTier metric fromTs toTs
  let bounds : ℚ × ℚ := if tier = .raw then (fromTs, toTs) else (truncInt fromTs, truncInt toTs)
  db.selectHistory tier metric bounds

/-- SQLite has the whole seconds of the span; the stored rows of the span are as many as the points
asked for, or fewer, or a multiple of them; and the first row, and then every so many-th for so many
times as many rows, has a value and is not late. -/
structure Presentable : Prop where
  fits : historyTier metric fromTs toTs ≠ .raw → Fits (truncInt fromTs) ∧ Fits (truncInt toTs)
  count : (db.spanRows metric fromTs toTs).length ≤ maxPoints ∨
    maxPoints ∣ (db.spanRows metric fromTs toTs).length
  kept : ∀ i, max 1 ((db.spanRows metric fromTs toTs).length / maxPoints) ∣ i →
    ∀ r ∈ (db.spanRows metric fromTs toTs)[i]?, r.2 ≠ none ∧ r.1 ≤ toTs

variable {db metric fromTs toTs maxPoints}

theorem samples_ordered (tier : HistoryTier) :
    (db.samples tier metric).Pairwise EarlierEq :=
  List.pairwise_insertionSort EarlierEq _

theorem historyBounds_eq_ok {tier : HistoryTier} {bounds : ℚ × ℚ} :
    historyBounds fromTs toTs tier = .ok bounds ↔
      (tier ≠ .raw → Fits (truncInt fromTs) ∧ Fits (truncInt toTs)) ∧
        bounds = if tier = .raw then (fromTs, toTs) else (truncInt fromTs, truncInt toTs) := by
  have hwhole : (do
      let first ← bindInt (truncInt fromTs)
      let last ← bindInt (truncInt toTs)
      return ((first : ℚ), (last : ℚ)) : Except OverflowError (ℚ × ℚ)) = .ok bounds ↔
      (Fits (truncInt fromTs) ∧ Fits (truncInt toTs)) ∧
        bounds = (↑(truncInt fromTs), ↑(truncInt toTs)) := by
    unfold bindInt
    by_cases hfirst : Fits (truncInt fromTs)
    · by_cases hlast : Fits (truncInt toTs)
      · simp [hfirst, hlast, bind, Except.bind, pure, Except.pure, eq_comm]
      · simp [hfirst, hlast, bind, Except.bind]
    · simp [hfirst, bind, Except.bind]
  cases tier with
  | raw => simp [historyBounds, eq_comm]
  | minute => simpa [historyBounds] using hwhole
  | hour => simpa [historyBounds] using hwhole

theorem readTelemetry_eq_ok {points : List (ℚ × ℚ)} :
    db.readTelemetry metric fromTs toTs maxPoints = .ok points ↔
      (historyTier metric fromTs toTs ≠ .raw →
        Fits (truncInt fromTs) ∧ Fits (truncInt toTs)) ∧
      points =
        (thin maxPoints (db.spanRows metric fromTs toTs)).map fun r => (r.1, r.2.getD 0) := by
  unfold readTelemetry spanRows
  cases hbounds : historyBounds fromTs toTs (historyTier metric fromTs toTs) with
  | ok bounds =>
    obtain ⟨hfits, rfl⟩ := historyBounds_eq_ok.mp hbounds
    simp only [hbounds, bind, Except.bind, pure, Except.pure, Except.ok.injEq]
    exact ⟨fun h => ⟨hfits, h.symm⟩, fun h => h.2.symm⟩
  | error e =>
    simp only [hbounds, bind, Except.bind, reduceCtorEq, false_iff]
    rintro ⟨hfits, -⟩
    rw [historyBounds_eq_ok.mpr ⟨hfits, rfl⟩] at hbounds
    cases hbounds

theorem mem_spanRows {r : Sample} (h : r ∈ db.spanRows metric fromTs toTs) :
    r ∈ db.samples (historyTier metric fromTs toTs) metric ∧ (⌊fromTs⌋ : ℚ) ≤ r.1 := by
  obtain ⟨hr, hin⟩ := List.mem_filter.mp h
  have hlow := (of_decide_eq_true hin).1
  refine ⟨hr, le_trans ?_ hlow⟩
  split
  · exact Int.floor_le fromTs
  · have htrunc : (⌊fromTs⌋ : ℚ) ≤ truncInt fromTs := by
      exact_mod_cast le_truncInt (Int.floor_le fromTs)
    exact htrunc

theorem spanRows_ordered (db : Database) (metric : Metric) (fromTs toTs : ℚ) :
    (db.spanRows metric fromTs toTs).Pairwise EarlierEq :=
  (samples_ordered _).sublist List.filter_sublist

/-- The rows that are left after thinning out are those whose rank is a multiple of the stride. -/
theorem kept_iff :
    (∀ i, max 1 ((db.spanRows metric fromTs toTs).length / maxPoints) ∣ i →
      ∀ r ∈ (db.spanRows metric fromTs toTs)[i]?, r.2 ≠ none ∧ r.1 ≤ toTs) ↔
    ∀ r ∈ thin maxPoints (db.spanRows metric fromTs toTs), r.2 ≠ none ∧ r.1 ≤ toTs := by
  constructor
  · intro h r hr
    obtain ⟨i, hdvd, hi⟩ := mem_thin.mp hr
    exact h i hdvd r hi
  · intro h i hdvd r hi
    exact h r (mem_thin.mpr ⟨i, hdvd, hi⟩)

theorem points_sublist
    (h : ∀ r ∈ thin maxPoints (db.spanRows metric fromTs toTs), r.2 ≠ none ∧ r.1 ≤ toTs) :
    ((thin maxPoints (db.spanRows metric fromTs toTs)).map fun r => (r.1, r.2.getD 0)).Sublist
      (db.storedPoints metric fromTs toTs) := by
  have hvalues : (thin maxPoints (db.spanRows metric fromTs toTs)).map
      (fun r => (r.1, r.2.getD 0)) =
      (thin maxPoints (db.spanRows metric fromTs toTs)).filterMap fun r => r.2.map (r.1, ·) := by
    rw [← List.filterMap_eq_map]
    refine List.filterMap_congr fun r hr => ?_
    obtain ⟨v, hv⟩ := Option.ne_none_iff_exists'.mp (h r hr).1
    simp [hv]
  rw [hvalues]
  apply List.Sublist.filterMap
  have hself : thin maxPoints (db.spanRows metric fromTs toTs) =
      (thin maxPoints (db.spanRows metric fromTs toTs)).filter
        fun r => (⌊fromTs⌋ : ℚ) ≤ r.1 ∧ r.1 ≤ toTs := by
    symm
    rw [List.filter_eq_self]
    intro r hr
    exact decide_eq_true ⟨(mem_spanRows (thin_sublist.subset hr)).2, (h r hr).2⟩
  rw [hself]
  exact (thin_sublist.trans List.filter_sublist).filter _

/-- Where no two rows have one time, a row that is returned as a stored point is that point. -/
theorem kept_of_sublist
    (hnodup : ((db.samples (historyTier metric fromTs toTs) metric).map Prod.fst).Nodup)
    (h : ((thin maxPoints (db.spanRows metric fromTs toTs)).map
      fun r => (r.1, r.2.getD 0)).Sublist (db.storedPoints metric fromTs toTs)) :
    ∀ r ∈ thin maxPoints (db.spanRows metric fromTs toTs), r.2 ≠ none ∧ r.1 ≤ toTs := by
  intro r hr
  have hpoint : (r.1, r.2.getD 0) ∈ db.storedPoints metric fromTs toTs :=
    h.subset (List.mem_map_of_mem hr)
  obtain ⟨r', hr', hvalue⟩ := List.mem_filterMap.mp hpoint
  obtain ⟨hmem, hin⟩ := List.mem_filter.mp hr'
  obtain ⟨v, hv, he⟩ := Option.map_eq_some_iff.mp hvalue
  have htime : r'.1 = r.1 := (Prod.mk.inj he).1
  obtain rfl := List.inj_on_of_nodup_map hnodup hmem
    (mem_spanRows (thin_sublist.subset hr)).1 htime
  exact ⟨by simp [hv], (of_decide_eq_true hin).2⟩

variable (db metric fromTs toTs) in
/-- A query is answered faithfully if SQLite has its whole seconds, the number of its rows is at
most that of the points asked for or a multiple of it, and no row whose rank is a multiple of the
stride is `NULL` or late; and only then, where no two rows of the table have one time. -/
theorem read_telemetry_faithful (hmax : 1 ≤ maxPoints) :
    (db.Presentable metric fromTs toTs maxPoints →
      db.Faithful metric fromTs toTs maxPoints
        (db.readTelemetry metric fromTs toTs maxPoints)) ∧
    (((db.samples (historyTier metric fromTs toTs) metric).map Prod.fst).Nodup →
      db.Faithful metric fromTs toTs maxPoints
        (db.readTelemetry metric fromTs toTs maxPoints) →
      db.Presentable metric fromTs toTs maxPoints) := by
  have hlength : (thin maxPoints (db.spanRows metric fromTs toTs)).length ≤ maxPoints ↔
      (db.spanRows metric fromTs toTs).length ≤ maxPoints ∨
        maxPoints ∣ (db.spanRows metric fromTs toTs).length := length_thin_le_iff hmax
  constructor
  · rintro ⟨hfits, hcount, hkept⟩
    refine ⟨_, readTelemetry_eq_ok.mpr ⟨hfits, rfl⟩, ?_, ?_, ?_⟩
    · rw [List.length_map]
      exact hlength.mpr hcount
    · rw [List.pairwise_map]
      exact (spanRows_ordered db metric fromTs toTs).sublist thin_sublist
    · exact points_sublist (kept_iff.mp hkept)
  · rintro hnodup ⟨points, hanswer, hbounded, -, hstored⟩
    obtain ⟨hfits, rfl⟩ := readTelemetry_eq_ok.mp hanswer
    rw [List.length_map] at hbounded
    exact ⟨hfits, hlength.mp hbounded, kept_iff.mpr (kept_of_sublist hnodup hstored)⟩

section Example

def powerRow (ts : ℚ) (kw : Option ℚ) : TelemetryRow :=
  ⟨ts, fun c => if c = .kw then kw else none, .running, 0⟩

def powerLog (n : ℕ) : Database :=
  { Database.empty with telemetry := (List.range n).map fun i => powerRow i (some 100) }

def missedLog : Database := { Database.empty with telemetry := [powerRow 5 none] }

instance (db : Database) (metric : Metric) (fromTs toTs : ℚ) (maxPoints : ℕ)
    (points : List (ℚ × ℚ)) : Decidable (db.FaithfulPoints metric fromTs toTs maxPoints points) :=
  decidable_of_iff (points.length ≤ maxPoints ∧ (points.Pairwise fun p q => p.1 ≤ q.1) ∧
    points.Sublist (db.storedPoints metric fromTs toTs))
    ⟨fun h => ⟨h.1, h.2.1, h.2.2⟩, fun h => ⟨h.bounded, h.ordered, h.stored⟩⟩

/-- Twenty rows, thinned out to ten points. -/
theorem twenty_rows_as_ten :
    (∃ points, (powerLog 20).readTelemetry .kw 0 3600 10 = .ok points ∧ points.length = 10) ∧
      (powerLog 20).Faithful .kw 0 3600 10 ((powerLog 20).readTelemetry .kw 0 3600 10) := by
  refine ⟨⟨_, readTelemetry_eq_ok.mpr ⟨fun hne => absurd (by decide +kernel) hne, rfl⟩,
    by decide +kernel⟩, (read_telemetry_faithful (powerLog 20) .kw 0 3600 (by decide)).1 ?_⟩
  refine ⟨fun hne => absurd (by decide +kernel) hne, Or.inr (by decide +kernel), ?_⟩
  exact kept_iff.mpr (by decide +kernel)

/-- Eleven rows make eleven points where ten were asked for, a reading that is missing is returned
as a reading of zero, and a span up to a moment that is too late for SQLite is not answered. -/
theorem eleven_points_and_a_zero :
    (¬(powerLog 11).Faithful .kw 0 3600 10 ((powerLog 11).readTelemetry .kw 0 3600 10)) ∧
    (¬missedLog.Faithful .kw 0 3600 10 (missedLog.readTelemetry .kw 0 3600 10)) ∧
    ¬missedLog.Faithful .kw 0 (10 ^ 19) 10 (missedLog.readTelemetry .kw 0 (10 ^ 19) 10) := by
  refine ⟨?_, ?_, ?_⟩
  · rintro ⟨points, hanswer, hfaithful⟩
    obtain ⟨-, rfl⟩ := readTelemetry_eq_ok.mp hanswer
    revert hfaithful
    decide +kernel
  · rintro ⟨points, hanswer, hfaithful⟩
    obtain ⟨-, rfl⟩ := readTelemetry_eq_ok.mp hanswer
    revert hfaithful
    decide +kernel
  · rintro ⟨points, hanswer, -⟩
    obtain ⟨hfits, -⟩ := readTelemetry_eq_ok.mp hanswer
    revert hfits
    decide +kernel

end Example

end Database

end GenWatch

import GenWatch.Prelude.Transition
import GenWatch.Services.Retention

/-! # Hourly history

A tick rewrites the row of every hour that has a minute in its two-hour window, from
the minutes inside the window only. Once the lower edge of the window has passed the
first minutes of an hour, the row is rewritten from the rest. So an hour stays
complete exactly when no tick ever finds its minutes on both sides of the edge, and
the row itself is not pruned.
-/

namespace GenWatch

open Transition RetentionService

/-- The database between ticks, with the time of the last one. -/
structure History where
  db : Database
  clock : ℚ

/-- Times are seconds since the epoch. -/
inductive HistoryLabel where
  | write (ts : ℚ) (values : Values) (state : EngineState) (alarmRaw : ℤ)
  | tick (now : ℚ)

namespace History

def start : History := ⟨.empty, 0⟩

/-- Ticks come at non-decreasing times; telemetry may carry any timestamp. -/
def step (cfg : RetentionConfig) (s : History) : HistoryLabel → Option History
  | .write ts values state alarmRaw =>
    if 0 ≤ ts then some { s with db := s.db.writeTelemetry ts values state alarmRaw } else none
  | .tick now => if s.clock ≤ now then some ⟨tick cfg now s.db, now⟩ else none

def minutesOf (db : Database) (hour : ℤ) : List MinuteRow :=
  db.telemetry1m.rows.filter fun r => hour ≤ r.ts ∧ r.ts < hour + 3600

/-- The lower edge of a tick's window of minutes. -/
def edge (now : ℚ) : ℤ := truncInt (now - 2 * 3600)

/-- The hour row of an hour with minutes aggregates all of them. -/
def HourComplete (db : Database) (hour : ℤ) : Prop :=
  minutesOf db hour ≠ [] →
    ∃ row, db.telemetry1h.find? hour = some row ∧
      row.samples = HourRow.samplesOf (minutesOf db hour) ∧
      row.kwh = HourRow.kwhOf (minutesOf db hour) ∧
      ∀ c ∈ hourAvgMetrics, row.avg c = HourRow.weightedMean (minutesOf db hour) c

/-- The window's edge separates the minutes of the hour. -/
def Split (db : Database) (now : ℚ) (hour : ℤ) : Prop :=
  (∃ r ∈ minutesOf db hour, r.ts < edge now) ∧ ∃ r ∈ minutesOf db hour, edge now ≤ r.ts

instance (db : Database) (now : ℚ) (hour : ℤ) : Decidable (Split db now hour) :=
  inferInstanceAs (Decidable (_ ∧ _))

def PrunesNone (cfg : RetentionConfig) (db : Database) (now : ℚ) (hour : ℤ) : Prop :=
  ∀ r ∈ minutesOf (rollup now db) hour, truncInt (daysBack now cfg.rollup1mDays) ≤ r.ts

instance (cfg : RetentionConfig) (db : Database) (now : ℚ) (hour : ℤ) :
    Decidable (PrunesNone cfg db now hour) :=
  inferInstanceAs (Decidable (∀ _ ∈ _, _))

/-- The hour table still covers the hour. -/
def HourKept (cfg : RetentionConfig) (now : ℚ) (hour : ℤ) : Prop :=
  cfg.rollup1hDays ≤ 0 ∨ truncInt (daysBack now cfg.rollup1hDays) ≤ hour

instance (cfg : RetentionConfig) (now : ℚ) (hour : ℤ) : Decidable (HourKept cfg now hour) :=
  inferInstanceAs (Decidable (_ ∨ _))

variable {cfg : RetentionConfig} {s s' : History} {db : Database} {now : ℚ} {hour : ℤ}

theorem mem_minutesOf {r : MinuteRow} :
    r ∈ minutesOf db hour ↔ r ∈ db.telemetry1m.rows ∧ hour ≤ r.ts ∧ r.ts < hour + 3600 := by
  simp [minutesOf]

theorem edge_mono {now now' : ℚ} (h : now ≤ now') : edge now ≤ edge now' :=
  truncInt_mono (by linarith)

theorem HourKept.mono {now' : ℚ} (h : now ≤ now') (hk : HourKept cfg now' hour) :
    HourKept cfg now hour :=
  hk.imp_right fun hle => (truncInt_mono (by unfold daysBack; linarith)).trans hle

section Tick

theorem telemetry1m_tick :
    (tick cfg now db).telemetry1m = (rollup now db).telemetry1m.deleteWhere
      fun r => r.ts < truncInt (daysBack now cfg.rollup1mDays) := by
  unfold tick prune
  split <;> split <;> simp [Database.telemetry1m_pruneRollup1m]

theorem find?_telemetry1h_tick :
    (tick cfg now db).telemetry1h.find? hour =
      if HourKept cfg now hour then (rollup now db).telemetry1h.find? hour else none := by
  have hprune : (tick cfg now db).telemetry1h =
      if 0 < cfg.rollup1hDays then
        (rollup now db).telemetry1h.deleteWhere
          fun r => r.ts < truncInt (daysBack now cfg.rollup1hDays)
      else (rollup now db).telemetry1h := by
    unfold tick prune
    split
    · split <;> simp [Database.telemetry1h_pruneRollup1h]
    · split <;> simp
  rw [hprune]
  by_cases hdays : 0 < cfg.rollup1hDays
  · rw [if_pos hdays, Table.find?_deleteWhere]
    cases hf : (rollup now db).telemetry1h.find? hour with
    | none => simp
    | some row =>
      obtain ⟨-, rfl⟩ := Table.find?_eq_some.mp hf
      simp [Option.filter, HourKept, hdays.not_ge]
  · have hkept : HourKept cfg now hour := Or.inl (not_lt.mp hdays)
    rw [if_neg hdays, if_pos hkept]

theorem telemetry_tick_sublist : (tick cfg now db).telemetry.Sublist db.telemetry := by
  unfold tick prune
  split <;> split <;> exact Sql.deleteChunks_sublist _ _ _ _

theorem minutesOf_tick (h : PrunesNone cfg db now hour) :
    minutesOf (tick cfg now db) hour = minutesOf (rollup now db) hour := by
  rw [minutesOf, telemetry1m_tick]
  show List.filter _ (List.filter _ _) = _
  rw [List.filter_filter]
  refine List.filter_congr fun r hr => ?_
  have hkeep := h r
  rw [mem_minutesOf] at hkeep
  by_cases hin : hour ≤ r.ts ∧ r.ts < hour + 3600
  · simp [hin, hkeep ⟨hr, hin⟩]
  · simp [hin]

end Tick

structure Sound (s : History) : Prop where
  raw : ∀ r ∈ s.db.telemetry, 0 ≤ r.ts
  minutes : ∀ r ∈ s.db.telemetry1m.rows, 0 ≤ r.ts ∧ (r.ts : ℚ) < s.clock - 60 ∧ 0 < r.samples

theorem Sound.rollup_minutes (hs : Sound s) (hnow : s.clock ≤ now) {r : MinuteRow}
    (hr : r ∈ (rollup now s.db).telemetry1m.rows) :
    0 ≤ r.ts ∧ (r.ts : ℚ) < now - 60 ∧ 0 < r.samples := by
  rcases Table.mem_upsertGroups (fun _ _ => rfl) hr with hr | ⟨x, hx, rfl⟩
  · obtain ⟨h0, hlt, hpos⟩ := hs.minutes r hr
    exact ⟨h0, hlt.trans_le (by linarith), hpos⟩
  · have hmem := hx
    rw [List.mem_filter, decide_eq_true_eq] at hx
    obtain ⟨hraw, -, hlt⟩ := hx
    have h0 := hs.raw x hraw
    refine ⟨TelemetryRow.minute_nonneg h0, (TelemetryRow.minute_le h0).trans_lt hlt, ?_⟩
    exact List.length_pos_of_mem (List.mem_filter.mpr ⟨hmem, by simp⟩)

theorem sound_start : Sound start :=
  ⟨by simp [start, Database.empty], by simp [start, Database.empty]⟩

theorem Sound.step {l : HistoryLabel} (hs : Sound s) (h : step cfg s l = some s') : Sound s' := by
  cases l with
  | write ts values state alarmRaw =>
    simp only [History.step, Option.ite_none_right_eq_some, Option.some.injEq] at h
    obtain ⟨hts, rfl⟩ := h
    refine ⟨fun r hr => ?_, hs.minutes⟩
    rcases List.mem_append.mp hr with hr | hr
    · exact hs.raw r hr
    · rw [List.mem_singleton.mp hr]
      exact hts
  | tick now =>
    simp only [History.step, Option.ite_none_right_eq_some, Option.some.injEq] at h
    obtain ⟨hnow, rfl⟩ := h
    refine ⟨fun r hr => hs.raw r (telemetry_tick_sublist.mem hr), fun r hr => ?_⟩
    rw [telemetry1m_tick, Table.mem_deleteWhere] at hr
    exact hs.rollup_minutes hnow hr.1

theorem Sound.edge_le_of_minute (hs : Sound s) (hdvd : 3600 ∣ hour) {x : TelemetryRow}
    (hx : x ∈ s.db.telemetry) (hfrom : now - 3600 ≤ x.ts)
    (hin : hour ≤ x.minute ∧ x.minute < hour + 3600) : edge now ≤ hour := by
  have hmin : x.minute + 60 ≤ hour + 3600 := by
    have := TelemetryRow.dvd_minute x
    omega
  have hmin' : (x.minute : ℚ) + 60 ≤ hour + 3600 := by exact_mod_cast hmin
  have hlt := TelemetryRow.lt_minute_add (hs.raw x hx)
  exact truncInt_le (by linarith)

/-- The rollup of a tick leaves the minutes of the hour, or has the whole hour in its window. -/
theorem Sound.minutesOf_rollup (hs : Sound s) (now : ℚ) (hdvd : 3600 ∣ hour) :
    minutesOf (rollup now s.db) hour = minutesOf s.db hour ∨
      (edge now ≤ hour ∧ minutesOf (rollup now s.db) hour ≠ []) := by
  let window := s.db.telemetry.filter fun r => now - 3600 ≤ r.ts ∧ r.ts < now - 60
  by_cases hin : ∃ x ∈ window, hour ≤ x.minute ∧ x.minute < hour + 3600
  · right
    obtain ⟨x, hx, hmin⟩ := hin
    have hkey : x.minute ∈ (rollup now s.db).telemetry1m.keys :=
      Table.bucket_mem_keys_upsertGroups (fun _ _ => rfl) hx
    obtain ⟨row, hrow, hts⟩ := Table.mem_keys.mp hkey
    rw [List.mem_filter, decide_eq_true_eq] at hx
    exact ⟨hs.edge_le_of_minute hdvd hx.1 hx.2.1 hmin,
      List.ne_nil_of_mem (mem_minutesOf.mpr ⟨hrow, hts ▸ hmin⟩)⟩
  · left
    refine Table.filter_upsertGroups (p := fun ts => hour ≤ ts ∧ ts < hour + 3600)
      (fun _ _ => rfl) fun x hx => ?_
    exact decide_eq_false fun hmin => hin ⟨x, hx, hmin⟩

/-- The rollup of a tick rewrites the row of the hour from its minutes in the window, if any. -/
theorem Sound.find?_rollup (hs : Sound s) (hnow : s.clock ≤ now) (hdvd : 3600 ∣ hour) :
    (rollup now s.db).telemetry1h.find? hour =
      if ∃ r ∈ minutesOf (rollup now s.db) hour, edge now ≤ r.ts then
        some (HourRow.ofGroup hour
          ((minutesOf (rollup now s.db) hour).filter fun r => edge now ≤ r.ts))
      else s.db.telemetry1h.find? hour := by
  let window := (rollup now s.db).telemetry1m.rows.filter
    fun r => edge now ≤ r.ts ∧ r.ts < truncInt now
  have hfilter : (window.filter fun r => r.hour = hour) =
      (minutesOf (rollup now s.db) hour).filter fun r => edge now ≤ r.ts := by
    simp only [window, minutesOf, List.filter_filter]
    refine List.filter_congr fun r hr => ?_
    obtain ⟨h0, hlt, -⟩ := hs.rollup_minutes hnow hr
    have hbefore : r.ts + 60 ≤ truncInt now := le_truncInt (by push_cast; linarith)
    have hto : r.ts < truncInt now := by omega
    simp [MinuteRow.hour_eq_iff h0 hdvd, hto, Bool.and_comm]
  have hex : (∃ r ∈ window, r.hour = hour) ↔
      ∃ r ∈ minutesOf (rollup now s.db) hour, edge now ≤ r.ts := by
    have hmem : ∀ r, r ∈ window.filter (fun r => r.hour = hour) ↔ _ := fun r => by rw [hfilter]
    simpa [List.mem_filter] using exists_congr hmem
  rw [← hfilter]
  simp only [← hex]
  exact Table.find?_upsertGroups (fun _ _ => rfl) window hour

/-- The row of the hour was last rewritten with the window at `from_`. -/
structure RolledFrom (cfg : RetentionConfig) (s : History) (hour from_ : ℤ) (split : Prop) :
    Prop where
  reached : ∃ r ∈ minutesOf s.db hour, from_ ≤ r.ts
  passed : from_ ≤ edge s.clock
  row : s.db.telemetry1h.find? hour =
    if HourKept cfg s.clock hour then
      some (HourRow.ofGroup hour ((minutesOf s.db hour).filter fun r => from_ ≤ r.ts))
    else none
  split_iff : split ↔ ∃ r ∈ minutesOf s.db hour, r.ts < from_

/-- Where the hour stands, when `split` says whether some tick has split it. -/
def Tracked (cfg : RetentionConfig) (s : History) (hour : ℤ) (split : Prop) : Prop :=
  (minutesOf s.db hour = [] ∧ s.db.telemetry1h.find? hour = none ∧ ¬ split) ∨
    ∃ from_, RolledFrom cfg s hour from_ split

theorem Sound.rolledFrom (hs : Sound s) (hnow : s.clock ≤ now) (hdvd : 3600 ∣ hour)
    (hkeep : PrunesNone cfg s.db now hour) {split : Prop}
    (hin : ∃ r ∈ minutesOf (rollup now s.db) hour, edge now ≤ r.ts)
    (hsplit : split ↔ ∃ r ∈ minutesOf (rollup now s.db) hour, r.ts < edge now) :
    RolledFrom cfg ⟨tick cfg now s.db, now⟩ hour (edge now) split where
  reached := by rwa [minutesOf_tick hkeep]
  passed := le_rfl
  row := by rw [find?_telemetry1h_tick, hs.find?_rollup hnow hdvd, if_pos hin, minutesOf_tick hkeep]
  split_iff := by rwa [minutesOf_tick hkeep]

theorem Sound.find?_tick_of_passed (hs : Sound s) (hnow : s.clock ≤ now) (hdvd : 3600 ∣ hour)
    (hin : ¬ ∃ r ∈ minutesOf (rollup now s.db) hour, edge now ≤ r.ts) :
    (tick cfg now s.db).telemetry1h.find? hour =
      if HourKept cfg now hour then s.db.telemetry1h.find? hour else none := by
  rw [find?_telemetry1h_tick, hs.find?_rollup hnow hdvd, if_neg hin]

theorem Tracked.write {split : Prop} (h : Tracked cfg s hour split) (ts : ℚ) (values : Values)
    (state : EngineState) (alarmRaw : ℤ) :
    Tracked cfg { s with db := s.db.writeTelemetry ts values state alarmRaw } hour split :=
  h.imp_right fun ⟨from_, hfrom⟩ =>
    ⟨from_, hfrom.reached, hfrom.passed, hfrom.row, hfrom.split_iff⟩

theorem Tracked.exists_lt {split : Prop} (h : Tracked cfg s hour split) (hnow : s.clock ≤ now)
    (hsplit : split) : ∃ r ∈ minutesOf s.db hour, r.ts < edge now := by
  rcases h with ⟨-, -, hnot⟩ | ⟨from_, hfrom⟩
  · exact absurd hsplit hnot
  · obtain ⟨r, hr, hlt⟩ := hfrom.split_iff.mp hsplit
    exact ⟨r, hr, hlt.trans_le (hfrom.passed.trans (edge_mono hnow))⟩

theorem Sound.tracked_passed (hs : Sound s) (hnow : s.clock ≤ now) (hdvd : 3600 ∣ hour)
    (hkeep : PrunesNone cfg s.db now hour) {split : Prop} (h : Tracked cfg s hour split)
    (hsame : minutesOf (rollup now s.db) hour = minutesOf s.db hour)
    (hin : ¬ ∃ r ∈ minutesOf s.db hour, edge now ≤ r.ts) :
    Tracked cfg ⟨tick cfg now s.db, now⟩ hour split := by
  have hrow : (tick cfg now s.db).telemetry1h.find? hour = _ :=
    hs.find?_tick_of_passed hnow hdvd (by rwa [hsame])
  have hmin : minutesOf (tick cfg now s.db) hour = minutesOf s.db hour :=
    (minutesOf_tick hkeep).trans hsame
  rcases h with ⟨hempty, hnone, hnot⟩ | ⟨from_, hfrom⟩
  · exact Or.inl ⟨hmin.trans hempty, by rw [hrow, hnone, ite_self], hnot⟩
  · refine Or.inr ⟨from_, ?_, hfrom.passed.trans (edge_mono hnow), ?_, ?_⟩
    · rw [hmin]
      exact hfrom.reached
    · rw [hrow, hmin, hfrom.row]
      by_cases hk : HourKept cfg now hour
      · rw [if_pos hk, if_pos (hk.mono hnow), if_pos hk]
      · rw [if_neg hk, if_neg hk]
    · rw [hmin]
      exact hfrom.split_iff

theorem Sound.tracked_tick (hs : Sound s) (hnow : s.clock ≤ now) (hdvd : 3600 ∣ hour)
    (hkeep : PrunesNone cfg s.db now hour) {split : Prop} (h : Tracked cfg s hour split) :
    Tracked cfg ⟨tick cfg now s.db, now⟩ hour (split ∨ Split s.db now hour) := by
  rcases hs.minutesOf_rollup now hdvd with hsame | ⟨hedge, hne⟩
  · by_cases hin : ∃ r ∈ minutesOf s.db hour, edge now ≤ r.ts
    · rw [← hsame] at hin
      refine Or.inr ⟨edge now, hs.rolledFrom hnow hdvd hkeep hin ?_⟩
      rw [hsame] at hin ⊢
      exact ⟨fun hor => hor.elim (h.exists_lt hnow) And.left, fun hlow => Or.inr ⟨hlow, hin⟩⟩
    · have hnosplit : ¬ Split s.db now hour := fun hsp => hin hsp.2
      simpa only [hnosplit, or_false] using hs.tracked_passed hnow hdvd hkeep h hsame hin
  · have hnone : ∀ db, ¬ ∃ r ∈ minutesOf db hour, r.ts < edge now := by
      rintro db ⟨r, hr, hlt⟩
      have := (mem_minutesOf.mp hr).2.1
      omega
    have hin : ∃ r ∈ minutesOf (rollup now s.db) hour, edge now ≤ r.ts := by
      obtain ⟨r, hr⟩ := List.exists_mem_of_ne_nil _ hne
      exact ⟨r, hr, hedge.trans (mem_minutesOf.mp hr).2.1⟩
    refine Or.inr ⟨edge now, hs.rolledFrom hnow hdvd hkeep hin (iff_of_false ?_ (hnone _))⟩
    exact fun hor => hnone _ (hor.elim (h.exists_lt hnow) And.left)

theorem samplesOf_filter_lt {g : List MinuteRow} {p : MinuteRow → Bool} {r : MinuteRow}
    (hr : r ∈ g) (hp : p r = false) (hpos : 0 < r.samples) :
    HourRow.samplesOf (g.filter p) < HourRow.samplesOf g := by
  have hsum : HourRow.samplesOf (g.filter p) + HourRow.samplesOf (g.filter fun r => !p r) =
      HourRow.samplesOf g := by
    have hperm := ((List.filter_append_perm p g).map MinuteRow.samples).sum_eq
    rwa [List.map_append, List.sum_append] at hperm
  have hle : r.samples ≤ HourRow.samplesOf (g.filter fun r => !p r) :=
    List.single_le_sum (by simp) _
      (List.mem_map_of_mem (List.mem_filter.mpr ⟨hr, by simp [hp]⟩))
  omega

section Run

variable {ls : List HistoryLabel}

/-- Some tick of the run splits the hour. -/
def EverSplit (cfg : RetentionConfig) (ls : List HistoryLabel) (hour : ℤ) : Prop :=
  ∃ s now s', Takes (step cfg) start ls s (.tick now) s' ∧ Split s.db now hour

/-- No tick of the run prunes a minute of the hour. -/
def Retained (cfg : RetentionConfig) (ls : List HistoryLabel) (hour : ℤ) : Prop :=
  ∀ s now s', Takes (step cfg) start ls s (.tick now) s' → PrunesNone cfg s.db now hour

theorem sound_of_run (h : run (step cfg) start ls = some s) : Sound s :=
  run_invariant (fun _ _ _ _ hs hstep => hs.step hstep) sound_start h

theorem everSplit_snoc {l : HistoryLabel} {t : History} (ht : run (step cfg) start ls = some t)
    (hs : step cfg t l = some s) :
    EverSplit cfg (ls ++ [l]) hour ↔
      EverSplit cfg ls hour ∨ ∃ now, l = .tick now ∧ Split t.db now hour := by
  simp only [EverSplit, takes_snoc_iff]
  constructor
  · rintro ⟨a, now, b, hab | ⟨rfl, ha, -⟩, hsplit⟩
    · exact Or.inl ⟨a, now, b, hab, hsplit⟩
    · obtain rfl := Option.some.inj (ha.symm.trans ht)
      exact Or.inr ⟨now, rfl, hsplit⟩
  · rintro (⟨a, now, b, hab, hsplit⟩ | ⟨now, rfl, hsplit⟩)
    · exact ⟨a, now, b, Or.inl hab, hsplit⟩
    · exact ⟨t, now, s, Or.inr ⟨rfl, ht, hs⟩, hsplit⟩

theorem tracked_of_run (hdvd : 3600 ∣ hour) (h : run (step cfg) start ls = some s)
    (hret : Retained cfg ls hour) : Tracked cfg s hour (EverSplit cfg ls hour) := by
  induction ls using List.reverseRecOn generalizing s with
  | nil =>
    obtain rfl := Option.some.inj h
    refine Or.inl ⟨rfl, rfl, ?_⟩
    rintro ⟨_, _, _, ⟨pre, post, he, -, -⟩, -⟩
    simp at he
  | append_singleton ls l ih =>
    obtain ⟨t, ht, hs⟩ := run_snoc_iff.mp h
    have hbefore : Tracked cfg t hour (EverSplit cfg ls hour) :=
      ih ht fun a now b hab => hret a now b (takes_snoc_iff.mpr (Or.inl hab))
    rw [everSplit_snoc ht hs]
    cases l with
    | write ts values state alarmRaw =>
      simp only [step, Option.ite_none_right_eq_some, Option.some.injEq] at hs
      obtain ⟨-, rfl⟩ := hs
      simpa using hbefore.write ts values state alarmRaw
    | tick now =>
      have hkeep := hret t now s (takes_snoc_iff.mpr (Or.inr ⟨rfl, ht, hs⟩))
      simp only [step, Option.ite_none_right_eq_some, Option.some.injEq] at hs
      obtain ⟨hnow, rfl⟩ := hs
      simpa using (sound_of_run ht).tracked_tick hnow hdvd hkeep hbefore

/-- The row of an hour aggregates all its minutes exactly when no tick has found them on both
sides of its window's edge and the row has not been pruned. -/
theorem hour_complete_iff_never_split (hdvd : 3600 ∣ hour)
    (h : run (step cfg) start ls = some s) (hret : Retained cfg ls hour) :
    HourComplete s.db hour ↔
      ¬ EverSplit cfg ls hour ∧ (minutesOf s.db hour ≠ [] → HourKept cfg s.clock hour) := by
  rcases tracked_of_run hdvd h hret with ⟨hempty, -, hnot⟩ | ⟨from_, hfrom⟩
  · simp [HourComplete, hempty, hnot]
  obtain ⟨r₀, hr₀, -⟩ := hfrom.reached
  have hne : minutesOf s.db hour ≠ [] := List.ne_nil_of_mem hr₀
  simp only [HourComplete, hne, ne_eq, not_false_eq_true, forall_const, hfrom.row, hfrom.split_iff]
  constructor
  · rintro ⟨row, hrow, hsamples, -, -⟩
    obtain ⟨hkept, hrow⟩ := Option.ite_none_right_eq_some.mp hrow
    obtain rfl := Option.some.inj hrow
    refine ⟨?_, hkept⟩
    rintro ⟨r, hr, hlt⟩
    have hpos := ((sound_of_run h).minutes r (mem_minutesOf.mp hr).1).2.2
    exact (samplesOf_filter_lt hr (by simpa using hlt) hpos).ne hsamples
  · rintro ⟨hlow, hkept⟩
    have hall : (minutesOf s.db hour).filter (fun r => from_ ≤ r.ts) = minutesOf s.db hour := by
      rw [List.filter_eq_self]
      exact fun r hr => decide_eq_true (not_lt.mp fun hlt => hlow ⟨r, hr, hlt⟩)
    rw [if_pos hkept, hall]
    exact ⟨_, rfl, rfl, rfl, fun c hc => if_pos hc⟩

def fiveMinuteTicks : List HistoryLabel :=
  (List.range 25).map fun i => .tick (3600 + 300 * i)

def sample (ts kw : ℚ) : HistoryLabel :=
  .write ts (fun name => if name = "total_kw" then some kw else none) .running 0

theorem retained_of_everyStep
    (h : everyStep (step cfg) start ls (fun s l _ =>
      match l with
      | .tick now => PrunesNone cfg s.db now hour
      | .write .. => true) = true) : Retained cfg ls hour :=
  fun _ _ _ ht => by simpa using ht.test_of_everyStep _ h

/-- An hour stays complete if every tick finds both of its minutes on one side of the edge. -/
theorem two_minutes_complete :
    ∃ s, run (step .default) start (sample 10 100 :: sample 70 0 :: fiveMinuteTicks) = some s ∧
      minutesOf s.db 0 ≠ [] ∧ HourComplete s.db 0 := by
  have heval : (run (step .default) start
      (sample 10 100 :: sample 70 0 :: fiveMinuteTicks)).any (fun s =>
      (minutesOf s.db 0).length = 2 ∧ HourKept .default s.clock 0) = true := by
    decide +kernel
  obtain ⟨s, hs, htest⟩ := (Option.any_eq_true _ _).mp heval
  obtain ⟨hlen, hkept⟩ := of_decide_eq_true htest
  refine ⟨s, hs, List.ne_nil_of_length_pos (by omega), ?_⟩
  have hret : Retained .default (sample 10 100 :: sample 70 0 :: fiveMinuteTicks) 0 :=
    retained_of_everyStep (by decide +kernel)
  refine (hour_complete_iff_never_split (by decide) hs hret).mpr ⟨?_, fun _ => hkept⟩
  rintro ⟨a, now, b, hab, hsplit⟩
  have htick := hab.test_of_everyStep (fun s l _ =>
    match l with
    | .tick now => ¬ Split s.db now 0
    | .write .. => true) (by decide +kernel)
  simp [hsplit] at htick

/-- The window's edge moves past the first minute while the second is still inside: the hour is
rewritten from the second alone, and stays so. -/
theorem rewritten_hour_incomplete :
    ∃ s, run (step .default) start (sample 10 100 :: sample 3000 0 :: fiveMinuteTicks) = some s ∧
      Retained .default (sample 10 100 :: sample 3000 0 :: fiveMinuteTicks) 0 ∧
      0 + 3600 ≤ s.clock - 7200 ∧ ¬ HourComplete s.db 0 := by
  have heval : (run (step .default) start
      (sample 10 100 :: sample 3000 0 :: fiveMinuteTicks)).any (fun s =>
      0 + 3600 ≤ s.clock - 7200 ∧ minutesOf s.db 0 ≠ [] ∧
        HourRow.samplesOf (minutesOf s.db 0) = 2 ∧
        (s.db.telemetry1h.find? 0).map HourRow.samples = some 1) = true := by
    decide +kernel
  obtain ⟨s, hs, htest⟩ := (Option.any_eq_true _ _).mp heval
  obtain ⟨hold, hne, hall, hrow⟩ := of_decide_eq_true htest
  refine ⟨s, hs, retained_of_everyStep (by decide +kernel), hold, fun hcomplete => ?_⟩
  obtain ⟨row, hfind, hsamples, -, -⟩ := hcomplete hne
  rw [hfind, Option.map_some, Option.some.injEq] at hrow
  omega

end Run

end History

end GenWatch

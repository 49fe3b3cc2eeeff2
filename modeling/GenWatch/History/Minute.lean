import GenWatch.History.Hourly

/-! # Minute history

A tick rewrites the row of every minute that has a raw row in its one-hour window,
from the raw rows inside the window only. The edges of the window fall anywhere, so
they may cut a minute; a minute that no tick finds in its window has no row at all.
A minute is complete exactly when some tick had all its raw rows in the window and no
later one cut it, and the row itself is not pruned.
-/

namespace GenWatch

open Transition RetentionService

namespace History

def rawOf (db : Database) (minute : ℤ) : List TelemetryRow :=
  db.telemetry.filter fun r => minute ≤ r.ts ∧ r.ts < minute + 60

/-- A tick rolls a raw row up when it is at most an hour and over a minute old. -/
def InWindow (now : ℚ) (r : TelemetryRow) : Prop := now - 3600 ≤ r.ts ∧ r.ts < now - 60

instance (now : ℚ) (r : TelemetryRow) : Decidable (InWindow now r) :=
  inferInstanceAs (Decidable (_ ∧ _))

/-- There is a minute row exactly when the minute has raw rows, and it aggregates all of them. -/
def MinuteComplete (db : Database) (minute : ℤ) : Prop :=
  ((db.telemetry1m.find? minute).isSome ↔ rawOf db minute ≠ []) ∧
    ∀ row, db.telemetry1m.find? minute = some row →
      row.samples = (rawOf db minute).length ∧
      (∀ c ∈ minuteAvgMetrics, row.avg c = Sql.avg ((rawOf db minute).map fun r => r.metric c)) ∧
      ∀ c ∈ minuteRangeMetrics,
        row.min c = Sql.min ((rawOf db minute).map fun r => r.metric c) ∧
        row.max c = Sql.max ((rawOf db minute).map fun r => r.metric c)

def Visits (db : Database) (now : ℚ) (minute : ℤ) : Prop :=
  ∃ r ∈ rawOf db minute, InWindow now r

instance (db : Database) (now : ℚ) (minute : ℤ) : Decidable (Visits db now minute) :=
  inferInstanceAs (Decidable (∃ _ ∈ _, _))

/-- An edge of the window separates the raw rows of the minute. -/
def Cuts (db : Database) (now : ℚ) (minute : ℤ) : Prop :=
  Visits db now minute ∧ ∃ r ∈ rawOf db minute, ¬ InWindow now r

instance (db : Database) (now : ℚ) (minute : ℤ) : Decidable (Cuts db now minute) :=
  inferInstanceAs (Decidable (_ ∧ _))

def PrunesNoRaw (cfg : RetentionConfig) (db : Database) (now : ℚ) (minute : ℤ) : Prop :=
  ∀ r ∈ rawOf db minute, daysBack now cfg.rawDays ≤ r.ts

instance (cfg : RetentionConfig) (db : Database) (now : ℚ) (minute : ℤ) :
    Decidable (PrunesNoRaw cfg db now minute) :=
  inferInstanceAs (Decidable (∀ _ ∈ _, _))

def MinuteKept (cfg : RetentionConfig) (now : ℚ) (minute : ℤ) : Prop :=
  truncInt (daysBack now cfg.rollup1mDays) ≤ minute

instance (cfg : RetentionConfig) (now : ℚ) (minute : ℤ) : Decidable (MinuteKept cfg now minute) :=
  inferInstanceAs (Decidable (_ ≤ _))

variable {cfg : RetentionConfig} {s s' : History} {db : Database} {now : ℚ} {minute : ℤ}

theorem mem_rawOf {r : TelemetryRow} :
    r ∈ rawOf db minute ↔ r ∈ db.telemetry ∧ minute ≤ r.ts ∧ r.ts < minute + 60 := by
  simp [rawOf]

theorem MinuteKept.mono {now' : ℚ} (h : now ≤ now') (hk : MinuteKept cfg now' minute) :
    MinuteKept cfg now minute :=
  (truncInt_mono (by unfold daysBack; linarith)).trans hk

section Tick

theorem find?_telemetry1m_tick :
    (tick cfg now db).telemetry1m.find? minute =
      if MinuteKept cfg now minute then (rollup now db).telemetry1m.find? minute else none := by
  rw [telemetry1m_tick, Table.find?_deleteWhere]
  cases hf : (rollup now db).telemetry1m.find? minute with
  | none => simp
  | some row =>
    obtain ⟨-, rfl⟩ := Table.find?_eq_some.mp hf
    by_cases hk : MinuteKept cfg now row.ts
    · rw [if_pos hk, Option.filter_some, if_pos (by simpa [MinuteKept] using hk)]
    · rw [if_neg hk, Option.filter_some, if_neg (by simpa [MinuteKept] using hk)]

theorem telemetry_tick :
    (tick cfg now db).telemetry =
      db.telemetry.filter fun r => !decide (r.ts < daysBack now cfg.rawDays) := by
  have hchunks := Sql.deleteChunks_eq_filter
    (fun r : TelemetryRow => r.ts < daysBack now cfg.rawDays)
    (by decide : 0 < Database.pruneChunk) (db.telemetry.length + 1) db.telemetry
    (Nat.lt_succ_of_le List.countP_le_length)
  unfold tick prune
  split <;> split <;> exact hchunks

theorem rawOf_tick (h : PrunesNoRaw cfg db now minute) :
    rawOf (tick cfg now db) minute = rawOf db minute := by
  rw [rawOf, telemetry_tick, List.filter_filter]
  refine List.filter_congr fun r hr => ?_
  have hkeep := h r
  rw [mem_rawOf] at hkeep
  by_cases hin : minute ≤ r.ts ∧ r.ts < minute + 60
  · simp [hin, hkeep ⟨hr, hin⟩]
  · simp [hin]

theorem Sound.find?_telemetry1m_rollup (hs : Sound s) (now : ℚ) (hdvd : 60 ∣ minute) :
    (rollup now s.db).telemetry1m.find? minute =
      if Visits s.db now minute then
        some (MinuteRow.ofGroup minute ((rawOf s.db minute).filter fun r => InWindow now r))
      else s.db.telemetry1m.find? minute := by
  let window := s.db.telemetry.filter fun r => now - 3600 ≤ r.ts ∧ r.ts < now - 60
  have hfilter : (window.filter fun r => r.minute = minute) =
      (rawOf s.db minute).filter fun r => InWindow now r := by
    simp only [window, rawOf, List.filter_filter]
    refine List.filter_congr fun r hr => ?_
    rw [Bool.and_comm]
    congr 1
    exact decide_eq_decide.mpr (TelemetryRow.minute_eq_iff (hs.raw r hr) hdvd)
  have hex : (∃ r ∈ window, r.minute = minute) ↔ Visits s.db now minute := by
    have hmem : ∀ r, r ∈ window.filter (fun r => r.minute = minute) ↔ _ := fun r => by rw [hfilter]
    simpa [List.mem_filter, Visits] using exists_congr hmem
  rw [← hfilter]
  simp only [← hex]
  exact Table.find?_upsertGroups (fun _ _ => rfl) window minute

end Tick

theorem rawOf_write {ts : ℚ} {values : Values} {state : EngineState} {alarmRaw : ℤ} :
    rawOf (db.writeTelemetry ts values state alarmRaw) minute =
      if minute ≤ ts ∧ ts < minute + 60 then
        rawOf db minute ++ [⟨ts, fun c => values c.register, state, alarmRaw⟩]
      else rawOf db minute := by
  rw [rawOf, Database.writeTelemetry, List.filter_append, ← rawOf]
  split
  · rename_i hin
    rw [List.filter_cons_of_pos (by simpa using hin), List.filter_nil]
  · rename_i hout
    rw [List.filter_cons_of_neg (by simpa using hout), List.filter_nil, List.append_nil]

/-- The last tick that reached the minute saw the raw rows `seen` of it; none has if they are
none. -/
structure RolledUp (cfg : RetentionConfig) (s : History) (minute : ℤ) (seen : List TelemetryRow) :
    Prop where
  sublist : seen.Sublist (rawOf s.db minute)
  row : s.db.telemetry1m.find? minute =
    if seen ≠ [] ∧ MinuteKept cfg s.clock minute then some (MinuteRow.ofGroup minute seen) else none

theorem RolledUp.write {seen : List TelemetryRow} (h : RolledUp cfg s minute seen) (ts : ℚ)
    (values : Values) (state : EngineState) (alarmRaw : ℤ) :
    RolledUp cfg { s with db := s.db.writeTelemetry ts values state alarmRaw } minute seen where
  sublist := by
    show seen.Sublist (rawOf (s.db.writeTelemetry ts values state alarmRaw) minute)
    rw [rawOf_write]
    split
    · exact h.sublist.trans (List.sublist_append_left _ _)
    · exact h.sublist
  row := h.row

/-- A tick sees the raw rows in its window, if it has any of them there. -/
theorem RolledUp.tick {seen : List TelemetryRow} (h : RolledUp cfg s minute seen) (hs : Sound s)
    (hnow : s.clock ≤ now) (hdvd : 60 ∣ minute) (hkeep : PrunesNoRaw cfg s.db now minute) :
    RolledUp cfg ⟨tick cfg now s.db, now⟩ minute
      (if Visits s.db now minute then (rawOf s.db minute).filter fun r => InWindow now r
        else seen) where
  sublist := by
    show List.Sublist _ (rawOf (RetentionService.tick cfg now s.db) minute)
    rw [rawOf_tick hkeep]
    split
    · exact List.filter_sublist
    · exact h.sublist
  row := by
    show (RetentionService.tick cfg now s.db).telemetry1m.find? minute = _
    rw [find?_telemetry1m_tick, hs.find?_telemetry1m_rollup now hdvd, h.row]
    by_cases hk : MinuteKept cfg now minute
    · by_cases hv : Visits s.db now minute
      · have hne : (rawOf s.db minute).filter (fun r => InWindow now r) ≠ [] := by
          obtain ⟨r, hr, hin⟩ := hv
          exact List.ne_nil_of_mem (List.mem_filter.mpr ⟨hr, decide_eq_true hin⟩)
        simp only [if_pos hk, if_pos hv, if_pos (And.intro hne hk)]
      · simp only [if_neg hv, hk.mono hnow, hk, if_true]
    · simp only [hk, and_false, if_false]

section Run

variable {ls : List HistoryLabel}

def WritesInto (minute : ℤ) : HistoryLabel → Prop
  | .write ts _ _ _ => minute ≤ ts ∧ ts < minute + 60
  | .tick _ => False

/-- Some tick of the run has all the raw rows of the minute in its window; after it no raw row of
the minute is written and no tick cuts the minute. -/
def Covered (cfg : RetentionConfig) (ls : List HistoryLabel) (minute : ℤ) : Prop :=
  ∃ pre now post s s', ls = pre ++ .tick now :: post ∧ run (step cfg) start pre = some s ∧
    step cfg s (.tick now) = some s' ∧
    (rawOf s.db minute ≠ [] ∧ ∀ r ∈ rawOf s.db minute, InWindow now r) ∧
    (∀ l ∈ post, ¬ WritesInto minute l) ∧
    ∀ a now' b, Takes (step cfg) s' post a (.tick now') b → ¬ Cuts a.db now' minute

/-- No tick of the run prunes a raw row of the minute. -/
def RawRetained (cfg : RetentionConfig) (ls : List HistoryLabel) (minute : ℤ) : Prop :=
  ∀ s now s', Takes (step cfg) start ls s (.tick now) s' → PrunesNoRaw cfg s.db now minute

theorem not_covered_nil : ¬ Covered cfg [] minute := by
  rintro ⟨pre, now, post, s, s', he, -⟩
  simp at he

theorem covered_snoc {l : HistoryLabel} {t : History} (ht : run (step cfg) start ls = some t)
    (hs : step cfg t l = some s) :
    Covered cfg (ls ++ [l]) minute ↔
      (∃ now, l = .tick now ∧ rawOf t.db minute ≠ [] ∧ ∀ r ∈ rawOf t.db minute, InWindow now r) ∨
      (Covered cfg ls minute ∧ ¬ WritesInto minute l ∧
        ∀ now, l = .tick now → ¬ Cuts t.db now minute) := by
  constructor
  · rintro ⟨pre, now, post, a, b, he, hpre, hstep, hcov, hwrites, hcuts⟩
    rcases List.eq_nil_or_concat post with rfl | ⟨post, x, rfl⟩
    · obtain ⟨rfl, hl⟩ := List.append_inj' he rfl
      obtain rfl : l = .tick now := by simpa using hl
      obtain rfl := Option.some.inj (hpre.symm.trans ht)
      exact Or.inl ⟨now, rfl, hcov⟩
    · right
      have he' : ls ++ [l] = (pre ++ .tick now :: post) ++ [x] := by simpa using he
      obtain ⟨rfl, hl⟩ := List.append_inj' he' rfl
      obtain rfl : l = x := by simpa using hl
      have hpost : run (step cfg) b post = some t := by
        simpa [run_append, hpre, hstep] using ht
      refine ⟨⟨pre, now, post, a, b, rfl, hpre, hstep, hcov, ?_, ?_⟩, ?_, ?_⟩
      · exact fun k hk => hwrites k (by simp [hk])
      · intro c now' d hcd
        exact hcuts c now' d (by simpa using hcd.append_right [l])
      · exact hwrites l (by simp)
      · rintro now' rfl
        exact hcuts t now' s ⟨post, [], by simp, hpost, hs⟩
  · rintro (⟨now, rfl, hcov⟩ |
      ⟨⟨pre, now, post, a, b, rfl, hpre, hstep, hcov, hwrites, hcuts⟩, hw, hc⟩)
    · refine ⟨ls, now, [], t, s, rfl, ht, hs, hcov, by simp, ?_⟩
      rintro c now' d ⟨pre, post, he, -⟩
      simp at he
    · have hpost : run (step cfg) b post = some t := by
        simpa [run_append, hpre, hstep] using ht
      refine ⟨pre, now, post ++ [l], a, b, by simp, hpre, hstep, hcov, ?_, ?_⟩
      · intro k hk
        rcases List.mem_append.mp hk with hk | hk
        · exact hwrites k hk
        · rwa [List.mem_singleton.mp hk]
      · intro c now' d hcd
        rcases takes_snoc_iff.mp hcd with hcd | ⟨rfl, hc', -⟩
        · exact hcuts c now' d hcd
        · obtain rfl := Option.some.inj (hc'.symm.trans hpost)
          exact hc now' rfl

/-- Where the minute stands: what was seen of it is all there is exactly when it is covered. -/
def MinuteTracked (cfg : RetentionConfig) (s : History) (minute : ℤ) (covered : Prop) : Prop :=
  ∃ seen, RolledUp cfg s minute seen ∧ (covered ↔ seen ≠ [] ∧ seen = rawOf s.db minute)

theorem minuteTracked_write {covered : Prop} (h : MinuteTracked cfg s minute covered) (ts : ℚ)
    (values : Values) (state : EngineState) (alarmRaw : ℤ) :
    MinuteTracked cfg { s with db := s.db.writeTelemetry ts values state alarmRaw } minute
      (covered ∧ ¬ (minute ≤ ts ∧ ts < minute + 60)) := by
  obtain ⟨seen, hrolled, hiff⟩ := h
  refine ⟨seen, hrolled.write ts values state alarmRaw, ?_⟩
  show _ ↔ _ ∧ seen = rawOf (s.db.writeTelemetry ts values state alarmRaw) minute
  rw [rawOf_write]
  split
  · rename_i hin
    refine iff_of_false (fun hc => hc.2 hin) ?_
    rintro ⟨-, hall⟩
    have hle := hrolled.sublist.length_le
    rw [hall, List.length_append, List.length_singleton] at hle
    omega
  · rename_i hout
    rw [hiff, and_iff_left hout]

theorem Sound.minuteTracked_tick (hs : Sound s) {covered : Prop}
    (h : MinuteTracked cfg s minute covered) (hnow : s.clock ≤ now) (hdvd : 60 ∣ minute)
    (hkeep : PrunesNoRaw cfg s.db now minute) :
    MinuteTracked cfg ⟨tick cfg now s.db, now⟩ minute
      ((rawOf s.db minute ≠ [] ∧ ∀ r ∈ rawOf s.db minute, InWindow now r) ∨
        (covered ∧ ¬ Cuts s.db now minute)) := by
  obtain ⟨seen, hrolled, hiff⟩ := h
  refine ⟨_, hrolled.tick hs hnow hdvd hkeep, ?_⟩
  show _ ↔ _ ∧ _ = rawOf (tick cfg now s.db) minute
  rw [rawOf_tick hkeep]
  by_cases hv : Visits s.db now minute
  · simp only [if_pos hv]
    have hall : (rawOf s.db minute).filter (fun r => InWindow now r) = rawOf s.db minute ↔
        ∀ r ∈ rawOf s.db minute, InWindow now r := by
      simp [List.filter_eq_self]
    obtain ⟨r₀, hr₀, hin⟩ := hv
    have hne : rawOf s.db minute ≠ [] := List.ne_nil_of_mem hr₀
    have hne' : (rawOf s.db minute).filter (fun r => InWindow now r) ≠ [] :=
      List.ne_nil_of_mem (List.mem_filter.mpr ⟨hr₀, decide_eq_true hin⟩)
    rw [and_iff_right hne', hall, and_iff_right hne]
    refine ⟨fun hor => hor.elim id fun ⟨_, hcut⟩ r hr => ?_, Or.inl⟩
    exact not_not.mp fun hout => hcut ⟨⟨r₀, hr₀, hin⟩, r, hr, hout⟩
  · simp only [if_neg hv]
    rw [← hiff]
    refine ⟨fun hor => hor.elim (fun ⟨hne, hall⟩ => ?_) And.left, fun hc => Or.inr ⟨hc, ?_⟩⟩
    · obtain ⟨r, hr⟩ := List.exists_mem_of_ne_nil _ hne
      exact absurd ⟨r, hr, hall r hr⟩ hv
    · exact fun hcut => hv hcut.1

theorem minuteTracked_of_run (hdvd : 60 ∣ minute) (h : run (step cfg) start ls = some s)
    (hret : RawRetained cfg ls minute) : MinuteTracked cfg s minute (Covered cfg ls minute) := by
  induction ls using List.reverseRecOn generalizing s with
  | nil =>
    obtain rfl := Option.some.inj h
    exact ⟨[], ⟨List.nil_sublist _, rfl⟩, by simp [not_covered_nil]⟩
  | append_singleton ls l ih =>
    obtain ⟨t, ht, hs⟩ := run_snoc_iff.mp h
    have hbefore : MinuteTracked cfg t minute (Covered cfg ls minute) :=
      ih ht fun a now b hab => hret a now b (takes_snoc_iff.mpr (Or.inl hab))
    rw [covered_snoc ht hs]
    cases l with
    | write ts values state alarmRaw =>
      simp only [step, Option.ite_none_right_eq_some, Option.some.injEq] at hs
      obtain ⟨-, rfl⟩ := hs
      simpa [WritesInto] using minuteTracked_write hbefore ts values state alarmRaw
    | tick now =>
      have hkeep := hret t now s (takes_snoc_iff.mpr (Or.inr ⟨rfl, ht, hs⟩))
      simp only [step, Option.ite_none_right_eq_some, Option.some.injEq] at hs
      obtain ⟨hnow, rfl⟩ := hs
      simpa [WritesInto] using (sound_of_run ht).minuteTracked_tick hbefore hnow hdvd hkeep

/-- The row of a minute aggregates all its raw rows exactly when, if there are any, some tick had
them all in its window with no later one cutting the minute, and the row has not been pruned. -/
theorem minute_complete_iff_covered (hdvd : 60 ∣ minute)
    (h : run (step cfg) start ls = some s) (hret : RawRetained cfg ls minute) :
    MinuteComplete s.db minute ↔
      (rawOf s.db minute ≠ [] → Covered cfg ls minute ∧ MinuteKept cfg s.clock minute) := by
  obtain ⟨seen, hrolled, hiff⟩ := minuteTracked_of_run hdvd h hret
  rw [MinuteComplete, hrolled.row, hiff]
  by_cases hraw : rawOf s.db minute = []
  · have hseen : seen = [] := List.sublist_nil.mp (hraw ▸ hrolled.sublist)
    simp [hraw, hseen]
  simp only [ne_eq, hraw, not_false_eq_true, forall_const, iff_true]
  constructor
  · rintro ⟨hsome, hrow⟩
    have hthere : seen ≠ [] ∧ MinuteKept cfg s.clock minute := by
      by_contra hnot
      rw [if_neg hnot] at hsome
      cases hsome
    obtain ⟨hsamples, -⟩ := hrow _ (if_pos hthere)
    exact ⟨⟨hthere.1, hrolled.sublist.eq_of_length hsamples⟩, hthere.2⟩
  · rintro ⟨⟨hne, hall⟩, hkept⟩
    rw [if_pos ⟨hne, hkept⟩, hall]
    refine ⟨rfl, fun row he => ?_⟩
    obtain rfl := Option.some.inj he
    exact ⟨rfl, fun c hc => if_pos hc, fun c hc => ⟨if_pos hc, if_pos hc⟩⟩

theorem rawRetained_of_everyStep
    (h : everyStep (step cfg) start ls (fun s l _ =>
      match l with
      | .tick now => PrunesNoRaw cfg s.db now minute
      | .write .. => true) = true) : RawRetained cfg ls minute :=
  fun _ _ _ ht => by simpa using ht.test_of_everyStep _ h

theorem covered_of_lastStep
    (h : lastStep (step cfg) start ls (.tick now) (fun s _ _ =>
      rawOf s.db minute ≠ [] ∧ ∀ r ∈ rawOf s.db minute, InWindow now r) = true) :
    Covered cfg (ls ++ [.tick now]) minute := by
  unfold lastStep at h
  split at h
  · cases h
  rename_i t ht
  split at h
  · cases h
  rename_i t' ht'
  exact (covered_snoc ht ht').mpr (Or.inl ⟨now, rfl, of_decide_eq_true h⟩)

/-- Two samples of one minute that a tick rolls up in time, and no tick cuts after it. -/
theorem covered_minute_complete :
    ∃ s, run (step .default) start [sample 10 100, sample 50 0, .tick 300, .tick 3600] = some s ∧
      rawOf s.db 0 ≠ [] ∧ MinuteComplete s.db 0 := by
  have heval : (run (step .default) start
      [sample 10 100, sample 50 0, .tick 300, .tick 3600]).any (fun s =>
      (rawOf s.db 0).length = 2 ∧ MinuteKept .default s.clock 0) = true := by
    decide +kernel
  obtain ⟨s, hs, htest⟩ := (Option.any_eq_true _ _).mp heval
  obtain ⟨hlen, hkept⟩ := of_decide_eq_true htest
  refine ⟨s, hs, List.ne_nil_of_length_pos (by omega), ?_⟩
  have hret : RawRetained .default [sample 10 100, sample 50 0, .tick 300, .tick 3600] 0 :=
    rawRetained_of_everyStep (by decide +kernel)
  refine (minute_complete_iff_covered (by decide) hs hret).mpr fun _ => ⟨?_, hkept⟩
  exact covered_of_lastStep (by decide +kernel :
    lastStep (step .default) start [sample 10 100, sample 50 0, .tick 300] (.tick 3600)
      (fun s _ _ => rawOf s.db 0 ≠ [] ∧ ∀ r ∈ rawOf s.db 0, InWindow 3600 r) = true)

/-- The window's edge moves into the minute: the row is rewritten from the second sample alone. -/
theorem cut_minute_incomplete :
    ∃ s, run (step .default) start [sample 10 100, sample 50 0, .tick 300, .tick 3630] = some s ∧
      RawRetained .default [sample 10 100, sample 50 0, .tick 300, .tick 3630] 0 ∧
      0 + 60 ≤ s.clock - 60 ∧ ¬ MinuteComplete s.db 0 := by
  have heval : (run (step .default) start
      [sample 10 100, sample 50 0, .tick 300, .tick 3630]).any (fun s =>
      0 + 60 ≤ s.clock - 60 ∧ (rawOf s.db 0).length = 2 ∧
        (s.db.telemetry1m.find? 0).map MinuteRow.samples = some 1) = true := by
    decide +kernel
  obtain ⟨s, hs, htest⟩ := (Option.any_eq_true _ _).mp heval
  obtain ⟨hold, hall, hrow⟩ := of_decide_eq_true htest
  refine ⟨s, hs, rawRetained_of_everyStep (by decide +kernel), hold, fun hcomplete => ?_⟩
  obtain ⟨row, hfind, hsamples⟩ := Option.map_eq_some_iff.mp hrow
  have := (hcomplete.2 row hfind).1
  omega

end Run

end History

end GenWatch

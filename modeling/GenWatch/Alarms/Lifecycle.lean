import GenWatch.Alarms.Flips
import GenWatch.Alarms.Agreement

/-! # The life of an alarm

From an empty table, without acknowledgements and without database errors, the rows
of the alarm bits are exactly the alarms of the session, whatever is silenced, removed
from the map or counted anew after a reload. An alarm is announced, has its row, and is
announced as cleared at the first update that finds none of its bits set.
-/

namespace GenWatch

open Handler ServiceM Transition StateMachine

/-- A state machine and its tables, with all the events it has published, oldest first. -/
structure AlarmHistory where
  desk : AlarmDesk
  log : List Event

inductive ReloadLabel where
  | update (env : PollEnv) (reading : Reading) (ref : CommsRef)
  | applyRegmap (m : RegisterMap)

namespace AlarmHistory

def step (s : AlarmHistory) : ReloadLabel → Option AlarmHistory
  | .update env reading ref =>
    let d := s.desk.update env reading ref []
    some ⟨d, s.log ++ d.published⟩
  | .applyRegmap m => some { s with desk :=
      { s.desk with sm := s.desk.sm.applyRegmap m, published := [] } }

def start (m : RegisterMap) (db : Database) (now : ℚ) : AlarmHistory := ⟨.start m db now, []⟩

/-- The code was announced as raised and not as cleared since. -/
def Open (s : AlarmHistory) (code : String) : Prop := (flips code s.log).getLast? = some true

instance (s : AlarmHistory) (code : String) : Decidable (s.Open code) :=
  inferInstanceAs (Decidable (_ = _))

variable {s s' : AlarmHistory} {l : ReloadLabel}

/-- What one step of the history does: a completed update, or a reload that keeps everything but
the map and the debounce counters. -/
theorem step_cases (hd : s.desk.sm.NumericDerived) (h : step s l = some s') :
    (∃ env reading ref c', l = .update env reading ref ∧
      Updated env reading ref ⟨s.desk.sm, s.desk.db, [], []⟩ c' ∧
      (StateMachine.update env reading ref).run ⟨s.desk.sm, s.desk.db, [], []⟩ = .ok () c' ∧
      s' = ⟨⟨c'.self, c'.db, c'.emitted⟩, s.log ++ c'.emitted⟩) ∨
    ∃ m, l = .applyRegmap m ∧ s' = { s with desk :=
      { s.desk with sm := s.desk.sm.applyRegmap m, published := [] } } := by
  cases l with
  | update env reading ref =>
    obtain ⟨u, c', hok, -⟩ :=
      total_update env reading ref ⟨s.desk.sm, s.desk.db, [], []⟩ rfl
    have hdesk : s.desk.update env reading ref [] = ⟨c'.self, c'.db, c'.emitted⟩ := by
      rw [AlarmDesk.update, hok]
    obtain rfl := Option.some.inj h
    exact Or.inl ⟨env, reading, ref, c', rfl, update_updated hd hok, hok, by rw [hdesk]⟩
  | applyRegmap m => exact Or.inr ⟨m, rfl, (Option.some.inj h).symm⟩

/-- The rows of every code follow its events, and the ledger of the alarm bits is closed. -/
structure Sound (s : AlarmHistory) : Prop where
  numeric : s.desk.sm.NumericDerived
  ledger : (bitLedger s.desk.sm s.desk.db).Closed
  toggles : ∀ code, Toggles false (flips code s.log) (s.desk.db.Active code)

theorem sound_start (m : RegisterMap) {db : Database} (h : db.alarmsActive = ∅) (now : ℚ) :
    Sound (start m db now) where
  numeric := numericDerived_init m now
  ledger := by
    have hnone : ∀ code, ¬db.Active code := fun code => by simp [Database.Active, h]
    constructor
    · ext code
      simp [bitLedger, Ledger.restrict, StateMachine.ledger, start, AlarmDesk.start, init, hnone]
    · rintro code ⟨hshown, -⟩
      simp [StateMachine.ledger, start, AlarmDesk.start, init] at hshown
  toggles code := by
    have hnone : ¬db.Active code := by simp [Database.Active, h]
    exact (decide_eq_false hnone).symm

theorem Sound.step (hs : s.Sound) (h : step s l = some s') : s'.Sound := by
  obtain ⟨env, reading, ref, c', rfl, hu, hok, rfl⟩ | ⟨m, rfl, rfl⟩ := step_cases hs.numeric h
  · refine ⟨hu.numeric, ?_, fun code => ?_⟩
    · rw [hu.ledger]
      exact hs.ledger.observe (effectiveNow_subset _ _)
    · obtain ⟨new, he, ht⟩ := flips_update env reading ref _ () c' hok
      obtain rfl : new = c'.emitted := by simpa using he.symm
      show Toggles false (flips code (s.log ++ _)) _
      rw [flips_append]
      exact (hs.toggles code).append ht
  · exact ⟨hs.numeric, hs.ledger, hs.toggles⟩

theorem sound_of_reachable {m : RegisterMap} {db : Database} {now : ℚ}
    (hdb : db.alarmsActive = ∅) (h : Reachable step (start m db now) s) : s.Sound :=
  h.invariant (sound_start m hdb now) fun _ _ _ hs hstep => hs.step hstep

theorem Sound.active_iff_open (hs : s.Sound) (code : String) :
    s.desk.db.Active code ↔ s.Open code := by
  have hlast := (hs.toggles code).getLast
  rw [Open]
  cases hf : (flips code s.log).getLast? with
  | none =>
    rw [hf] at hlast
    simpa using hlast.symm
  | some b =>
    rw [hf, Option.getD_some] at hlast
    rw [hlast]
    simp

/-- An alarm bit's code is announced as cleared exactly at the first update after its raise that
finds none of its bits set. -/
theorem Sound.cleared_iff (hs : s.Sound) {code : String} (hb : ¬IsDerived code) {env : PollEnv}
    {reading : Reading} {ref : CommsRef}
    (h : AlarmHistory.step s (.update env reading ref) = some s') :
    code ∈ clearedCodes s'.desk.published ↔
      s.Open code ∧ code ∉ setCodes s.desk.sm.regmap reading.values := by
  obtain ⟨env, reading, ref, c', he, hu, hok, rfl⟩ | ⟨m, he, -⟩ := step_cases hs.numeric h
  · cases he
    obtain ⟨new, hemit, -, -, hcleared⟩ := hu.emits
    obtain rfl : c'.emitted = new := by simpa using hemit
    rw [hs.ledger.withdrawn] at hcleared
    have hmem : code ∈ clearedCodes c'.emitted ∩ bitCodes ↔
        (code ∈ (bitLedger s.desk.sm s.desk.db).rows ∧
          code ∉ setCodes s.desk.sm.regmap reading.values) := by
      rw [hcleared]
      rfl
    rw [Set.mem_inter_iff, and_iff_left (show code ∈ bitCodes from hb)] at hmem
    rw [hmem, ← hs.active_iff_open]
    exact and_congr_left fun _ => and_iff_left hb
  · cases he

/-- From an empty table, without acknowledgements and database errors, the events of an alarm bit
alternate between raise and clear, it is cleared exactly at the first update after the raise that
finds no rule of the current map with its code set, and it has a row exactly in between. -/
theorem alarm_lifecycle {m : RegisterMap} {db : Database} {now : ℚ}
    (hdb : db.alarmsActive = ∅) {code : String} (hb : ¬IsDerived code) :
    (∀ s, Reachable step (start m db now) s →
      (false :: flips code s.log).IsChain (· ≠ ·) ∧ (s.desk.db.Active code ↔ s.Open code)) ∧
    ∀ ls s env reading ref s', Takes step (start m db now) ls s (.update env reading ref) s' →
      (code ∈ clearedCodes s'.desk.published ↔
        s.Open code ∧ code ∉ setCodes s.desk.sm.regmap reading.values) := by
  constructor
  · intro s h
    have hs : s.Sound := sound_of_reachable hdb h
    exact ⟨(hs.toggles code).isChain, hs.active_iff_open code⟩
  · intro ls s env reading ref s' h
    have hs : s.Sound := sound_of_reachable hdb h.reachable
    exact hs.cleared_iff hb h.step_eq

/-- A map with a single alarm that is silenced while the engine is stopped. -/
def silencedMap : RegisterMap :=
  { RegisterMap.bare with
    registers := [.plain "status", .plain "engine"]
    engineStateBits := [⟨.running, "engine", 1⟩, ⟨.stopped, "engine", 2⟩]
    alarmBits := [⟨"status", 1, "LOW_OIL", "Low oil pressure", .alarm, [.stopped], 1⟩] }

def engineReading (status engine : ℚ) : Reading :=
  ⟨fun name => if name = "status" then some status else if name = "engine" then some engine
    else none, 0, fun _ => none⟩

/-- An alarm that is raised, silenced by the engine stopping, and only then seen low. -/
theorem silenced_alarm_cleared_when_low :
    ∃ s s', Takes step (start silencedMap .empty 0)
        ([.update (quietEnv 1) (engineReading 1 1) .poller,
          .update (quietEnv 2) (engineReading 1 2) .poller] ++
          [.update (quietEnv 3) (engineReading 0 2) .poller]) s
        (.update (quietEnv 3) (engineReading 0 2) .poller) s' ∧
      s.desk.sm.snap.activeAlarms = ∅ ∧ s.desk.db.Active "LOW_OIL" ∧
      "LOW_OIL" ∈ clearedCodes s'.desk.published := by
  obtain ⟨s, s', ht, htest⟩ := takes_of_lastStep step (start silencedMap .empty 0)
    [.update (quietEnv 1) (engineReading 1 1) .poller,
      .update (quietEnv 2) (engineReading 1 2) .poller]
    (.update (quietEnv 3) (engineReading 0 2) .poller)
    (fun s _ _ => s.desk.sm.snap.activeAlarms = ∅ ∧ s.Open "LOW_OIL" ∧
      "LOW_OIL" ∉ setCodes s.desk.sm.regmap (engineReading 0 2).values) (by decide +kernel)
  obtain ⟨hshown, hopen, hlow⟩ := of_decide_eq_true htest
  obtain ⟨hstates, hupdates⟩ := @alarm_lifecycle silencedMap .empty 0 rfl "LOW_OIL" (by decide)
  exact ⟨s, s', ht, hshown, (hstates s ht.reachable).2.mpr hopen,
    (hupdates _ _ _ _ _ _ ht).mpr ⟨hopen, hlow⟩⟩

end AlarmHistory

end GenWatch

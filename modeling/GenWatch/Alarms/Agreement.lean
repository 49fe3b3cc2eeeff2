import GenWatch.Alarms.Evidence

/-! # Agreement of the display with the table

Updates, acknowledgements and reloads change the displayed set, the table and the
debounce counters in different combinations. From an empty table, the displayed
alarms are the unsilenced rows after every update exactly when no effective alarm
on display has lost its row and every set, unsilenced row has met its debounce.
-/

namespace GenWatch

open Handler ServiceM Transition StateMachine

/-- Every rule of the code is silenced in the engine state. -/
def RegisterMap.Silenced (m : RegisterMap) (state : EngineState) (code : String) : Prop :=
  ∀ ab ∈ m.alarmBits, ab.code = code → state ∈ ab.suppressInStates

instance (m : RegisterMap) (state : EngineState) (code : String) :
    Decidable (m.Silenced state code) :=
  inferInstanceAs (Decidable (∀ ab ∈ m.alarmBits, _))

theorem effectiveNow_not_silenced {sm : StateMachine} {values : Values} {code : String}
    (h : code ∈ sm.effectiveNow values) :
    ¬sm.regmap.Silenced (nextEngineState sm.regmap values sm.snap.engineState) code := by
  obtain ⟨ab, hab, rfl⟩ := List.mem_map.mp h.1
  obtain ⟨hraw, he⟩ := List.mem_filter.mp hab
  exact fun hs => (of_decide_eq_true he).2
    (hs ab ((RegisterMap.mem_deriveActiveAlarms _ _).mp hraw).1 rfl)

theorem mem_alarmCodes_of_mem_setCodes {m : RegisterMap} {values : Values} {code : String}
    (h : code ∈ setCodes m values) : code ∈ m.alarmCodes := by
  obtain ⟨ab, hab, he, -⟩ := mem_setCodes.mp h
  exact List.mem_map.mpr ⟨ab, hab, he⟩

/-- The writers of the display and of the table, without database errors. -/
inductive AckLabel where
  | update (env : PollEnv) (reading : Reading) (ref : CommsRef)
  | ack (code operator : String) (ctl : Option ControlDef) (now : ℚ)
  | applyRegmap (m : RegisterMap)

namespace AlarmDesk

/-- An acknowledgement is for an alarm that has a row. -/
def ackStep (d : AlarmDesk) : AckLabel → Option AlarmDesk
  | .update env reading ref => some (d.update env reading ref [])
  | .ack code operator ctl now =>
    if d.db.Active code then
      some { d with db := d.db.acknowledgeAlarm code operator ctl now, published := [] }
    else none
  | .applyRegmap m => some { d with sm := d.sm.applyRegmap m, published := [] }

/-- After an update the displayed alarms are the rows that are not silenced, and every effective
alarm that had no row has it back and is announced. -/
structure Agrees (d : AlarmDesk) (reading : Reading) (d' : AlarmDesk) : Prop where
  display : ∀ code ∈ d'.sm.regmap.alarmCodes, (code ∈ d'.sm.snap.activeAlarms ↔
    d'.db.Active code ∧ ¬d'.sm.regmap.Silenced d'.sm.snap.engineState code)
  announced : ∀ code ∈ d.sm.effectiveNow reading.values, ¬d.db.Active code →
    d'.db.Active code ∧ code ∈ raisedCodes d'.published

/-- No effective alarm on display has lost its row, and every set alarm with a row that the next
engine state does not silence has been set for long enough. -/
structure Steady (d : AlarmDesk) (reading : Reading) : Prop where
  rows : ∀ code ∈ d.sm.effectiveNow reading.values, code ∈ d.sm.snap.activeAlarms →
    d.db.Active code
  debounced : ∀ code ∈ setCodes d.sm.regmap reading.values, d.db.Active code →
    ¬d.sm.regmap.Silenced (nextEngineState d.sm.regmap reading.values d.sm.snap.engineState) code →
    code ∈ d.sm.effectiveNow reading.values

/-- Every row of an alarm bit belongs to an alarm of the session. -/
structure Owned (d : AlarmDesk) : Prop where
  numeric : d.sm.NumericDerived
  rows : (bitLedger d.sm d.db).rows ⊆ (bitLedger d.sm d.db).raised

theorem owned_start (m : RegisterMap) {db : Database} (h : db.alarmsActive = ∅) (now : ℚ) :
    (start m db now).Owned where
  numeric := numericDerived_init m now
  rows := by
    rintro code ⟨ha, -⟩
    simp [start, ledger, Database.Active, h] at ha

section Update

variable {d : AlarmDesk} {env : PollEnv} {reading : Reading} {ref : CommsRef}

theorem update_completes (hd : d.sm.NumericDerived) (env : PollEnv) (reading : Reading)
    (ref : CommsRef) :
    ∃ c', Updated env reading ref ⟨d.sm, d.db, [], []⟩ c' ∧
      d.update env reading ref [] = ⟨c'.self, c'.db, c'.emitted⟩ := by
  obtain ⟨u, c', hok, -⟩ := total_update env reading ref ⟨d.sm, d.db, [], []⟩ rfl
  refine ⟨c', update_updated hd hok, ?_⟩
  rw [update, hok]

theorem Owned.update (ho : d.Owned) : (d.update env reading ref []).Owned := by
  obtain ⟨c', hu, he⟩ := update_completes ho.numeric env reading ref
  rw [he]
  refine ⟨hu.numeric, ?_⟩
  rw [hu.ledger]
  exact Ledger.observe_rows_subset_raised ho.rows

/-- Once every row belongs to the session, the rows after an update have a set bit. -/
theorem rows_set (ho : d.Owned) {c' : Ctx StateMachine}
    (hu : Updated env reading ref ⟨d.sm, d.db, [], []⟩ c') :
    (bitLedger c'.self c'.db).rows ⊆ setCodes d.sm.regmap reading.values := by
  rw [hu.ledger]
  intro code hc
  by_contra hn
  have hold := (Ledger.unset_row_iff (effectiveNow_subset _ _) hn).mp hc
  exact hold.2 (ho.rows hold.1)

theorem display_iff (ho : d.Owned) (hp : d.sm.regmap.Plain) {c' : Ctx StateMachine}
    (hu : Updated env reading ref ⟨d.sm, d.db, [], []⟩ c') :
    (∀ code ∈ c'.self.regmap.alarmCodes, (code ∈ c'.self.snap.activeAlarms ↔
      c'.db.Active code ∧ ¬c'.self.regmap.Silenced c'.self.snap.engineState code)) ↔
    (bitLedger c'.self c'.db).shown = (bitLedger c'.self c'.db).rows ∩
      {code | ¬c'.self.regmap.Silenced c'.self.snap.engineState code} := by
  have hbit : ∀ {code}, code ∈ c'.self.regmap.alarmCodes → code ∈ bitCodes := by
    intro code hc
    rw [hu.regmap] at hc
    exact hp code hc
  constructor
  · intro h
    ext code
    by_cases hc : code ∈ c'.self.regmap.alarmCodes
    · simp only [bitLedger, Ledger.restrict, ledger, Set.mem_inter_iff, Set.mem_ofPred_eq, hbit hc,
        and_true]
      exact h code hc
    · -- a code without a rule is neither effective nor set, hence neither displayed nor in a row
      rw [hu.regmap] at hc
      have hset : code ∉ setCodes d.sm.regmap reading.values := fun h =>
        hc (mem_alarmCodes_of_mem_setCodes h)
      refine iff_of_false (fun hs => ?_) fun hr => hset (rows_set ho hu hr.1)
      rw [hu.ledger] at hs
      exact hset (effectiveNow_subset _ _ hs)
  · intro h code hc
    have hcode := Set.ext_iff.mp h code
    simpa only [bitLedger, Ledger.restrict, ledger, Set.mem_inter_iff, Set.mem_ofPred_eq, hbit hc,
      and_true] using hcode

theorem steady_iff (hp : d.sm.regmap.Plain) :
    d.Steady reading ↔
      d.sm.effectiveNow reading.values ∩ (bitLedger d.sm d.db).shown ⊆ (bitLedger d.sm d.db).rows ∧
      (bitLedger d.sm d.db).rows ∩ setCodes d.sm.regmap reading.values ∩
        {code | ¬d.sm.regmap.Silenced
          (nextEngineState d.sm.regmap reading.values d.sm.snap.engineState) code} ⊆
        d.sm.effectiveNow reading.values := by
  have hbit : ∀ code ∈ setCodes d.sm.regmap reading.values, code ∈ bitCodes := fun code hc =>
    hp code (mem_alarmCodes_of_mem_setCodes hc)
  constructor
  · rintro ⟨hr, hdb⟩
    exact ⟨fun code hc => ⟨hr code hc.1 hc.2.1, hc.1.2⟩,
      fun code hc => hdb code hc.1.2 hc.1.1.1 hc.2⟩
  · rintro ⟨hr, hdb⟩
    exact ⟨fun code hc hs => (hr ⟨hc, hs, hc.2⟩).1,
      fun code hc ha hs => hdb ⟨⟨⟨ha, hbit code hc⟩, hc⟩, hs⟩⟩

theorem agrees_iff_steady (ho : d.Owned) (hp : d.sm.regmap.Plain) :
    d.Agrees reading (d.update env reading ref []) ↔ d.Steady reading := by
  obtain ⟨c', hu, he⟩ := update_completes ho.numeric env reading ref
  have hunmasked : d.sm.effectiveNow reading.values ⊆ {code | ¬d.sm.regmap.Silenced
      (nextEngineState d.sm.regmap reading.values d.sm.snap.engineState) code} :=
    fun _ => effectiveNow_not_silenced
  have hagree := Ledger.agree_iff (effectiveNow_subset d.sm reading.values) hunmasked ho.rows
  rw [← hu.ledger, ← steady_iff hp] at hagree
  have hdisplay := display_iff ho hp hu
  rw [hu.regmap, hu.engineState] at hdisplay
  rw [he]
  constructor
  · rintro ⟨hdisp, -⟩
    rw [hu.regmap, hu.engineState] at hdisp
    exact hagree.mp (hdisplay.mp hdisp)
  · intro hs
    refine ⟨?_, fun code hc hn => ?_⟩
    · rw [hu.regmap, hu.engineState]
      exact hdisplay.mpr (hagree.mpr hs)
    · have hshown : code ∉ d.sm.snap.activeAlarms := fun h => hn (hs.rows code hc h)
      have hnew : code ∈ (bitLedger d.sm d.db).announced (d.sm.effectiveNow reading.values) :=
        Ledger.Quiet.mem_announced ⟨fun h => hn h.1, fun h => hshown h.1⟩ hc
      have hrow : code ∈ (bitLedger c'.self c'.db).rows := by
        rw [hu.ledger]
        exact Or.inr hnew.1
      obtain ⟨new, hem, -, hr, -⟩ := hu.emits
      rw [hem, List.nil_append]
      exact ⟨hrow.1, (hr ▸ hnew).1⟩

end Update

theorem Owned.step {d d' : AlarmDesk} {l : AckLabel} (ho : d.Owned) (h : d.ackStep l = some d') :
    d'.Owned := by
  cases l with
  | update env reading ref =>
    obtain rfl := Option.some.inj h
    exact ho.update
  | ack code operator ctl now =>
    simp only [ackStep] at h
    split at h
    · obtain rfl := Option.some.inj h
      refine ⟨ho.numeric, fun other hr => ho.rows ⟨?_, hr.2⟩⟩
      exact (Table.mem_keys_delete.mp hr.1).1
    · cases h
  | applyRegmap m =>
    obtain rfl := Option.some.inj h
    exact ⟨ho.numeric, ho.rows⟩

/-- From an empty table, over maps that keep clear of the derived codes, display and table agree
after every update of a run exactly when every update starts steady. -/
theorem display_agrees_iff_steady (m : RegisterMap) (db : Database) (now : ℚ) (ls : List AckLabel)
    (hempty : db.alarmsActive = ∅)
    (hplain : ∀ d l d', Takes ackStep (start m db now) ls d l d' → d.sm.regmap.Plain) :
    (∀ d env reading ref d', Takes ackStep (start m db now) ls d (.update env reading ref) d' →
      d.Agrees reading d') ↔
    ∀ d env reading ref d', Takes ackStep (start m db now) ls d (.update env reading ref) d' →
      d.Steady reading := by
  refine forall₄_congr fun d env reading ref => forall₂_congr fun d' ht => ?_
  have ho : d.Owned := ht.reachable.invariant (owned_start m hempty now) fun _ _ _ => Owned.step
  obtain rfl := Option.some.inj ht.step_eq
  exact agrees_iff_steady ho (hplain _ _ _ ht)

theorem steady_of_alarmCodes {d : AlarmDesk} {reading : Reading}
    (h : ∀ code ∈ d.sm.regmap.alarmCodes,
      (code ∈ d.sm.effectiveNow reading.values → code ∈ d.sm.snap.activeAlarms →
        d.db.Active code) ∧
      (code ∈ setCodes d.sm.regmap reading.values → d.db.Active code →
        ¬d.sm.regmap.Silenced
          (nextEngineState d.sm.regmap reading.values d.sm.snap.engineState) code →
        code ∈ d.sm.effectiveNow reading.values)) : d.Steady reading where
  rows code hc := (h code (mem_alarmCodes_of_mem_setCodes (effectiveNow_subset _ _ hc))).1 hc
  debounced code hc := (h code (mem_alarmCodes_of_mem_setCodes hc)).2 hc

/-- An alarm that stays set across a reload and then goes low. -/
theorem reloaded_alarm_agrees :
    ∃ d d', Takes ackStep (start oneAlarmMap .empty 0)
      ([.update (quietEnv 1) (statusReading (some 1)) .poller, .applyRegmap oneAlarmMap] ++
        [.update (quietEnv 2) (statusReading (some 1)) .poller]) d
        (.update (quietEnv 2) (statusReading (some 1)) .poller) d' ∧
      d.db.Active "LOW_OIL" ∧ d.Agrees (statusReading (some 1)) d' := by
  obtain ⟨d, d', ht, hrow⟩ := takes_of_lastStep ackStep (start oneAlarmMap .empty 0)
    [.update (quietEnv 1) (statusReading (some 1)) .poller, .applyRegmap oneAlarmMap]
    (.update (quietEnv 2) (statusReading (some 1)) .poller)
    (fun d _ _ => d.db.Active "LOW_OIL") (by decide +kernel)
  refine ⟨d, d', ht, of_decide_eq_true hrow, ?_⟩
  refine (display_agrees_iff_steady oneAlarmMap .empty 0 _ rfl fun d l d' ht => ?_).mpr
    (fun d env reading ref d' ht => ?_) _ _ _ _ _ ht
  · have htest := ht.test_of_everyStep (fun d _ _ => d.sm.regmap.Plain) (by decide +kernel)
    exact of_decide_eq_true htest
  · have htest := ht.test_of_everyStep (fun d l _ => match l with
      | .update _ reading _ => ∀ code ∈ d.sm.regmap.alarmCodes,
        (code ∈ d.sm.effectiveNow reading.values → code ∈ d.sm.snap.activeAlarms →
          d.db.Active code) ∧
        (code ∈ setCodes d.sm.regmap reading.values → d.db.Active code →
          ¬d.sm.regmap.Silenced
            (nextEngineState d.sm.regmap reading.values d.sm.snap.engineState) code →
          code ∈ d.sm.effectiveNow reading.values)
      | _ => true) (by decide +kernel)
    exact steady_of_alarmCodes (of_decide_eq_true htest)

/-- An alarm that is acknowledged while its bit stays set: it stays on display without a row. -/
theorem acknowledged_alarm_not_raised_again :
    ¬∀ d env reading ref d', Takes ackStep (start oneAlarmMap .empty 0)
      ([.update (quietEnv 1) (statusReading (some 1)) .poller, .ack "LOW_OIL" "alice" none 2] ++
        [.update (quietEnv 3) (statusReading (some 1)) .poller]) d (.update env reading ref) d' →
      d.Agrees reading d' := by
  intro h
  obtain ⟨d, d', ht, hd⟩ := takes_of_lastStep ackStep (start oneAlarmMap .empty 0)
    [.update (quietEnv 1) (statusReading (some 1)) .poller, .ack "LOW_OIL" "alice" none 2]
    (.update (quietEnv 3) (statusReading (some 1)) .poller)
    (fun _ _ d' => "LOW_OIL" ∈ d'.sm.regmap.alarmCodes ∧ "LOW_OIL" ∈ d'.sm.snap.activeAlarms ∧
      ¬d'.db.Active "LOW_OIL") (by decide +kernel)
  obtain ⟨hc, hs, hn⟩ := of_decide_eq_true hd
  exact hn (((h _ _ _ _ _ ht).display "LOW_OIL" hc).mp hs).1

end AlarmDesk

end GenWatch

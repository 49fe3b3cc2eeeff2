import GenWatch.Alarms.Evidence
import GenWatch.Services.Monitor

/-! # Alarms across restarts

Sessions share one database: each starts with fresh services and ends at any
point, also in the middle of an update. A session clears only the rows it raised
itself. As long as no row of an earlier session belongs to a code that is observed
low, the rows of alarm bits mean set bits after every complete reading, and every
alarm that was observed low is announced when it becomes effective again.
-/

namespace GenWatch

open ServiceM Transition StateMachine

/-- The monitoring side over several sessions, with the events published last and the codes that
have been observed low in this session and have not been effective since. -/
structure Sessions where
  mon : Monitor
  published : List Event
  armed : Set String

/-- What happens within a session, and how it ends. -/
inductive SessionLabel where
  | input (i : Input)
  | restart (m : RegisterMap) (ats : Option (RegisterMap × Option ℤ)) (now : ℚ)
  /-- the session ends while it handles an input; `faults` says which database calls it missed -/
  | crash (i : Input) (faults : List Bool) (m : RegisterMap)
    (ats : Option (RegisterMap × Option ℤ)) (now : ℚ)

namespace Sessions

def start (m : RegisterMap) (ats : Option (RegisterMap × Option ℤ)) (db : Database) (now : ℚ) :
    Sessions :=
  ⟨.init m ats db now, [], ∅⟩

def lowCodes (m : RegisterMap) (values : Values) : Set String :=
  {code | code ∈ m.alarmCodes ∧ AlarmDesk.SeenLow m values code}

def nextArmed (s : Sessions) : Input → Set String
  | .poll _ reading =>
    let sm := s.mon.stateMachine
    lowCodes sm.regmap reading.values ∪ (s.armed \ sm.effectiveNow reading.values)
  | _ => s.armed

def step (s : Sessions) : SessionLabel → Option Sessions
  | .input i => (s.mon.step [] i).map fun r => ⟨r.1, r.2, s.nextArmed i⟩
  | .restart m ats now => some (start m ats s.mon.db now)
  | .crash i faults m ats now => (s.mon.step faults i).map fun r => start m ats r.1.db now

/-- The reading carries the register of every alarm bit. -/
def Complete (m : RegisterMap) (values : Values) : Prop :=
  ∀ ab ∈ m.alarmBits, (values ab.register).isSome

/-- After a complete reading every row of an alarm bit has its bit set, and an alarm that becomes
effective after it was observed low is announced. -/
structure Faithful (s : Sessions) (reading : Reading) (s' : Sessions) : Prop where
  rows : Complete s.mon.stateMachine.regmap reading.values →
    ∀ code ∈ s.mon.stateMachine.regmap.alarmCodes, s'.mon.db.Active code →
      code ∈ setCodes s.mon.stateMachine.regmap reading.values
  announced : ∀ code ∈ s.armed, code ∈ s.mon.stateMachine.effectiveNow reading.values →
    code ∈ raisedCodes s'.published

/-- Every row of a code that the reading shows low was raised in this session. -/
def NoLeftover (s : Sessions) (reading : Reading) : Prop :=
  ∀ code ∈ lowCodes s.mon.stateMachine.regmap reading.values, s.mon.db.Active code →
    code ∈ s.mon.stateMachine.raisedThisSession

instance (s : Sessions) (reading : Reading) : Decidable (s.NoLeftover reading) :=
  decidable_of_iff (∀ code ∈ s.mon.stateMachine.regmap.alarmCodes,
      AlarmDesk.SeenLow s.mon.stateMachine.regmap reading.values code → s.mon.db.Active code →
        code ∈ s.mon.stateMachine.raisedThisSession)
    ⟨fun h code hc => h code hc.1 hc.2, fun h code hm hl => h code ⟨hm, hl⟩⟩

/-- The alarm bits keep clear of the derived codes and of the companion's codes. -/
def Apart (s : Sessions) : Prop :=
  s.mon.stateMachine.regmap.Plain ∧
    ∀ ats ∈ s.mon.ats, ∀ code ∈ s.mon.stateMachine.regmap.alarmCodes,
      code ∉ AtsService.codes ats.regmap

/-- An armed code has a rule, no row, and is not on display. -/
structure Inv (s : Sessions) : Prop where
  numeric : s.mon.stateMachine.NumericDerived
  faults : ∀ ats ∈ s.mon.ats, ats.FaultsOwn
  armed : ∀ code ∈ s.armed, code ∈ s.mon.stateMachine.regmap.alarmCodes ∧
    (bitLedger s.mon.stateMachine s.mon.db).Quiet code

theorem inv_start (m : RegisterMap) (ats : Option (RegisterMap × Option ℤ)) (db : Database)
    (now : ℚ) : (start m ats db now).Inv where
  numeric := numericDerived_init m now
  faults := by cases ats <;> simp [start, Monitor.init, AtsService.faultsOwn_init]
  armed := by simp [start]

theorem lowCodes_not_set {m : RegisterMap} {values : Values} {code : String}
    (h : code ∈ lowCodes m values) : code ∉ setCodes m values := by
  intro hs
  obtain ⟨ab, hab, he, hset⟩ := mem_setCodes.mp hs
  have hlow := (Values.low_iff _ _ _).mp (h.2 ab hab he)
  rw [hlow.2] at hset
  cases hset

theorem mem_lowCodes_of_complete {m : RegisterMap} {values : Values} {code : String}
    (hc : Complete m values) (hm : code ∈ m.alarmCodes) (hs : code ∉ setCodes m values) :
    code ∈ lowCodes m values := by
  refine ⟨hm, fun ab hab he => (Values.low_iff _ _ _).mpr ⟨hc ab hab, ?_⟩⟩
  rw [← Bool.not_eq_true]
  exact fun hset => hs (mem_setCodes.mpr ⟨ab, hab, he, hset⟩)

section Poll

variable {s : Sessions} {now : ℚ} {reading : Reading} {s' : Sessions}

theorem poll_updated (hi : s.Inv) (h : s.step (.input (.poll now reading)) = some s') :
    ∃ c', Updated ⟨now, s.mon.atsView, s.mon.heap⟩ reading .poller
        ⟨s.mon.stateMachine, s.mon.db, [], []⟩ c' ∧
      s' = ⟨{ s.mon with stateMachine := c'.self, db := c'.db }, c'.emitted,
        s.nextArmed (.poll now reading)⟩ := by
  obtain ⟨c', hu, he⟩ := s.mon.onPoll_updated hi.numeric now reading
  refine ⟨c', hu, ?_⟩
  rw [← Option.some.inj h, he]

theorem faithful_of_noLeftover (hi : s.Inv) (ha : s.Apart) (hn : s.NoLeftover reading)
    (h : s.step (.input (.poll now reading)) = some s') : s.Faithful reading s' := by
  obtain ⟨c', hu, rfl⟩ := poll_updated hi h
  refine ⟨fun hc code hm hact => ?_, fun code harmed heff => ?_⟩
  · by_contra hs
    have hrow : code ∈ (bitLedger c'.self c'.db).rows := ⟨hact, ha.1 code hm⟩
    rw [hu.ledger] at hrow
    obtain ⟨hold, hnr⟩ := (Ledger.unset_row_iff (effectiveNow_subset _ _) hs).mp hrow
    exact hnr ⟨hn code (mem_lowCodes_of_complete hc hm hs) hold.1, ha.1 code hm⟩
  · obtain ⟨new, he, -, hr, -⟩ := hu.emits
    have hnew : code ∈ raisedCodes new ∩ bitCodes := by
      rw [hr]
      exact ((hi.armed code harmed).2).mem_announced heff
    simpa only [he, List.nil_append] using hnew.1

/-- A leftover row of a code that a complete reading shows low stays. -/
theorem noLeftover_of_faithful (hi : s.Inv) (ha : s.Apart)
    (hc : Complete s.mon.stateMachine.regmap reading.values)
    (h : s.step (.input (.poll now reading)) = some s') (hf : s.Faithful reading s') :
    s.NoLeftover reading := by
  obtain ⟨c', hu, rfl⟩ := poll_updated hi h
  intro code hlow hact
  by_contra hr
  have hs := lowCodes_not_set hlow
  have hbit : code ∈ bitCodes := ha.1 code hlow.1
  have hrow : code ∈ (bitLedger c'.self c'.db).rows := by
    rw [hu.ledger]
    exact (Ledger.unset_row_iff (effectiveNow_subset _ _) hs).mpr ⟨⟨hact, hbit⟩, fun h => hr h.1⟩
  exact hs (hf.rows hc code hlow.1 hrow.1)

theorem Inv.poll (hi : s.Inv) (ha : s.Apart) (hn : s.NoLeftover reading)
    (h : s.step (.input (.poll now reading)) = some s') : s'.Inv := by
  obtain ⟨c', hu, rfl⟩ := poll_updated hi h
  refine ⟨hu.numeric, hi.faults, ?_⟩
  rintro code (hlow | ⟨harmed, heff⟩)
  · refine ⟨hu.regmap ▸ hlow.1, ?_⟩
    simp only [hu.ledger]
    exact Ledger.quiet_of_unset (effectiveNow_subset _ _) (lowCodes_not_set hlow)
      fun hr => ⟨hn code hlow hr.1, ha.1 code hlow.1⟩
  · obtain ⟨hm, hq⟩ := hi.armed code harmed
    refine ⟨hu.regmap ▸ hm, ?_⟩
    simp only [hu.ledger]
    exact hq.of_not_effective heff

end Poll

/-- What keeps the invariant: the codes stay apart, and no reading shows a leftover row low. -/
def Clean (s : Sessions) : SessionLabel → Prop
  | .input (.poll _ reading) => s.Apart ∧ s.NoLeftover reading
  | _ => s.Apart

theorem Clean.apart {s : Sessions} {l : SessionLabel} (h : s.Clean l) : s.Apart := by
  unfold Clean at h
  split at h
  · exact h.1
  · exact h

theorem Inv.step {s s' : Sessions} {l : SessionLabel} (hi : s.Inv) (hc : s.Clean l)
    (h : s.step l = some s') : s'.Inv := by
  cases l with
  | restart m ats now =>
    obtain rfl := Option.some.inj h
    exact inv_start _ _ _ _
  | crash i faults m ats now =>
    obtain ⟨r, -, rfl⟩ := Option.map_eq_some_iff.mp h
    exact inv_start _ _ _ _
  | input i =>
    have ha := hc.apart
    obtain ⟨⟨mon, es⟩, hr, hs'⟩ := Option.map_eq_some_iff.mp h
    rcases Monitor.step_cases hr with ⟨now, reading, rfl, -⟩ |
      ⟨now, mono, tier, reading, ats, rfl, hats, hp⟩ | ⟨hi', hsm, hats, hdb, -⟩
    · exact hi.poll ha hc.2 h
    · obtain ⟨c', hu, he⟩ := s.mon.onAtsPoll_updated (hi.faults ats hats) now mono tier reading
      obtain ⟨rfl, -⟩ := Prod.mk.inj (hp.symm.trans he)
      subst hs'
      refine ⟨hi.numeric, by simpa using hu.faultsOwn, fun code harmed => ?_⟩
      -- the companion's poll leaves the rows of all codes but its own
      obtain ⟨hm, hq⟩ := hi.armed code harmed
      have hrow := hu.rows code (ha.2 ats hats code hm)
      exact ⟨hm, fun hrow' => hq.1 ⟨hrow.mp hrow'.1, hrow'.2⟩, hq.2⟩
    · subst hs'
      have harmed : s.nextArmed i = s.armed := by
        cases i <;> simp_all [nextArmed, Input.callback]
      refine ⟨hsm ▸ hi.numeric, hats ▸ hi.faults, ?_⟩
      rw [harmed]
      simp only [hsm, hdb]
      exact hi.armed

theorem clean_of_faithful {s s' : Sessions} {l : SessionLabel} (hi : s.Inv) (ha : s.Apart)
    (hf : ∀ now reading, l = .input (.poll now reading) →
      Complete s.mon.stateMachine.regmap reading.values ∧ s.Faithful reading s')
    (h : s.step l = some s') : s.Clean l := by
  unfold Clean
  split
  · rename_i now reading
    obtain ⟨hc, hf⟩ := hf now reading rfl
    exact ⟨ha, noLeftover_of_faithful hi ha hc h hf⟩
  · exact ha

/-- In a run in which the codes stay apart and no reading shows a leftover row low, the rows mean
set bits and no alarm goes unannounced; with complete readings no other such run does. -/
theorem alarms_faithful_iff_no_leftover (m : RegisterMap) (ats : Option (RegisterMap × Option ℤ))
    (db : Database) (now : ℚ) (ls : List SessionLabel) :
    ((∀ s l s', Takes step (start m ats db now) ls s l s' → s.Clean l) →
      ∀ s now' reading s', Takes step (start m ats db now) ls s (.input (.poll now' reading)) s' →
        s.Faithful reading s') ∧
    ((∀ s l s', Takes step (start m ats db now) ls s l s' → s.Apart ∧
        ∀ now' reading, l = .input (.poll now' reading) →
          Complete s.mon.stateMachine.regmap reading.values ∧ s.Faithful reading s') →
      ∀ s l s', Takes step (start m ats db now) ls s l s' → s.Clean l) := by
  constructor
  · intro hc s now' reading s' ht
    have hi : s.Inv := ht.invariant hc (inv_start m ats db now) fun _ _ _ => Inv.step
    have hclean := hc _ _ _ ht
    exact faithful_of_noLeftover hi hclean.1 hclean.2 ht.step_eq
  · intro hf s l s' ht
    have hi : s.Inv := ht.invariant hf (inv_start m ats db now)
      fun _ _ _ hi hs h => hi.step (clean_of_faithful hi hs.1 hs.2 h) h
    obtain ⟨ha, hf⟩ := hf _ _ _ ht
    exact clean_of_faithful hi ha hf ht.step_eq

/-- An alarm that is raised and goes low again before the restart, and comes back after it. -/
theorem cleared_before_restart_faithful :
    ∀ s now reading s', Takes step (start oneAlarmMap none .empty 0)
      [.input (.poll 1 (statusReading (some 1))), .input (.poll 2 (statusReading (some 0))),
        .restart oneAlarmMap none 3, .input (.poll 4 (statusReading (some 0))),
        .input (.poll 5 (statusReading (some 1)))] s (.input (.poll now reading)) s' →
      s.Faithful reading s' := by
  refine (alarms_faithful_iff_no_leftover oneAlarmMap none .empty 0 _).1 fun s l s' ht => ?_
  have htest := ht.test_of_everyStep (fun s l _ => decide s.mon.stateMachine.regmap.Plain &&
    s.mon.ats.isNone && match l with
      | .input (.poll _ reading) => decide (s.NoLeftover reading)
      | _ => true) (by decide +kernel)
  simp only [Bool.and_eq_true, decide_eq_true_eq] at htest
  obtain ⟨⟨hp, hats⟩, hn⟩ := htest
  have ha : s.Apart := ⟨hp, by simp [Option.isNone_iff_eq_none.mp hats]⟩
  unfold Clean
  split
  · exact ⟨ha, of_decide_eq_true hn⟩
  · exact ha

/-- An alarm that is raised before a restart and low after it: its row stays. -/
theorem leftover_row_outlives_alarm :
    ¬∀ s now reading s', Takes step (start oneAlarmMap none .empty 0)
      ([.input (.poll 1 (statusReading (some 1))), .restart oneAlarmMap none 2] ++
        [.input (.poll 3 (statusReading (some 0)))]) s (.input (.poll now reading)) s' →
      s.Faithful reading s' := by
  intro h
  obtain ⟨s, s', ht, hs⟩ := takes_of_lastStep step (start oneAlarmMap none .empty 0)
    [.input (.poll 1 (statusReading (some 1))), .restart oneAlarmMap none 2]
    (.input (.poll 3 (statusReading (some 0))))
    (fun s _ s' => (∀ ab ∈ s.mon.stateMachine.regmap.alarmBits, ab.register = "status") ∧
      "LOW_OIL" ∈ s.mon.stateMachine.regmap.alarmCodes ∧ s'.mon.db.Active "LOW_OIL" ∧
      "LOW_OIL" ∉ setCodes s.mon.stateMachine.regmap (statusReading (some 0)).values)
    (by decide +kernel)
  obtain ⟨hr, hm, ha, hn⟩ := of_decide_eq_true hs
  have hc : Complete s.mon.stateMachine.regmap (statusReading (some 0)).values := by
    intro ab hab
    rw [hr ab hab]
    rfl
  exact hn ((h _ _ _ _ ht).rows hc "LOW_OIL" hm ha)

end Sessions

end GenWatch

import GenWatch.Alarms.Lifecycle

/-! # Numeric alarms and the map

Numeric alarms are raised and cleared only under a map that enables them, while
their layering onto the display is unconditional. A reload that disables them while
one is up leaves it raised, on display and in the table. As long as no update finds
numeric alarms disabled with one raised, they follow the current map.
-/

namespace GenWatch

open Handler ServiceM Transition StateMachine

/-- A register of the map has this numeric alarm, with a range to leave. -/
def RegisterMap.Ranges (m : RegisterMap) (code : String) : Prop :=
  ∃ reg ∈ m.registers, numericCode reg = code ∧ (reg.warnRange.isSome ∨ reg.alarmRange.isSome)

def RegisterMap.Watches (m : RegisterMap) (code : String) : Prop :=
  m.numericAlarmsEnabled = true ∧ m.Ranges code

instance (m : RegisterMap) (code : String) : Decidable (m.Watches code) :=
  inferInstanceAs (Decidable (_ ∧ ∃ _ ∈ _, _))

namespace StateMachine

/-- What the parts around the two alarm pipelines keep of the numeric alarms. -/
structure Apart (c c' : Ctx StateMachine) : Prop where
  regmap : c'.self.regmap = c.self.regmap
  numericRaised : c'.self.numericRaised = c.self.numericRaised
  raised : c'.self.raisedThisSession = c.self.raisedThisSession
  rows : ∀ k, IsRange k → (c'.db.Active k ↔ c.db.Active k)
  shown : ∀ k, IsRange k → (k ∈ c'.self.snap.activeAlarms ↔ k ∈ c.self.snap.activeAlarms)

instance : Std.Refl Apart := ⟨fun _ => ⟨rfl, rfl, rfl, fun _ _ => Iff.rfl, fun _ _ => Iff.rfl⟩⟩

instance : IsTrans (Ctx StateMachine) Apart where
  trans _ _ _ h h' := ⟨h'.regmap.trans h.regmap, h'.numericRaised.trans h.numericRaised,
    h'.raised.trans h.raised, fun k hk => (h'.rows k hk).trans (h.rows k hk),
    fun k hk => (h'.shown k hk).trans (h.shown k hk)⟩

section Apart

theorem apart_dbCall {α : Type} {op : Database → α × Database}
    (h : ∀ db k, IsRange k → ((op db).2.Active k ↔ db.Active k)) :
    Relates Apart (dbCall op : ServiceM StateMachine α) :=
  relates_dbCall (fun _ _ => ⟨rfl, rfl, rfl, fun _ _ => Iff.rfl, fun _ _ => Iff.rfl⟩)
    fun c _ => ⟨rfl, rfl, rfl, fun k hk => h c.db k hk, fun _ _ => Iff.rfl⟩

theorem ne_disagree {k : String} (hk : IsRange k) : k ≠ loadsourceDisagreeAlarmCode := by
  rintro rfl
  exact not_isRange_disagree hk

theorem apart_rules : OuterRules Apart where
  writes _ _ _ _ _ := apart_dbCall fun _ _ _ => Iff.rfl
  raises _ _ _ _ := apart_dbCall fun db k hk => by
    simp only [Database.raiseAlarm, Database.Active, Table.mem_keys_insertIgnore]
    exact or_iff_left (ne_disagree hk)
  clears := apart_dbCall fun db k hk => by
    simp only [Database.clearAlarm, Database.Active, Table.mem_keys_delete]
    exact and_iff_left (ne_disagree hk)
  emits _ _ := Relates.modify fun _ => ⟨rfl, rfl, rfl, fun _ _ => Iff.rfl, fun _ _ => Iff.rfl⟩
  moves f hf := Relates.modify fun c => by
    obtain ⟨hmap, hraised, -, hnumeric, hshown⟩ := hf c.self
    exact ⟨hmap, hnumeric, hraised, fun _ _ => Iff.rfl, fun k hk => hshown k (ne_disagree hk)⟩

end Apart

/-- The rows of numeric alarms are those raised, and the alarm bits have no part in them. -/
structure Synced (sm : StateMachine) (db : Database) : Prop where
  ranged : ∀ k ∈ sm.numericRaised.keys, IsRange k
  rows : ∀ k, IsRange k → (db.Active k ↔ k ∈ sm.numericRaised.keys)
  session : ∀ k ∈ sm.raisedThisSession, ¬IsRange k

section Check

variable {m : RegisterMap} {values : Values} {now : ℚ} {c c' : Ctx StateMachine} {u : Unit}

theorem ranges_of_severityFor {reg : RegisterDef} {hit : Severity × ℚ × ℚ}
    (h : severityFor values reg = some hit) : reg.warnRange.isSome ∨ reg.alarmRange.isSome := by
  unfold severityFor at h
  split at h
  · cases h
  · rcases hw : reg.warnRange with _ | warn
    · rcases ha : reg.alarmRange with _ | alarm
      · simp [hw, ha] at h
      · exact Or.inr rfl
    · exact Or.inl rfl

theorem ranges_of_numericActive {state : EngineState} :
    ∀ hit ∈ (numericActive m values state).rows, m.Ranges hit.code := by
  intro hit hm
  obtain ⟨reg, hreg, he, hsev⟩ := exists_of_mem_numericActive hit hm
  obtain ⟨out, hout⟩ := Option.isSome_iff_exists.mp hsev
  exact ⟨reg, hreg, he, ranges_of_severityFor hout⟩

/-- What the numeric check keeps, and that it raises and deletes each numeric alarm together with
its row. -/
structure Balances (c c' : Ctx StateMachine) : Prop where
  regmap : c'.self.regmap = c.self.regmap
  raised : c'.self.raisedThisSession = c.self.raisedThisSession
  shown : c'.self.snap.activeAlarms = c.self.snap.activeAlarms
  synced : Synced c.self c.db → Synced c'.self c'.db

instance : Std.Refl Balances := ⟨fun _ => ⟨rfl, rfl, rfl, id⟩⟩

instance : IsTrans (Ctx StateMachine) Balances where
  trans _ _ _ h h' := ⟨h'.regmap.trans h.regmap, h'.raised.trans h.raised, h'.shown.trans h.shown,
    fun hs => h'.synced (h.synced hs)⟩

theorem raiseNumeric_cases {hit : NumericHit} (h : (raiseNumeric values now hit).run c = .ok u c') :
    (c' = c ∧ (c.self.numericPollCounts hit.code < numericAlarmMinPolls ∨
      hit.code ∈ c.self.numericRaised.keys)) ∨
    (numericAlarmMinPolls ≤ c.self.numericPollCounts hit.code ∧
      hit.code ∉ c.self.numericRaised.keys ∧ ∃ desc,
      c'.self = { c.self with
        numericRaised := c.self.numericRaised.insertReplace (hit.code, hit.severity) } ∧
      c'.db.alarmsActive =
        c.db.alarmsActive.insertIgnore ⟨hit.code, desc, hit.severity, now, 0⟩ ∧
      c'.emitted = c.emitted ++
        if c.db.Active hit.code then [] else [.alarm hit.code desc hit.severity now]) := by
  obtain ⟨sm, c₀, hg, h⟩ := bind_ok.mp h
  obtain ⟨rfl, rfl⟩ := getSelf_ok.mp hg
  split at h
  · rename_i hskip
    obtain ⟨-, rfl⟩ := pure_ok.mp h
    exact Or.inl ⟨rfl, hskip⟩
  rename_i hraise
  obtain ⟨hpolls, hnew⟩ := not_or.mp hraise
  obtain ⟨c₁, h₁, h⟩ := seq_ok.mp h
  obtain rfl := modifySelf_ok.mp h₁
  obtain ⟨changed, c₂, h₂, h⟩ := bind_ok.mp h
  obtain ⟨-, rfl, rfl⟩ := dbCall_ok.mp h₂
  obtain ⟨hself, hdb, hemit⟩ := announceIf_ok h
  refine Or.inr ⟨not_lt.mp hpolls, hnew, _, hself, hdb, hemit.trans ?_⟩
  by_cases hactive : c.db.Active hit.code
  · have hmem : hit.code ∈ c.db.alarmsActive.keys := hactive
    simp [Database.raiseAlarm, hactive, hmem]
  · have hmem : hit.code ∉ c.db.alarmsActive.keys := hactive
    simp [Database.raiseAlarm, hactive, hmem]

theorem clearNumeric_cases {active : List String} {code : String}
    (h : (clearNumeric active now code).run c = .ok u c') :
    (c' = c ∧ code ∈ active) ∨ (code ∉ active ∧
      c'.self = { c.self with numericRaised := c.self.numericRaised.delete code } ∧
      c'.db.alarmsActive = c.db.alarmsActive.delete code ∧
      c'.emitted = c.emitted ++
        if c.db.Active code then [.alarmCleared code (.text code) now] else []) := by
  unfold clearNumeric at h
  split at h
  · rename_i hin
    obtain ⟨-, rfl⟩ := pure_ok.mp h
    exact Or.inl ⟨rfl, hin⟩
  rename_i hout
  obtain ⟨c₁, h₁, h⟩ := seq_ok.mp h
  obtain rfl := modifySelf_ok.mp h₁
  obtain ⟨changed, c₂, h₂, h⟩ := bind_ok.mp h
  obtain ⟨-, rfl, rfl⟩ := dbCall_ok.mp h₂
  obtain ⟨hself, hdb, hemit⟩ := announceIf_ok h
  refine Or.inr ⟨hout, hself, hdb, hemit.trans ?_⟩
  by_cases hactive : c.db.Active code
  · have hmem : code ∈ c.db.alarmsActive.keys := hactive
    simp [Database.clearAlarm, hactive, hmem]
  · have hmem : code ∉ c.db.alarmsActive.keys := hactive
    simp [Database.clearAlarm, hactive, hmem]

theorem raiseNumeric_ok {hit : NumericHit} (hk : IsRange hit.code)
    (h : (raiseNumeric values now hit).run c = .ok u c') :
    Balances c c' ∧ ∀ k ∈ c'.self.numericRaised.keys,
      k ∈ c.self.numericRaised.keys ∨ k = hit.code := by
  obtain ⟨rfl, -⟩ | ⟨-, -, desc, hself, hdb, -⟩ := raiseNumeric_cases h
  · exact ⟨Std.Refl.refl _, fun _ => Or.inl⟩
  rw [hself]
  refine ⟨⟨(congrArg StateMachine.regmap hself :),
    (congrArg StateMachine.raisedThisSession hself :),
    (congrArg (fun sm => sm.snap.activeAlarms) hself :), fun hs => ?_⟩,
    fun k => Table.mem_keys_insertReplace.mp⟩
  refine ⟨fun k hmem => ?_, fun k hr => ?_, by rw [hself]; exact hs.session⟩
  · rw [hself] at hmem
    exact (Table.mem_keys_insertReplace.mp hmem).elim (hs.ranged k) fun he => he ▸ hk
  · rw [Database.Active, hdb, hself]
    simp only [Table.mem_keys_insertIgnore, Table.mem_keys_insertReplace]
    exact or_congr_left (hs.rows k hr)

theorem clearNumeric_ok {active : List String} {code : String}
    (h : (clearNumeric active now code).run c = .ok u c') :
    Balances c c' ∧ ∀ k, k ∈ c'.self.numericRaised.keys ↔
      k ∈ c.self.numericRaised.keys ∧ (k = code → code ∈ active) := by
  obtain ⟨rfl, hin⟩ | ⟨hout, hself, hdb, -⟩ := clearNumeric_cases h
  · exact ⟨Std.Refl.refl _, fun k => (and_iff_left fun _ => hin).symm⟩
  rw [hself]
  refine ⟨⟨(congrArg StateMachine.regmap hself :),
    (congrArg StateMachine.raisedThisSession hself :),
    (congrArg (fun sm => sm.snap.activeAlarms) hself :), fun hs => ?_⟩, fun k => ?_⟩
  · refine ⟨fun k hmem => ?_, fun k hr => ?_, by rw [hself]; exact hs.session⟩
    · rw [hself] at hmem
      exact hs.ranged k (Table.mem_keys_delete.mp hmem).1
    · rw [Database.Active, hdb, hself]
      simp only [Table.mem_keys_delete]
      exact and_congr_left fun _ => hs.rows k hr
  · rw [Table.mem_keys_delete]
    exact and_congr_right fun _ => ⟨fun hne he => absurd he hne, fun hin he => hout (hin he)⟩

theorem raiseNumeric_loop_ok {hits : List NumericHit} (hk : ∀ hit ∈ hits, IsRange hit.code)
    (h : (hits.forM (raiseNumeric values now)).run c = .ok u c') : Balances c c' := by
  have hloop : Ensures Balances (hits.forM (raiseNumeric values now)) :=
    Ensures.forM fun hit hmem _ _ _ hr => (raiseNumeric_ok (hk hit hmem) hr).1
  exact hloop _ _ _ h

theorem clearNumeric_loop_ok {active : List String} (codes : List String) :
    ∀ {c c' : Ctx StateMachine}, (codes.forM (clearNumeric active now)).run c = .ok u c' →
      Balances c c' ∧ ∀ k, k ∈ c'.self.numericRaised.keys ↔
        k ∈ c.self.numericRaised.keys ∧ (k ∈ codes → k ∈ active) := by
  induction codes with
  | nil =>
    intro c c' h
    obtain rfl := forM_nil_ok.mp h
    exact ⟨Std.Refl.refl _, fun k => by simp⟩
  | cons code codes ih =>
    intro c c' h
    obtain ⟨t, h₁, h₂⟩ := forM_cons_ok.mp h
    obtain ⟨b₁, k₁⟩ := clearNumeric_ok h₁
    obtain ⟨b₂, k₂⟩ := ih h₂
    refine ⟨IsTrans.trans _ _ _ b₁ b₂, fun k => ?_⟩
    rw [k₂, k₁, and_assoc, List.mem_cons, or_imp]
    exact and_congr_right fun _ => and_congr_left fun _ =>
      ⟨fun hin he => he ▸ hin he, fun hin he => he ▸ hin he⟩

/-- After the check every numeric alarm that is raised belongs to a register out of range. -/
theorem checkNumericRanges_ok {reading : Reading}
    (h : (checkNumericRanges m reading now).run c = .ok u c') :
    Balances c c' ∧ ∀ k ∈ c'.self.numericRaised.keys, m.Ranges k := by
  obtain ⟨sm, c₀, hg, h⟩ := bind_ok.mp h
  obtain ⟨rfl, rfl⟩ := getSelf_ok.mp hg
  obtain ⟨c₁, h₁, h⟩ := seq_ok.mp h
  have b₁ : Balances c c₁ := by
    obtain rfl := modifySelf_ok.mp h₁
    exact ⟨rfl, rfl, rfl, fun hs => ⟨hs.ranged, hs.rows, hs.session⟩⟩
  obtain ⟨c₂, h₂, h⟩ := seq_ok.mp h
  have b₂ : Balances c₁ c₂ :=
    raiseNumeric_loop_ok (fun hit hmem => numericActive_isRange _ _ _ hit hmem) h₂
  obtain ⟨sm, c₃, hg, h⟩ := bind_ok.mp h
  obtain ⟨rfl, rfl⟩ := getSelf_ok.mp hg
  obtain ⟨b₃, k₃⟩ := clearNumeric_loop_ok _ h
  refine ⟨IsTrans.trans _ _ _ b₁ (IsTrans.trans _ _ _ b₂ b₃), fun k hk => ?_⟩
  obtain ⟨hraised, hactive⟩ := (k₃ k).mp hk
  obtain ⟨hit, hmem, rfl⟩ := Table.mem_keys.mp (hactive hraised)
  exact ranges_of_numericActive hit hmem

end Check

section Update

variable {env : PollEnv} {reading : Reading} {comms : CommsRef} {c c' : Ctx StateMachine} {u : Unit}

/-- No set alarm bit carries the code of a numeric alarm. -/
def Unmixed (m : RegisterMap) (values : Values) : Prop :=
  ∀ ab ∈ m.deriveActiveAlarms values, ¬IsRange ab.code

instance (m : RegisterMap) (values : Values) : Decidable (Unmixed m values) :=
  inferInstanceAs (Decidable (∀ _ ∈ _, _))

theorem Unmixed.notMem_setCodes {m : RegisterMap} {values : Values} (h : Unmixed m values)
    {k : String} (hk : IsRange k) : k ∉ setCodes m values := by
  intro hmem
  obtain ⟨ab, hab, rfl⟩ := List.mem_map.mp hmem
  exact h ab hab hk

theorem updateAlarms_apart {m : RegisterMap} {now : ℚ} (hu : Unmixed m reading.values)
    (h : (updateAlarms m reading now).run c = .ok u c') (hs : Synced c.self c.db) :
    Synced c'.self c'.db ∧ ∀ k, IsRange k → k ∉ c'.self.snap.activeAlarms := by
  have o := updateAlarms_observes h
  have heff : ∀ k, IsRange k →
      k ∉ effectiveCodes m c.self.alarmPollCounts c.self.snap.engineState reading.values :=
    fun k hk hmem => hu.notMem_setCodes hk (effectiveCodes_subset _ _ _ hmem)
  have hraised : ∀ k ∈ c'.self.raisedThisSession, ¬IsRange k := by
    intro k hmem hk
    have hobs : k ∈ (ledger c'.self c'.db).raised := hmem
    rw [o.ledger] at hobs
    rcases hobs with ⟨hold, -⟩ | ⟨hnew, -⟩
    · exact hs.session k hold hk
    · exact heff k hk hnew
  refine ⟨⟨o.numericRaised ▸ hs.ranged, fun k hk => ?_, hraised⟩, fun k hk hmem => ?_⟩
  · have hobs : c'.db.Active k ↔ k ∈ ((ledger c.self c.db).observe
        (effectiveCodes m c.self.alarmPollCounts c.self.snap.engineState reading.values)
        (setCodes m reading.values)).rows := by
      rw [← o.ledger]
      rfl
    rw [hobs, o.numericRaised, ← hs.rows k hk]
    constructor
    · rintro (⟨hrow, -⟩ | ⟨hnew, -⟩)
      · exact hrow
      · exact absurd hnew (heff k hk)
    · exact fun hrow => Or.inl ⟨hrow, fun hr => hs.session k hr.1 hk⟩
  · have hobs : k ∈ (ledger c'.self c'.db).shown := hmem
    rw [o.ledger] at hobs
    exact heff k hk hobs

theorem updateNumeric_ok {m : RegisterMap} {now : ℚ}
    (h : (updateNumeric m reading now).run c = .ok u c') :
    c'.self.regmap = c.self.regmap ∧ (Synced c.self c.db → Synced c'.self c'.db) ∧
    (∀ k, k ∈ c'.self.snap.activeAlarms ↔
      k ∈ c.self.snap.activeAlarms ∨ k ∈ c'.self.numericRaised.keys) ∧
    (m.numericAlarmsEnabled = true → ∀ k ∈ c'.self.numericRaised.keys, m.Ranges k) ∧
    (m.numericAlarmsEnabled = false → c'.self.numericRaised = c.self.numericRaised) := by
  unfold updateNumeric at h
  split at h
  · rename_i hon
    obtain ⟨c₁, h₁, h₂⟩ := seq_ok.mp h
    obtain ⟨b, hr⟩ := checkNumericRanges_ok h₁
    obtain rfl := modifySelf_ok.mp h₂
    refine ⟨b.regmap, fun hs => ?_, fun k => ?_, fun _ => hr, fun hoff => ?_⟩
    · have hs₁ := b.synced hs
      exact ⟨hs₁.ranged, hs₁.rows, hs₁.session⟩
    · rw [← b.shown]
      simp
    · rw [hon] at hoff
      cases hoff
  · rename_i hoff
    obtain rfl := modifySelf_ok.mp h
    exact ⟨rfl, fun hs => ⟨hs.ranged, hs.rows, hs.session⟩, fun k => by simp,
      fun hon => absurd hon hoff, fun _ => rfl⟩

theorem Apart.synced (h : Apart c c') (hs : Synced c.self c.db) : Synced c'.self c'.db := by
  refine ⟨h.numericRaised ▸ hs.ranged, fun k hk => ?_, h.raised ▸ hs.session⟩
  rw [h.rows k hk, h.numericRaised]
  exact hs.rows k hk

/-- A completed update keeps table, display and numeric alarms in step. It checks the numeric
alarms if the map enables them, and otherwise keeps those that are raised. -/
theorem update_numeric (hu : Unmixed c.self.regmap reading.values)
    (h : (update env reading comms).run c = .ok u c') (hs : Synced c.self c.db) :
    c'.self.regmap = c.self.regmap ∧ Synced c'.self c'.db ∧
    (∀ k, IsRange k → (k ∈ c'.self.snap.activeAlarms ↔ k ∈ c'.self.numericRaised.keys)) ∧
    (c.self.regmap.numericAlarmsEnabled = true →
      ∀ k ∈ c'.self.numericRaised.keys, c.self.regmap.Ranges k) ∧
    (c.self.regmap.numericAlarmsEnabled = false →
      c'.self.numericRaised = c.self.numericRaised) := by
  obtain ⟨sm, c₀, hg, h⟩ := bind_ok.mp h
  obtain ⟨rfl, rfl⟩ := getSelf_ok.mp hg
  obtain ⟨c₁, h₁, h⟩ := seq_ok.mp h
  obtain ⟨c₂, h₂, h⟩ := seq_ok.mp h
  obtain ⟨c₃, h₃, h⟩ := seq_ok.mp h
  have a₁ : Apart c c₁ := (apart_rules.relates_updateEngineState _ _ _).ok h₁
  have o := updateAlarms_observes h₂
  obtain ⟨s₂, hclear⟩ := updateAlarms_apart hu h₂ (a₁.synced hs)
  obtain ⟨hmap, hsync, hshown, hon, hoff⟩ := updateNumeric_ok h₃
  have a₄ : Apart c₃ c' := (apart_rules.relates_afterNumeric _ reading env comms).ok h
  refine ⟨?_, a₄.synced (hsync s₂), fun k hk => ?_, a₄.numericRaised ▸ hon, fun hdis => ?_⟩
  · rw [a₄.regmap, hmap, o.regmap, a₁.regmap]
  · rw [a₄.shown k hk, hshown, a₄.numericRaised]
    exact or_iff_right (hclear k hk)
  · rw [a₄.numericRaised, hoff hdis, o.numericRaised, a₁.numericRaised]

end Update

end StateMachine

namespace AlarmHistory

variable {s s' : AlarmHistory} {m : RegisterMap} {db : Database} {now : ℚ}

/-- The map in force enables numeric alarms, or none is raised. -/
def NumericGuarded (s : AlarmHistory) : Prop :=
  s.desk.sm.regmap.numericAlarmsEnabled = true ∨ s.desk.sm.numericRaised.keys = []

instance (s : AlarmHistory) : Decidable s.NumericGuarded := inferInstanceAs (Decidable (_ ∨ _))

/-- After an update the current map watches every numeric alarm that is displayed, raised or in
the table, and every one it does not watch any more was announced as cleared. -/
structure NumericFollows (s s' : AlarmHistory) : Prop where
  shown : ∀ k ∈ s'.desk.sm.snap.activeAlarms, IsRange k → s'.desk.sm.regmap.Watches k
  raised : ∀ k ∈ s'.desk.sm.numericRaised.keys, s'.desk.sm.regmap.Watches k
  rows : ∀ k, IsRange k → s'.desk.db.Active k → s'.desk.sm.regmap.Watches k
  cleared : ∀ k ∈ s.desk.sm.numericRaised.keys, ¬s.desk.sm.regmap.Watches k →
    k ∈ clearedCodes s'.desk.published

theorem synced_start (hdb : db.alarmsActive = ∅) :
    Synced (start m db now).desk.sm (start m db now).desk.db := by
  constructor <;> simp [start, AlarmDesk.start, init, Database.Active, hdb]

theorem cleared_of_row_deleted {env : PollEnv} {reading : Reading} {ref : CommsRef}
    {c c' : Ctx StateMachine} {u : Unit}
    (h : (StateMachine.update env reading ref).run c = .ok u c') (hc : c.emitted = [])
    {k : String} (hrow : c.db.Active k) (hgone : ¬c'.db.Active k) :
    k ∈ clearedCodes c'.emitted := by
  have hflips : Ensures (Flips k) (StateMachine.update env reading ref) := flips_update _ _ _
  obtain ⟨new, he, ht⟩ := hflips c u c' h
  obtain rfl : new = c'.emitted := by simpa [hc] using he.symm
  have hne : decide (c.db.Active k) ≠ decide (c'.db.Active k) := by
    rw [decide_eq_true hrow, decide_eq_false hgone]
    simp
  have hmem := ht.mem_of_ne hne
  rw [decide_eq_false hgone] at hmem
  obtain ⟨e, hm, hflip⟩ := List.mem_filterMap.mp hmem
  refine ⟨e, hm, ?_⟩
  unfold Event.flip at hflip
  split_ifs at hflip with h₁ h₂
  · cases hflip
  · exact h₂

/-- One update, from a state in which table and numeric alarms are in step. -/
theorem numericFollows_iff_guarded {env : PollEnv} {reading : Reading} {ref : CommsRef}
    (hd : s.desk.sm.NumericDerived) (hs : Synced s.desk.sm s.desk.db)
    (hu : Unmixed s.desk.sm.regmap reading.values)
    (h : step s (.update env reading ref) = some s') :
    Synced s'.desk.sm s'.desk.db ∧ (NumericFollows s s' ↔ s.NumericGuarded) := by
  obtain ⟨env, reading, ref, c', he, -, hok, rfl⟩ | ⟨m, he, -⟩ := step_cases hd h
  · cases he
    obtain ⟨hmap, hs', hshown, hon, hoff⟩ := update_numeric hu hok hs
    refine ⟨hs', fun hf => ?_, fun hg => ?_⟩
    · by_contra hn
      obtain ⟨hdis, hne⟩ := not_or.mp hn
      have hsame := hoff (Bool.eq_false_iff.mpr hdis)
      obtain ⟨k, hk⟩ := List.exists_mem_of_ne_nil _ hne
      have hw := (hf.raised k (hsame ▸ hk)).1
      rw [hmap] at hw
      exact hdis hw
    · have hw : ∀ k ∈ c'.self.numericRaised.keys, c'.self.regmap.Watches k := by
        rw [hmap]
        intro k hk
        cases hen : s.desk.sm.regmap.numericAlarmsEnabled with
        | true => exact ⟨hen, hon hen k hk⟩
        | false =>
          rw [hoff hen, hg.resolve_left (by simp [hen])] at hk
          cases hk
      refine ⟨fun k hk hr => hw k ((hshown k hr).mp hk), hw,
        fun k hr ha => hw k ((hs'.rows k hr).mp ha), fun k hk hgone => ?_⟩
      have hr : IsRange k := hs.ranged k hk
      refine cleared_of_row_deleted hok rfl ((hs.rows k hr).mpr hk) fun ha => ?_
      exact hgone (hmap ▸ hw k ((hs'.rows k hr).mp ha))
  · cases he

/-- In every run from an empty table in which no set alarm bit carries a numeric alarm's code, an
update leaves the numeric alarms as the current map has them exactly when that map enables them
or none is raised. -/
theorem numeric_alarms_follow_map_iff_guarded (hdb : db.alarmsActive = ∅) {ls : List ReloadLabel}
    (hu : ∀ s env reading ref s', Takes step (start m db now) ls s (.update env reading ref) s' →
      Unmixed s.desk.sm.regmap reading.values) :
    ∀ s env reading ref s', Takes step (start m db now) ls s (.update env reading ref) s' →
      (NumericFollows s s' ↔ s.NumericGuarded) := by
  intro s env reading ref s' h
  have hs : Synced s.desk.sm s.desk.db := by
    refine h.invariant (I := fun s => Synced s.desk.sm s.desk.db)
      (C := fun s l s' => Reachable step (start m db now) s ∧ ∀ env reading ref,
        l = .update env reading ref → Unmixed s.desk.sm.regmap reading.values)
      (fun s l s' ht => ⟨ht.reachable, ?_⟩) (synced_start hdb) ?_
    · rintro env reading ref rfl
      exact hu s env reading ref s' ht
    · rintro s (⟨env, reading, ref⟩ | m) s' hI ⟨hr, hC⟩ hstep
      · exact (numericFollows_iff_guarded (sound_of_reachable hdb hr).numeric hI
          (hC env reading ref rfl) hstep).1
      · obtain rfl := Option.some.inj hstep
        exact ⟨hI.ranged, hI.rows, hI.session⟩
  exact (numericFollows_iff_guarded (sound_of_reachable hdb h.reachable).numeric hs
    (hu s env reading ref s' h) h.step_eq).2

/-- A map with a single register that has a range, which enables numeric alarms or does not. -/
def rangedMap (enabled : Bool) : RegisterMap :=
  { RegisterMap.bare with
    registers := [.plain "engine", { RegisterDef.plain "oil" with warnRange := some (10, 20) }]
    engineStateBits := [⟨.running, "engine", 1⟩]
    numericAlarmsEnabled := enabled }

def oilReading (oil : ℚ) : Reading :=
  ⟨fun name => if name = "engine" then some 1 else if name = "oil" then some oil else none, 0,
    fun _ => none⟩

def outOfRange : List ReloadLabel :=
  [.update (quietEnv 1) (oilReading 30) .poller, .update (quietEnv 2) (oilReading 30) .poller,
    .update (quietEnv 3) (oilReading 30) .poller]

/-- A reload that removes the register clears its alarm. -/
theorem removed_range_cleared :
    ∃ s s', Takes step (start (rangedMap true) .empty 0)
        ((outOfRange ++ [.applyRegmap { rangedMap true with registers := [.plain "engine"] }]) ++
          [.update (quietEnv 4) (oilReading 30) .poller]) s
        (.update (quietEnv 4) (oilReading 30) .poller) s' ∧
      s.desk.db.Active "RANGE_OIL" ∧ "RANGE_OIL" ∈ clearedCodes s'.desk.published := by
  obtain ⟨s, s', ht, htest⟩ := takes_of_lastStep step (start (rangedMap true) .empty 0)
    (outOfRange ++ [.applyRegmap { rangedMap true with registers := [.plain "engine"] }])
    (.update (quietEnv 4) (oilReading 30) .poller)
    (fun s _ _ => s.desk.db.Active "RANGE_OIL" ∧ s.NumericGuarded ∧
      "RANGE_OIL" ∈ s.desk.sm.numericRaised.keys ∧ ¬s.desk.sm.regmap.Watches "RANGE_OIL")
    (by decide +kernel)
  obtain ⟨hrow, hg, hraised, hgone⟩ := of_decide_eq_true htest
  have hu : ∀ s env reading ref s', Takes step (start (rangedMap true) .empty 0)
      ((outOfRange ++ [.applyRegmap { rangedMap true with registers := [.plain "engine"] }]) ++
        [.update (quietEnv 4) (oilReading 30) .poller]) s (.update env reading ref) s' →
      Unmixed s.desk.sm.regmap reading.values := by
    intro s env reading ref s' h ab hab
    have hnone := h.test_of_everyStep (fun s _ _ => s.desk.sm.regmap.alarmBits.isEmpty)
      (by decide +kernel)
    have hmem := ((RegisterMap.mem_deriveActiveAlarms _ _).mp hab).1
    rw [List.isEmpty_iff.mp hnone] at hmem
    cases hmem
  have hf := @numeric_alarms_follow_map_iff_guarded (rangedMap true) .empty 0 rfl _ hu _ _ _ _ _
    ht
  exact ⟨s, s', ht, hrow, (hf.mpr hg).cleared _ hraised hgone⟩

/-- A reload that disables numeric alarms leaves a raised one on display, in the table and raised,
and nothing announces that it is gone. -/
theorem disabled_range_stays :
    ∃ s s', Takes step (start (rangedMap true) .empty 0)
        ((outOfRange ++ [.applyRegmap (rangedMap false)]) ++
          [.update (quietEnv 4) (oilReading 15) .poller]) s
        (.update (quietEnv 4) (oilReading 15) .poller) s' ∧
      ¬s'.desk.sm.regmap.Watches "RANGE_OIL" ∧
      "RANGE_OIL" ∈ s'.desk.sm.snap.activeAlarms ∧
      "RANGE_OIL" ∈ s'.desk.sm.numericRaised.keys ∧ s'.desk.db.Active "RANGE_OIL" ∧
      s'.desk.published = [] := by
  obtain ⟨s, s', ht, htest⟩ := takes_of_lastStep step (start (rangedMap true) .empty 0)
    (outOfRange ++ [.applyRegmap (rangedMap false)])
    (.update (quietEnv 4) (oilReading 15) .poller)
    (fun _ _ s' => ¬s'.desk.sm.regmap.Watches "RANGE_OIL" ∧
      "RANGE_OIL" ∈ s'.desk.sm.snap.activeAlarms ∧
      "RANGE_OIL" ∈ s'.desk.sm.numericRaised.keys ∧ s'.desk.db.Active "RANGE_OIL" ∧
      s'.desk.published = []) (by decide +kernel)
  exact ⟨s, s', ht, of_decide_eq_true htest⟩

end AlarmHistory

end GenWatch

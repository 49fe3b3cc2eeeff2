import GenWatch.Prelude.Ledger
import GenWatch.Services.Frame

/-! # The alarm pipeline refines a ledger

One update raises the effective alarms that were not displayed and clears the
alarms of the session whose bits are no longer set. On the codes of alarm bits it
is one observation of a ledger, and the events it emits are exactly the raises and
withdrawals of that observation.
-/

namespace GenWatch

open Handler ServiceM

def raisedCodes (es : List Event) : Set String := {code | ∃ e ∈ es, e.raises = some code}

def clearedCodes (es : List Event) : Set String := {code | ∃ e ∈ es, e.clears = some code}

@[simp] theorem raisedCodes_nil : raisedCodes [] = ∅ := by simp [raisedCodes]

@[simp] theorem clearedCodes_nil : clearedCodes [] = ∅ := by simp [clearedCodes]

theorem raisedCodes_append (es es' : List Event) :
    raisedCodes (es ++ es') = raisedCodes es ∪ raisedCodes es' := by
  ext code
  simp [raisedCodes, or_and_right, exists_or]

theorem clearedCodes_append (es es' : List Event) :
    clearedCodes (es ++ es') = clearedCodes es ∪ clearedCodes es' := by
  ext code
  simp [clearedCodes, or_and_right, exists_or]

namespace StateMachine

variable {c c' c'' : Ctx StateMachine} {codes codes' : Set String}

section Raise

variable {prev : Finset String}

/-- The codes outside `prev` are raised, and those among them without a row are announced. -/
structure Raises (prev : Finset String) (codes : Set String) (c c' : Ctx StateMachine) : Prop where
  self : c'.self = { c.self with raisedThisSession := c'.self.raisedThisSession }
  rows : ∀ code, c'.db.Active code ↔ c.db.Active code ∨ (code ∈ codes ∧ code ∉ prev)
  raised : ∀ code, code ∈ c'.self.raisedThisSession ↔
    code ∈ c.self.raisedThisSession ∨ (code ∈ codes ∧ code ∉ prev)
  emits : ∃ new, c'.emitted = c.emitted ++ new ∧
    (∀ e ∈ new, e.clears = none ∧ e.commsChange = none) ∧
    ∀ code, code ∈ raisedCodes new ↔ (code ∈ codes ∧ code ∉ prev) ∧ ¬c.db.Active code

theorem Raises.none (h : ∀ code ∈ codes, code ∈ prev) : Raises prev codes c c where
  self := rfl
  rows code := ⟨Or.inl, fun hc => hc.elim id fun hp => absurd (h code hp.1) hp.2⟩
  raised code := ⟨Or.inl, fun hc => hc.elim id fun hp => absurd (h code hp.1) hp.2⟩
  emits := ⟨[], by simp, by simp, fun code => by
    simpa using fun hc hp => absurd (h code hc) hp⟩

theorem Raises.trans (h : Raises prev codes c c') (h' : Raises prev codes' c' c'') :
    Raises prev (codes ∪ codes') c c'' where
  self := by rw [h'.self, h.self]
  rows code := by
    rw [h'.rows, h.rows, Set.mem_union]
    tauto
  raised code := by
    rw [h'.raised, h.raised, Set.mem_union]
    tauto
  emits := by
    obtain ⟨new, he, hn, hr⟩ := h.emits
    obtain ⟨new', he', hn', hr'⟩ := h'.emits
    refine ⟨new ++ new', by rw [he', he, List.append_assoc], fun e hm => ?_, fun code => ?_⟩
    · exact (List.mem_append.mp hm).elim (hn e) (hn' e)
    · rw [raisedCodes_append, Set.mem_union, hr, hr', h.rows, Set.mem_union]
      tauto

theorem raiseIfNew_ok {now : ℚ} {ab : AlarmBit} {u : Unit}
    (h : (raiseIfNew prev now ab).run c = .ok u c') : Raises prev {ab.code} c c' := by
  unfold raiseIfNew at h
  split at h
  · rename_i hp
    obtain ⟨-, rfl⟩ := pure_ok.mp h
    exact Raises.none fun code hc => Set.mem_singleton_iff.mp hc ▸ hp
  rename_i hp
  obtain ⟨raised, c₁, hr, h⟩ := bind_ok.mp h
  obtain ⟨-, rfl, rfl⟩ := dbCall_ok.mp hr
  obtain ⟨c₂, hm, h⟩ := seq_ok.mp h
  obtain rfl := modifySelf_ok.mp hm
  have hrows : ∀ code,
      (c.db.raiseAlarm ⟨ab.code, .text ab.desc, ab.severity, now, ab.mask⟩).2.Active code ↔
      c.db.Active code ∨ (code ∈ ({ab.code} : Set String) ∧ code ∉ prev) := by
    intro code
    simp only [Database.raiseAlarm, Database.Active, Table.mem_keys_insertIgnore,
      Set.mem_singleton_iff]
    exact or_congr_right ⟨fun he => ⟨he, he ▸ hp⟩, And.left⟩
  have hraised : ∀ code, code ∈ c.self.raisedThisSession.insert ab.code ↔
      code ∈ c.self.raisedThisSession ∨ (code ∈ ({ab.code} : Set String) ∧ code ∉ prev) := by
    intro code
    rw [List.mem_insert_iff, Set.mem_singleton_iff, or_comm]
    exact or_congr_right ⟨fun he => ⟨he, he ▸ hp⟩, And.left⟩
  split at h
  · rename_i hnew
    obtain ⟨c₃, hw, h⟩ := seq_ok.mp h
    obtain ⟨-, -, rfl⟩ := dbCall_ok.mp hw
    obtain rfl := emit_ok.mp h
    refine ⟨rfl, hrows, hraised, [_], rfl, by simp [Event.clears, Event.commsChange],
      fun code => ?_⟩
    have hn : ¬c.db.Active ab.code := by simpa [Database.raiseAlarm, Database.Active] using hnew
    simp only [raisedCodes, List.mem_singleton, exists_eq_left, Event.raises, Option.some.injEq,
      Set.mem_ofPred_eq, Set.mem_singleton_iff]
    constructor
    · rintro rfl
      exact ⟨⟨rfl, hp⟩, hn⟩
    · exact fun hc => hc.1.1.symm
  · rename_i hold
    obtain ⟨-, rfl⟩ := pure_ok.mp h
    have ha : c.db.Active ab.code := by simpa [Database.raiseAlarm, Database.Active] using hold
    refine ⟨rfl, hrows, hraised, [], by simp, by simp, fun code => ?_⟩
    simp only [raisedCodes_nil, Set.mem_empty_iff_false, Set.mem_singleton_iff, false_iff]
    rintro ⟨⟨rfl, -⟩, hn⟩
    exact hn ha

theorem raise_loop_ok {now : ℚ} (effective : List AlarmBit) {u : Unit} :
    ∀ {c c' : Ctx StateMachine}, (effective.forM (raiseIfNew prev now)).run c = .ok u c' →
      Raises prev {code | code ∈ effective.map AlarmBit.code} c c' := by
  induction effective with
  | nil =>
    intro c c' h
    obtain rfl := forM_nil_ok.mp h
    exact Raises.none (by simp)
  | cons ab effective ih =>
    intro c c' h
    obtain ⟨t, h₁, h₂⟩ := forM_cons_ok.mp h
    have hset : {code | code ∈ (ab :: effective).map AlarmBit.code} =
        {ab.code} ∪ {code | code ∈ effective.map AlarmBit.code} := by
      ext code
      simp
    rw [hset]
    exact (raiseIfNew_ok h₁).trans (ih h₂)

end Raise

section Clear

variable {raw : List String}

/-- The codes outside `raw` are dropped, and those among them with a row are announced. -/
structure Clears (raw : List String) (codes : Set String) (c c' : Ctx StateMachine) : Prop where
  self : c'.self = { c.self with raisedThisSession := c'.self.raisedThisSession }
  rows : ∀ code, c'.db.Active code ↔ c.db.Active code ∧ ¬(code ∈ codes ∧ code ∉ raw)
  raised : ∀ code, code ∈ c'.self.raisedThisSession ↔
    code ∈ c.self.raisedThisSession ∧ ¬(code ∈ codes ∧ code ∉ raw)
  emits : ∃ new, c'.emitted = c.emitted ++ new ∧
    (∀ e ∈ new, e.raises = none ∧ e.commsChange = none) ∧
    ∀ code, code ∈ clearedCodes new ↔ (code ∈ codes ∧ code ∉ raw) ∧ c.db.Active code

theorem Clears.none (h : ∀ code ∈ codes, code ∈ raw) : Clears raw codes c c where
  self := rfl
  rows code := ⟨fun hc => ⟨hc, fun hp => hp.2 (h code hp.1)⟩, And.left⟩
  raised code := ⟨fun hc => ⟨hc, fun hp => hp.2 (h code hp.1)⟩, And.left⟩
  emits := ⟨[], by simp, by simp, fun code => by
    simpa using fun hc hp => absurd (h code hc) hp⟩

theorem Clears.trans (h : Clears raw codes c c') (h' : Clears raw codes' c' c'') :
    Clears raw (codes ∪ codes') c c'' where
  self := by rw [h'.self, h.self]
  rows code := by
    rw [h'.rows, h.rows, Set.mem_union]
    tauto
  raised code := by
    rw [h'.raised, h.raised, Set.mem_union]
    tauto
  emits := by
    obtain ⟨new, he, hn, hr⟩ := h.emits
    obtain ⟨new', he', hn', hr'⟩ := h'.emits
    refine ⟨new ++ new', by rw [he', he, List.append_assoc], fun e hm => ?_, fun code => ?_⟩
    · exact (List.mem_append.mp hm).elim (hn e) (hn' e)
    · rw [clearedCodes_append, Set.mem_union, hr, hr', h.rows, Set.mem_union]
      tauto

theorem clearIfLow_ok {m : RegisterMap} {now : ℚ} {code : String} {u : Unit}
    (h : (clearIfLow m raw now code).run c = .ok u c') : Clears raw {code} c c' := by
  unfold clearIfLow at h
  split at h
  · rename_i hp
    obtain ⟨-, rfl⟩ := pure_ok.mp h
    exact Clears.none fun other hc => Set.mem_singleton_iff.mp hc ▸ hp
  rename_i hp
  obtain ⟨cleared, c₁, hr, h⟩ := bind_ok.mp h
  obtain ⟨-, rfl, rfl⟩ := dbCall_ok.mp hr
  obtain ⟨c₂, hm, h⟩ := seq_ok.mp h
  obtain rfl := modifySelf_ok.mp hm
  have hmem : ∀ other, other ≠ code ↔ ¬(other ∈ ({code} : Set String) ∧ other ∉ raw) := by
    intro other
    rw [Set.mem_singleton_iff]
    exact not_congr ⟨fun he => ⟨he, he ▸ hp⟩, And.left⟩
  have hrows : ∀ other, (c.db.clearAlarm code).2.Active other ↔
      c.db.Active other ∧ ¬(other ∈ ({code} : Set String) ∧ other ∉ raw) := by
    intro other
    rw [← hmem]
    exact Table.mem_keys_delete
  have hraised : ∀ other, other ∈ c.self.raisedThisSession.filter (fun o => o ≠ code) ↔
      other ∈ c.self.raisedThisSession ∧ ¬(other ∈ ({code} : Set String) ∧ other ∉ raw) := by
    intro other
    rw [← hmem, List.mem_filter, decide_eq_true_eq]
  split at h
  · rename_i hold
    obtain ⟨c₃, hw, h⟩ := seq_ok.mp h
    obtain ⟨-, -, rfl⟩ := dbCall_ok.mp hw
    obtain rfl := emit_ok.mp h
    have ha : c.db.Active code := by simpa [Database.clearAlarm, Database.Active] using hold
    refine ⟨rfl, hrows, hraised, [_], rfl, by simp [Event.raises, Event.commsChange],
      fun other => ?_⟩
    simp only [clearedCodes, List.mem_singleton, exists_eq_left, Event.clears, Option.some.injEq,
      Set.mem_ofPred_eq, Set.mem_singleton_iff]
    constructor
    · rintro rfl
      exact ⟨⟨rfl, hp⟩, ha⟩
    · exact fun hc => hc.1.1.symm
  · rename_i hnone
    obtain ⟨-, rfl⟩ := pure_ok.mp h
    have hn : ¬c.db.Active code := by simpa [Database.clearAlarm, Database.Active] using hnone
    refine ⟨rfl, hrows, hraised, [], by simp, by simp, fun other => ?_⟩
    simp only [clearedCodes_nil, Set.mem_empty_iff_false, Set.mem_singleton_iff, false_iff]
    rintro ⟨⟨rfl, -⟩, ha⟩
    exact hn ha

theorem clear_loop_ok {m : RegisterMap} {now : ℚ} (codes : List String) {u : Unit} :
    ∀ {c c' : Ctx StateMachine}, (codes.forM (clearIfLow m raw now)).run c = .ok u c' →
      Clears raw {code | code ∈ codes} c c' := by
  induction codes with
  | nil =>
    intro c c' h
    obtain rfl := forM_nil_ok.mp h
    exact Clears.none (by simp)
  | cons code codes ih =>
    intro c c' h
    obtain ⟨t, h₁, h₂⟩ := forM_cons_ok.mp h
    have hset : {other | other ∈ code :: codes} = {code} ∪ {other | other ∈ codes} := by
      ext other
      simp
    rw [hset]
    exact (clearIfLow_ok h₁).trans (ih h₂)

end Clear

section Loops

variable {prev : Finset String} {raw : List String} (hr : Raises prev codes c c')
  (hc : Clears raw {code | code ∈ c'.self.raisedThisSession} c' c'')
  (hsub : ∀ code ∈ codes, code ∈ raw)
include hr hc

theorem loops_self :
    c''.self = { c.self with raisedThisSession := c''.self.raisedThisSession } := by
  rw [hc.self, hr.self]

include hsub

theorem loops_rows (code : String) :
    c''.db.Active code ↔
      (c.db.Active code ∧ ¬(code ∈ c.self.raisedThisSession ∧ code ∉ raw)) ∨
        (code ∈ codes ∧ code ∉ prev) := by
  have hin := hsub code
  have hraised := hr.raised code
  rw [hc.rows, hr.rows, Set.mem_ofPred_eq]
  tauto

theorem loops_raised (code : String) :
    code ∈ c''.self.raisedThisSession ↔
      (code ∈ c.self.raisedThisSession ∧ code ∈ raw) ∨ (code ∈ codes ∧ code ∉ prev) := by
  have hin := hsub code
  have hraised := hr.raised code
  rw [hc.raised, Set.mem_ofPred_eq]
  tauto

theorem loops_emits :
    ∃ new, c''.emitted = c.emitted ++ new ∧ (∀ e ∈ new, e.commsChange = none) ∧
      (∀ code, code ∈ raisedCodes new ↔ (code ∈ codes ∧ code ∉ prev) ∧ ¬c.db.Active code) ∧
      ∀ code, code ∈ clearedCodes new ↔
        (code ∈ c.self.raisedThisSession ∧ code ∉ raw) ∧ c.db.Active code := by
  obtain ⟨new, he, hn, hnr⟩ := hr.emits
  obtain ⟨new', he', hn', hnc⟩ := hc.emits
  refine ⟨new ++ new', by rw [he', he, List.append_assoc], fun e hm => ?_, fun code => ?_,
    fun code => ?_⟩
  · exact (List.mem_append.mp hm).elim (fun h => (hn e h).2) fun h => (hn' e h).2
  · have hno : code ∉ raisedCodes new' := by
      rintro ⟨e, hm, hr⟩
      rw [(hn' e hm).1] at hr
      cases hr
    rw [raisedCodes_append, Set.mem_union, hnr, or_iff_left hno]
  · have hno : code ∉ clearedCodes new := by
      rintro ⟨e, hm, hr⟩
      rw [(hn e hm).1] at hr
      cases hr
    have hin := hsub code
    have hraised := hr.raised code
    rw [clearedCodes_append, Set.mem_union, hnc, or_iff_right hno, hr.rows, Set.mem_ofPred_eq]
    tauto

end Loops

section Observation

variable {m : RegisterMap} {reading : Reading} {now : ℚ} {u : Unit}

def ledger (sm : StateMachine) (db : Database) : Ledger String where
  rows := {code | db.Active code}
  raised := {code | code ∈ sm.raisedThisSession}
  shown := {code | code ∈ sm.snap.activeAlarms}

def setCodes (m : RegisterMap) (values : Values) : Set String :=
  {code | code ∈ (m.deriveActiveAlarms values).map AlarmBit.code}

instance (m : RegisterMap) (values : Values) (code : String) :
    Decidable (code ∈ setCodes m values) :=
  inferInstanceAs (Decidable (code ∈ (m.deriveActiveAlarms values).map AlarmBit.code))

/-- The codes with a set bit that is debounced and not silenced. -/
def effectiveCodes (m : RegisterMap) (counts : String → ℕ) (state : EngineState)
    (values : Values) : Set String :=
  let rawActive := m.deriveActiveAlarms values
  {code | code ∈
    (effectiveAlarms (countPolls counts (rawActive.map AlarmBit.code)) state rawActive).map
      AlarmBit.code}

instance (m : RegisterMap) (counts : String → ℕ) (state : EngineState) (values : Values)
    (code : String) : Decidable (code ∈ effectiveCodes m counts state values) :=
  inferInstanceAs (Decidable (code ∈ (effectiveAlarms
    (countPolls counts ((m.deriveActiveAlarms values).map AlarmBit.code)) state
    (m.deriveActiveAlarms values)).map AlarmBit.code))

theorem mem_setCodes {values : Values} {code : String} :
    code ∈ setCodes m values ↔
      ∃ ab ∈ m.alarmBits, ab.code = code ∧ values.anySet ab.register ab.mask = true := by
  simp only [setCodes, List.mem_map, RegisterMap.mem_deriveActiveAlarms, Set.mem_ofPred_eq]
  exact ⟨fun ⟨ab, ⟨h, hs⟩, hc⟩ => ⟨ab, h, hc, hs⟩, fun ⟨ab, h, hc, hs⟩ => ⟨ab, ⟨h, hs⟩, hc⟩⟩

theorem effectiveCodes_subset (counts : String → ℕ) (state : EngineState) (values : Values) :
    effectiveCodes m counts state values ⊆ setCodes m values := by
  intro code hc
  obtain ⟨ab, hab, rfl⟩ := List.mem_map.mp hc
  exact List.mem_map.mpr ⟨ab, (List.mem_filter.mp hab).1, rfl⟩

structure Observes (m : RegisterMap) (values : Values) (c c' : Ctx StateMachine) : Prop where
  regmap : c'.self.regmap = c.self.regmap
  engineState : c'.self.snap.engineState = c.self.snap.engineState
  comms : c'.self.snap.comms = c.self.snap.comms
  numericRaised : c'.self.numericRaised = c.self.numericRaised
  counts : c'.self.alarmPollCounts =
    countPolls c.self.alarmPollCounts ((m.deriveActiveAlarms values).map AlarmBit.code)
  ledger : ledger c'.self c'.db = (ledger c.self c.db).observe
    (effectiveCodes m c.self.alarmPollCounts c.self.snap.engineState values) (setCodes m values)
  emits : ∃ new, c'.emitted = c.emitted ++ new ∧ (∀ e ∈ new, e.commsChange = none) ∧
    raisedCodes new = (StateMachine.ledger c.self c.db).announced
      (effectiveCodes m c.self.alarmPollCounts c.self.snap.engineState values) ∧
    clearedCodes new = (StateMachine.ledger c.self c.db).withdrawn (setCodes m values)

theorem updateAlarms_observes (h : (updateAlarms m reading now).run c = .ok u c') :
    Observes m reading.values c c' := by
  obtain ⟨c₁, hm, h⟩ := seq_ok.mp h
  obtain rfl := modifySelf_ok.mp hm
  obtain ⟨sm, c₁, hg, h⟩ := bind_ok.mp h
  obtain ⟨rfl, rfl⟩ := getSelf_ok.mp hg
  obtain ⟨c₂, h₂, h⟩ := seq_ok.mp h
  have r := raise_loop_ok _ h₂
  obtain ⟨sm, c₃, hg, h⟩ := bind_ok.mp h
  obtain ⟨rfl, rfl⟩ := getSelf_ok.mp hg
  obtain ⟨c₃, h₃, h⟩ := seq_ok.mp h
  have l := clear_loop_ok _ h₃
  obtain rfl := modifySelf_ok.mp h
  have hsub := effectiveCodes_subset (m := m) c.self.alarmPollCounts c.self.snap.engineState
    reading.values
  have hself := loops_self r l
  refine ⟨(congrArg regmap hself :), (congrArg (fun sm => sm.snap.engineState) hself :),
    (congrArg (fun sm => sm.snap.comms) hself :), (congrArg numericRaised hself :),
    (congrArg alarmPollCounts hself :), Ledger.ext ?_ ?_ ?_, ?_⟩
  · ext code
    exact loops_rows r l hsub code
  · ext code
    exact loops_raised r l hsub code
  · ext code
    exact List.mem_toFinset
  · obtain ⟨new, he, hn, hnr, hnc⟩ := loops_emits r l hsub
    exact ⟨new, he, hn, Set.ext hnr, Set.ext hnc⟩

end Observation

section Update

variable {env : PollEnv} {reading : Reading} {comms : CommsRef} {u : Unit}

/-- The codes that only alarm bits can raise. -/
def bitCodes : Set String := {code | ¬IsDerived code}

def bitLedger (sm : StateMachine) (db : Database) : Ledger String :=
  (ledger sm db).restrict bitCodes

/-- The codes of alarm bits that an update with this reading finds effective. -/
def effectiveNow (sm : StateMachine) (values : Values) : Set String :=
  effectiveCodes sm.regmap sm.alarmPollCounts
    (nextEngineState sm.regmap values sm.snap.engineState) values ∩ bitCodes

instance (sm : StateMachine) (values : Values) (code : String) :
    Decidable (code ∈ sm.effectiveNow values) :=
  inferInstanceAs (Decidable (code ∈ effectiveCodes sm.regmap sm.alarmPollCounts
    (nextEngineState sm.regmap values sm.snap.engineState) values ∧ ¬IsDerived code))

theorem effectiveNow_subset (sm : StateMachine) (values : Values) :
    sm.effectiveNow values ⊆ setCodes sm.regmap values :=
  fun _ h => effectiveCodes_subset _ _ _ h.1

structure Updated (env : PollEnv) (reading : Reading) (ref : CommsRef)
    (c c' : Ctx StateMachine) : Prop where
  regmap : c'.self.regmap = c.self.regmap
  engineState : c'.self.snap.engineState =
    nextEngineState c.self.regmap reading.values c.self.snap.engineState
  comms : c'.self.snap.comms = ref
  lastReading : c'.self.snap.lastReading = reading
  numeric : c'.self.NumericDerived
  counts : c'.self.alarmPollCounts = countPolls c.self.alarmPollCounts
    ((c.self.regmap.deriveActiveAlarms reading.values).map AlarmBit.code)
  ledger : bitLedger c'.self c'.db = (bitLedger c.self c.db).observe
    (c.self.effectiveNow reading.values) (setCodes c.self.regmap reading.values)
  emits : ∃ new, c'.emitted = c.emitted ++ new ∧
    new.filterMap Event.commsChange =
      commsDiff .h100 (env.heap c.self.snap.comms).state (env.heap ref).state ∧
    raisedCodes new ∩ bitCodes =
      (bitLedger c.self c.db).announced (c.self.effectiveNow reading.values) ∧
    clearedCodes new ∩ bitCodes =
      (bitLedger c.self c.db).withdrawn (setCodes c.self.regmap reading.values)

theorem keeps_bitLedger {c c' : Ctx StateMachine} (h : Keeps c c') :
    bitLedger c'.self c'.db = bitLedger c.self c.db := by
  refine Ledger.ext ?_ ?_ ?_ <;> ext code <;>
    simp only [bitLedger, Ledger.restrict, ledger, Set.mem_inter_iff]
  · exact and_congr_left fun hc => h.rows code hc
  · rw [h.raised]
  · exact and_congr_left fun hc => h.shown code hc

theorem codes_inter_bitCodes {es : List Event}
    (h : ∀ e ∈ es, ∀ code ∈ e.alarmCode, IsDerived code) :
    raisedCodes es ∩ bitCodes = ∅ ∧ clearedCodes es ∩ bitCodes = ∅ := by
  constructor <;> rw [Set.eq_empty_iff_forall_notMem] <;> rintro code ⟨⟨e, he, hc⟩, hb⟩
  · exact hb (h e he code (Event.alarmCode_of_raises hc))
  · exact hb (h e he code (Event.alarmCode_of_clears hc))

theorem finishUpdate_ok {c c' : Ctx StateMachine}
    (h : (finishUpdate reading comms).run c = .ok u c') :
    c'.self.regmap = c.self.regmap ∧ c'.self.snap.engineState = c.self.snap.engineState ∧
    c'.self.snap.comms = comms ∧ c'.self.snap.lastReading = reading ∧
    c'.self.numericRaised = c.self.numericRaised ∧
    c'.self.alarmPollCounts = c.self.alarmPollCounts ∧ c'.emitted = c.emitted ∧
    bitLedger c'.self c'.db = bitLedger c.self c.db := by
  obtain rfl := modifySelf_ok.mp h
  refine ⟨rfl, rfl, rfl, rfl, rfl, rfl, rfl, Ledger.ext rfl rfl ?_⟩
  ext code
  simp only [bitLedger, Ledger.restrict, ledger, Set.mem_inter_iff, Set.mem_ofPred_eq]
  refine and_congr_left fun hc => ?_
  have hne : code ≠ loadsourceDisagreeAlarmCode := fun he => hc (he ▸ isDerived_disagree)
  split <;> simp [hne]

/-- A completed update is one observation of the ledger, with its events. -/
theorem update_updated {c c' : Ctx StateMachine} (hd : c.self.NumericDerived)
    (h : (update env reading comms).run c = .ok u c') : Updated env reading comms c c' := by
  obtain ⟨c₁, c₂, c₃, c₄, c₅, k₁, h₂, k₃, h₄, k₅, h₆⟩ := update_parts hd h
    fun h => (updateAlarms_observes h).numericRaised
  have o := updateAlarms_observes h₂
  obtain ⟨s₄, d₄, new₄, e₄, a₄, diff₄⟩ := updateComms_ok h₄
  obtain ⟨f₁, f₂, f₃, f₄, f₅, f₆, f₇, f₈⟩ := finishUpdate_ok h₆
  have l₁ : bitLedger c₁.self c₁.db = bitLedger c.self c.db :=
    (keeps_bitLedger k₁).trans rfl
  have l₄ : bitLedger c₄.self c₄.db = bitLedger c₃.self c₃.db := by
    unfold bitLedger ledger Database.Active
    rw [s₄, d₄]
  have heff : effectiveCodes c.self.regmap c₁.self.alarmPollCounts c₁.self.snap.engineState
      reading.values ∩ bitCodes = c.self.effectiveNow reading.values := by
    rw [k₁.counts, k₁.engineState]
    rfl
  refine ⟨?_, ?_, f₃, f₄, ?_, ?_, ?_, ?_⟩
  · rw [f₁, k₅.regmap, s₄, k₃.regmap, o.regmap, k₁.regmap]
    rfl
  · rw [f₂, k₅.engineState, s₄, k₃.engineState, o.engineState, k₁.engineState]
    rfl
  · unfold NumericDerived
    rw [f₅]
    exact k₅.numeric
  · rw [f₆, k₅.counts, s₄, k₃.counts, o.counts, k₁.counts]
    rfl
  · rw [f₈, keeps_bitLedger k₅, l₄, keeps_bitLedger k₃, bitLedger, o.ledger,
      Ledger.restrict_observe, heff, ← l₁]
    rfl
  · obtain ⟨new₁, e₁, n₁⟩ := k₁.emits
    obtain ⟨new₂, e₂, n₂, r₂, w₂⟩ := o.emits
    obtain ⟨new₃, e₃, n₃⟩ := k₃.emits
    obtain ⟨new₅, e₅, n₅⟩ := k₅.emits
    have hcomms : c₃.self.snap.comms = c.self.snap.comms := by
      rw [k₃.comms, o.comms, k₁.comms]
      rfl
    have hnone : ∀ {es : List Event}, (∀ e ∈ es, e.commsChange = none) →
        es.filterMap Event.commsChange = [] := fun h => List.filterMap_eq_nil_iff.mpr h
    obtain ⟨b₁, b₁'⟩ := codes_inter_bitCodes fun e he => (n₁ e he).2
    obtain ⟨b₃, b₃'⟩ := codes_inter_bitCodes fun e he => (n₃ e he).2
    have n₄ : ∀ e ∈ new₄, ∀ code ∈ e.alarmCode, IsDerived code := by
      intro e he code hc
      rw [a₄ e he] at hc
      cases hc
    obtain ⟨b₄, b₄'⟩ := codes_inter_bitCodes n₄
    obtain ⟨b₅, b₅'⟩ := codes_inter_bitCodes fun e he => (n₅ e he).2
    refine ⟨new₁ ++ (new₂ ++ (new₃ ++ (new₄ ++ new₅))), ?_, ?_, ?_, ?_⟩
    · rw [f₇, e₅, e₄, e₃, e₂, e₁]
      simp [withEngineState]
    · simp only [List.filterMap_append, hnone fun e he => (n₁ e he).1, hnone n₂,
        hnone fun e he => (n₃ e he).1, hnone fun e he => (n₅ e he).1, List.nil_append,
        List.append_nil, diff₄, hcomms]
    · simp only [raisedCodes_append, Set.union_inter_distrib_right, b₁, b₃, b₄, b₅, r₂,
        Set.union_empty, Set.empty_union]
      rw [← Ledger.announced_restrict, heff, ← l₁]
      rfl
    · simp only [clearedCodes_append, Set.union_inter_distrib_right, b₁', b₃', b₄', b₅', w₂,
        Set.union_empty, Set.empty_union]
      rw [← Ledger.withdrawn_restrict, ← l₁]
      rfl

end Update

end StateMachine

section Example

def oneAlarmMap : RegisterMap :=
  { RegisterMap.bare with
    registers := [.plain "status"]
    alarmBits := [⟨"status", 1, "LOW_OIL", "Low oil pressure", .alarm, [], 1⟩] }

def statusReading (value : Option ℚ) : Reading :=
  ⟨fun name => if name = "status" then value else none, 0, fun _ => none⟩

/-- An update without a companion over a healthy link. -/
def quietEnv (now : ℚ) : PollEnv := ⟨now, none, fun _ => .initial 1500⟩

end Example

end GenWatch

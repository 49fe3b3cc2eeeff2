import GenWatch.Alarms.Outage
import GenWatch.Ats.LoadSource

/-! # The load source without the companion

While the companion is not authoritative, the load source is inferred from the engine
state, the output of the generator and the previous value. A missing sensor is read as a
zero beside one that is present; with both missing, and before the engine state is known,
the previous value is kept, wherever it came from. Those are exactly the updates at which
the inference leaves the load source wrong.
-/

namespace GenWatch

open Handler ServiceM Transition

namespace StateMachine

def beforeLoadSource (m : RegisterMap) (env : PollEnv) (reading : Reading) (comms : CommsRef) :
    ServiceM StateMachine Unit := do
  updateEngineState m reading env.now
  updateAlarms m reading env.now
  updateNumeric m reading env.now
  updateComms env comms
  updatePanelMode m reading

theorem update_eq_beforeLoadSource (env : PollEnv) (reading : Reading) (comms : CommsRef) :
    update env reading comms = getSelf >>= fun sm =>
      beforeLoadSource sm.regmap env reading comms >>= fun _ =>
        updateLoadSource env reading >>= fun _ =>
          checkLoadsourceDisagreement env reading >>= fun _ => finishUpdate reading comms := by
  simp only [update, beforeLoadSource, bind_assoc]

/-- No database error ends the update before it derives the load source. -/
def Derives (env : PollEnv) (reading : Reading) (comms : CommsRef) (c : Ctx StateMachine) : Prop :=
  completed ((beforeLoadSource c.self.regmap env reading comms).run c) = true

instance (env : PollEnv) (reading : Reading) (comms : CommsRef) (c : Ctx StateMachine) :
    Decidable (Derives env reading comms c) :=
  inferInstanceAs (Decidable (_ = true))

/-- What a part keeps that leaves the load source alone. -/
abbrev KeepsSource : Ctx StateMachine → Ctx StateMachine → Prop :=
  Hushed fun _ => (none : Option Unit)

theorem keepsSource_rules : RoutineRules KeepsSource := hushed_rules fun _ _ => rfl

section Source

variable {m : RegisterMap} {env : PollEnv} {reading : Reading} {comms : CommsRef}

theorem keepsSource_beforeLoadSource :
    Relates KeepsSource (beforeLoadSource m env reading comms) := by
  have rules := keepsSource_rules
  refine Relates.bind (rules.relates_updateEngineState _ _ _) fun _ => ?_
  refine Relates.bind (rules.alarmRules.relates_updateAlarms _ _ _ fun _ _ => ⟨rfl, rfl, rfl⟩)
    fun _ => ?_
  refine Relates.bind (rules.alarmRules.relates_updateNumeric _ _ _) fun _ => ?_
  exact Relates.bind (rules.relates_updateComms _ _) fun _ => rules.relates_updatePanelMode _ _

theorem beforeLoadSource_ok {c c' : Ctx StateMachine} {u : Unit}
    (h : (beforeLoadSource m env reading comms).run c = .ok u c') :
    c'.self.snap.engineState = nextEngineState m reading.values c.self.snap.engineState := by
  obtain ⟨c₁, h₁, h⟩ := seq_ok.mp h
  have hrest : Relates Steady (do
      updateAlarms m reading env.now
      updateNumeric m reading env.now
      updateComms env comms
      updatePanelMode m reading) := by
    refine Relates.bind (steady_updateAlarms _ _ _) fun _ => ?_
    refine Relates.bind (steady_updateNumeric _ _ _) fun _ => ?_
    exact Relates.bind (steady_updateComms _ _) fun _ => steady_updatePanelMode _ _
  exact (hrest.ok h).engineState.trans (updateEngineState_ok h₁)

theorem loadSource_updateLoadSource (c : Ctx StateMachine) :
    (finalState ((updateLoadSource env reading).run c)).self.snap.loadSource =
      deriveLoadSource env.ats reading.values c.self.snap.engineState c.self.snap.loadSource := by
  rw [updateLoadSource, bind_run (getSelf_ok.mpr ⟨rfl, rfl⟩)]
  dsimp only
  generalize deriveLoadSource env.ats reading.values c.self.snap.engineState
    c.self.snap.loadSource = new
  by_cases hne : new ≠ c.self.snap.loadSource
  · rw [if_pos hne, bind_run (a := ()) (modifySelf_ok.mpr rfl)]
    refine @Hushed.loadSource Unit (fun _ => none) _ _
      (Relates.ite (fun _ => Relates.pure _) (fun _ => ?_) _)
    refine Relates.bind (hushed_emit rfl) fun _ => ?_
    split
    · exact hushed_dbCall _
    · exact Relates.pure _
  · rw [if_neg hne]
    exact (not_not.mp hne).symm

theorem loadSource_update (env : PollEnv) (reading : Reading) (comms : CommsRef)
    (c : Ctx StateMachine) :
    (finalState ((update env reading comms).run c)).self.snap.loadSource =
      if Derives env reading comms c then c.self.nextLoadSource env.ats reading.values
      else c.self.snap.loadSource := by
  have hbefore := @keepsSource_beforeLoadSource c.self.regmap env reading comms c
  have hafter : Relates KeepsSource (checkLoadsourceDisagreement env reading >>= fun _ =>
      finishUpdate reading comms) :=
    Relates.bind (keepsSource_rules.relates_checkLoadsourceDisagreement reading env)
      fun _ => hushed_modifySelf fun _ => ⟨rfl, rfl⟩
  rw [update_eq_beforeLoadSource, bind_run (getSelf_ok.mpr ⟨rfl, rfl⟩)]
  cases h : (beforeLoadSource c.self.regmap env reading comms).run c with
  | error e c₁ =>
    rw [h] at hbefore
    rw [bind_error h, if_neg (by simp [Derives, h, completed])]
    exact hbefore.loadSource
  | ok u c₁ =>
    rw [h] at hbefore
    have hsource : c₁.self.snap.loadSource = c.self.snap.loadSource := hbefore.loadSource
    have hderived := @loadSource_updateLoadSource env reading c₁
    rw [hsource, beforeLoadSource_ok h] at hderived
    rw [bind_run h, if_pos (by simp [Derives, h, completed])]
    cases h₁ : (updateLoadSource env reading).run c₁ with
    | error e c₂ =>
      rw [h₁] at hderived
      rw [bind_error h₁]
      exact hderived
    | ok u c₂ =>
      rw [h₁] at hderived
      rw [bind_run h₁]
      exact (hafter c₂).loadSource.trans hderived

theorem nextLoadSource_of_not_authoritative (sm : StateMachine) {ats : Option AtsView}
    (h : atsAuthoritative ats = false) (values : Values) :
    sm.nextLoadSource ats values = deriveLoadSourceFromTelemetry values
      (nextEngineState sm.regmap values sm.snap.engineState) sm.snap.loadSource := by
  unfold nextLoadSource deriveLoadSource
  cases ats with
  | none => rfl
  | some v =>
    have hv : v.authoritative = false := h
    simp [hv]

end Source

/-- What a change of the load source is to rest on while the generator can carry the load. -/
structure Hysteresis (values : Values) (old new : LoadSource) : Prop where
  off : old = .generator → new = .utility →
    ∃ current ∈ values "avg_current", ∃ kw ∈ values "total_kw",
      current < loadOffCurrentThreshold ∧ kw < loadOffKwThreshold
  on : old = .utility ∨ old = .unknown → new = .generator →
    ∃ current ∈ values "avg_current", ∃ kw ∈ values "total_kw",
      loadOnCurrentThreshold ≤ current ∧ loadOnKwThreshold ≤ kw
  hold : ∀ current ∈ values "avg_current", ∀ kw ∈ values "total_kw",
    loadOffCurrentThreshold ≤ current → current < loadOnCurrentThreshold →
    loadOffKwThreshold ≤ kw → kw < loadOnKwThreshold →
      old = .utility ∨ old = .generator → new = old
  missing : values "avg_current" = none ∨ values "total_kw" = none →
    old = .utility ∨ old = .generator → new = old

/-- One sensor is missing, and the other one is below its lower threshold. -/
def LoneLow (values : Values) : Prop :=
  (values "avg_current" = none ∧ ∃ kw ∈ values "total_kw", kw < loadOffKwThreshold) ∨
    values "total_kw" = none ∧ ∃ current ∈ values "avg_current", current < loadOffCurrentThreshold

instance (values : Values) : Decidable (LoneLow values) := inferInstanceAs (Decidable (_ ∨ _))

section Telemetry

variable {values : Values} {state : EngineState} {old : LoadSource}

/-- What the sensors make of the load source while the generator can carry the load. -/
theorem deriveLoadSourceFromTelemetry_eq (hstate : state = .running ∨ state = .alarm) :
    deriveLoadSourceFromTelemetry values state old =
      match values "avg_current", values "total_kw" with
      | none, none => if old ≠ .unknown then old else .utility
      | current, kw =>
        if old = .generator then
          if current.getD 0 < loadOffCurrentThreshold ∧ kw.getD 0 < loadOffKwThreshold then .utility
          else .generator
        else if loadOnCurrentThreshold ≤ current.getD 0 ∧ loadOnKwThreshold ≤ kw.getD 0 then
          .generator
        else .utility := by
  rcases hstate with rfl | rfl <;> rfl

theorem hysteresis_of_both {current kw : ℚ} (hstate : state = .running ∨ state = .alarm)
    (hc : values "avg_current" = some current) (hk : values "total_kw" = some kw) :
    Hysteresis values old (deriveLoadSourceFromTelemetry values state old) := by
  rw [deriveLoadSourceFromTelemetry_eq hstate, hc, hk]
  dsimp only [Option.getD_some]
  refine ⟨?_, ?_, ?_, by simp [hc, hk]⟩
  · rintro rfl hnew
    rw [if_pos rfl] at hnew
    split at hnew
    · exact ⟨current, hc, kw, hk, ‹_›⟩
    · cases hnew
  · intro hold hnew
    rw [if_neg (by rcases hold with rfl | rfl <;> decide)] at hnew
    split at hnew
    · exact ⟨current, hc, kw, hk, ‹_›⟩
    · cases hnew
  · intro x hx y hy hoffc honc hoffk honk hold
    obtain rfl : current = x := Option.some.inj (hc.symm.trans hx)
    obtain rfl : kw = y := Option.some.inj (hk.symm.trans hy)
    rcases hold with rfl | rfl
    · rw [if_neg (by decide), if_neg fun h => honc.not_ge h.1]
    · rw [if_pos rfl, if_neg fun h => hoffc.not_gt h.1]

/-- With a sensor missing, the load source must not move to or from the generator. -/
theorem hysteresis_iff_of_missing {new : LoadSource}
    (hmissing : values "avg_current" = none ∨ values "total_kw" = none) :
    Hysteresis values old new ↔ (old = .utility ∨ old = .unknown → new ≠ .generator) ∧
      (old = .utility ∨ old = .generator → new = old) := by
  have hnone : ∀ {p : ℚ → ℚ → Prop},
      ¬∃ current ∈ values "avg_current", ∃ kw ∈ values "total_kw", p current kw := by
    rintro p ⟨current, hc, kw, hk, -⟩
    rcases hmissing with h | h
    · rw [h] at hc
      cases hc
    · rw [h] at hk
      cases hk
  constructor
  · intro h
    exact ⟨fun hold hnew => hnone (h.on hold hnew), h.missing hmissing⟩
  · rintro ⟨hon, hkeep⟩
    refine ⟨fun hold hnew => ?_, fun hold hnew => absurd hnew (hon hold),
      fun current hc kw hk => ?_, fun _ => hkeep⟩
    · rw [hkeep (Or.inr hold), hold] at hnew
      cases hnew
    · rcases hmissing with h | h
      · rw [h] at hc
        cases hc
      · rw [h] at hk
        cases hk

theorem hysteresis_iff_not_loneLow (hstate : state = .running ∨ state = .alarm) :
    Hysteresis values old (deriveLoadSourceFromTelemetry values state old) ↔
      ¬(old = .generator ∧ LoneLow values) := by
  unfold LoneLow
  cases hc : values "avg_current" with
  | none =>
    rw [hysteresis_iff_of_missing (Or.inl hc), deriveLoadSourceFromTelemetry_eq hstate, hc]
    cases hk : values "total_kw" with
    | none => cases old <;> simp
    | some kw =>
      have hon : ¬loadOnCurrentThreshold ≤ 0 := by decide
      have hoff : (0 : ℚ) < loadOffCurrentThreshold := by decide
      cases old <;> simp [hon, hoff]
  | some current =>
    cases hk : values "total_kw" with
    | none =>
      rw [hysteresis_iff_of_missing (Or.inr hk), deriveLoadSourceFromTelemetry_eq hstate, hc,
        hk]
      have hon : ¬loadOnKwThreshold ≤ 0 := by decide
      have hoff : (0 : ℚ) < loadOffKwThreshold := by decide
      cases old <;> simp [hon, hoff]
    | some kw =>
      exact iff_of_true (hysteresis_of_both hstate hc hk) (by simp)

/-- The inference keeps a transfer in progress that it cannot judge: the engine state is unknown,
or it leaves open who carries the load and both sensors are missing. -/
def Undecided (state : EngineState) (values : Values) : Prop :=
  state = .unknown ∨ state ∉ [EngineState.stopped, .cranking, .cooling, .exercising] ∧
    values "avg_current" = none ∧ values "total_kw" = none

instance (state : EngineState) (values : Values) : Decidable (Undecided state values) :=
  inferInstanceAs (Decidable (_ ∨ _))

theorem deriveLoadSourceFromTelemetry_transferring_iff :
    deriveLoadSourceFromTelemetry values state old = .transferring ↔
      old = .transferring ∧ Undecided state values := by
  unfold deriveLoadSourceFromTelemetry Undecided
  by_cases hunknown : state = .unknown
  · simp [hunknown]
  rw [if_neg hunknown]
  by_cases hidle : state ∈ [EngineState.stopped, .cranking, .cooling, .exercising]
  · rw [if_pos hidle]
    exact iff_of_false (by decide) fun h => h.2.elim hunknown fun h => h.1 hidle
  rw [if_neg hidle]
  split
  · rename_i hc hk
    cases old <;> simp [hunknown, hidle, hc, hk]
  · rename_i hsome
    refine iff_of_false ?_ fun h => h.2.elim hunknown fun h => hsome h.2.1 h.2.2
    dsimp only
    split_ifs <;> decide

end Telemetry

end StateMachine

namespace AlarmDesk

open StateMachine

/-- The load source is about to be derived from one sensor alone, which is low. -/
def LosesGenerator (d : AlarmDesk) (env : PollEnv) (reading : Reading) (ref : CommsRef)
    (faults : List Bool) : Prop :=
  d.sm.snap.loadSource = .generator ∧ LoneLow reading.values ∧
    Derives env reading ref ⟨d.sm, d.db, [], faults⟩

instance (d : AlarmDesk) (env : PollEnv) (reading : Reading) (ref : CommsRef)
    (faults : List Bool) : Decidable (d.LosesGenerator env reading ref faults) :=
  inferInstanceAs (Decidable (_ ∧ _))

theorem hysteresis_refl (values : Values) (source : LoadSource) :
    Hysteresis values source source where
  off h h' := by
    rw [h] at h'
    cases h'
  on h h' := by
    rw [h'] at h
    rcases h with h | h <;> cases h
  hold _ _ _ _ _ _ _ _ _ := rfl
  missing _ _ := rfl

/-- In every run, also with database errors, reloads and tables changed elsewhere: an update
without an authoritative companion that finds the engine running or in alarm moves the load source
on what both sensors say, exactly unless it takes the load off the generator on one low sensor
while the other one is missing. -/
theorem load_source_hysteresis_iff (m : RegisterMap) (db : Database) (now : ℚ) (ls : List Label)
    (d d' : AlarmDesk) (env : PollEnv) (reading : Reading) (ref : CommsRef) (faults : List Bool)
    (ht : Takes step (start m db now) ls d (.update env reading ref faults) d')
    (hauth : atsAuthoritative env.ats = false)
    (hstate : d'.sm.snap.engineState = .running ∨ d'.sm.snap.engineState = .alarm) :
    Hysteresis reading.values d.sm.snap.loadSource d'.sm.snap.loadSource ↔
      ¬d.LosesGenerator env reading ref faults := by
  obtain rfl := Option.some.inj ht.step_eq
  rw [(update_final _ _ _ _ _).1] at hstate ⊢
  have hmoved := (moved_update env reading ref ⟨d.sm, d.db, [], faults⟩).1
  rw [hmoved] at hstate
  rw [loadSource_update, LosesGenerator]
  by_cases hderives : Derives env reading ref ⟨d.sm, d.db, [], faults⟩
  · rw [if_pos hderives, nextLoadSource_of_not_authoritative _ hauth]
    rw [hysteresis_iff_not_loneLow hstate]
    simp [hderives]
  · rw [if_neg hderives]
    exact iff_of_true (hysteresis_refl _ _) fun h => hderives h.2.2

def outputReading (current kw : Option ℚ) : Reading :=
  ⟨fun name => if name = "engine" then some 1 else if name = "avg_current" then current
    else if name = "total_kw" then kw else none, 0, fun _ => none⟩

/-- The load has moved to the generator. -/
def delivering : List Label :=
  [.update (quietEnv 1) (outputReading (some 20) (some 20)) .poller []]

/-- Both sensors drop, and the load source follows. -/
theorem both_low_leave_generator :
    ∃ d d', Takes step (start runningMap .empty 0)
        (delivering ++ [.update (quietEnv 2) (outputReading (some 0) (some 0)) .poller []]) d
        (.update (quietEnv 2) (outputReading (some 0) (some 0)) .poller []) d' ∧
      d.sm.snap.loadSource = .generator ∧ d'.sm.snap.loadSource = .utility ∧
      Hysteresis (outputReading (some 0) (some 0)).values d.sm.snap.loadSource
        d'.sm.snap.loadSource := by
  obtain ⟨d, d', ht, htest⟩ := takes_of_lastStep step (start runningMap .empty 0) delivering
    (.update (quietEnv 2) (outputReading (some 0) (some 0)) .poller [])
    (fun d _ d' => d.sm.snap.loadSource = .generator ∧ d'.sm.snap.loadSource = .utility ∧
      d'.sm.snap.engineState = .running ∧
      ¬d.LosesGenerator (quietEnv 2) (outputReading (some 0) (some 0)) .poller [])
    (by decide +kernel)
  obtain ⟨hold, hnew, hstate, hkeeps⟩ := of_decide_eq_true htest
  exact ⟨d, d', ht, hold, hnew, (load_source_hysteresis_iff _ _ _ _ _ _ _ _ _ _ ht rfl
    (Or.inl hstate)).mpr hkeeps⟩

/-- The current sensor drops out while the power is low, and the load is taken off the generator. -/
theorem lone_low_leaves_generator :
    ∃ d d', Takes step (start runningMap .empty 0)
        (delivering ++ [.update (quietEnv 2) (outputReading none (some 0)) .poller []]) d
        (.update (quietEnv 2) (outputReading none (some 0)) .poller []) d' ∧
      d'.sm.snap.engineState = .running ∧ d.sm.snap.loadSource = .generator ∧
      d'.sm.snap.loadSource = .utility ∧
      ¬Hysteresis (outputReading none (some 0)).values d.sm.snap.loadSource
        d'.sm.snap.loadSource := by
  obtain ⟨d, d', ht, htest⟩ := takes_of_lastStep step (start runningMap .empty 0) delivering
    (.update (quietEnv 2) (outputReading none (some 0)) .poller [])
    (fun d _ d' => d'.sm.snap.engineState = .running ∧ d.sm.snap.loadSource = .generator ∧
      d'.sm.snap.loadSource = .utility) (by decide +kernel)
  obtain ⟨hstate, hold, hnew⟩ := of_decide_eq_true htest
  refine ⟨d, d', ht, hstate, hold, hnew, fun h => ?_⟩
  obtain ⟨current, hc, -⟩ := h.off hold hnew
  cases hc

end AlarmDesk

/-- What happens to the services: an input, with the database calls that raise, or a reload. -/
inductive MonitorLabel where
  | input (i : Input) (faults : List Bool)
  | applyRegmap (m : RegisterMap)

namespace Monitor

open StateMachine

def next (mon : Monitor) : MonitorLabel → Option Monitor
  | .input i faults => (mon.step faults i).map Prod.fst
  | .applyRegmap m => some (mon.applyRegmap m)

/-- A transfer in progress outlasts the update: an error ends it before the load source is derived,
or the inference cannot judge it. -/
def Strands (mon : Monitor) (now : ℚ) (reading : Reading) (faults : List Bool) : Prop :=
  let sm := mon.stateMachine
  sm.snap.loadSource = .transferring ∧
    (¬Derives ⟨now, mon.atsView, mon.heap⟩ reading .poller ⟨sm, mon.db, [], faults⟩ ∨
      Undecided (nextEngineState sm.regmap reading.values sm.snap.engineState) reading.values)

instance (mon : Monitor) (now : ℚ) (reading : Reading) (faults : List Bool) :
    Decidable (mon.Strands now reading faults) :=
  inferInstanceAs (Decidable (_ ∧ _))

def inferredSources : List LoadSource := [.utility, .generator, .unknown]

theorem mem_inferredSources {source : LoadSource} :
    source ∈ inferredSources ↔ source ≠ .transferring := by
  cases source <;> simp [inferredSources]

/-- In every interleaving of polls of both services, also with database errors and reloads: after
an update without an authoritative companion the load source is one that the inference knows,
exactly unless the update finds a transfer in progress and leaves it. -/
theorem fallback_vocabulary_iff (m : RegisterMap) (ats : Option (RegisterMap × Option ℤ))
    (db : Database) (start : ℚ) (ls : List MonitorLabel) (mon mon' : Monitor) (now : ℚ)
    (reading : Reading) (faults : List Bool)
    (ht : Takes next (init m ats db start) ls mon (.input (.poll now reading) faults) mon')
    (hauth : atsAuthoritative mon.atsView = false) :
    mon'.stateMachine.snap.loadSource ∈ inferredSources ↔ ¬mon.Strands now reading faults := by
  obtain rfl : (mon.onPoll faults now reading).1 = mon' := Option.some.inj ht.step_eq
  have hnew := loadSource_update ⟨now, mon.atsView, mon.heap⟩ reading .poller
    ⟨mon.stateMachine, mon.db, [], faults⟩
  rw [onPoll, publish_fst, mem_inferredSources, hnew, Strands, not_iff_not]
  by_cases hderives : Derives ⟨now, mon.atsView, mon.heap⟩ reading .poller
      ⟨mon.stateMachine, mon.db, [], faults⟩
  · rw [if_pos hderives, nextLoadSource_of_not_authoritative _ hauth,
      deriveLoadSourceFromTelemetry_transferring_iff]
    simp [hderives]
  · rw [if_neg hderives]
    simp [hderives]

/-- The companion reports a transfer in progress, which the load source takes over; then its link
fails. -/
def transferStranded : List MonitorLabel :=
  [.input (.record .ats true 10 0 0) [], .input (.atsPoll 1 1 .base (companionReading (some 2))) [],
    .input (.poll 2 (AlarmDesk.outputReading none none)) [],
    .input (.record .ats false 10 3 3) []]

/-- A stopped engine tells the inference that the load is on the utility. -/
theorem transfer_settled_when_stopped :
    ∃ mon mon', Takes next (init { runningMap with
          engineStateBits := [⟨.stopped, "engine", 1⟩] } (some (.bare, none)) .empty 0)
        (transferStranded ++ [.input (.poll 4 (deliveringReading 0)) []]) mon
        (.input (.poll 4 (deliveringReading 0)) []) mon' ∧
      mon.stateMachine.snap.loadSource = .transferring ∧
      mon'.stateMachine.snap.loadSource ∈ inferredSources := by
  obtain ⟨mon, mon', ht, htest⟩ := takes_of_lastStep next (init { runningMap with
      engineStateBits := [⟨.stopped, "engine", 1⟩] } (some (.bare, none)) .empty 0)
    transferStranded (.input (.poll 4 (deliveringReading 0)) [])
    (fun mon _ _ => mon.stateMachine.snap.loadSource = .transferring ∧
      atsAuthoritative mon.atsView = false ∧ ¬mon.Strands 4 (deliveringReading 0) [])
    (by decide +kernel)
  obtain ⟨hold, hauth, hsettles⟩ := of_decide_eq_true htest
  exact ⟨mon, mon', ht, hold,
    (fallback_vocabulary_iff _ _ _ _ _ _ _ _ _ _ ht hauth).mpr hsettles⟩

/-- A running engine without electrical readings leaves the transfer in progress for good. -/
theorem transfer_outlasts_authority :
    ∃ mon mon', Takes next (init runningMap (some (.bare, none)) .empty 0)
        (transferStranded ++
          [.input (.poll 4 (AlarmDesk.outputReading none none)) []]) mon
        (.input (.poll 4 (AlarmDesk.outputReading none none)) []) mon' ∧
      atsAuthoritative mon.atsView = false ∧
      mon'.stateMachine.snap.loadSource = .transferring := by
  obtain ⟨mon, mon', ht, htest⟩ := takes_of_lastStep next
    (init runningMap (some (.bare, none)) .empty 0) (transferStranded)
    (.input (.poll 4 (AlarmDesk.outputReading none none)) [])
    (fun mon _ mon' => atsAuthoritative mon.atsView = false ∧
      mon'.stateMachine.snap.loadSource = .transferring) (by decide +kernel)
  exact ⟨mon, mon', ht, of_decide_eq_true htest⟩

end Monitor

end GenWatch

import GenWatch.Alarms.CrossCheck
import GenWatch.Alarms.Evidence

/-! # Events behind database errors

An update changes the engine state before it logs the transition, and inserts the row of
an alarm before it logs and announces it; on any error the announcements made so far are
dropped. The next update finds no difference left to report. So nothing is lost exactly
as long as an update with an error has nothing to report, or nothing done yet.
-/

namespace GenWatch

open Handler ServiceM Transition

namespace StateMachine

/-- What the parts after the first do: they keep the engine state and the events. -/
def Follows (c c' : Ctx StateMachine) : Prop :=
  c'.self.snap.engineState = c.self.snap.engineState ∧ c.emitted ⊆ c'.emitted

instance : Std.Refl Follows := ⟨fun _ => ⟨rfl, List.Subset.refl _⟩⟩

instance : IsTrans (Ctx StateMachine) Follows :=
  ⟨fun _ _ _ h h' => ⟨h'.1.trans h.1, List.Subset.trans h.2 h'.2⟩⟩

theorem follows_modifySelf {f : StateMachine → StateMachine}
    (h : ∀ sm, (f sm).snap.engineState = sm.snap.engineState) : Relates Follows (modifySelf f) :=
  Relates.modify fun c => ⟨h c.self, List.Subset.refl _⟩

theorem follows_emit (e : Event) : Relates Follows (emit e) :=
  Relates.modify fun _ => ⟨rfl, List.subset_append_left _ _⟩

theorem follows_dbCall {α : Type} (op : Database → α × Database) :
    Relates Follows (dbCall op : ServiceM StateMachine α) :=
  relates_dbCall (fun _ _ => ⟨rfl, List.Subset.refl _⟩) fun _ _ => ⟨rfl, List.Subset.refl _⟩

def afterwards (m : RegisterMap) (env : PollEnv) (reading : Reading) (comms : CommsRef) :
    ServiceM StateMachine Unit := do
  updateAlarms m reading env.now
  updateNumeric m reading env.now
  updateComms env comms
  updatePanelMode m reading
  updateLoadSource env reading
  checkLoadsourceDisagreement env reading
  finishUpdate reading comms

theorem update_eq (env : PollEnv) (reading : Reading) (comms : CommsRef) :
    update env reading comms = getSelf >>= fun sm =>
      updateEngineState sm.regmap reading env.now >>= fun _ =>
        afterwards sm.regmap env reading comms :=
  rfl

theorem follows_of_steady {α : Type} {x : ServiceM StateMachine α} (h : Relates Steady x) :
    Relates Follows x :=
  fun c => ⟨(h c).engineState, (h c).emitted⟩

theorem follows_announce {α : Type} (op : Database → α × Database) (e : Event) :
    Relates Follows (do let _ ← dbCall op; emit e) :=
  Relates.bind (follows_dbCall _) fun _ => follows_emit _

theorem follows_resetDisagree (reason : DisagreeReason) (now : ℚ) :
    Relates Follows (resetDisagree reason now) := by
  have hcount : Relates Follows (modifySelf fun sm => { sm with loadsourceDisagreeCount := 0 }) :=
    follows_modifySelf fun _ => rfl
  refine Relates.bind relates_getSelf fun sm => ?_
  split
  · refine Relates.bind (Relates.bind (follows_dbCall _) fun _ => ?_) fun _ => hcount
    refine Relates.bind (follows_modifySelf fun _ => rfl) fun _ => ?_
    exact Relates.ite (fun _ => follows_announce _ _) fun _ => Relates.pure _
  · exact hcount

theorem follows_checkLoadsourceDisagreement (env : PollEnv) (reading : Reading) :
    Relates Follows (checkLoadsourceDisagreement env reading) := by
  refine Relates.bind relates_getSelf fun sm => ?_
  split
  · exact follows_resetDisagree _ _
  refine Relates.ite (fun _ => follows_resetDisagree _ _) fun _ => ?_
  refine Relates.ite (fun _ => follows_resetDisagree _ _) fun _ => ?_
  refine Relates.ite (fun _ => Relates.pure _) fun _ => ?_
  split
  · split
    · refine Relates.bind (follows_modifySelf fun _ => rfl) fun _ => ?_
      refine Relates.bind relates_getSelf fun sm => ?_
      refine Relates.ite (fun _ => Relates.bind (follows_dbCall _) fun _ => ?_) fun _ =>
        Relates.pure _
      refine Relates.bind (follows_modifySelf fun _ => rfl) fun _ => ?_
      exact Relates.ite (fun _ => follows_announce _ _) fun _ => Relates.pure _
    · exact follows_resetDisagree _ _
  · exact Relates.pure _

theorem follows_afterwards (m : RegisterMap) (env : PollEnv) (reading : Reading)
    (comms : CommsRef) : Relates Follows (afterwards m env reading comms) := by
  refine Relates.bind (follows_of_steady (steady_updateAlarms _ _ _)) fun _ => ?_
  refine Relates.bind (follows_of_steady (steady_updateNumeric _ _ _)) fun _ => ?_
  refine Relates.bind (follows_of_steady (steady_updateComms _ _)) fun _ => ?_
  refine Relates.bind (follows_of_steady (steady_updatePanelMode _ _)) fun _ => ?_
  refine Relates.bind (follows_of_steady (steady_updateLoadSource _ _)) fun _ => ?_
  refine Relates.bind (follows_checkLoadsourceDisagreement _ _) fun _ => ?_
  exact follows_modifySelf fun _ => rfl

/-- The engine state has moved on, and the transition is among the events. -/
def Moved (m : RegisterMap) (values : Values) (now : ℚ) (c c' : Ctx StateMachine) : Prop :=
  c'.self.snap.engineState = nextEngineState m values c.self.snap.engineState ∧
    (nextEngineState m values c.self.snap.engineState ≠ c.self.snap.engineState →
      Event.transition c.self.snap.engineState
        (nextEngineState m values c.self.snap.engineState) now ∈ c'.emitted)

theorem Moved.follows {m : RegisterMap} {values : Values} {now : ℚ} {c c₁ c' : Ctx StateMachine}
    (h : Moved m values now c c₁) (h' : Follows c₁ c') : Moved m values now c c' :=
  ⟨h'.1.trans h.1, fun hne => h'.2 (h.2 hne)⟩

theorem moved_updateEngineState (m : RegisterMap) (reading : Reading) (now : ℚ) :
    Relates (Moved m reading.values now) (updateEngineState m reading now) := by
  refine relates_getSelf_bind fun c => ?_
  dsimp only
  split
  · have hset : Moved m reading.values now c
        { c with
          self := { c.self with snap := { c.self.snap with
            engineState := nextEngineState m reading.values c.self.snap.engineState
            stateStartedAt := now } }
          emitted := c.emitted ++ [.transition c.self.snap.engineState
            (nextEngineState m reading.values c.self.snap.engineState) now] } :=
      ⟨rfl, fun _ => List.mem_append_right _ (List.mem_singleton_self _)⟩
    have hwrite : Relates Follows (writeEvent .ok .transition (.engineState
        c.self.snap.engineState (nextEngineState m reading.values c.self.snap.engineState)) none
        now) := follows_dbCall _
    exact hset.follows (hwrite _)
  · rename_i hsame
    exact ⟨(not_not.mp hsame).symm, fun hne => absurd hne hsame⟩

theorem moved_update (env : PollEnv) (reading : Reading) (comms : CommsRef)
    (c : Ctx StateMachine) :
    Moved c.self.regmap reading.values env.now c
      (finalState ((update env reading comms).run c)) := by
  have hfirst := moved_updateEngineState c.self.regmap reading env.now c
  have hrest := follows_afterwards c.self.regmap env reading comms
  rw [update_eq, bind_run (getSelf_ok.mpr ⟨rfl, rfl⟩)]
  cases h : (updateEngineState c.self.regmap reading env.now).run c with
  | ok u c₁ =>
    rw [h] at hfirst
    rw [bind_run h]
    exact hfirst.follows (hrest c₁)
  | error e c₁ =>
    rw [h] at hfirst
    rw [bind_error h]
    exact hfirst

/-- The alarms that an update with these values finds effective. -/
def effectiveOf (sm : StateMachine) (values : Values) : List AlarmBit :=
  let rawActive := sm.regmap.deriveActiveAlarms values
  effectiveAlarms (countPolls sm.alarmPollCounts (rawActive.map AlarmBit.code))
    (nextEngineState sm.regmap values sm.snap.engineState) rawActive

theorem raise_loop_error {prev : Finset String} {now : ℚ} {effective : List AlarmBit}
    {c : Ctx StateMachine} {rest : List Bool} (hfaults : c.faults = true :: rest)
    (hnew : ∃ ab ∈ effective, ab.code ∉ prev) :
    (effective.forM (raiseIfNew prev now)).run c = .error .raised { c with faults := rest } := by
  obtain ⟨self, db, emitted, faults⟩ := c
  obtain rfl : faults = true :: rest := hfaults
  induction effective with
  | nil =>
    obtain ⟨ab, hab, -⟩ := hnew
    cases hab
  | cons ab effective ih =>
    change (raiseIfNew prev now ab >>= fun _ => effective.forM (raiseIfNew prev now)).run _ = _
    by_cases hprev : ab.code ∈ prev
    · obtain ⟨ab', hab', hcode⟩ := hnew
      have htail : ab' ∈ effective := by
        rcases List.mem_cons.mp hab' with rfl | htail
        · exact absurd hprev hcode
        · exact htail
      have hskip : (raiseIfNew prev now ab : ServiceM StateMachine Unit) = pure () := by
        rw [raiseIfNew, if_pos hprev]
      rw [hskip, pure_bind]
      exact ih ⟨ab', htail, hcode⟩
    · refine bind_error ?_
      rw [raiseIfNew, if_neg hprev]
      exact bind_error rfl

/-- The state machine once it has counted the set bits of a poll. -/
def counted (sm : StateMachine) (values : Values) : StateMachine :=
  let rawActive := sm.regmap.deriveActiveAlarms values
  { sm with alarmPollCounts := countPolls sm.alarmPollCounts (rawActive.map AlarmBit.code) }

theorem update_first_call_error {env : PollEnv} {reading : Reading} {comms : CommsRef}
    {sm : StateMachine} {db : Database} {emitted : List Event} {rest : List Bool}
    (hstate : nextEngineState sm.regmap reading.values sm.snap.engineState = sm.snap.engineState)
    (hnew : ∃ ab ∈ sm.effectiveOf reading.values, ab.code ∉ sm.snap.activeAlarms) :
    (update env reading comms).run ⟨sm, db, emitted, true :: rest⟩ =
      .error .raised ⟨sm.counted reading.values, db, emitted, rest⟩ := by
  have hfirst : (updateEngineState sm.regmap reading env.now).run
      ⟨sm, db, emitted, true :: rest⟩ = .ok () ⟨sm, db, emitted, true :: rest⟩ := by
    refine bind_ok.mpr ⟨sm, _, getSelf_ok.mpr ⟨rfl, rfl⟩, ?_⟩
    simp only [hstate, ne_eq, not_true_eq_false, if_false]
    rfl
  have halarms : (updateAlarms sm.regmap reading env.now).run ⟨sm, db, emitted, true :: rest⟩ =
      .error .raised ⟨sm.counted reading.values, db, emitted, rest⟩ := by
    rw [effectiveOf, hstate] at hnew
    let c : Ctx StateMachine := ⟨sm.counted reading.values, db, emitted, true :: rest⟩
    refine (bind_run (t := c) rfl).trans ?_
    refine (bind_run (getSelf_ok.mpr ⟨rfl, rfl⟩)).trans ?_
    exact bind_error (raise_loop_error rfl hnew)
  refine (bind_run (getSelf_ok.mpr ⟨rfl, rfl⟩)).trans ?_
  refine (bind_run hfirst).trans ?_
  exact bind_error halarms

end StateMachine

/-- What an update is called with, and which of its database calls raise. -/
structure PollInput where
  env : PollEnv
  reading : Reading
  ref : CommsRef
  faults : List Bool

/-- A state machine with its tables, and the codes that the last poll found effective. -/
structure DeskWatch where
  desk : AlarmDesk
  effective : List String

namespace DeskWatch

def start (m : RegisterMap) (db : Database) (now : ℚ) : DeskWatch := ⟨.start m db now, []⟩

variable (w : DeskWatch) (p : PollInput)

def engineState : EngineState := w.desk.sm.snap.engineState

def codes : List String := (w.desk.sm.effectiveOf p.reading.values).map AlarmBit.code

def step : Option DeskWatch :=
  some ⟨w.desk.update p.env p.reading p.ref p.faults, w.codes p⟩

/-- The alarm is effective now and was not at the last poll. -/
def BecomesEffective (code : String) : Prop := code ∈ w.codes p ∧ code ∉ w.effective

/-- A database call of the update raises. -/
def interrupted : Bool :=
  match (StateMachine.update p.env p.reading p.ref).run ⟨w.desk.sm, w.desk.db, [], p.faults⟩ with
  | .ok _ _ => false
  | .error _ _ => true

/-- Every change of the engine state is published, at once or later. -/
def LosesNoTransition (w₀ : DeskWatch) (ps : List PollInput) : Prop :=
  ∀ pre p rest w w', ps = pre ++ p :: rest → run step w₀ pre = some w → step w p = some w' →
    w'.engineState ≠ w.engineState →
    ∃ u q u' ts, Takes step w (p :: rest) u q u' ∧
      Event.transition w.engineState w'.engineState ts ∈ u'.desk.published

/-- Every alarm that becomes effective and stays so while the database comes back is published, at
once or later. -/
def LosesNoAlarm (w₀ : DeskWatch) (ps : List PollInput) : Prop :=
  ∀ pre p rest w code, ps = pre ++ p :: rest → run step w₀ pre = some w →
    w.BecomesEffective p code → (∀ u q u', Takes step w (p :: rest) u q u' → code ∈ u.codes q) →
    (∃ q ∈ p :: rest, q.faults = []) →
    ∃ u q u', Takes step w (p :: rest) u q u' ∧ code ∈ raisedCodes u'.desk.published

/-- An alarm that becomes effective is neither on record nor on display; an update with a database
error changes no engine state and, if it has an alarm to raise, gets no further than its first
database call. -/
structure Spared : Prop where
  news : ∀ code, w.BecomesEffective p code →
    ¬w.desk.db.Active code ∧ code ∉ w.desk.sm.snap.activeAlarms
  state : w.interrupted p = true →
    StateMachine.nextEngineState w.desk.sm.regmap p.reading.values w.engineState = w.engineState
  alarms : w.interrupted p = true → (∃ code ∈ w.codes p, code ∉ w.desk.sm.snap.activeAlarms) →
    p.faults.head? = some true

section Steps

variable {w p} {w' : DeskWatch} {code : String}

theorem step_eq (h : step w p = some w') :
    w' = ⟨w.desk.update p.env p.reading p.ref p.faults, w.codes p⟩ :=
  (Option.some.inj h).symm

theorem step_of_not_interrupted (h : step w p = some w') (hok : w.interrupted p = false) :
    ∃ c', (StateMachine.update p.env p.reading p.ref).run
        ⟨w.desk.sm, w.desk.db, [], p.faults⟩ = .ok () c' ∧
      w'.desk = ⟨c'.self, c'.db, c'.emitted⟩ := by
  cases hr : (StateMachine.update p.env p.reading p.ref).run
      ⟨w.desk.sm, w.desk.db, [], p.faults⟩ with
  | ok u c' => exact ⟨c', rfl, by rw [step_eq h, AlarmDesk.update, hr]⟩
  | error e c' =>
    rw [interrupted, hr] at hok
    cases hok

theorem not_interrupted_of_faults (h : p.faults = []) : w.interrupted p = false := by
  obtain ⟨u, c', hr, -⟩ := StateMachine.total_update p.env p.reading p.ref
    ⟨w.desk.sm, w.desk.db, [], []⟩ rfl
  rw [interrupted, h, hr]

/-- The state machine stays on its map, and its numeric alarms have derived codes. -/
structure Sound (m : RegisterMap) (w : DeskWatch) : Prop where
  regmap : w.desk.sm.regmap = m
  numeric : w.desk.sm.NumericDerived

theorem Sound.step {m : RegisterMap} (h : Sound m w) (hs : step w p = some w') : Sound m w' := by
  obtain rfl := step_eq hs
  refine ⟨?_, AlarmDesk.numericDerived_update h.numeric⟩
  rw [(AlarmDesk.update_final w.desk p.env p.reading p.ref p.faults).1]
  exact (StateMachine.update_retains p.env p.reading p.ref ⟨w.desk.sm, w.desk.db, [], p.faults⟩
    h.numeric).2.1.trans h.regmap

theorem engineState_step (h : step w p = some w') :
    w'.engineState =
      StateMachine.nextEngineState w.desk.sm.regmap p.reading.values w.engineState := by
  obtain rfl := step_eq h
  rw [engineState, (AlarmDesk.update_final w.desk p.env p.reading p.ref p.faults).1]
  exact (StateMachine.moved_update p.env p.reading p.ref ⟨w.desk.sm, w.desk.db, [], p.faults⟩).1

theorem transition_published (h : step w p = some w') (hok : w.interrupted p = false)
    (hne : w'.engineState ≠ w.engineState) :
    Event.transition w.engineState w'.engineState p.env.now ∈ w'.desk.published := by
  obtain ⟨c', hr, hdesk⟩ := step_of_not_interrupted h hok
  have hmoved := StateMachine.moved_update p.env p.reading p.ref
    ⟨w.desk.sm, w.desk.db, [], p.faults⟩
  rw [hr] at hmoved
  rw [engineState_step h] at hne ⊢
  rw [hdesk]
  exact hmoved.2 hne

/-- An alarm without a row that is not displayed. -/
def Pending (w : DeskWatch) (code : String) : Prop :=
  ¬w.desk.db.Active code ∧ code ∉ w.desk.sm.snap.activeAlarms

theorem Pending.kept (h : w.Pending code) (hcode : code ∈ w.codes p) (hs : w.Spared p)
    (hint : w.interrupted p = true) (hstep : step w p = some w') : w'.Pending code := by
  have hhead := hs.alarms hint ⟨code, hcode, h.2⟩
  obtain ⟨rest, hfaults⟩ : ∃ rest, p.faults = true :: rest := by
    cases hf : p.faults with
    | nil => simp [hf] at hhead
    | cons b rest =>
      obtain rfl : b = true := by simpa [hf] using hhead
      exact ⟨rest, rfl⟩
  obtain ⟨ab, hab, hname⟩ := List.mem_map.mp hcode
  have hrun : (StateMachine.update p.env p.reading p.ref).run
      ⟨w.desk.sm, w.desk.db, [], true :: rest⟩ =
        .error .raised ⟨w.desk.sm.counted p.reading.values, w.desk.db, [], rest⟩ :=
    StateMachine.update_first_call_error (hs.state hint) ⟨ab, hab, hname ▸ h.2⟩
  obtain rfl := step_eq hstep
  rw [Pending, AlarmDesk.update, hfaults, hrun]
  exact h

theorem Pending.published (h : w.Pending code) (hcode : code ∈ w.codes p) (hbit : ¬IsDerived code)
    (hn : w.desk.sm.NumericDerived) (hok : w.interrupted p = false)
    (hstep : step w p = some w') : code ∈ raisedCodes w'.desk.published := by
  obtain ⟨c', hr, hdesk⟩ := step_of_not_interrupted hstep hok
  obtain ⟨new, hemitted, -, hraised, -⟩ := (StateMachine.update_updated hn hr).emits
  have hmem : code ∈ raisedCodes new ∩ StateMachine.bitCodes := by
    rw [hraised, StateMachine.effectiveNow, StateMachine.bitLedger, Ledger.announced_restrict]
    exact ⟨⟨⟨hcode, h.2⟩, h.1⟩, hbit⟩
  rw [hdesk, hemitted]
  exact hmem.1

/-- An alarm that is pending and stays effective is published by the first update without an
error. -/
theorem pending_published {m : RegisterMap} {ps : List PollInput} (hbit : ¬IsDerived code)
    (hsound : Sound m w) (h : w.Pending code)
    (hsteps : ∀ u q u', Takes step w ps u q u' → u.Spared q ∧ code ∈ u.codes q)
    (hback : ∃ q ∈ ps, q.faults = []) :
    ∃ u q u', Takes step w ps u q u' ∧ code ∈ raisedCodes u'.desk.published := by
  induction ps generalizing w with
  | nil =>
    obtain ⟨q, hq, -⟩ := hback
    cases hq
  | cons p ps ih =>
    have hstep : step w p = some ⟨w.desk.update p.env p.reading p.ref p.faults, w.codes p⟩ := rfl
    obtain ⟨hspared, hcode⟩ := hsteps w p _ (takes_head hstep)
    cases hint : w.interrupted p with
    | false =>
      exact ⟨w, p, _, takes_head hstep, h.published hcode hbit hsound.numeric hint hstep⟩
    | true =>
      obtain ⟨q, hq, hfaults⟩ := hback
      have hrest : q ∈ ps := by
        rcases List.mem_cons.mp hq with rfl | hrest
        · rw [not_interrupted_of_faults hfaults] at hint
          cases hint
        · exact hrest
      obtain ⟨u, q', u', ht, hraised⟩ := ih (hsound.step hstep)
        (h.kept hcode hspared hint hstep) (fun u q u' ht => hsteps u q u' (ht.cons hstep))
        ⟨q, hrest, hfaults⟩
      exact ⟨u, q', u', ht.cons hstep, hraised⟩

end Steps

/-- In every run in which an update with a database error has no transition to report, and no alarm
either or nothing done yet, and in which alarms become effective that are not known yet, no event
is lost. -/
theorem db_errors_lose_no_event (m : RegisterMap) (hplain : m.Plain) (db : Database) (now : ℚ)
    (ps : List PollInput)
    (hspared : ∀ w p w', Takes step (start m db now) ps w p w' → w.Spared p) :
    LosesNoTransition (start m db now) ps ∧ LosesNoAlarm (start m db now) ps := by
  constructor
  · rintro pre p rest w w' rfl hr hs hne
    have ht : Takes step w (p :: rest) w p w' := takes_head hs
    have hsp := hspared w p w' (ht.append_left hr)
    cases hint : w.interrupted p with
    | false => exact ⟨w, p, w', p.env.now, ht, transition_published hs hint hne⟩
    | true =>
      rw [engineState_step hs, hsp.state hint] at hne
      exact absurd rfl hne
  · rintro pre p rest w code rfl hr hnew hstays hback
    have hsound : Sound m w := run_invariant (fun _ _ _ _ hI hs => hI.step hs)
      ⟨rfl, StateMachine.numericDerived_init m now⟩ hr
    have hbit : ¬IsDerived code := by
      obtain ⟨ab, hab, rfl⟩ := List.mem_map.mp hnew.1
      have hmem := (List.mem_filter.mp (List.mem_filter.mp hab).1).1
      rw [hsound.regmap] at hmem
      exact hplain ab.code (List.mem_map.mpr ⟨ab, hmem, rfl⟩)
    have hsp := hspared w p _ (Takes.append_left hr (takes_head rfl))
    refine pending_published hbit hsound (hsp.news code hnew) (fun u q u' ht => ?_) hback
    exact ⟨hspared u q u' (ht.append_left hr), hstays u q u' ht⟩

instance (w : DeskWatch) (p : PollInput) : Decidable (w.Spared p) :=
  decidable_of_iff ((∀ code ∈ w.codes p, code ∉ w.effective →
      ¬w.desk.db.Active code ∧ code ∉ w.desk.sm.snap.activeAlarms) ∧
    (w.interrupted p = true → StateMachine.nextEngineState w.desk.sm.regmap p.reading.values
      w.engineState = w.engineState) ∧
    (w.interrupted p = true → (∃ code ∈ w.codes p, code ∉ w.desk.sm.snap.activeAlarms) →
      p.faults.head? = some true))
    ⟨fun h => ⟨fun code hnew => h.1 code hnew.1 hnew.2, h.2.1, h.2.2⟩,
      fun h => ⟨fun code hcode hnew => h.news code ⟨hcode, hnew⟩, h.state, h.alarms⟩⟩

instance (w : DeskWatch) (p : PollInput) (code : String) : Decidable (w.BecomesEffective p code) :=
  inferInstanceAs (Decidable (_ ∧ _))

def outageMap : RegisterMap :=
  { RegisterMap.bare with
    registers := [.plain "status"]
    engineStateBits := [⟨.running, "status", 1⟩, ⟨.stopped, "status", 2⟩]
    alarmBits := [⟨"status", 4, "LOW_OIL", "Low oil pressure", .alarm, [], 1⟩] }

def statusPoll (now status : ℚ) (faults : List Bool) : PollInput :=
  ⟨quietEnv now, statusReading (some status), .poller, faults⟩

/-- The row of an alarm cannot be written at first; the next update reports the alarm. -/
theorem failed_row_loses_no_event :
    LosesNoTransition (start outageMap .empty 0)
        [statusPoll 1 2 [], statusPoll 2 6 [true], statusPoll 3 6 []] ∧
      LosesNoAlarm (start outageMap .empty 0)
        [statusPoll 1 2 [], statusPoll 2 6 [true], statusPoll 3 6 []] :=
  db_errors_lose_no_event outageMap (by decide +kernel) .empty 0 _ fun _ _ _ ht =>
    of_decide_eq_true (ht.test_of_everyStep (fun w p _ => decide (w.Spared p)) (by decide +kernel))

/-- The start of the engine, or an alarm, is never reported because it could not be logged. -/
theorem failed_log_loses_event :
    ¬LosesNoTransition (start outageMap .empty 0)
        [statusPoll 1 2 [], statusPoll 2 1 [true], statusPoll 3 1 []] ∧
      ¬LosesNoAlarm (start outageMap .empty 0)
        [statusPoll 1 2 [], statusPoll 2 6 [false, true], statusPoll 3 6 []] := by
  constructor
  · intro h
    obtain ⟨u, q, u', ts, ht, hmem⟩ := h [statusPoll 1 2 []] (statusPoll 2 1 [true])
      [statusPoll 3 1 []] _ _ rfl rfl rfl (by decide +kernel)
    have hnone := ht.test_of_everyStep (fun _ _ u' => u'.desk.published.isEmpty)
      (by decide +kernel)
    rw [List.isEmpty_iff.mp hnone] at hmem
    cases hmem
  · intro h
    obtain ⟨u, q, u', ht, e, hmem, -⟩ := h [statusPoll 1 2 []] (statusPoll 2 6 [false, true])
      [statusPoll 3 6 []] _ "LOW_OIL" rfl rfl (by decide +kernel)
      (fun u q _ ht => of_decide_eq_true (ht.test_of_everyStep
        (fun u q _ => decide ("LOW_OIL" ∈ u.codes q)) (by decide +kernel)))
      ⟨statusPoll 3 6 [], by simp, rfl⟩
    have hnone := ht.test_of_everyStep (fun _ _ u' => u'.desk.published.isEmpty)
      (by decide +kernel)
    rw [List.isEmpty_iff.mp hnone] at hmem
    cases hmem

end DeskWatch

end GenWatch

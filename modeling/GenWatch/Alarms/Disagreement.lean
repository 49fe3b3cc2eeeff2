import GenWatch.Prelude.Transition
import GenWatch.Alarms.CrossCheck
import GenWatch.Alarms.Flips
import GenWatch.Services.Monitor

/-! # The disagreement alarm over a run

The displayed set is rebuilt by the two alarm pipelines at every update before the
disagreement alarm is layered back. As long as no alarm bit uses its code, its flag,
its row and its place on the display change only by the cross-check, and every change
of the flag is announced once.
-/

namespace GenWatch

open Handler ServiceM Transition

namespace StateMachine

/-- Neither alarm pipeline has raised the disagreement alarm. -/
structure Unclaimed (sm : StateMachine) : Prop where
  session : loadsourceDisagreeAlarmCode ∉ sm.raisedThisSession
  numeric : loadsourceDisagreeAlarmCode ∉ sm.numericRaised.keys

/-- What the parts before the cross-check keep of the disagreement alarm. -/
structure Spares (c c' : Ctx StateMachine) : Prop where
  unclaimed : c'.self.Unclaimed
  row : c'.db.Active loadsourceDisagreeAlarmCode ↔ c.db.Active loadsourceDisagreeAlarmCode
  emits : ∃ new, c'.emitted = c.emitted ++ new ∧ flips loadsourceDisagreeAlarmCode new = []

/-- What the parts keep as long as neither pipeline has raised the alarm. -/
def Sparing (c c' : Ctx StateMachine) : Prop := c.self.Unclaimed → Spares c c'

instance : Std.Refl Sparing := ⟨fun _ h => ⟨h, Iff.rfl, [], by simp, rfl⟩⟩

instance : IsTrans (Ctx StateMachine) Sparing where
  trans _ _ _ h h' hu := by
    obtain ⟨hu₁, hr₁, new, he, hn⟩ := h hu
    obtain ⟨hu₂, hr₂, new', he', hn'⟩ := h' hu₁
    refine ⟨hu₂, hr₂.trans hr₁, new ++ new', by rw [he', he, List.append_assoc], ?_⟩
    rw [flips_append, hn, hn', List.nil_append]

section Parts

variable (m : RegisterMap) (reading : Reading) (now : ℚ)

theorem sparing_modifySelf {f : StateMachine → StateMachine}
    (h : ∀ sm, Unclaimed sm → (f sm).Unclaimed) : Relates Sparing (modifySelf f) :=
  Relates.modify fun c hu => ⟨h c.self hu, Iff.rfl, [], by simp, rfl⟩

theorem sparing_emit {e : Event} (h : e.alarmCode ≠ some loadsourceDisagreeAlarmCode) :
    Relates Sparing (emit e) :=
  Relates.modify fun _ hu => ⟨hu, Iff.rfl, [e], rfl, by simp [flips, flip_of_alarmCode_ne h]⟩

theorem sparing_dbCall {α : Type} {op : Database → α × Database}
    (h : ∀ db, (op db).2.Active loadsourceDisagreeAlarmCode ↔
      db.Active loadsourceDisagreeAlarmCode) :
    Relates Sparing (dbCall op : ServiceM StateMachine α) :=
  relates_dbCall (fun _ _ hu => ⟨hu, Iff.rfl, [], by simp, rfl⟩)
    fun c _ hu => ⟨hu, h c.db, [], by simp, rfl⟩

theorem sparing_writeEvent (severity : Severity) (type : EventType) (message : Message)
    (info : Option String) :
    Relates Sparing (writeEvent severity type message info now) :=
  sparing_dbCall fun _ => Iff.rfl

theorem sparing_announce {e : Event} (h : e.alarmCode ≠ some loadsourceDisagreeAlarmCode)
    (severity : Severity) (type : EventType) (message : Message) (info : Option String)
    (changed : Bool) :
    Relates Sparing (if changed then writeEvent severity type message info now >>= fun _ => emit e
      else pure ()) :=
  Relates.ite (fun _ => Relates.bind (sparing_writeEvent _ _ _ _ _) fun _ => sparing_emit h)
    fun _ => Relates.pure _

theorem sparing_raiseAlarm {code : String} (h : code ≠ loadsourceDisagreeAlarmCode) (desc : Desc)
    (severity : Severity) (raw : ℤ) :
    Relates Sparing (raiseAlarm code desc severity raw now) := by
  refine sparing_dbCall fun db => ?_
  simp only [Database.raiseAlarm, Database.Active, Table.mem_keys_insertIgnore]
  exact or_iff_left h.symm

theorem sparing_clearAlarm {code : String} (h : code ≠ loadsourceDisagreeAlarmCode) :
    Relates Sparing (clearAlarm code : ServiceM StateMachine Bool) := by
  refine sparing_dbCall fun db => ?_
  simp only [Database.clearAlarm, Database.Active, Table.mem_keys_delete]
  exact and_iff_left h.symm

theorem sparing_raiseIfNew (prev : Finset String) {ab : AlarmBit}
    (h : ab.code ≠ loadsourceDisagreeAlarmCode) : Relates Sparing (raiseIfNew prev now ab) := by
  refine Relates.ite (fun _ => Relates.pure _) fun _ => ?_
  refine Relates.bind (sparing_raiseAlarm _ h _ _ _) fun raised => ?_
  refine Relates.bind (sparing_modifySelf fun sm hu => ⟨?_, hu.numeric⟩) fun _ => ?_
  · rw [List.mem_insert_iff]
    exact not_or.mpr ⟨h.symm, hu.session⟩
  · exact sparing_announce _ (by simpa [Event.alarmCode, Event.raises] using h) _ _ _ _ _

theorem sparing_clearIfLow (rawCodes : List String) {code : String}
    (h : code ≠ loadsourceDisagreeAlarmCode) :
    Relates Sparing (clearIfLow m rawCodes now code) := by
  refine Relates.ite (fun _ => Relates.pure _) fun _ => ?_
  refine Relates.bind (sparing_clearAlarm h) fun cleared => ?_
  refine Relates.bind (sparing_modifySelf fun sm hu => ⟨?_, hu.numeric⟩) fun _ => ?_
  · exact fun hmem => hu.session (List.mem_filter.mp hmem).1
  · exact sparing_announce _
      (by simpa [Event.alarmCode, Event.raises, Event.clears] using h) _ _ _ _ _

theorem sparing_updateAlarms (hm : loadsourceDisagreeAlarmCode ∉ m.alarmCodes) :
    Relates Sparing (updateAlarms m reading now) := by
  refine Relates.bind (sparing_modifySelf fun _ hu => ⟨hu.session, hu.numeric⟩) fun _ => ?_
  refine Relates.bind relates_getSelf fun sm => ?_
  refine Relates.bind (Relates.forM fun ab hab => sparing_raiseIfNew _ _ fun he => hm ?_)
    fun _ => ?_
  · have hraw := (List.mem_filter.mp hab).1
    exact List.mem_map.mpr ⟨ab, ((RegisterMap.mem_deriveActiveAlarms _ _).mp hraw).1, he⟩
  -- the codes to clear are read back from the state, so that they are others is its invariant
  refine relates_getSelf_bind fun c hu => ?_
  have hclear : Relates Sparing (c.self.raisedThisSession.forM (clearIfLow m
      ((m.deriveActiveAlarms reading.values).map AlarmBit.code) now)) :=
    Relates.forM fun code hc => sparing_clearIfLow _ _ _ fun he => hu.session (he ▸ hc)
  refine Relates.bind hclear (fun _ => ?_) c hu
  exact sparing_modifySelf fun _ hu => ⟨hu.session, hu.numeric⟩

theorem sparing_raiseNumeric (values : Values) {hit : NumericHit}
    (h : hit.code ≠ loadsourceDisagreeAlarmCode) :
    Relates Sparing (raiseNumeric values now hit) := by
  refine Relates.bind relates_getSelf fun sm => Relates.ite (fun _ => Relates.pure _) fun _ => ?_
  refine Relates.bind (sparing_modifySelf fun sm hu => ⟨hu.session, ?_⟩) fun _ => ?_
  · rw [Table.mem_keys_insertReplace]
    exact not_or.mpr ⟨hu.numeric, h.symm⟩
  refine Relates.bind (sparing_raiseAlarm _ h _ _ _) fun raised => ?_
  exact sparing_announce _ (by simpa [Event.alarmCode, Event.raises] using h) _ _ _ _ _

theorem sparing_clearNumeric (active : List String) {code : String}
    (h : code ≠ loadsourceDisagreeAlarmCode) :
    Relates Sparing (clearNumeric active now code) := by
  refine Relates.ite (fun _ => Relates.pure _) fun _ => ?_
  refine Relates.bind (sparing_modifySelf fun sm hu => ⟨hu.session, ?_⟩) fun _ => ?_
  · exact fun hmem => hu.numeric (Table.mem_keys_delete.mp hmem).1
  refine Relates.bind (sparing_clearAlarm h) fun cleared => ?_
  exact sparing_announce _
    (by simpa [Event.alarmCode, Event.raises, Event.clears] using h) _ _ _ _ _

theorem sparing_updateNumeric : Relates Sparing (updateNumeric m reading now) := by
  have hlayer : Relates Sparing (modifySelf fun sm => { sm with snap := { sm.snap with
      activeAlarms := sm.snap.activeAlarms ∪ sm.numericRaised.keys.toFinset } }) :=
    sparing_modifySelf fun _ hu => ⟨hu.session, hu.numeric⟩
  have hcheck : Relates Sparing (checkNumericRanges m reading now) := by
    refine Relates.bind relates_getSelf fun sm => ?_
    refine Relates.bind (sparing_modifySelf fun _ hu => ⟨hu.session, hu.numeric⟩) fun _ => ?_
    refine Relates.bind (Relates.forM fun hit hm => sparing_raiseNumeric _ _ fun he => ?_)
      fun _ => ?_
    · exact not_isRange_disagree (he ▸ numericActive_isRange m _ _ hit hm)
    exact relates_getSelf_bind fun c hu => Relates.forM
      (fun code hc => sparing_clearNumeric _ _ fun he => hu.numeric (he ▸ hc)) c hu
  unfold updateNumeric
  split
  · exact Relates.bind hcheck fun _ => hlayer
  · exact hlayer

theorem sparing_beforeCheck (env : PollEnv) (comms : CommsRef)
    (hm : loadsourceDisagreeAlarmCode ∉ m.alarmCodes) :
    Relates Sparing (beforeCheck m reading env comms) := by
  have hset : ∀ f : StateMachine → StateMachine, (∀ sm, (f sm).raisedThisSession =
      sm.raisedThisSession ∧ (f sm).numericRaised = sm.numericRaised) →
      Relates Sparing (modifySelf f) := fun f hf =>
    sparing_modifySelf fun sm hu => ⟨(hf sm).1 ▸ hu.session, (hf sm).2 ▸ hu.numeric⟩
  refine Relates.bind ?_ fun _ => Relates.bind (sparing_updateAlarms _ _ _ hm) fun _ =>
    Relates.bind (sparing_updateNumeric _ _ _) fun _ => Relates.bind ?_ fun _ =>
    Relates.bind (hset _ fun _ => ⟨rfl, rfl⟩) fun _ => ?_
  · refine Relates.bind relates_getSelf fun sm => Relates.ite (fun _ => ?_) fun _ =>
      Relates.pure _
    refine Relates.bind (hset _ fun _ => ⟨rfl, rfl⟩) fun _ => Relates.bind (sparing_emit ?_)
      fun _ => sparing_writeEvent _ _ _ _ _
    simp [Event.alarmCode, Event.raises, Event.clears]
  · refine Relates.bind relates_getSelf fun sm => Relates.ite (fun _ => ?_) fun _ =>
      Relates.pure _
    refine Relates.bind (sparing_writeEvent _ _ _ _ _) fun _ => sparing_emit ?_
    simp [Event.alarmCode, Event.raises, Event.clears]
  · refine Relates.bind relates_getSelf fun sm => Relates.ite (fun _ => ?_) fun _ =>
      Relates.pure _
    refine Relates.bind (hset _ fun _ => ⟨rfl, rfl⟩) fun _ => ?_
    refine Relates.ite (fun _ => Relates.pure _) fun _ => Relates.bind (sparing_emit ?_) fun _ => ?_
    · simp [Event.alarmCode, Event.raises, Event.clears]
    split
    · exact sparing_writeEvent _ _ _ _ _
    · exact Relates.pure _

end Parts

/-- The row of the disagreement alarm stands for its flag. -/
def RowMatches (c : Ctx StateMachine) : Prop :=
  c.db.Active loadsourceDisagreeAlarmCode ↔ c.self.loadsourceDisagreeRaised = true

/-- The flips to announce between two values of the flag. -/
def flagDiff (old new : Bool) : List Bool := if new = old then [] else [new]

/-- The cross-check keeps row and flag together and announces the change of the flag. -/
structure Reports (c c' : Ctx StateMachine) : Prop where
  unclaimed : c'.self.raisedThisSession = c.self.raisedThisSession ∧
    c'.self.numericRaised = c.self.numericRaised
  row : RowMatches c'
  emits : ∃ new, c'.emitted = c.emitted ++ new ∧ flips loadsourceDisagreeAlarmCode new =
    flagDiff c.self.loadsourceDisagreeRaised c'.self.loadsourceDisagreeRaised

section Check

variable {env : PollEnv} {reading : Reading} {comms : CommsRef} {now : ℚ}
  {c c' : Ctx StateMachine} {u : Unit}

theorem Reports.none (h : RowMatches c) : Reports c c :=
  ⟨⟨rfl, rfl⟩, h, [], by simp, by simp [flagDiff, flips]⟩

theorem emitDisagreeRaise_reports {desc : Desc}
    (h : (emitDisagreeRaise desc now).run c = .ok u c') (hrow : RowMatches c)
    (hoff : c.self.loadsourceDisagreeRaised = false) : Reports c c' := by
  obtain ⟨raised, c₁, h₁, h⟩ := bind_ok.mp h
  obtain ⟨-, rfl, rfl⟩ := dbCall_ok.mp h₁
  obtain ⟨c₂, h₂, h⟩ := seq_ok.mp h
  obtain rfl := modifySelf_ok.mp h₂
  obtain ⟨hself, hdb, hemit⟩ := announceIf_ok h
  have hnew : loadsourceDisagreeAlarmCode ∉ c.db.alarmsActive.keys := fun ha => by
    simp [hrow.mp ha] at hoff
  refine ⟨by rw [hself]; exact ⟨rfl, rfl⟩, ?_, _, hemit, ?_⟩
  · rw [RowMatches, Database.Active, hdb, hself]
    simp [Database.raiseAlarm, Table.mem_keys_insertIgnore]
  · rw [hself, hoff]
    simp [Database.raiseAlarm, hnew, flagDiff, flips, Event.flip, Event.raises]

theorem resetDisagree_reports {reason : DisagreeReason} (hrow : RowMatches c)
    (h : (resetDisagree reason now).run c = .ok u c') : Reports c c' := by
  obtain ⟨sm, c₀, hg, h⟩ := bind_ok.mp h
  obtain ⟨rfl, rfl⟩ := getSelf_ok.mp hg
  split at h
  · rename_i hon
    obtain ⟨c₁, h₁, h⟩ := seq_ok.mp h
    obtain rfl := modifySelf_ok.mp h
    obtain ⟨cleared, c₂, h₂, h₁⟩ := bind_ok.mp h₁
    obtain ⟨-, rfl, rfl⟩ := dbCall_ok.mp h₂
    obtain ⟨c₃, h₃, h₁⟩ := seq_ok.mp h₁
    obtain rfl := modifySelf_ok.mp h₃
    obtain ⟨hself, hdb, hemit⟩ := announceIf_ok h₁
    have hold : loadsourceDisagreeAlarmCode ∈ c.db.alarmsActive.keys := hrow.mpr hon
    refine ⟨by rw [hself]; exact ⟨rfl, rfl⟩, ?_, _, hemit, ?_⟩
    · rw [RowMatches, Database.Active, hdb, hself]
      simp [Database.clearAlarm, Table.mem_keys_delete]
    · rw [hself, hon]
      simp [Database.clearAlarm, hold, flagDiff, flips, Event.flip, Event.raises, Event.clears]
  · obtain rfl := modifySelf_ok.mp h
    exact ⟨⟨rfl, rfl⟩, hrow, [], by simp, by simp [flagDiff, flips]⟩

theorem checkLoadsourceDisagreement_reports (hrow : RowMatches c)
    (h : (checkLoadsourceDisagreement env reading).run c = .ok u c') : Reports c c' := by
  rw [checkLoadsourceDisagreement, bind_run (getSelf_ok.mpr ⟨rfl, rfl⟩)] at h
  cases hats : env.ats with
  | none =>
    rw [hats] at h
    exact resetDisagree_reports hrow h
  | some v =>
    rw [hats] at h
    dsimp only at h
    split at h
    · exact resetDisagree_reports hrow h
    split at h
    · exact resetDisagree_reports hrow h
    split at h
    · obtain ⟨-, rfl⟩ := pure_ok.mp h
      exact Reports.none hrow
    cases hcurrent : reading.values "avg_current" with
    | none =>
      rw [hcurrent] at h
      obtain ⟨-, rfl⟩ := pure_ok.mp h
      exact Reports.none hrow
    | some currentVal =>
      cases hkw : reading.values "total_kw" with
      | none =>
        rw [hcurrent, hkw] at h
        obtain ⟨-, rfl⟩ := pure_ok.mp h
        exact Reports.none hrow
      | some kwVal =>
        rw [hcurrent, hkw] at h
        dsimp only at h
        cases hdesc : disagreement v currentVal kwVal with
        | none =>
          rw [hdesc] at h
          exact resetDisagree_reports hrow h
        | some desc =>
          rw [hdesc] at h
          dsimp only at h
          rw [bind_run (a := ()) (modifySelf_ok.mpr rfl),
            bind_run (getSelf_ok.mpr ⟨rfl, rfl⟩)] at h
          split at h
          · rename_i hdue
            have r := emitDisagreeRaise_reports h hrow (Bool.eq_false_iff.mpr hdue.2)
            exact ⟨r.unclaimed, r.row, r.emits⟩
          · obtain ⟨-, rfl⟩ := pure_ok.mp h
            exact ⟨⟨rfl, rfl⟩, hrow, [], by simp, by simp [flagDiff, flips]⟩

/-- A completed update shows the disagreement alarm exactly when its flag is set, and announces
the change of the flag. -/
theorem update_reports (h : (update env reading comms).run c = .ok u c')
    (hm : loadsourceDisagreeAlarmCode ∉ c.self.regmap.alarmCodes)
    (hu : c.self.Unclaimed) (hrow : RowMatches c) :
    c'.self.Unclaimed ∧ RowMatches c' ∧
    (loadsourceDisagreeAlarmCode ∈ c'.self.snap.activeAlarms ↔
      c'.self.loadsourceDisagreeRaised = true) ∧
    ∃ new, c'.emitted = c.emitted ++ new ∧ flips loadsourceDisagreeAlarmCode new =
      flagDiff c.self.loadsourceDisagreeRaised c'.self.loadsourceDisagreeRaised := by
  rw [update_eq_beforeCheck, bind_run (getSelf_ok.mpr ⟨rfl, rfl⟩)] at h
  obtain ⟨c₁, h₁, h⟩ := seq_ok.mp h
  obtain ⟨c₂, h₂, h⟩ := seq_ok.mp h
  obtain ⟨hu₁, hrow₁, new₁, he₁, hn₁⟩ := (sparing_beforeCheck _ _ _ _ hm).ok h₁ hu
  have hflag : c₁.self.loadsourceDisagreeRaised = c.self.loadsourceDisagreeRaised :=
    congrArg Debounce.raised ((sameDebounce_beforeCheck _ _ _ _).ok h₁)
  have hmatch : RowMatches c₁ := by
    rw [RowMatches, hrow₁, hflag]
    exact hrow
  obtain ⟨hkept, hrow₂, new₂, he₂, hn₂⟩ := checkLoadsourceDisagreement_reports hmatch h₂
  obtain rfl := modifySelf_ok.mp h
  refine ⟨⟨hkept.1 ▸ hu₁.session, hkept.2 ▸ hu₁.numeric⟩, hrow₂, ?_, new₁ ++ new₂, ?_, ?_⟩
  · dsimp only
    split <;> simp_all
  · rw [← List.append_assoc, ← he₁, ← he₂]
  · rw [flips_append, hn₁, List.nil_append, hn₂, hflag]

theorem update_ok_moves (h : (update env reading comms).run c = .ok u c') :
    c.self.debounce.Moves true c'.self.debounce (verdict env.ats
      (nextEngineState c.self.regmap reading.values c.self.snap.engineState) reading.values) := by
  rcases update_moves h with ⟨hbefore, -⟩ | ⟨-, hmoves⟩
  · rw [update_eq_beforeCheck, bind_run (getSelf_ok.mpr ⟨rfl, rfl⟩)] at h
    obtain ⟨c₁, h₁, -⟩ := seq_ok.mp h
    rw [h₁] at hbefore
    cases hbefore
  · exact hmoves

theorem authoritative_of_verdict_ne {ats : Option AtsView} {state : EngineState} {values : Values}
    (h : verdict ats state values ≠ .reset) :
    (∃ v ∈ ats, v.authoritative = true) ∧ state ∈ [EngineState.running, .alarm] := by
  cases ats with
  | none => exact absurd rfl h
  | some v =>
    by_cases hauth : v.authoritative = true
    · by_cases hstate : state ∈ [EngineState.running, .alarm]
      · exact ⟨⟨v, rfl, hauth⟩, hstate⟩
      · refine absurd ?_ h
        rw [verdict, if_neg (not_not.mpr hauth), if_pos hstate]
    · refine absurd ?_ h
      rw [verdict, if_pos hauth]

end Check

/-- How many updates disagreed since the last one whose verdict was a reset, for the verdicts of
all updates, newest first. -/
def disagreements (vs : List Verdict) : ℕ := (vs.takeWhile (· ≠ .reset)).count .disagree

theorem Debounce.Moves.count_eq {p p' : Debounce} {v : Verdict} {vs : List Verdict}
    (h : p.Moves true p' v) (hp : p.count = disagreements vs) :
    p'.count = disagreements (v :: vs) := by
  cases v with
  | reset =>
    rw [h (Or.inl rfl)]
    rfl
  | hold =>
    obtain rfl : p' = p := h
    rw [hp]
    simp [disagreements]
  | disagree =>
    rw [h.1, hp]
    simp [disagreements]

theorem Debounce.Moves.ne_reset {p p' : Debounce} {v : Verdict} (h : p.Moves true p' v)
    (hon : p'.raised = true) : v ≠ .reset := by
  rintro rfl
  rw [h (Or.inl rfl)] at hon
  cases hon

theorem Debounce.Moves.due {p p' : Debounce} {v : Verdict} (h : p.Moves true p' v)
    (hoff : p.raised = false) (hon : p'.raised = true) :
    loadsourceDisagreeDebouncePolls ≤ p'.count := by
  cases v with
  | reset => exact absurd rfl (h.ne_reset hon)
  | hold =>
    obtain rfl : p' = p := h
    rw [hoff] at hon
    cases hon
  | disagree =>
    obtain ⟨hcount, -, hdue⟩ := h
    rw [hcount]
    exact (hdue hon).resolve_left (by simp [hoff])

end StateMachine

/-- The monitoring side with the events of the last input, all events so far, and the verdicts of
the cross-check at each update, newest first. -/
structure DisagreeWatch where
  mon : Monitor
  published : List Event
  log : List Event
  verdicts : List StateMachine.Verdict

namespace DisagreeWatch

open StateMachine

/-- The verdict of the cross-check, at an input that updates the state machine. -/
def newVerdicts (mon : Monitor) : Input → List Verdict
  | .poll _ reading => [verdict mon.atsView (nextEngineState mon.stateMachine.regmap
      reading.values mon.stateMachine.snap.engineState) reading.values]
  | _ => []

def step (w : DisagreeWatch) (i : Input) : Option DisagreeWatch :=
  (w.mon.step [] i).map fun r => ⟨r.1, r.2, w.log ++ r.2, newVerdicts w.mon i ++ w.verdicts⟩

def start (m : RegisterMap) (ats : Option (RegisterMap × Option ℤ)) (db : Database) (now : ℚ) :
    DisagreeWatch :=
  ⟨.init m ats db now, [], [], []⟩

def sm (w : DisagreeWatch) : StateMachine := w.mon.stateMachine

/-- No alarm bit uses the code of the disagreement alarm; its row stands for its flag, its events
are the flips of the flag, and the debounce counts the disagreements. -/
structure Sound (w : DisagreeWatch) : Prop where
  regmap : loadsourceDisagreeAlarmCode ∉ w.sm.regmap.alarmCodes
  ats : ∀ ats ∈ w.mon.ats, loadsourceDisagreeAlarmCode ∉ AtsService.codes ats.regmap ∧
    ats.FaultsOwn
  numeric : w.sm.NumericDerived
  unclaimed : w.sm.Unclaimed
  row : w.mon.db.Active loadsourceDisagreeAlarmCode ↔ w.sm.loadsourceDisagreeRaised = true
  count : w.sm.loadsourceDisagreeCount = disagreements w.verdicts
  toggles : Toggles false (flips loadsourceDisagreeAlarmCode w.log) w.sm.loadsourceDisagreeRaised

/-- What an update leaves behind: the flag with the display, the conditions under which it is set,
and the disagreements that a raise takes. -/
structure Checked (w w' : DisagreeWatch) : Prop where
  display : w'.sm.loadsourceDisagreeRaised = true ↔
    loadsourceDisagreeAlarmCode ∈ w'.sm.snap.activeAlarms
  evidence : w'.sm.loadsourceDisagreeRaised = true →
    (∃ v ∈ w.mon.atsView, v.authoritative = true) ∧
      w'.sm.snap.engineState ∈ [EngineState.running, .alarm]
  debounced : loadsourceDisagreeAlarmCode ∈ raisedCodes w'.published →
    3 ≤ disagreements w'.verdicts

section Steps

variable {w w' : DisagreeWatch} {i : Input} {m : RegisterMap}
  {ats : Option (RegisterMap × Option ℤ)} {db : Database} {now : ℚ}

theorem sound_start (hm : loadsourceDisagreeAlarmCode ∉ m.alarmCodes)
    (hats : ∀ a ∈ ats, loadsourceDisagreeAlarmCode ∉ a.1.alarmCodes)
    (hdb : ¬db.Active loadsourceDisagreeAlarmCode) : (start m ats db now).Sound where
  regmap := hm
  ats := by
    intro svc hsvc
    obtain ⟨a, ha, rfl⟩ := Option.map_eq_some_iff.mp hsvc
    refine ⟨?_, AtsService.faultsOwn_init _ _⟩
    rintro (hcode | hskew)
    · exact hats a ha hcode
    · exact absurd hskew (by decide)
  numeric := numericDerived_init m now
  unclaimed := by constructor <;> simp [start, sm, Monitor.init, StateMachine.init]
  row := by simpa [start, sm, Monitor.init, StateMachine.init] using hdb
  count := rfl
  toggles := rfl

theorem toggles_flagDiff (a b : Bool) : Toggles a (flagDiff a b) b := by
  unfold flagDiff
  split
  · exact Eq.symm ‹_›
  · exact ⟨‹_›, rfl⟩

theorem mem_flips_of_raised {code : String} {es : List Event} (h : code ∈ raisedCodes es) :
    true ∈ flips code es := by
  obtain ⟨e, he, hr⟩ := h
  exact List.mem_filterMap.mpr ⟨e, he, by simp [Event.flip, hr]⟩

/-- One update of the state machine. -/
theorem Sound.poll (hs : w.Sound) {t : ℚ} {reading : Reading}
    (h : step w (.poll t reading) = some w') : w'.Sound ∧ w.Checked w' := by
  obtain ⟨u, c', hok, -⟩ := total_update ⟨t, w.mon.atsView, w.mon.heap⟩ reading .poller
    ⟨w.mon.stateMachine, w.mon.db, [], []⟩ rfl
  have hmon : w.mon.onPoll [] t reading =
      ({ w.mon with stateMachine := c'.self, db := c'.db }, c'.emitted) := by
    rw [Monitor.onPoll, hok]
    rfl
  have hupdated := update_updated hs.numeric hok
  obtain ⟨hunclaimed, hrow, hshown, new, he, hnew⟩ :=
    update_reports hok hs.regmap hs.unclaimed hs.row
  obtain rfl : c'.emitted = new := he
  have hmoves := update_ok_moves hok
  obtain ⟨r, hr, rfl⟩ := Option.map_eq_some_iff.mp h
  obtain rfl : ({ w.mon with stateMachine := c'.self, db := c'.db }, c'.emitted) = r :=
    Option.some.inj (hmon ▸ hr)
  have hcount : c'.self.loadsourceDisagreeCount =
      disagreements (newVerdicts w.mon (.poll t reading) ++ w.verdicts) :=
    hmoves.count_eq hs.count
  refine ⟨⟨?_, hs.ats, hupdated.numeric, hunclaimed, hrow, hcount, ?_⟩,
    hshown.symm, fun hon => ?_, fun hraise => ?_⟩
  · show loadsourceDisagreeAlarmCode ∉ c'.self.regmap.alarmCodes
    rw [hupdated.regmap]
    exact hs.regmap
  · show Toggles false (flips _ (w.log ++ c'.emitted)) c'.self.loadsourceDisagreeRaised
    rw [flips_append, hnew]
    exact hs.toggles.append (toggles_flagDiff _ _)
  · obtain ⟨hauth, hstate⟩ := authoritative_of_verdict_ne (hmoves.ne_reset hon)
    exact ⟨hauth, hupdated.engineState ▸ hstate⟩
  · have hmem := mem_flips_of_raised hraise
    rw [show flips _ c'.emitted = _ from hnew] at hmem
    unfold flagDiff at hmem
    split at hmem
    · cases hmem
    · rename_i hne
      have hon : c'.self.loadsourceDisagreeRaised = true := (List.mem_singleton.mp hmem).symm
      have hoff : w.sm.loadsourceDisagreeRaised = false := by
        rw [hon] at hne
        exact Bool.eq_false_iff.mpr (Ne.symm hne)
      show 3 ≤ disagreements (newVerdicts w.mon (.poll t reading) ++ w.verdicts)
      rw [← hcount]
      exact hmoves.due hoff hon

theorem Sound.atsPoll (hs : w.Sound) {t mono : ℚ} {tier : RegTier} {reading : Reading}
    (h : step w (.atsPoll t mono tier reading) = some w') : w'.Sound := by
  obtain ⟨r, hr, rfl⟩ := Option.map_eq_some_iff.mp h
  obtain ⟨svc, hsvc, rfl⟩ := Option.map_eq_some_iff.mp hr
  obtain ⟨hcode, hown⟩ := hs.ats svc hsvc
  obtain ⟨c', hupdated, hmon⟩ := w.mon.onAtsPoll_updated hown t mono tier reading
  obtain ⟨new, he, halarm, -⟩ := hupdated.emits
  obtain rfl : c'.emitted = new := he
  have hquiet : flips loadsourceDisagreeAlarmCode c'.emitted = [] :=
    List.filterMap_eq_nil_iff.mpr fun e hm =>
      flip_of_alarmCode_ne fun hc => hcode (halarm e hm _ hc)
  rw [hmon]
  refine ⟨hs.regmap, fun svc' hsvc' => ?_, hs.numeric, hs.unclaimed,
    (hupdated.rows _ hcode).trans hs.row, hs.count, ?_⟩
  · obtain rfl : c'.self = svc' := Option.some.inj hsvc'
    rw [hupdated.regmap]
    exact ⟨hcode, hupdated.faultsOwn⟩
  · show Toggles false (flips _ (w.log ++ c'.emitted)) _
    rw [flips_append, hquiet, List.append_nil]
    exact hs.toggles

theorem Sound.step (hs : w.Sound) (h : step w i = some w') : w'.Sound := by
  obtain ⟨r, hr, he⟩ := Option.map_eq_some_iff.mp h
  obtain ⟨t, reading, rfl, -⟩ | ⟨t, mono, tier, reading, svc, rfl, -, -⟩ |
    ⟨hcb, hsm, hats, hdb, hes⟩ := Monitor.step_cases hr
  · exact (hs.poll h).1
  · exact hs.atsPoll h
  · have hnone : newVerdicts w.mon i = [] := by
      cases i <;> first | rfl | cases hcb
    subst he
    rw [hnone, hes]
    refine ⟨?_, ?_, ?_, ?_, ?_, ?_, ?_⟩ <;> simp only [sm, hsm, hats, hdb, List.append_nil,
      List.nil_append]
    · exact hs.regmap
    · exact hs.ats
    · exact hs.numeric
    · exact hs.unclaimed
    · exact hs.row
    · exact hs.count
    · exact hs.toggles

end Steps

/-- Without database errors and acknowledgements, from a table without the code and with no alarm
bit that uses it: after each update the flag is set exactly when the code is displayed, and only
if the companion was authoritative and the engine running or in alarm; a raise takes three
disagreeing updates since the last reset; and the code's events alternate. -/
theorem disagreement_alarm_invariant {m : RegisterMap} {ats : Option (RegisterMap × Option ℤ)}
    {db : Database} {now : ℚ} (hm : loadsourceDisagreeAlarmCode ∉ m.alarmCodes)
    (hats : ∀ a ∈ ats, loadsourceDisagreeAlarmCode ∉ a.1.alarmCodes)
    (hdb : ¬db.Active loadsourceDisagreeAlarmCode) :
    (∀ w, Reachable step (start m ats db now) w →
      (false :: flips loadsourceDisagreeAlarmCode w.log).IsChain (· ≠ ·)) ∧
    ∀ ls w t reading w', Takes step (start m ats db now) ls w (.poll t reading) w' →
      w.Checked w' := by
  have hsound : ∀ w, Reachable step (start m ats db now) w → w.Sound := fun w h =>
    h.invariant (sound_start hm hats hdb) fun _ _ _ hs hstep => hs.step hstep
  constructor
  · intro w h
    exact (hsound w h).toggles.isChain
  · intro ls w t reading w' h
    exact ((hsound w h.reachable).poll h.step_eq).2

/-- The companion reports utility while the generator delivers, for two updates. -/
def twoDisagreements : List Input :=
  [.record .ats true 10 0 0, .atsPoll 1 1 .base (companionReading (some 0)),
    .poll 2 (deliveringReading 20), .poll 3 (deliveringReading 20)]

/-- The third disagreeing update raises the alarm. -/
theorem third_disagreement_raises :
    ∃ w w', Takes step (start runningMap (some (.bare, none)) .empty 0)
        (twoDisagreements ++ [.poll 4 (deliveringReading 20)]) w
        (.poll 4 (deliveringReading 20)) w' ∧
      w'.sm.loadsourceDisagreeRaised = true ∧
      loadsourceDisagreeAlarmCode ∈ w'.sm.snap.activeAlarms ∧
      (∃ v ∈ w.mon.atsView, v.authoritative = true) ∧ 3 ≤ disagreements w'.verdicts := by
  obtain ⟨w, w', ht, htest⟩ := takes_of_lastStep step
    (start runningMap (some (.bare, none)) .empty 0) twoDisagreements
    (.poll 4 (deliveringReading 20))
    (fun _ _ w' => w'.sm.loadsourceDisagreeRaised = true ∧
      ∃ e ∈ w'.published, e.raises = some loadsourceDisagreeAlarmCode) (by decide +kernel)
  obtain ⟨hon, hraise⟩ := of_decide_eq_true htest
  have hchecked := (@disagreement_alarm_invariant runningMap (some (.bare, none)) .empty 0
    (by decide) (by decide) (by decide)).2 _ _ _ _ _ ht
  exact ⟨w, w', ht, hon, hchecked.display.mp hon, (hchecked.evidence hon).1,
    hchecked.debounced hraise⟩

end DisagreeWatch

end GenWatch

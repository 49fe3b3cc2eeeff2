import GenWatch.Services.Frame

/-! # The cross-check of the transfer switch

Of the debounce of the disagreement alarm only a counter and a flag are kept. An update
changes them by the verdict of its cross-check alone: it withdraws the alarm, counts one
more disagreement, or leaves both as they are. A database error before the cross-check
leaves both as they are; one that meets the withdrawal leaves it half done.
-/

namespace GenWatch

open Handler ServiceM

namespace StateMachine

inductive Verdict where
  | reset
  | hold
  | disagree
  deriving DecidableEq

/-- The verdict for an engine state and the values of a reading. -/
def verdict (ats : Option AtsView) (state : EngineState) (values : Values) : Verdict :=
  match ats with
  | none => .reset
  | some v =>
    if ¬v.authoritative then .reset
    else if state ∉ [EngineState.running, .alarm] then .reset
    else if v.position ∉ [LoadSource.utility, .generator] then .hold
    else
      match values "avg_current", values "total_kw" with
      | some currentVal, some kwVal =>
        match disagreement v currentVal kwVal with
        | some _ => .disagree
        | none => .reset
      | _, _ => .hold

structure Debounce where
  count : ℕ
  raised : Bool
  deriving DecidableEq

def debounce (sm : StateMachine) : Debounce :=
  ⟨sm.loadsourceDisagreeCount, sm.loadsourceDisagreeRaised⟩

/-- What an evaluation makes of the debounce, completed or not. -/
def Debounce.Moves (p : Debounce) (completed : Bool) (p' : Debounce) : Verdict → Prop
  | .reset => completed = true ∨ p.raised = false → p' = ⟨0, false⟩
  | .hold => p' = p
  | .disagree => p'.count = p.count + 1 ∧ (p.raised = true → p'.raised = true) ∧
      (p'.raised = true → p.raised = true ∨ loadsourceDisagreeDebouncePolls ≤ p.count + 1)

/-- What the parts between the engine state and the cross-check keep, completed or not. -/
structure Steady (c c' : Ctx StateMachine) : Prop where
  debounce : c'.self.debounce = c.self.debounce
  engineState : c'.self.snap.engineState = c.self.snap.engineState
  emitted : c.emitted ⊆ c'.emitted

instance : Std.Refl Steady := ⟨fun _ => ⟨rfl, rfl, List.Subset.refl _⟩⟩

instance : IsTrans (Ctx StateMachine) Steady where
  trans _ _ _ h h' := ⟨h'.debounce.trans h.debounce, h'.engineState.trans h.engineState,
    List.Subset.trans h.emitted h'.emitted⟩

theorem steady_dbCall {α : Type} (op : Database → α × Database) :
    Relates Steady (dbCall op : ServiceM StateMachine α) :=
  relates_dbCall (fun _ _ => ⟨rfl, rfl, List.Subset.refl _⟩)
    fun _ _ => ⟨rfl, rfl, List.Subset.refl _⟩

theorem steady_emit (e : Event) : Relates Steady (emit e) :=
  Relates.modify fun _ => ⟨rfl, rfl, List.subset_append_left _ _⟩

theorem steady_modifySelf {f : StateMachine → StateMachine}
    (h : ∀ sm, (f sm).debounce = sm.debounce ∧ (f sm).snap.engineState = sm.snap.engineState) :
    Relates Steady (modifySelf f) :=
  Relates.modify fun c => ⟨(h c.self).1, (h c.self).2, List.Subset.refl _⟩

theorem steady_announce {α : Type} (op : Database → α × Database) (e : Event) :
    Relates Steady (do let _ ← dbCall op; emit e) :=
  Relates.bind (steady_dbCall _) fun _ => steady_emit _

section Parts

variable (m : RegisterMap) (reading : Reading) (now : ℚ)

theorem steady_alarmRules : AlarmRules Steady where
  calls := steady_dbCall
  emits e _ := steady_emit e
  books f hf := steady_modifySelf fun sm => by
    obtain ⟨_, _, _, _, he⟩ := hf sm
    rw [he]
    exact ⟨rfl, rfl⟩

theorem steady_updateAlarms : Relates Steady (updateAlarms m reading now) :=
  steady_alarmRules.relates_updateAlarms _ _ _ fun _ _ => ⟨rfl, rfl, List.Subset.refl _⟩

theorem steady_updateNumeric : Relates Steady (updateNumeric m reading now) :=
  steady_alarmRules.relates_updateNumeric _ _ _

theorem steady_updateComms (env : PollEnv) (comms : CommsRef) :
    Relates Steady (updateComms env comms) :=
  Relates.bind relates_getSelf fun _ =>
    Relates.ite (fun _ => steady_announce _ _) fun _ => Relates.pure _

theorem steady_updatePanelMode : Relates Steady (updatePanelMode m reading) :=
  steady_modifySelf fun _ => ⟨rfl, rfl⟩

theorem steady_updateLoadSource (env : PollEnv) :
    Relates Steady (updateLoadSource env reading) :=
  relates_updateLoadSource (fun _ _ => steady_modifySelf fun _ => ⟨rfl, rfl⟩)
    (fun _ _ _ => steady_emit _) (fun _ _ _ _ _ => steady_dbCall _) env reading

theorem steady_afterEngineState (env : PollEnv) (comms : CommsRef) :
    Relates Steady (do
      updateAlarms m reading env.now
      updateNumeric m reading env.now
      updateComms env comms
      updatePanelMode m reading
      updateLoadSource env reading) := by
  refine Relates.bind (steady_updateAlarms _ _ _) fun _ => ?_
  refine Relates.bind (steady_updateNumeric _ _ _) fun _ => ?_
  refine Relates.bind (steady_updateComms _ _) fun _ => ?_
  refine Relates.bind (steady_updatePanelMode _ _) fun _ => ?_
  exact steady_updateLoadSource _ _

/-- The parts before the cross-check, which decide whether it is made. -/
def beforeCheck (env : PollEnv) (comms : CommsRef) : ServiceM StateMachine Unit := do
  updateEngineState m reading env.now
  updateAlarms m reading env.now
  updateNumeric m reading env.now
  updateComms env comms
  updatePanelMode m reading
  updateLoadSource env reading

def SameDebounce (c c' : Ctx StateMachine) : Prop := c'.self.debounce = c.self.debounce

instance : Std.Refl SameDebounce := ⟨fun _ => rfl⟩

instance : IsTrans (Ctx StateMachine) SameDebounce := ⟨fun _ _ _ h h' => h'.trans h⟩

theorem sameDebounce_of_steady {α : Type} {x : ServiceM StateMachine α} (h : Relates Steady x) :
    Relates SameDebounce x :=
  fun c => (h c).debounce

theorem sameDebounce_updateEngineState :
    Relates SameDebounce (updateEngineState m reading now) := by
  refine Relates.bind relates_getSelf fun sm => Relates.ite (fun _ => ?_) fun _ => Relates.pure _
  refine Relates.bind (Relates.modify fun _ => rfl) fun _ => sameDebounce_of_steady ?_
  exact Relates.bind (steady_emit _) fun _ => steady_dbCall _

theorem sameDebounce_beforeCheck (env : PollEnv) (comms : CommsRef) :
    Relates SameDebounce (beforeCheck m reading env comms) :=
  Relates.bind (sameDebounce_updateEngineState _ _ _) fun _ =>
    sameDebounce_of_steady (steady_afterEngineState _ _ _ _)

end Parts

theorem update_eq_beforeCheck (env : PollEnv) (reading : Reading) (comms : CommsRef) :
    update env reading comms = getSelf >>= fun sm =>
      beforeCheck sm.regmap reading env comms >>= fun _ =>
        checkLoadsourceDisagreement env reading >>= fun _ => finishUpdate reading comms := by
  simp only [update, beforeCheck, bind_assoc]

section Outcomes

variable {m : RegisterMap} {env : PollEnv} {reading : Reading} {comms : CommsRef} {now : ℚ}
  {c c' : Ctx StateMachine} {u : Unit} {r : EStateM.Result DbError (Ctx StateMachine) Unit}

theorem updateEngineState_ok (h : (updateEngineState m reading now).run c = .ok u c') :
    c'.self.snap.engineState = nextEngineState m reading.values c.self.snap.engineState := by
  obtain ⟨sm, c₁, hg, h⟩ := bind_ok.mp h
  obtain ⟨rfl, rfl⟩ := getSelf_ok.mp hg
  dsimp only at h
  split at h
  · obtain ⟨c₂, hm, h⟩ := seq_ok.mp h
    obtain rfl := modifySelf_ok.mp hm
    have hlog : Relates Steady (do
        emit (.transition c.self.snap.engineState
          (nextEngineState m reading.values c.self.snap.engineState) now)
        writeEvent .ok .transition (.engineState c.self.snap.engineState
          (nextEngineState m reading.values c.self.snap.engineState)) none now) :=
      Relates.bind (steady_emit _) fun _ => steady_dbCall _
    exact (hlog.ok h).engineState
  · rename_i hsame
    obtain ⟨-, rfl⟩ := pure_ok.mp h
    exact (not_not.mp hsame).symm

theorem beforeCheck_ok (h : (beforeCheck m reading env comms).run c = .ok u c') :
    c'.self.snap.engineState = nextEngineState m reading.values c.self.snap.engineState := by
  obtain ⟨c₁, h₁, h⟩ := seq_ok.mp h
  have hrest := steady_afterEngineState m reading env comms
  exact (hrest.ok h).engineState.trans (updateEngineState_ok h₁)

theorem emitDisagreeClear_ok {reason : DisagreeReason}
    (h : (emitDisagreeClear reason now).run c = .ok u c') :
    c'.self.loadsourceDisagreeRaised = false := by
  obtain ⟨cleared, c₁, -, h⟩ := bind_ok.mp h
  obtain ⟨c₂, hm, h⟩ := seq_ok.mp h
  obtain rfl := modifySelf_ok.mp hm
  have hrest : Relates Steady (if cleared then do
      writeEvent .ok .alarm (.disagreeCleared reason)
        (some s!"code {loadsourceDisagreeAlarmCode}") now
      emit (.disagreeCleared loadsourceDisagreeAlarmCode reason now)
      else pure ()) :=
    Relates.ite (fun _ => steady_announce _ _) fun _ => Relates.pure _
  exact congrArg Debounce.raised (hrest.ok h).debounce

theorem resetDisagree_ok {reason : DisagreeReason}
    (h : (resetDisagree reason now).run c = .ok u c') : c'.self.debounce = ⟨0, false⟩ := by
  obtain ⟨sm, c₁, hg, h⟩ := bind_ok.mp h
  obtain ⟨rfl, rfl⟩ := getSelf_ok.mp hg
  split at h
  · obtain ⟨c₂, hclear, h⟩ := seq_ok.mp h
    obtain rfl := modifySelf_ok.mp h
    simp [debounce, emitDisagreeClear_ok hclear]
  · rename_i hraised
    obtain rfl := modifySelf_ok.mp h
    simp [debounce, Bool.eq_false_iff.mpr hraised]

theorem resetDisagree_moves {reason : DisagreeReason} (h : (resetDisagree reason now).run c = r) :
    c.self.debounce.Moves (completed r) (finalState r).self.debounce .reset := by
  rintro (hok | hoff)
  · cases r with
    | ok u c' => exact resetDisagree_ok h
    | error e c' => cases hok
  · have hraised : ¬c.self.loadsourceDisagreeRaised = true := Bool.eq_false_iff.mp hoff
    rw [resetDisagree, bind_run (getSelf_ok.mpr ⟨rfl, rfl⟩), if_neg hraised] at h
    subst h
    exact congrArg (Debounce.mk 0) hoff

def Raising (c c' : Ctx StateMachine) : Prop :=
  c'.self.debounce.count = c.self.debounce.count ∧
    (c.self.debounce.raised = true → c'.self.debounce.raised = true)

instance : IsTrans (Ctx StateMachine) Raising :=
  ⟨fun _ _ _ h h' => ⟨h'.1.trans h.1, fun hr => h'.2 (h.2 hr)⟩⟩

theorem raising_emitDisagreeRaise (desc : Desc) (now : ℚ) :
    Relates Raising (emitDisagreeRaise desc now) := by
  have hkept {α : Type} {x : ServiceM StateMachine α} (h : Relates Steady x) :
      Relates Raising x :=
    fun c => ⟨congrArg Debounce.count (h c).debounce, fun hr => (h c).debounce ▸ hr⟩
  refine Relates.bind (hkept (steady_dbCall _)) fun _ => ?_
  refine Relates.bind (Relates.modify fun _ => ⟨rfl, fun _ => rfl⟩) fun _ => hkept ?_
  exact Relates.ite (fun _ => steady_announce _ _) fun _ => Relates.pure _

theorem countDisagreement_moves {desc : Desc}
    (h : (do
      modifySelf fun sm => { sm with loadsourceDisagreeCount := sm.loadsourceDisagreeCount + 1 }
      let sm ← getSelf
      if loadsourceDisagreeDebouncePolls ≤ sm.loadsourceDisagreeCount ∧
          ¬sm.loadsourceDisagreeRaised then
        emitDisagreeRaise desc now : ServiceM StateMachine Unit).run c = r) :
    c.self.debounce.Moves (completed r) (finalState r).self.debounce .disagree := by
  rw [bind_run (a := ()) (modifySelf_ok.mpr rfl), bind_run (getSelf_ok.mpr ⟨rfl, rfl⟩)] at h
  split at h
  · rename_i hdue
    subst h
    obtain ⟨hcount, hraised⟩ := raising_emitDisagreeRaise desc now
      { c with self := { c.self with
        loadsourceDisagreeCount := c.self.loadsourceDisagreeCount + 1 } }
    exact ⟨hcount, hraised, fun _ => Or.inr hdue.1⟩
  · subst h
    exact ⟨rfl, id, Or.inl⟩

theorem checkLoadsourceDisagreement_moves
    (h : (checkLoadsourceDisagreement env reading).run c = r) :
    c.self.debounce.Moves (completed r) (finalState r).self.debounce
      (verdict env.ats c.self.snap.engineState reading.values) := by
  rw [checkLoadsourceDisagreement, bind_run (getSelf_ok.mpr ⟨rfl, rfl⟩)] at h
  cases hats : env.ats with
  | none =>
    rw [hats] at h
    exact resetDisagree_moves h
  | some v =>
    rw [hats] at h
    dsimp only at h
    simp only [verdict]
    split at h
    · rename_i hauth
      rw [if_pos hauth]
      exact resetDisagree_moves h
    rename_i hauth
    rw [if_neg hauth]
    split at h
    · rename_i hstate
      rw [if_pos hstate]
      exact resetDisagree_moves h
    rename_i hstate
    rw [if_neg hstate]
    split at h
    · rename_i hpos
      rw [if_pos hpos]
      subst h
      rfl
    rename_i hpos
    rw [if_neg hpos]
    cases hcurrent : reading.values "avg_current" with
    | none =>
      rw [hcurrent] at h
      subst h
      rfl
    | some currentVal =>
      cases hkw : reading.values "total_kw" with
      | none =>
        rw [hcurrent, hkw] at h
        subst h
        rfl
      | some kwVal =>
        rw [hcurrent, hkw] at h
        dsimp only at h ⊢
        cases hdesc : disagreement v currentVal kwVal with
        | none =>
          rw [hdesc] at h
          exact resetDisagree_moves h
        | some desc =>
          rw [hdesc] at h
          exact countDisagreement_moves h

/-- An update changes the debounce by the verdict for its engine state and its values, if it gets
to its cross-check. -/
theorem update_moves (h : (update env reading comms).run c = r) :
    (completed ((beforeCheck c.self.regmap reading env comms).run c) = false ∧
      (finalState r).self.debounce = c.self.debounce) ∨
    completed ((beforeCheck c.self.regmap reading env comms).run c) = true ∧
      c.self.debounce.Moves (completed r) (finalState r).self.debounce (verdict env.ats
        (nextEngineState c.self.regmap reading.values c.self.snap.engineState) reading.values) := by
  have hsame := sameDebounce_beforeCheck c.self.regmap reading env comms c
  rw [update_eq_beforeCheck, bind_run (getSelf_ok.mpr ⟨rfl, rfl⟩)] at h
  cases hbefore : (beforeCheck c.self.regmap reading env comms).run c with
  | error e c₁ =>
    rw [hbefore] at hsame
    rw [bind_error hbefore] at h
    subst h
    exact Or.inl ⟨rfl, hsame⟩
  | ok u c₁ =>
    rw [hbefore] at hsame
    rw [bind_run hbefore] at h
    refine Or.inr ⟨rfl, ?_⟩
    rw [← beforeCheck_ok hbefore, ← hsame]
    cases hcheck : (checkLoadsourceDisagreement env reading).run c₁ with
    | error e c₂ =>
      rw [bind_error hcheck] at h
      subst h
      exact checkLoadsourceDisagreement_moves hcheck
    | ok u c₂ =>
      have hmoves := checkLoadsourceDisagreement_moves hcheck
      rw [bind_run hcheck] at h
      subst h
      exact hmoves

end Outcomes

end StateMachine

end GenWatch

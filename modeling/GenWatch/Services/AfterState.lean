import GenWatch.Alarms.CrossCheck

/-! # What follows the engine state

An update derives the engine state first. Nothing that follows changes it, announces a change
of it, or logs one; so the update says about the engine what its first part says.
-/

namespace GenWatch

open Handler ServiceM

/-- The state that a `transition` event reports arrival at. -/
def Event.stateArrival : Event → Option EngineState
  | .transition _ new _ => some new
  | _ => none

namespace StateMachine

section CheckRules

/-- A change of the bookkeeping of the cross-check alone. -/
def CheckOnly (f : StateMachine → StateMachine) : Prop :=
  ∀ sm, ∃ count raised, f sm =
    { sm with loadsourceDisagreeCount := count, loadsourceDisagreeRaised := raised }

/-- A relation that everything the cross-check does keeps. -/
structure CheckRules (R : Ctx StateMachine → Ctx StateMachine → Prop) : Prop where
  writes : ∀ severity {type : EventType} message info now, type ≠ .transition →
    Relates R (writeEvent severity type message info now)
  raises : ∀ code desc severity raw now, Relates R (raiseAlarm code desc severity raw now)
  clears : ∀ code, Relates R (clearAlarm code)
  emits : ∀ e : Event, e.stateArrival = none → Relates R (emit e)
  books : ∀ f, CheckOnly f → Relates R (modifySelf f)

variable {R : Ctx StateMachine → Ctx StateMachine → Prop} [Std.Refl R]
  [IsTrans (Ctx StateMachine) R] (h : CheckRules R) (reading : Reading) (env : PollEnv) (now : ℚ)

include h

theorem CheckRules.announce {e : Event} (he : e.stateArrival = none) (severity : Severity)
    (message : Message) (info : Option String) (changed : Bool) :
    Relates R (if changed then writeEvent severity .alarm message info now >>= fun _ => emit e
      else pure ()) := by
  refine Relates.ite (fun _ => ?_) fun _ => Relates.pure _
  exact Relates.bind (h.writes _ _ _ _ (by decide)) fun _ => h.emits e he

theorem CheckRules.relates_resetDisagree (reason : DisagreeReason) :
    Relates R (resetDisagree reason now) := by
  refine Relates.bind relates_getSelf fun sm => ?_
  split
  · refine Relates.bind ?_ fun _ => h.books _ fun _ => ⟨_, _, rfl⟩
    refine Relates.bind (h.clears _) fun cleared => ?_
    exact Relates.bind (h.books _ fun _ => ⟨_, _, rfl⟩) fun _ => h.announce _ rfl _ _ _ _
  · exact h.books _ fun _ => ⟨_, _, rfl⟩

theorem CheckRules.relates_checkLoadsourceDisagreement :
    Relates R (checkLoadsourceDisagreement env reading) := by
  refine Relates.bind relates_getSelf fun sm => ?_
  split
  · exact h.relates_resetDisagree _ _
  refine Relates.ite (fun _ => h.relates_resetDisagree _ _) fun _ => ?_
  refine Relates.ite (fun _ => h.relates_resetDisagree _ _) fun _ => ?_
  refine Relates.ite (fun _ => Relates.pure _) fun _ => ?_
  split
  · split
    · refine Relates.bind (h.books _ fun _ => ⟨_, _, rfl⟩) fun _ => ?_
      refine Relates.bind relates_getSelf fun sm => Relates.ite (fun _ => ?_) fun _ =>
        Relates.pure _
      refine Relates.bind (h.raises _ _ _ _ _) fun raised => ?_
      exact Relates.bind (h.books _ fun _ => ⟨_, _, rfl⟩) fun _ => h.announce _ rfl _ _ _ _
    · exact h.relates_resetDisagree _ _
  · exact Relates.pure _

end CheckRules

section Rules

/-- A relation that everything an update does after its first part keeps. -/
structure LaterRules (R : Ctx StateMachine → Ctx StateMachine → Prop) : Prop where
  writes : ∀ severity {type : EventType} message info now, type ≠ .transition →
    Relates R (writeEvent severity type message info now)
  raises : ∀ code desc severity raw now, Relates R (raiseAlarm code desc severity raw now)
  clears : ∀ code, Relates R (clearAlarm code)
  emits : ∀ e : Event, e.stateArrival = none → Relates R (emit e)
  moves : ∀ f : StateMachine → StateMachine,
    (∀ sm, (f sm).regmap = sm.regmap ∧ (f sm).snap.engineState = sm.snap.engineState ∧
      (f sm).snap.stateStartedAt = sm.snap.stateStartedAt) →
      Relates R (modifySelf f)

variable {R : Ctx StateMachine → Ctx StateMachine → Prop} [Std.Refl R]
  [IsTrans (Ctx StateMachine) R] (h : LaterRules R) (m : RegisterMap) (reading : Reading)
  (env : PollEnv) (comms : CommsRef) (now : ℚ)

include h

omit [Std.Refl R] [IsTrans (Ctx StateMachine) R] in
theorem LaterRules.checkRules : CheckRules R where
  writes := h.writes
  raises := h.raises
  clears := h.clears
  emits := h.emits
  books f hf := h.moves f fun sm => by
    obtain ⟨count, raised, he⟩ := hf sm
    rw [he]
    exact ⟨rfl, rfl, rfl⟩

theorem LaterRules.relates_updateAlarms : Relates R (updateAlarms m reading now) := by
  refine Relates.bind (h.moves _ fun _ => ⟨rfl, rfl, rfl⟩) fun _ => ?_
  refine Relates.bind relates_getSelf fun sm => Relates.bind (Relates.forM fun ab _ => ?_)
    fun _ => Relates.bind relates_getSelf fun sm => Relates.bind (Relates.forM fun code _ => ?_)
    fun _ => h.moves _ fun _ => ⟨rfl, rfl, rfl⟩
  · refine Relates.ite (fun _ => Relates.pure _) fun _ => ?_
    refine Relates.bind (h.raises _ _ _ _ _) fun raised => ?_
    exact Relates.bind (h.moves _ fun _ => ⟨rfl, rfl, rfl⟩) fun _ =>
      h.checkRules.announce _ rfl _ _ _ _
  · refine Relates.ite (fun _ => Relates.pure _) fun _ => ?_
    refine Relates.bind (h.clears _) fun cleared => ?_
    exact Relates.bind (h.moves _ fun _ => ⟨rfl, rfl, rfl⟩) fun _ =>
      h.checkRules.announce _ rfl _ _ _ _

theorem LaterRules.relates_updateNumeric : Relates R (updateNumeric m reading now) := by
  have hcheck : Relates R (checkNumericRanges m reading now) := by
    refine Relates.bind relates_getSelf fun sm => ?_
    refine Relates.bind (h.moves _ fun _ => ⟨rfl, rfl, rfl⟩) fun _ => ?_
    refine Relates.bind (Relates.forM fun hit _ => ?_) fun _ =>
      Relates.bind relates_getSelf fun sm => Relates.forM fun code _ => ?_
    · refine Relates.bind relates_getSelf fun sm =>
        Relates.ite (fun _ => Relates.pure _) fun _ => ?_
      refine Relates.bind (h.moves _ fun _ => ⟨rfl, rfl, rfl⟩) fun _ => ?_
      exact Relates.bind (h.raises _ _ _ _ _) fun raised =>
      h.checkRules.announce _ rfl _ _ _ _
    · refine Relates.ite (fun _ => Relates.pure _) fun _ => ?_
      refine Relates.bind (h.moves _ fun _ => ⟨rfl, rfl, rfl⟩) fun _ => ?_
      exact Relates.bind (h.clears _) fun cleared =>
      h.checkRules.announce _ rfl _ _ _ _
  unfold updateNumeric
  split
  · exact Relates.bind hcheck fun _ => h.moves _ fun _ => ⟨rfl, rfl, rfl⟩
  · exact h.moves _ fun _ => ⟨rfl, rfl, rfl⟩

theorem LaterRules.relates_updateComms : Relates R (updateComms env comms) := by
  refine Relates.bind relates_getSelf fun sm => Relates.ite (fun _ => ?_) fun _ => Relates.pure _
  exact Relates.bind (h.writes _ _ _ _ (by decide)) fun _ => h.emits _ rfl

theorem LaterRules.relates_updateLoadSource : Relates R (updateLoadSource env reading) := by
  refine Relates.bind relates_getSelf fun sm => Relates.ite (fun _ => ?_) fun _ => Relates.pure _
  refine Relates.bind (h.moves _ fun _ => ⟨rfl, rfl, rfl⟩) fun _ => ?_
  refine Relates.ite (fun _ => Relates.pure _) fun _ => Relates.bind (h.emits _ rfl) fun _ => ?_
  split
  · exact h.writes _ _ _ _ (by decide)
  · exact Relates.pure _

theorem LaterRules.relates_rest : Relates R (do
    updateAlarms m reading env.now
    updateNumeric m reading env.now
    updateComms env comms
    updatePanelMode m reading
    updateLoadSource env reading
    checkLoadsourceDisagreement env reading
    finishUpdate reading comms) := by
  refine Relates.bind (h.relates_updateAlarms _ _ _) fun _ => ?_
  refine Relates.bind (h.relates_updateNumeric _ _ _) fun _ => ?_
  refine Relates.bind (h.relates_updateComms _ _) fun _ => ?_
  refine Relates.bind (h.moves _ fun _ => ⟨rfl, rfl, rfl⟩) fun _ => ?_
  refine Relates.bind (h.relates_updateLoadSource _ _) fun _ => ?_
  refine Relates.bind (h.checkRules.relates_checkLoadsourceDisagreement _ _) fun _ => ?_
  exact h.moves _ fun _ => ⟨rfl, rfl, rfl⟩

end Rules

def SnapKept (c c' : Ctx StateMachine) : Prop := c'.self.snap = c.self.snap

instance : Std.Refl SnapKept := ⟨fun _ => rfl⟩

instance : IsTrans (Ctx StateMachine) SnapKept := ⟨fun _ _ _ h h' => h'.trans h⟩

theorem checkRules_snapKept : CheckRules SnapKept where
  writes _ _ _ _ _ _ := relates_dbCall (fun _ _ => rfl) fun _ _ => rfl
  raises _ _ _ _ _ := relates_dbCall (fun _ _ => rfl) fun _ _ => rfl
  clears _ := relates_dbCall (fun _ _ => rfl) fun _ _ => rfl
  emits _ _ := Relates.modify fun _ => rfl
  books f hf := Relates.modify fun c => by
    obtain ⟨count, raised, he⟩ := hf c.self
    rw [SnapKept, he]

def PanelKept (c c' : Ctx StateMachine) : Prop := c'.self.snap.panelMode = c.self.snap.panelMode

instance : Std.Refl PanelKept := ⟨fun _ => rfl⟩

instance : IsTrans (Ctx StateMachine) PanelKept := ⟨fun _ _ _ h h' => h'.trans h⟩

theorem panelKept_updateLoadSource (env : PollEnv) (reading : Reading) :
    Relates PanelKept (updateLoadSource env reading) :=
  relates_updateLoadSource (fun _ _ => Relates.modify fun _ => rfl)
    (fun _ _ _ => Relates.modify fun _ => rfl)
    (fun _ _ _ _ _ => relates_dbCall (fun _ _ => rfl) fun _ _ => rfl) env reading

def stateRows (db : Database) : List EventRow := db.events.filter fun e => e.type = .transition

/-- Neither the map nor the engine state changes, nor is a change of it announced or logged. -/
structure StateKept (c c' : Ctx StateMachine) : Prop where
  regmap : c'.self.regmap = c.self.regmap
  engineState : c'.self.snap.engineState = c.self.snap.engineState
  startedAt : c'.self.snap.stateStartedAt = c.self.snap.stateStartedAt
  rows : stateRows c'.db = stateRows c.db
  arrivals : c'.emitted.filterMap Event.stateArrival = c.emitted.filterMap Event.stateArrival

instance : Std.Refl StateKept := ⟨fun _ => ⟨rfl, rfl, rfl, rfl, rfl⟩⟩

instance : IsTrans (Ctx StateMachine) StateKept where
  trans _ _ _ h h' := ⟨h'.regmap.trans h.regmap, h'.engineState.trans h.engineState,
    h'.startedAt.trans h.startedAt, h'.rows.trans h.rows, h'.arrivals.trans h.arrivals⟩

theorem laterRules_stateKept : LaterRules StateKept where
  writes severity type message info now htype := by
    refine relates_dbCall (fun _ _ => ⟨rfl, rfl, rfl, rfl, rfl⟩) fun c _ => ⟨rfl, rfl, rfl, ?_, rfl⟩
    simp [stateRows, Database.writeEvent, htype]
  raises _ _ _ _ _ :=
    relates_dbCall (fun _ _ => ⟨rfl, rfl, rfl, rfl, rfl⟩) fun _ _ => ⟨rfl, rfl, rfl, rfl, rfl⟩
  clears _ :=
    relates_dbCall (fun _ _ => ⟨rfl, rfl, rfl, rfl, rfl⟩) fun _ _ => ⟨rfl, rfl, rfl, rfl, rfl⟩
  emits e he := Relates.modify fun c => ⟨rfl, rfl, rfl, rfl, by simp [he]⟩
  moves f hf :=
    Relates.modify fun c => ⟨(hf c.self).1, (hf c.self).2.1, (hf c.self).2.2, rfl, rfl⟩

section Update

variable {m : RegisterMap} {env : PollEnv} {reading : Reading} {comms : CommsRef} {now : ℚ}
  {c c' : Ctx StateMachine} {u : Unit}

def stateRow (old new : EngineState) (now : ℚ) : EventRow :=
  ⟨now, .ok, .transition, .engineState old new, none⟩

theorem updateEngineState_told (h : (updateEngineState m reading now).run c = .ok u c') :
    let old := c.self.snap.engineState
    let new := nextEngineState m reading.values old
    c'.self.regmap = c.self.regmap ∧ c'.self.snap.engineState = new ∧
      (new ≠ old → c'.self.snap.stateStartedAt = now) ∧
      stateRows c'.db = stateRows c.db ++ (if new ≠ old then [stateRow old new now] else []) ∧
      c'.emitted.filterMap Event.stateArrival =
        c.emitted.filterMap Event.stateArrival ++ (if new ≠ old then [new] else []) := by
  obtain ⟨sm, c₀, hself, h⟩ := bind_ok.mp h
  obtain ⟨rfl, rfl⟩ := getSelf_ok.mp hself
  dsimp only at h ⊢
  split at h
  · rename_i hne
    obtain ⟨c₁, h₁, h⟩ := seq_ok.mp h
    obtain rfl := modifySelf_ok.mp h₁
    obtain ⟨c₂, h₂, h⟩ := seq_ok.mp h
    obtain rfl := emit_ok.mp h₂
    obtain ⟨-, -, rfl⟩ := dbCall_ok.mp h
    rw [if_pos hne, if_pos hne]
    refine ⟨rfl, rfl, fun _ => rfl, ?_, ?_⟩
    · simp [stateRows, Database.writeEvent, stateRow]
    · simp [Event.stateArrival]
  · rename_i heq
    obtain ⟨-, rfl⟩ := pure_ok.mp h
    rw [if_neg heq, if_neg heq]
    exact ⟨rfl, (not_not.mp heq).symm, fun h => absurd h heq, by simp, by simp⟩

/-- A completed update logs and announces the change of the engine state, and no other. -/
theorem update_told (h : (update env reading comms).run c = .ok u c') :
    let old := c.self.snap.engineState
    let new := nextEngineState c.self.regmap reading.values old
    c'.self.regmap = c.self.regmap ∧ c'.self.snap.engineState = new ∧
      (new ≠ old → c'.self.snap.stateStartedAt = env.now) ∧
      stateRows c'.db = stateRows c.db ++ (if new ≠ old then [stateRow old new env.now] else []) ∧
      c'.emitted.filterMap Event.stateArrival =
        c.emitted.filterMap Event.stateArrival ++ (if new ≠ old then [new] else []) := by
  obtain ⟨sm, c₀, hself, h⟩ := bind_ok.mp h
  obtain ⟨rfl, rfl⟩ := getSelf_ok.mp hself
  obtain ⟨c₁, h₁, h⟩ := seq_ok.mp h
  have hrest := (laterRules_stateKept.relates_rest _ _ _ _).ok h
  rw [hrest.regmap, hrest.engineState, hrest.startedAt, hrest.rows, hrest.arrivals]
  exact updateEngineState_told h₁

theorem update_stored (h : (update env reading comms).run c = .ok u c') :
    c'.self.snap.lastReading = reading ∧ c'.self.snap.comms = comms ∧
      c'.self.snap.panelMode = c.self.regmap.derivePanelMode reading.values := by
  obtain ⟨sm, c₀, hself, h⟩ := bind_ok.mp h
  obtain ⟨rfl, rfl⟩ := getSelf_ok.mp hself
  obtain ⟨c₁, -, h⟩ := seq_ok.mp h
  obtain ⟨c₂, -, h⟩ := seq_ok.mp h
  obtain ⟨c₃, -, h⟩ := seq_ok.mp h
  obtain ⟨c₄, -, h⟩ := seq_ok.mp h
  obtain ⟨c₅, h₅, h⟩ := seq_ok.mp h
  obtain ⟨c₆, h₆, h⟩ := seq_ok.mp h
  obtain ⟨c₇, h₇, h₈⟩ := seq_ok.mp h
  obtain rfl := modifySelf_ok.mp h₅
  obtain rfl := modifySelf_ok.mp h₈
  have hsource := (panelKept_updateLoadSource env reading).ok h₆
  have hcheck : c₇.self.snap = c₆.self.snap :=
    (checkRules_snapKept.relates_checkLoadsourceDisagreement reading env).ok h₇
  refine ⟨rfl, rfl, ?_⟩
  show c₇.self.snap.panelMode = _
  rw [hcheck]
  exact hsource

end Update

end StateMachine

end GenWatch

import GenWatch.Prelude.Transition
import GenWatch.Services.Frame
import GenWatch.Services.Retention

/-! # Counting engine starts

The controller has no start counter, so the starts are counted in the log: every change
of the engine state is a row of its own type whose text ends in the new state, and the
count is that of the rows with the right text. The same rows are pruned when they are
old, because a change of state is neither a warning nor an alarm.
-/

namespace GenWatch

open Handler ServiceM Transition

def EngineState.text : EngineState → String
  | .unknown => "unknown"
  | .stopped => "stopped"
  | .cranking => "cranking"
  | .running => "running"
  | .exercising => "exercising"
  | .cooling => "cooling"
  | .alarm => "alarm"
  | .other name => name

/-- `Engine state: {old} → {new}` -/
def transitionText (old new : EngineState) : String :=
  "Engine state: " ++ old.text ++ " → " ++ new.text

/-- The text of a change of state says that the engine is cranking, or seems to. -/
def readsCranking (old new : EngineState) : Bool :=
  Sql.likeInfix "→ cranking" (transitionText old new)

/-- `type = 'TRANSITION' AND message LIKE '%→ cranking%'`; rows of the type have no other text. -/
def EventRow.isStart (e : EventRow) : Bool :=
  match e.type, e.message with
  | .transition, .engineState old new => readsCranking old new
  | _, _ => false

def Database.countEngineStarts (db : Database) : ℕ := db.events.countP EventRow.isStart

/-- The rows that the retention service deletes from the log. -/
def EventRow.prunable (olderThan : ℚ) (e : EventRow) : Bool :=
  e.ts < olderThan ∧ (e.severity = .info ∨ e.severity = .ok)

theorem readsCranking_cranking (old : EngineState) : readsCranking old .cranking = true := by
  have harrow : " → " ++ "cranking" = " " ++ "→ cranking" := by decide
  have htext : transitionText old .cranking =
      "Engine state: " ++ old.text ++ " " ++ "→ cranking" ++ "" := by
    show "Engine state: " ++ old.text ++ " → " ++ "cranking" = _
    rw [String.append_assoc, harrow, ← String.append_assoc, String.append_empty]
  rw [readsCranking, htext]
  exact Sql.likeInfix_append _ _ _

namespace StateMachine

/-- What the parts of an update after the first keep: the engine state and the number of starts. -/
structure CountsAlike (c c' : Ctx StateMachine) : Prop where
  engineState : c'.self.snap.engineState = c.self.snap.engineState
  starts : c'.db.countEngineStarts = c.db.countEngineStarts

instance : Std.Refl CountsAlike := ⟨fun _ => ⟨rfl, rfl⟩⟩

instance : IsTrans (Ctx StateMachine) CountsAlike :=
  ⟨fun _ _ _ h h' => ⟨h'.engineState.trans h.engineState, h'.starts.trans h.starts⟩⟩

section Parts

theorem alike_modifySelf {f : StateMachine → StateMachine}
    (h : ∀ sm, (f sm).snap.engineState = sm.snap.engineState) :
    Relates CountsAlike (modifySelf f) :=
  Relates.modify fun c => ⟨h c.self, rfl⟩

theorem alike_emit (e : Event) : Relates CountsAlike (emit e) := Relates.modify fun _ => ⟨rfl, rfl⟩

theorem alike_raiseAlarm (code : String) (desc : Desc) (severity : Severity) (raw : ℤ) (now : ℚ) :
    Relates CountsAlike (raiseAlarm code desc severity raw now) :=
  relates_dbCall (fun _ _ => ⟨rfl, rfl⟩) fun _ _ => ⟨rfl, rfl⟩

theorem alike_clearAlarm (code : String) :
    Relates CountsAlike (clearAlarm code : ServiceM StateMachine Bool) :=
  relates_dbCall (fun _ _ => ⟨rfl, rfl⟩) fun _ _ => ⟨rfl, rfl⟩

theorem countEngineStarts_writeEvent (db : Database) (e : EventRow) :
    (db.writeEvent e).countEngineStarts = db.countEngineStarts + if e.isStart then 1 else 0 := by
  simp [Database.countEngineStarts, Database.writeEvent, List.countP_append, List.countP_cons]

theorem alike_writeEvent {type : EventType} (htype : type ≠ .transition) (severity : Severity)
    (message : Message) (info : Option String) (now : ℚ) :
    Relates CountsAlike (writeEvent severity type message info now) := by
  refine relates_dbCall (fun _ _ => ⟨rfl, rfl⟩) fun c _ => ⟨rfl, ?_⟩
  have hno : EventRow.isStart ⟨now, severity, type, message, info⟩ = false := by
    cases type with
    | transition => exact absurd rfl htype
    | _ => rfl
  rw [countEngineStarts_writeEvent, hno]
  rfl

theorem alike_announce (severity : Severity) (message : Message) (info : Option String) (now : ℚ)
    (e : Event) (changed : Bool) :
    Relates CountsAlike (if changed then
      writeEvent severity .alarm message info now >>= fun _ => emit e else pure ()) := by
  refine Relates.ite (fun _ => ?_) fun _ => Relates.pure _
  exact Relates.bind (alike_writeEvent (by decide) _ _ _ _) fun _ => alike_emit _

theorem alike_updateAlarms (m : RegisterMap) (reading : Reading) (now : ℚ) :
    Relates CountsAlike (updateAlarms m reading now) := by
  refine Relates.bind (alike_modifySelf fun _ => rfl) fun _ => ?_
  refine Relates.bind relates_getSelf fun sm => Relates.bind (Relates.forM fun ab _ => ?_)
    fun _ => Relates.bind relates_getSelf fun sm => Relates.bind (Relates.forM fun code _ => ?_)
    fun _ => alike_modifySelf fun _ => rfl
  · refine Relates.ite (fun _ => Relates.pure _) fun _ => ?_
    refine Relates.bind (alike_raiseAlarm _ _ _ _ _) fun raised => ?_
    exact Relates.bind (alike_modifySelf fun _ => rfl) fun _ => alike_announce _ _ _ _ _ _
  · refine Relates.ite (fun _ => Relates.pure _) fun _ => ?_
    refine Relates.bind (alike_clearAlarm _) fun cleared => ?_
    exact Relates.bind (alike_modifySelf fun _ => rfl) fun _ => alike_announce _ _ _ _ _ _

theorem alike_updateNumeric (m : RegisterMap) (reading : Reading) (now : ℚ) :
    Relates CountsAlike (updateNumeric m reading now) := by
  have hcheck : Relates CountsAlike (checkNumericRanges m reading now) := by
    refine Relates.bind relates_getSelf fun sm => ?_
    refine Relates.bind (alike_modifySelf fun _ => rfl) fun _ => ?_
    refine Relates.bind (Relates.forM fun hit _ => ?_) fun _ =>
      Relates.bind relates_getSelf fun sm => Relates.forM fun code _ => ?_
    · refine Relates.bind relates_getSelf fun sm =>
        Relates.ite (fun _ => Relates.pure _) fun _ => ?_
      refine Relates.bind (alike_modifySelf fun _ => rfl) fun _ => ?_
      exact Relates.bind (alike_raiseAlarm _ _ _ _ _) fun raised => alike_announce _ _ _ _ _ _
    · refine Relates.ite (fun _ => Relates.pure _) fun _ => ?_
      refine Relates.bind (alike_modifySelf fun _ => rfl) fun _ => ?_
      exact Relates.bind (alike_clearAlarm _) fun cleared => alike_announce _ _ _ _ _ _
  unfold updateNumeric
  split
  · exact Relates.bind hcheck fun _ => alike_modifySelf fun _ => rfl
  · exact alike_modifySelf fun _ => rfl

theorem alike_updateComms (env : PollEnv) (comms : CommsRef) :
    Relates CountsAlike (updateComms env comms) := by
  refine Relates.bind relates_getSelf fun sm => Relates.ite (fun _ => ?_) fun _ => Relates.pure _
  exact Relates.bind (alike_writeEvent (by decide) _ _ _ _) fun _ => alike_emit _

theorem alike_updateLoadSource (env : PollEnv) (reading : Reading) :
    Relates CountsAlike (updateLoadSource env reading) := by
  refine Relates.bind relates_getSelf fun sm => Relates.ite (fun _ => ?_) fun _ => Relates.pure _
  refine Relates.bind (alike_modifySelf fun _ => rfl) fun _ => ?_
  refine Relates.ite (fun _ => Relates.pure _) fun _ => Relates.bind (alike_emit _) fun _ => ?_
  split
  · exact alike_writeEvent (by decide) _ _ _ _
  · exact Relates.pure _

theorem alike_resetDisagree (reason : DisagreeReason) (now : ℚ) :
    Relates CountsAlike (resetDisagree reason now) := by
  refine Relates.bind relates_getSelf fun sm => ?_
  split
  · refine Relates.bind (Relates.bind (alike_clearAlarm _) fun cleared => ?_) fun _ =>
      alike_modifySelf fun _ => rfl
    exact Relates.bind (alike_modifySelf fun _ => rfl) fun _ => alike_announce _ _ _ _ _ _
  · exact alike_modifySelf fun _ => rfl

theorem alike_emitDisagreeRaise (desc : Desc) (now : ℚ) :
    Relates CountsAlike (emitDisagreeRaise desc now) := by
  refine Relates.bind (alike_raiseAlarm _ _ _ _ _) fun raised => ?_
  exact Relates.bind (alike_modifySelf fun _ => rfl) fun _ => alike_announce _ _ _ _ _ _

theorem alike_checkLoadsourceDisagreement (env : PollEnv) (reading : Reading) :
    Relates CountsAlike (checkLoadsourceDisagreement env reading) := by
  refine Relates.bind relates_getSelf fun sm => ?_
  split
  · exact alike_resetDisagree _ _
  refine Relates.ite (fun _ => alike_resetDisagree _ _) fun _ => ?_
  refine Relates.ite (fun _ => alike_resetDisagree _ _) fun _ => ?_
  refine Relates.ite (fun _ => Relates.pure _) fun _ => ?_
  split
  · split
    · refine Relates.bind (alike_modifySelf fun _ => rfl) fun _ => ?_
      exact Relates.bind relates_getSelf fun sm =>
        Relates.ite (fun _ => alike_emitDisagreeRaise _ _) fun _ => Relates.pure _
    · exact alike_resetDisagree _ _
  · exact Relates.pure _

theorem alike_rest (m : RegisterMap) (env : PollEnv) (reading : Reading) (comms : CommsRef) :
    Relates CountsAlike (do
      updateAlarms m reading env.now
      updateNumeric m reading env.now
      updateComms env comms
      updatePanelMode m reading
      updateLoadSource env reading
      checkLoadsourceDisagreement env reading
      finishUpdate reading comms) := by
  refine Relates.bind (alike_updateAlarms _ _ _) fun _ => ?_
  refine Relates.bind (alike_updateNumeric _ _ _) fun _ => ?_
  refine Relates.bind (alike_updateComms _ _) fun _ => ?_
  refine Relates.bind (alike_modifySelf fun _ => rfl) fun _ => ?_
  refine Relates.bind (alike_updateLoadSource _ _) fun _ => ?_
  refine Relates.bind (alike_checkLoadsourceDisagreement _ _) fun _ => ?_
  exact alike_modifySelf fun _ => rfl

end Parts

theorem updateEngineState_starts {m : RegisterMap} {reading : Reading} {now : ℚ}
    {c c' : Ctx StateMachine} {u : Unit} (h : (updateEngineState m reading now).run c = .ok u c') :
    c'.self.snap.engineState = nextEngineState m reading.values c.self.snap.engineState ∧
    c'.db.countEngineStarts = c.db.countEngineStarts +
      if c'.self.snap.engineState ≠ c.self.snap.engineState ∧
        readsCranking c.self.snap.engineState c'.self.snap.engineState = true then 1 else 0 := by
  obtain ⟨sm, c₀, hself, h⟩ := bind_ok.mp h
  obtain ⟨rfl, rfl⟩ := getSelf_ok.mp hself
  dsimp only at h
  split at h
  · rename_i hne
    obtain ⟨c₁, h₁, h⟩ := seq_ok.mp h
    obtain rfl := modifySelf_ok.mp h₁
    obtain ⟨c₂, h₂, h⟩ := seq_ok.mp h
    obtain rfl := emit_ok.mp h₂
    obtain ⟨-, -, rfl⟩ := dbCall_ok.mp h
    refine ⟨rfl, (countEngineStarts_writeEvent _ _).trans (congrArg _ (if_congr ?_ rfl rfl))⟩
    exact ⟨fun hreads => ⟨hne, hreads⟩, And.right⟩
  · rename_i heq
    obtain ⟨-, rfl⟩ := pure_ok.mp h
    exact ⟨(not_not.mp heq).symm, by simp⟩

/-- A completed update counts one more start exactly if the text of its change of state reads like
one. -/
theorem update_starts {env : PollEnv} {reading : Reading} {comms : CommsRef}
    {c c' : Ctx StateMachine} {u : Unit} (h : (update env reading comms).run c = .ok u c') :
    c'.self.snap.engineState =
      nextEngineState c.self.regmap reading.values c.self.snap.engineState ∧
    c'.db.countEngineStarts = c.db.countEngineStarts +
      if c'.self.snap.engineState ≠ c.self.snap.engineState ∧
        readsCranking c.self.snap.engineState c'.self.snap.engineState = true then 1 else 0 := by
  obtain ⟨sm, c₀, hself, h⟩ := bind_ok.mp h
  obtain ⟨rfl, rfl⟩ := getSelf_ok.mp hself
  obtain ⟨c₁, h₁, h⟩ := seq_ok.mp h
  have hrest := (alike_rest _ _ _ _).ok h
  rw [hrest.engineState, hrest.starts]
  exact updateEngineState_starts h₁

end StateMachine

/-! ### Runs of polls and retention ticks -/

namespace StartLog

/-- The state machine and the database, with the number of times the engine has been cranked. -/
structure State where
  sm : StateMachine
  db : Database
  cranked : ℕ

inductive Label where
  | update (env : PollEnv) (reading : Reading) (comms : CommsRef)
  | tick (now : ℚ)

/-- The service right after start, over a new database. -/
def start (m : RegisterMap) (now : ℚ) : State := ⟨.init m now, .empty, 0⟩

def step (cfg : RetentionConfig) (s : State) : Label → Option State
  | .update env reading comms =>
    match (StateMachine.update env reading comms).run ⟨s.sm, s.db, [], []⟩ with
    | .ok _ c => some ⟨c.self, c.db, s.cranked +
        if s.sm.snap.engineState ≠ .cranking ∧ c.self.snap.engineState = .cranking then 1 else 0⟩
    | .error _ _ => none
  | .tick now => some { s with db := RetentionService.tick cfg now s.db }

/-- The count of the log is the number of times the engine has been cranked. -/
def Agrees (s : State) : Prop := s.db.countEngineStarts = s.cranked

/-- The step does not enter a state that only reads like cranking, nor delete a start. -/
def KeepsCount (cfg : RetentionConfig) (s : State) : Label → Prop
  | .update _ reading _ =>
    let old := s.sm.snap.engineState
    let new := StateMachine.nextEngineState s.sm.regmap reading.values old
    new ≠ old → readsCranking old new = true → new = .cranking
  | .tick now => 0 < cfg.eventsDays → ∀ e ∈ s.db.events, e.isStart = true →
      e.prunable (RetentionService.daysBack now cfg.eventsDays) = false

instance (cfg : RetentionConfig) (s : State) : DecidablePred (KeepsCount cfg s)
  | .update _ _ _ => inferInstanceAs (Decidable (_ → _ → _))
  | .tick _ => inferInstanceAs (Decidable (_ → ∀ e ∈ s.db.events, _))

variable {cfg : RetentionConfig} {s s' : State} {l : Label} {now : ℚ}

theorem events_tick (db : Database) : (RetentionService.tick cfg now db).events =
    if 0 < cfg.eventsDays then
      db.events.filter fun e => !e.prunable (RetentionService.daysBack now cfg.eventsDays)
    else db.events := by
  unfold RetentionService.tick RetentionService.prune
  dsimp only
  by_cases hdays : 0 < cfg.eventsDays
  · rw [if_pos hdays, if_pos hdays, Database.pruneEvents]
    dsimp only
    rw [Sql.deleteChunks_eq_filter _ (by decide) _ _ (Nat.lt_succ_of_le List.countP_le_length)]
    split <;> rfl
  · rw [if_neg hdays, if_neg hdays]
    split <;> rfl

/-- A tick keeps the count exactly if it deletes no start. -/
theorem countEngineStarts_tick (db : Database) :
    (RetentionService.tick cfg now db).countEngineStarts ≤ db.countEngineStarts ∧
      ((RetentionService.tick cfg now db).countEngineStarts = db.countEngineStarts ↔
        (0 < cfg.eventsDays → ∀ e ∈ db.events, e.isStart = true →
          e.prunable (RetentionService.daysBack now cfg.eventsDays) = false)) := by
  unfold Database.countEngineStarts
  rw [events_tick]
  by_cases hdays : 0 < cfg.eventsDays
  · rw [if_pos hdays]
    have hsplit := List.countP_eq_countP_filter_add db.events EventRow.isStart
      fun e => !e.prunable (RetentionService.daysBack now cfg.eventsDays)
    have hlost : (db.events.filter fun e => !!e.prunable
        (RetentionService.daysBack now cfg.eventsDays)).countP EventRow.isStart = 0 ↔
        ∀ e ∈ db.events, e.isStart = true →
          e.prunable (RetentionService.daysBack now cfg.eventsDays) = false := by
      rw [List.countP_eq_zero]
      simp only [List.mem_filter, Bool.not_not, and_imp]
      refine forall₂_congr fun e _ => ?_
      cases e.isStart <;> simp
    constructor
    · omega
    · rw [← hlost]
      omega
  · simp [hdays]

theorem step_agrees (h : Agrees s) (hs : step cfg s l = some s') :
    Agrees s' ↔ KeepsCount cfg s l := by
  cases l with
  | update env reading comms =>
    simp only [step] at hs
    split at hs
    · rename_i u c hrun
      obtain rfl := Option.some.inj hs
      obtain ⟨hstate, hcount⟩ := StateMachine.update_starts hrun
      simp only [Agrees, KeepsCount] at h ⊢
      rw [hcount, ← hstate, h]
      dsimp only
      by_cases hcranking : c.self.snap.engineState = .cranking
      · rw [hcranking, readsCranking_cranking]
        by_cases hold : s.sm.snap.engineState = .cranking
        · simp [hold]
        · simp [hold, Ne.symm hold]
      · by_cases hne : c.self.snap.engineState = s.sm.snap.engineState
        · simp [hne]
        · simp [hcranking, hne]
    · cases hs
  | tick now =>
    obtain rfl := Option.some.inj hs
    simp only [Agrees, KeepsCount] at h ⊢
    rw [← h]
    exact (countEngineStarts_tick s.db).2

theorem cranked_le (hs : step cfg s l = some s') : s.cranked ≤ s'.cranked := by
  cases l with
  | update env reading comms =>
    simp only [step] at hs
    split at hs
    · obtain rfl := Option.some.inj hs
      exact Nat.le_add_right _ _
    · cases hs
  | tick now =>
    obtain rfl := Option.some.inj hs
    exact le_rfl

/-- Along a run of updates and ticks from a new database, the count is the number of times the
engine was cranked, and never falls, exactly if no step enters a state whose name only begins like
cranking or deletes a start that has grown old. -/
theorem engine_starts_counted_iff (m : RegisterMap) (cfg : RetentionConfig) (now : ℚ)
    (ls : List Label) :
    (∀ s l s', Takes (step cfg) (start m now) ls s l s' →
      s'.db.countEngineStarts = s'.cranked ∧
        s.db.countEngineStarts ≤ s'.db.countEngineStarts) ↔
    ∀ s l s', Takes (step cfg) (start m now) ls s l s' → KeepsCount cfg s l := by
  have hstart : Agrees (start m now) := rfl
  constructor
  · intro h s l s' ht
    have hs : Agrees s := by
      obtain ⟨pre, post, rfl, hr, -⟩ := ht
      rcases List.eq_nil_or_concat pre with rfl | ⟨pre, k, rfl⟩
      · obtain rfl := Option.some.inj hr
        exact hstart
      · rw [List.concat_eq_append] at hr h
        obtain ⟨t, ht, hk⟩ := run_snoc_iff.mp hr
        exact (h t k s ⟨pre, l :: post, by simp, ht, hk⟩).1
    exact (step_agrees hs ht.step_eq).mp (h s l s' ht).1
  · intro h s l s' ht
    have hs : Agrees s := ht.invariant h hstart
      fun s l s' hs hk hstep => (step_agrees hs hstep).mpr hk
    have hs' : Agrees s' := (step_agrees hs ht.step_eq).mpr (h s l s' ht)
    refine ⟨hs', ?_⟩
    rw [hs', hs]
    exact cranked_le ht.step_eq

section Example

def crankMap : RegisterMap :=
  { RegisterMap.bare with
    registers := [.plain "status"]
    engineStateBits := [⟨.cranking, "status", 1⟩] }

def cranks : Label :=
  .update ⟨1, none, fun _ => .initial 1500⟩
    ⟨fun name => if name = "status" then some 1 else none, 1, fun _ => none⟩ .poller

/-- The engine is cranked, and thirty-one days later the count is back at zero. -/
theorem start_forgotten :
    ¬∀ s l s', Takes (step .default) (start crankMap 0) [cranks, .tick (31 * 86400)] s l s' →
      s'.db.countEngineStarts = s'.cranked ∧
        s.db.countEngineStarts ≤ s'.db.countEngineStarts := by
  obtain ⟨s, s', ht, htest⟩ := takes_of_lastStep (step .default) (start crankMap 0) [cranks]
    (.tick (31 * 86400)) (fun _ _ s' => s'.db.countEngineStarts = 0 ∧ s'.cranked = 1)
    (by decide +kernel)
  obtain ⟨hcount, hcranked⟩ := of_decide_eq_true htest
  intro h
  have heq := (h s _ s' ht).1
  rw [hcount, hcranked] at heq
  cases heq

end Example

end StartLog

end GenWatch

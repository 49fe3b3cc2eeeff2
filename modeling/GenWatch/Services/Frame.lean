import GenWatch.Services.State

/-! # What the parts of an update leave alone

The alarm pipeline and the comms check are specified on their own. Every other
part of an update keeps the map, the counters and the raised codes, touches only
the rows of the derived alarm codes, and announces nothing about comms or about
any other alarm. An update that meets no database error completes.
-/

namespace GenWatch

open Handler ServiceM

def Event.commsChange : Event → Option (Link × CommsState × CommsState)
  | .comms old new _ _ => some (.h100, old, new)
  | .atsComms old new _ _ => some (.ats, old, new)
  | _ => none

/-- The comms changes to announce between two observations of a link. -/
def commsDiff (link : Link) (old new : CommsState) : List (Link × CommsState × CommsState) :=
  if new ≠ old then [(link, old, new)] else []

/-- The events of an update other than a new load source. -/
def Event.routine : Event → Bool
  | .transition _ _ _ => true
  | .alarm _ _ _ _ => true
  | .alarmCleared _ _ _ => true
  | .disagreeCleared _ _ _ => true
  | .comms _ _ _ _ => true
  | _ => false

def Event.alarmCode (e : Event) : Option String := e.raises.or e.clears

theorem Event.alarmCode_of_raises {e : Event} {code : String} (h : e.raises = some code) :
    e.alarmCode = some code := by
  simp [Event.alarmCode, h]

theorem Event.alarmCode_of_clears {e : Event} {code : String} (h : e.clears = some code) :
    e.alarmCode = some code := by
  cases e with
  | alarmCleared other desc ts => exact h
  | disagreeCleared other reason ts => exact h
  | _ => cases h

/-- Codes of the alarms that are derived from values and not from alarm bits. -/
def IsDerived (code : String) : Prop :=
  code = loadsourceDisagreeAlarmCode ∨ numericAlarmCodePrefix.toList <+: code.toList

instance (code : String) : Decidable (IsDerived code) := inferInstanceAs (Decidable (_ ∨ _))

theorem isDerived_disagree : IsDerived loadsourceDisagreeAlarmCode := Or.inl rfl

def IsRange (code : String) : Prop := numericAlarmCodePrefix.toList <+: code.toList

instance (code : String) : Decidable (IsRange code) := inferInstanceAs (Decidable (_ <+: _))

theorem isRange_numericCode (reg : RegisterDef) : IsRange (StateMachine.numericCode reg) := by
  rw [IsRange, StateMachine.numericCode, String.toList_append]
  exact List.prefix_append _ _

theorem not_isRange_disagree : ¬IsRange loadsourceDisagreeAlarmCode := by decide

namespace StateMachine

def NumericDerived (sm : StateMachine) : Prop := ∀ code ∈ sm.numericRaised.keys, IsDerived code

theorem numericDerived_init (m : RegisterMap) (now : ℚ) : NumericDerived (.init m now) := by
  simp [NumericDerived, init]

/-- What the parts around the alarm pipeline and the comms check keep. -/
structure Keeps (c c' : Ctx StateMachine) : Prop where
  regmap : c'.self.regmap = c.self.regmap
  engineState : c'.self.snap.engineState = c.self.snap.engineState
  comms : c'.self.snap.comms = c.self.snap.comms
  counts : c'.self.alarmPollCounts = c.self.alarmPollCounts
  raised : c'.self.raisedThisSession = c.self.raisedThisSession
  numeric : c'.self.NumericDerived
  rows : ∀ code, ¬IsDerived code → (c'.db.Active code ↔ c.db.Active code)
  shown : ∀ code, ¬IsDerived code →
    (code ∈ c'.self.snap.activeAlarms ↔ code ∈ c.self.snap.activeAlarms)
  emits : ∃ new, c'.emitted = c.emitted ++ new ∧
    ∀ e ∈ new, e.commsChange = none ∧ ∀ code ∈ e.alarmCode, IsDerived code

/-- What the parts keep once the numeric alarms have derived codes. -/
def Beside (c c' : Ctx StateMachine) : Prop := c.self.NumericDerived → Keeps c c'

instance : Std.Refl Beside :=
  ⟨fun _ h => ⟨rfl, rfl, rfl, rfl, rfl, h, fun _ _ => Iff.rfl, fun _ _ => Iff.rfl, [], by simp⟩⟩

theorem Keeps.trans {c₁ c₂ c₃ : Ctx StateMachine} (h : Keeps c₁ c₂) (h' : Keeps c₂ c₃) :
    Keeps c₁ c₃ where
  regmap := h'.regmap.trans h.regmap
  engineState := h'.engineState.trans h.engineState
  comms := h'.comms.trans h.comms
  counts := h'.counts.trans h.counts
  raised := h'.raised.trans h.raised
  numeric := h'.numeric
  rows code hc := (h'.rows code hc).trans (h.rows code hc)
  shown code hc := (h'.shown code hc).trans (h.shown code hc)
  emits := by
    obtain ⟨new, he, hn⟩ := h.emits
    obtain ⟨new', he', hn'⟩ := h'.emits
    refine ⟨new ++ new', by rw [he', he, List.append_assoc], fun e hm => ?_⟩
    exact (List.mem_append.mp hm).elim (hn e) (hn' e)

instance : IsTrans (Ctx StateMachine) Beside :=
  ⟨fun _ _ _ h h' hd => (h hd).trans (h' (h hd).numeric)⟩

theorem beside_modifySelf {f : StateMachine → StateMachine}
    (h : ∀ sm : StateMachine, sm.NumericDerived →
      (f sm).regmap = sm.regmap ∧ (f sm).snap.engineState = sm.snap.engineState ∧
      (f sm).snap.comms = sm.snap.comms ∧ (f sm).alarmPollCounts = sm.alarmPollCounts ∧
      (f sm).raisedThisSession = sm.raisedThisSession ∧ (f sm).NumericDerived ∧
      ∀ code, ¬IsDerived code → (code ∈ (f sm).snap.activeAlarms ↔ code ∈ sm.snap.activeAlarms)) :
    Relates Beside (modifySelf f) := by
  refine Relates.modify fun c hd => ?_
  obtain ⟨hm, he, hc, hk, hr, hn, hs⟩ := h c.self hd
  exact ⟨hm, he, hc, hk, hr, hn, fun _ _ => Iff.rfl, hs, [], by simp⟩

theorem beside_emit {e : Event} (hc : e.commsChange = none)
    (ha : ∀ code ∈ e.alarmCode, IsDerived code) : Relates Beside (emit e) := by
  refine Relates.modify fun c hd => ?_
  exact ⟨rfl, rfl, rfl, rfl, rfl, hd, fun _ _ => Iff.rfl, fun _ _ => Iff.rfl, [e], rfl,
    by simpa using ⟨hc, ha⟩⟩

theorem beside_dbCall {α : Type} {op : Database → α × Database}
    (h : ∀ db code, ¬IsDerived code → ((op db).2.Active code ↔ db.Active code)) :
    Relates Beside (dbCall op : ServiceM StateMachine α) :=
  relates_dbCall
    (fun _ _ hd =>
      ⟨rfl, rfl, rfl, rfl, rfl, hd, fun _ _ => Iff.rfl, fun _ _ => Iff.rfl, [], by simp⟩)
    fun c _ hd =>
      ⟨rfl, rfl, rfl, rfl, rfl, hd, fun code hc => h c.db code hc, fun _ _ => Iff.rfl, [], by simp⟩

theorem beside_writeEvent (severity : Severity) (type : EventType) (message : Message)
    (info : Option String) (now : ℚ) :
    Relates Beside (writeEvent severity type message info now) :=
  beside_dbCall fun _ _ _ => Iff.rfl

theorem beside_raiseAlarm {code : String} (hd : IsDerived code) (desc : Desc)
    (severity : Severity) (raw : ℤ) (now : ℚ) :
    Relates Beside (raiseAlarm code desc severity raw now) := by
  refine beside_dbCall fun db other ho => ?_
  simp only [Database.raiseAlarm, Database.Active, Table.mem_keys_insertIgnore]
  exact ⟨fun h => h.resolve_right fun he => ho (he ▸ hd), Or.inl⟩

theorem beside_clearAlarm {code : String} (hd : IsDerived code) :
    Relates Beside (clearAlarm code : ServiceM StateMachine Bool) := by
  refine beside_dbCall fun db other ho => ?_
  simp only [Database.clearAlarm, Database.Active, Table.mem_keys_delete]
  exact ⟨And.left, fun h => ⟨h, fun he => ho (he ▸ hd)⟩⟩

section Numeric

theorem numericActive_hit {m : RegisterMap} {values : Values} {state : EngineState} :
    ∀ hit ∈ (numericActive m values state).rows, hit.reg ∈ m.registers ∧
      numericCode hit.reg = hit.code ∧
      severityFor values hit.reg = some (hit.severity, hit.lo, hit.hi) := by
  unfold numericActive
  split
  · refine List.foldlRecOn (motive := fun t : Table NumericHit.code => ∀ hit ∈ t.rows,
      hit.reg ∈ m.registers ∧ numericCode hit.reg = hit.code ∧
        severityFor values hit.reg = some (hit.severity, hit.lo, hit.hi))
      m.registers _ (by simp) fun t ht reg hreg => ?_
    split
    · rename_i severity lo hi hsev
      intro hit hm
      rcases Table.mem_insertReplace.mp hm with rfl | ⟨hm, -⟩
      · exact ⟨hreg, rfl, hsev⟩
      · exact ht hit hm
    · exact ht
  · simp

theorem exists_of_mem_numericActive {m : RegisterMap} {values : Values} {state : EngineState} :
    ∀ hit ∈ (numericActive m values state).rows,
      ∃ reg ∈ m.registers, numericCode reg = hit.code ∧ (severityFor values reg).isSome := by
  intro hit hm
  obtain ⟨hreg, hcode, hsev⟩ := numericActive_hit hit hm
  exact ⟨hit.reg, hreg, hcode, by rw [hsev, Option.isSome_some]⟩

theorem mem_keys_numericActive {m : RegisterMap} {values : Values} {state : EngineState}
    (hstate : state ∈ numericAlarmStates) {reg : RegisterDef} (hreg : reg ∈ m.registers)
    (hsev : (severityFor values reg).isSome) :
    numericCode reg ∈ (numericActive m values state).keys := by
  rw [numericActive, if_pos hstate]
  have h : numericCode reg ∈ (∅ : Table NumericHit.code).keys ∨ reg ∈ m.registers := Or.inr hreg
  clear hreg
  -- the code stays in the table once it is there, and the register puts it there
  generalize (∅ : Table NumericHit.code) = t at h ⊢
  generalize m.registers = regs at h ⊢
  induction regs generalizing t with
  | nil => exact h.resolve_right (by simp)
  | cons r regs ih =>
    apply ih
    by_cases hr : reg = r
    · subst hr
      left
      obtain ⟨⟨severity, lo, hi⟩, he⟩ := Option.isSome_iff_exists.mp hsev
      simp [he]
    · refine (h.imp_right fun hmem => (List.mem_cons.mp hmem).resolve_left hr).imp_left ?_
      intro hmem
      dsimp only
      split
      · exact Table.mem_keys_insertReplace.mpr (Or.inl hmem)
      · exact hmem

theorem numericActive_isRange (m : RegisterMap) (values : Values) (state : EngineState) :
    ∀ hit ∈ (numericActive m values state).rows, IsRange hit.code := by
  intro hit hm
  obtain ⟨reg, -, he, -⟩ := exists_of_mem_numericActive hit hm
  exact he ▸ isRange_numericCode reg

theorem beside_raiseNumeric {values : Values} {now : ℚ} {hit : NumericHit}
    (hd : IsDerived hit.code) : Relates Beside (raiseNumeric values now hit) := by
  refine Relates.bind relates_getSelf fun sm => Relates.ite (fun _ => Relates.pure _) fun _ => ?_
  refine Relates.bind (beside_modifySelf fun sm hn => ?_) fun _ => ?_
  · refine ⟨rfl, rfl, rfl, rfl, rfl, fun code hc => ?_, fun _ _ => Iff.rfl⟩
    rw [Table.mem_keys_insertReplace] at hc
    exact hc.elim (hn code) fun he => he ▸ hd
  refine Relates.bind (beside_raiseAlarm hd _ _ _ _) fun raised => ?_
  refine Relates.ite (fun _ => ?_) fun _ => Relates.pure _
  exact Relates.bind (beside_writeEvent _ _ _ _ _) fun _ =>
    beside_emit rfl (by simpa [Event.alarmCode, Event.raises] using hd)

theorem beside_clearNumeric {active : List String} {now : ℚ} {code : String}
    (hd : IsDerived code) : Relates Beside (clearNumeric active now code) := by
  refine Relates.ite (fun _ => Relates.pure _) fun _ => ?_
  refine Relates.bind (beside_modifySelf fun sm hn => ?_) fun _ => ?_
  · refine ⟨rfl, rfl, rfl, rfl, rfl, fun other ho => ?_, fun _ _ => Iff.rfl⟩
    exact hn other (Table.mem_keys_delete.mp ho).1
  refine Relates.bind (beside_clearAlarm hd) fun cleared => ?_
  refine Relates.ite (fun _ => ?_) fun _ => Relates.pure _
  exact Relates.bind (beside_writeEvent _ _ _ _ _) fun _ =>
    beside_emit rfl (by simpa [Event.alarmCode, Event.raises, Event.clears] using hd)

theorem beside_checkNumericRanges (m : RegisterMap) (reading : Reading) (now : ℚ) :
    Relates Beside (checkNumericRanges m reading now) := by
  refine Relates.bind relates_getSelf fun sm => ?_
  refine Relates.bind (beside_modifySelf fun sm hn => ?_) fun _ => ?_
  · exact ⟨rfl, rfl, rfl, rfl, rfl, hn, fun _ _ => Iff.rfl⟩
  refine Relates.bind (Relates.forM fun hit hm => ?_) fun _ => ?_
  · exact beside_raiseNumeric
      (Or.inr (numericActive_isRange m reading.values sm.snap.engineState hit hm))
  -- the codes to clear are read back from the state, so their shape comes from its invariant
  exact relates_getSelf_bind fun c hd =>
    Relates.forM (fun code hc => beside_clearNumeric (hd code hc)) c hd

theorem beside_updateNumeric (m : RegisterMap) (reading : Reading) (now : ℚ) :
    Relates Beside (updateNumeric m reading now) := by
  have hlayer : Relates Beside (modifySelf fun sm => { sm with snap := { sm.snap with
      activeAlarms := sm.snap.activeAlarms ∪ sm.numericRaised.keys.toFinset } }) := by
    refine beside_modifySelf fun sm hn => ⟨rfl, rfl, rfl, rfl, rfl, hn, fun code hc => ?_⟩
    simp only [Finset.mem_union, List.mem_toFinset]
    exact ⟨fun h => h.resolve_right fun hk => hc (hn code hk), Or.inl⟩
  unfold updateNumeric
  split
  · exact Relates.bind (beside_checkNumericRanges m reading now) fun _ => hlayer
  · exact hlayer

end Numeric

section Companion

theorem relates_updateLoadSource {R : Ctx StateMachine → Ctx StateMachine → Prop} [Std.Refl R]
    [IsTrans (Ctx StateMachine) R]
    (hset : ∀ source t, Relates R (modifySelf fun sm =>
      { sm with snap := { sm.snap with loadSource := source, loadSourceStartedAt := t } }))
    (hemit : ∀ old new now, Relates R (emit (.loadSource old new now)))
    (hwrite : ∀ severity type message info now,
      Relates R (writeEvent severity type message info now))
    (env : PollEnv) (reading : Reading) : Relates R (updateLoadSource env reading) := by
  refine Relates.bind relates_getSelf fun sm => Relates.ite (fun _ => ?_) fun _ => Relates.pure _
  refine Relates.bind (hset _ _) fun _ => ?_
  refine Relates.ite (fun _ => Relates.pure _) fun _ => Relates.bind (hemit _ _ _) fun _ => ?_
  split
  · exact hwrite _ _ _ _ _
  · exact Relates.pure _

theorem beside_updatePanelMode (m : RegisterMap) (reading : Reading) :
    Relates Beside (updatePanelMode m reading) :=
  beside_modifySelf fun _ hn => ⟨rfl, rfl, rfl, rfl, rfl, hn, fun _ _ => Iff.rfl⟩

theorem beside_updateLoadSource (env : PollEnv) (reading : Reading) :
    Relates Beside (updateLoadSource env reading) := by
  refine relates_updateLoadSource (fun _ _ => beside_modifySelf fun sm hn => ?_)
    (fun _ _ _ => beside_emit rfl ?_) beside_writeEvent env reading
  · exact ⟨rfl, rfl, rfl, rfl, rfl, hn, fun _ _ => Iff.rfl⟩
  · simp [Event.alarmCode, Event.raises, Event.clears]

theorem beside_emitDisagreeRaise (desc : Desc) (now : ℚ) :
    Relates Beside (emitDisagreeRaise desc now) := by
  refine Relates.bind (beside_raiseAlarm isDerived_disagree _ _ _ _) fun raised => ?_
  refine Relates.bind (beside_modifySelf fun sm hn => ?_) fun _ => ?_
  · exact ⟨rfl, rfl, rfl, rfl, rfl, hn, fun _ _ => Iff.rfl⟩
  refine Relates.ite (fun _ => ?_) fun _ => Relates.pure _
  exact Relates.bind (beside_writeEvent _ _ _ _ _) fun _ =>
    beside_emit rfl (by simpa [Event.alarmCode, Event.raises] using isDerived_disagree)

theorem beside_emitDisagreeClear (reason : DisagreeReason) (now : ℚ) :
    Relates Beside (emitDisagreeClear reason now) := by
  refine Relates.bind (beside_clearAlarm isDerived_disagree) fun cleared => ?_
  refine Relates.bind (beside_modifySelf fun sm hn => ?_) fun _ => ?_
  · exact ⟨rfl, rfl, rfl, rfl, rfl, hn, fun _ _ => Iff.rfl⟩
  refine Relates.ite (fun _ => ?_) fun _ => Relates.pure _
  exact Relates.bind (beside_writeEvent _ _ _ _ _) fun _ => beside_emit rfl
    (by simpa [Event.alarmCode, Event.raises, Event.clears] using isDerived_disagree)

theorem beside_resetDisagree (reason : DisagreeReason) (now : ℚ) :
    Relates Beside (resetDisagree reason now) := by
  have hcount : Relates Beside (modifySelf fun sm => { sm with loadsourceDisagreeCount := 0 }) :=
    beside_modifySelf fun _ hn => ⟨rfl, rfl, rfl, rfl, rfl, hn, fun _ _ => Iff.rfl⟩
  refine Relates.bind relates_getSelf fun sm => ?_
  split
  · exact Relates.bind (beside_emitDisagreeClear reason now) fun _ => hcount
  · exact hcount

theorem beside_checkLoadsourceDisagreement (env : PollEnv) (reading : Reading) :
    Relates Beside (checkLoadsourceDisagreement env reading) := by
  refine Relates.bind relates_getSelf fun sm => ?_
  split
  · exact beside_resetDisagree _ _
  refine Relates.ite (fun _ => beside_resetDisagree _ _) fun _ => ?_
  refine Relates.ite (fun _ => beside_resetDisagree _ _) fun _ => ?_
  refine Relates.ite (fun _ => Relates.pure _) fun _ => ?_
  split
  · split
    · refine Relates.bind (beside_modifySelf fun sm hn => ?_) fun _ => ?_
      · exact ⟨rfl, rfl, rfl, rfl, rfl, hn, fun _ _ => Iff.rfl⟩
      exact Relates.bind relates_getSelf fun sm =>
        Relates.ite (fun _ => beside_emitDisagreeRaise _ _) fun _ => Relates.pure _
    · exact beside_resetDisagree _ _
  · exact Relates.pure _

end Companion

section AlarmParts

/-- A change of the alarm bookkeeping and of the displayed alarms alone, counters of alarm bits
apart. -/
def AlarmOnly (f : StateMachine → StateMachine) : Prop :=
  ∀ sm, ∃ raised shown numericCounts numericRaised, f sm = { sm with
    raisedThisSession := raised, snap := { sm.snap with activeAlarms := shown },
    numericPollCounts := numericCounts, numericRaised := numericRaised }

/-- A relation that everything the two alarm pipelines do but count keeps. -/
structure AlarmRules (R : Ctx StateMachine → Ctx StateMachine → Prop) : Prop where
  calls : ∀ {α : Type} (op : Database → α × Database), Relates R (dbCall op : ServiceM _ α)
  emits : ∀ e : Event, e.alarmCode.isSome → Relates R (emit e)
  books : ∀ f, AlarmOnly f → Relates R (modifySelf f)

variable {R : Ctx StateMachine → Ctx StateMachine → Prop} [Std.Refl R]
  [IsTrans (Ctx StateMachine) R] (h : AlarmRules R) (m : RegisterMap) (reading : Reading) (now : ℚ)

include h

theorem AlarmRules.announce {e : Event} (he : e.alarmCode.isSome) (severity : Severity)
    (type : EventType) (message : Message) (info : Option String) (changed : Bool) :
    Relates R (if changed then writeEvent severity type message info now >>= fun _ => emit e
      else pure ()) :=
  Relates.ite (fun _ => Relates.bind (h.calls _) fun _ => h.emits e he) fun _ => Relates.pure _

theorem AlarmRules.after_count (c : Ctx StateMachine) :
    R { c with self := { c.self with
        alarmPollCounts := countPolls c.self.alarmPollCounts
          ((m.deriveActiveAlarms reading.values).map AlarmBit.code) } }
      (finalState ((updateAlarms m reading now).run c)) := by
  rw [updateAlarms, bind_run (a := ()) (modifySelf_ok.mpr rfl)]
  refine (Relates.bind relates_getSelf fun sm => Relates.bind (Relates.forM fun ab _ => ?_)
    fun _ => Relates.bind relates_getSelf fun sm => Relates.bind (Relates.forM fun code _ => ?_)
    fun _ => ?_ : Relates R _) _
  · refine Relates.ite (fun _ => Relates.pure _) fun _ => Relates.bind (h.calls _) fun raised => ?_
    exact Relates.bind (h.books _ fun _ => ⟨_, _, _, _, rfl⟩) fun _ =>
      h.announce _ rfl _ _ _ _ _
  · refine Relates.ite (fun _ => Relates.pure _) fun _ => Relates.bind (h.calls _) fun cleared => ?_
    exact Relates.bind (h.books _ fun _ => ⟨_, _, _, _, rfl⟩) fun _ =>
      h.announce _ rfl _ _ _ _ _
  · exact h.books _ fun _ => ⟨_, _, _, _, rfl⟩

/-- If counting keeps the relation too, so does the whole pipeline. -/
theorem AlarmRules.relates_updateAlarms
    (hcount : ∀ c counts, R c { c with self := { c.self with alarmPollCounts := counts } }) :
    Relates R (updateAlarms m reading now) :=
  fun c => IsTrans.trans _ _ _ (hcount c _) (h.after_count m reading now c)

theorem AlarmRules.relates_checkNumericRanges : Relates R (checkNumericRanges m reading now) := by
  refine Relates.bind relates_getSelf fun sm => ?_
  refine Relates.bind (h.books _ fun _ => ⟨_, _, _, _, rfl⟩) fun _ => ?_
  refine Relates.bind (Relates.forM fun hit _ => ?_) fun _ => ?_
  · refine Relates.bind relates_getSelf fun sm => Relates.ite (fun _ => Relates.pure _) fun _ => ?_
    refine Relates.bind (h.books _ fun _ => ⟨_, _, _, _, rfl⟩) fun _ => ?_
    exact Relates.bind (h.calls _) fun raised => h.announce _ rfl _ _ _ _ _
  refine Relates.bind relates_getSelf fun sm => Relates.forM fun code _ => ?_
  refine Relates.ite (fun _ => Relates.pure _) fun _ => ?_
  refine Relates.bind (h.books _ fun _ => ⟨_, _, _, _, rfl⟩) fun _ => ?_
  exact Relates.bind (h.calls _) fun cleared => h.announce _ rfl _ _ _ _ _

theorem AlarmRules.relates_updateNumeric : Relates R (updateNumeric m reading now) := by
  have hlayer : Relates R (modifySelf fun sm => { sm with snap := { sm.snap with
      activeAlarms := sm.snap.activeAlarms ∪ sm.numericRaised.keys.toFinset } }) :=
    h.books _ fun _ => ⟨_, _, _, _, rfl⟩
  unfold updateNumeric
  split
  · exact Relates.bind (h.relates_checkNumericRanges _ _ _) fun _ => hlayer
  · exact hlayer

end AlarmParts

section RoutineParts

/-- A change that keeps the map, the counters of the alarm bits, the load source with its start and
the last reading. -/
def RoutineOnly (f : StateMachine → StateMachine) : Prop :=
  ∀ sm, (f sm).regmap = sm.regmap ∧ (f sm).alarmPollCounts = sm.alarmPollCounts ∧
    (f sm).snap.loadSource = sm.snap.loadSource ∧ (f sm).snap.lastReading = sm.snap.lastReading ∧
    (f sm).snap.loadSourceStartedAt = sm.snap.loadSourceStartedAt

/-- A relation that everything an update does keeps, except that it counts alarm bits, derives the
load source and stores its reading. -/
structure RoutineRules (R : Ctx StateMachine → Ctx StateMachine → Prop) : Prop where
  calls : ∀ {α : Type} (op : Database → α × Database), Relates R (dbCall op : ServiceM _ α)
  emits : ∀ e : Event, e.routine = true → Relates R (emit e)
  moves : ∀ f, RoutineOnly f → Relates R (modifySelf f)

variable {R : Ctx StateMachine → Ctx StateMachine → Prop} (h : RoutineRules R)

include h

theorem RoutineRules.alarmRules : AlarmRules R where
  calls := h.calls
  emits e he := h.emits e (by cases e <;> first | rfl | cases he)
  books f hf := h.moves f fun sm => by
    obtain ⟨_, _, _, _, he⟩ := hf sm
    rw [he]
    exact ⟨rfl, rfl, rfl, rfl, rfl⟩

variable [Std.Refl R] [IsTrans (Ctx StateMachine) R] (m : RegisterMap) (reading : Reading)
  (env : PollEnv) (comms : CommsRef) (now : ℚ)

theorem RoutineRules.relates_updateEngineState :
    Relates R (updateEngineState m reading now) := by
  refine Relates.bind relates_getSelf fun sm => Relates.ite (fun _ => ?_) fun _ => Relates.pure _
  refine Relates.bind (h.moves _ fun _ => ⟨rfl, rfl, rfl, rfl, rfl⟩) fun _ => ?_
  exact Relates.bind (h.emits _ rfl) fun _ => h.calls _

theorem RoutineRules.relates_updateComms : Relates R (updateComms env comms) :=
  Relates.bind relates_getSelf fun _ => Relates.ite
    (fun _ => Relates.bind (h.calls _) fun _ => h.emits _ rfl) fun _ => Relates.pure _

omit [Std.Refl R] [IsTrans (Ctx StateMachine) R] in
theorem RoutineRules.relates_updatePanelMode : Relates R (updatePanelMode m reading) :=
  h.moves _ fun _ => ⟨rfl, rfl, rfl, rfl, rfl⟩

theorem RoutineRules.relates_resetDisagree (reason : DisagreeReason) :
    Relates R (resetDisagree reason now) := by
  refine Relates.bind relates_getSelf fun sm => ?_
  split
  · refine Relates.bind ?_ fun _ => h.moves _ fun _ => ⟨rfl, rfl, rfl, rfl, rfl⟩
    refine Relates.bind (h.calls _) fun cleared => ?_
    exact Relates.bind (h.moves _ fun _ => ⟨rfl, rfl, rfl, rfl, rfl⟩) fun _ =>
      h.alarmRules.announce _ rfl _ _ _ _ _
  · exact h.moves _ fun _ => ⟨rfl, rfl, rfl, rfl, rfl⟩

theorem RoutineRules.relates_checkLoadsourceDisagreement :
    Relates R (checkLoadsourceDisagreement env reading) := by
  refine Relates.bind relates_getSelf fun sm => ?_
  split
  · exact h.relates_resetDisagree _ _
  refine Relates.ite (fun _ => h.relates_resetDisagree _ _) fun _ => ?_
  refine Relates.ite (fun _ => h.relates_resetDisagree _ _) fun _ => ?_
  refine Relates.ite (fun _ => Relates.pure _) fun _ => ?_
  split
  · split
    · refine Relates.bind (h.moves _ fun _ => ⟨rfl, rfl, rfl, rfl, rfl⟩) fun _ => ?_
      refine Relates.bind relates_getSelf fun sm => Relates.ite (fun _ => ?_) fun _ =>
        Relates.pure _
      refine Relates.bind (h.calls _) fun raised => ?_
      exact Relates.bind (h.moves _ fun _ => ⟨rfl, rfl, rfl, rfl, rfl⟩) fun _ =>
        h.alarmRules.announce _ rfl _ _ _ _ _
    · exact h.relates_resetDisagree _ _
  · exact Relates.pure _

end RoutineParts

section OuterParts

/-- A change that keeps the map, the bookkeeping of both alarm pipelines and, but for the
disagreement, the displayed alarms. -/
def OuterOnly (f : StateMachine → StateMachine) : Prop :=
  ∀ sm, (f sm).regmap = sm.regmap ∧ (f sm).raisedThisSession = sm.raisedThisSession ∧
    (f sm).numericPollCounts = sm.numericPollCounts ∧ (f sm).numericRaised = sm.numericRaised ∧
    ∀ code, code ≠ loadsourceDisagreeAlarmCode →
      (code ∈ (f sm).snap.activeAlarms ↔ code ∈ sm.snap.activeAlarms)

/-- A relation that everything outside the two alarm pipelines keeps. -/
structure OuterRules (R : Ctx StateMachine → Ctx StateMachine → Prop) : Prop where
  writes : ∀ severity type message info now, Relates R (writeEvent severity type message info now)
  raises : ∀ desc severity raw now,
    Relates R (raiseAlarm loadsourceDisagreeAlarmCode desc severity raw now)
  clears : Relates R (clearAlarm loadsourceDisagreeAlarmCode)
  emits : ∀ e : Event, (∀ code ∈ e.alarmCode, code = loadsourceDisagreeAlarmCode) →
    Relates R (emit e)
  moves : ∀ f, OuterOnly f → Relates R (modifySelf f)

variable {R : Ctx StateMachine → Ctx StateMachine → Prop} [Std.Refl R]
  [IsTrans (Ctx StateMachine) R] (h : OuterRules R) (m : RegisterMap) (reading : Reading)
  (env : PollEnv) (comms : CommsRef) (now : ℚ)

include h

theorem OuterRules.relates_updateEngineState : Relates R (updateEngineState m reading now) := by
  refine Relates.bind relates_getSelf fun sm => Relates.ite (fun _ => ?_) fun _ => Relates.pure _
  refine Relates.bind (h.moves _ fun _ => ⟨rfl, rfl, rfl, rfl, fun _ _ => Iff.rfl⟩) fun _ => ?_
  exact Relates.bind (h.emits _ fun _ hc => by cases hc) fun _ => h.writes _ _ _ _ _

theorem OuterRules.relates_updateComms : Relates R (updateComms env comms) := by
  refine Relates.bind relates_getSelf fun sm => Relates.ite (fun _ => ?_) fun _ => Relates.pure _
  exact Relates.bind (h.writes _ _ _ _ _) fun _ => h.emits _ fun _ hc => by cases hc

theorem OuterRules.relates_resetDisagree (reason : DisagreeReason) :
    Relates R (resetDisagree reason now) := by
  have hmove : ∀ f : StateMachine → StateMachine, (∀ sm, (f sm).regmap = sm.regmap ∧
      (f sm).raisedThisSession = sm.raisedThisSession ∧
      (f sm).numericPollCounts = sm.numericPollCounts ∧
      (f sm).numericRaised = sm.numericRaised ∧ (f sm).snap = sm.snap) →
      Relates R (modifySelf f) := fun f hf => h.moves f fun sm =>
    ⟨(hf sm).1, (hf sm).2.1, (hf sm).2.2.1, (hf sm).2.2.2.1, fun k _ => by rw [(hf sm).2.2.2.2]⟩
  refine Relates.bind relates_getSelf fun sm => ?_
  split
  · refine Relates.bind ?_ fun _ => hmove _ fun _ => ⟨rfl, rfl, rfl, rfl, rfl⟩
    refine Relates.bind h.clears fun cleared => ?_
    refine Relates.bind (hmove _ fun _ => ⟨rfl, rfl, rfl, rfl, rfl⟩) fun _ =>
      Relates.ite (fun _ => ?_) fun _ => Relates.pure _
    exact Relates.bind (h.writes _ _ _ _ _) fun _ =>
      h.emits _ fun _ hc => (Option.mem_some.mp hc).symm
  · exact hmove _ fun _ => ⟨rfl, rfl, rfl, rfl, rfl⟩

theorem OuterRules.relates_emitDisagreeRaise (desc : Desc) :
    Relates R (emitDisagreeRaise desc now) := by
  refine Relates.bind (h.raises _ _ _ _) fun raised => ?_
  refine Relates.bind (h.moves _ fun _ => ⟨rfl, rfl, rfl, rfl, fun _ _ => Iff.rfl⟩) fun _ =>
    Relates.ite (fun _ => ?_) fun _ => Relates.pure _
  exact Relates.bind (h.writes _ _ _ _ _) fun _ =>
    h.emits _ fun _ hc => (Option.mem_some.mp hc).symm

theorem OuterRules.relates_checkLoadsourceDisagreement :
    Relates R (checkLoadsourceDisagreement env reading) := by
  refine Relates.bind relates_getSelf fun sm => ?_
  split
  · exact h.relates_resetDisagree _ _
  refine Relates.ite (fun _ => h.relates_resetDisagree _ _) fun _ => ?_
  refine Relates.ite (fun _ => h.relates_resetDisagree _ _) fun _ => ?_
  refine Relates.ite (fun _ => Relates.pure _) fun _ => ?_
  split
  · split
    · refine Relates.bind (h.moves _ fun _ => ⟨rfl, rfl, rfl, rfl, fun _ _ => Iff.rfl⟩)
        fun _ => ?_
      exact Relates.bind relates_getSelf fun sm =>
        Relates.ite (fun _ => h.relates_emitDisagreeRaise _ _) fun _ => Relates.pure _
    · exact h.relates_resetDisagree _ _
  · exact Relates.pure _

theorem OuterRules.relates_afterNumeric : Relates R (do
    updateComms env comms
    updatePanelMode m reading
    updateLoadSource env reading
    checkLoadsourceDisagreement env reading
    finishUpdate reading comms) := by
  refine Relates.bind (h.relates_updateComms env comms) fun _ => ?_
  refine Relates.bind (h.moves _ fun _ => ⟨rfl, rfl, rfl, rfl, fun _ _ => Iff.rfl⟩) fun _ => ?_
  refine Relates.bind (relates_updateLoadSource
    (fun _ _ => h.moves _ fun _ => ⟨rfl, rfl, rfl, rfl, fun _ _ => Iff.rfl⟩)
    (fun _ _ _ => h.emits _ fun _ hc => by cases hc) h.writes env reading) fun _ => ?_
  refine Relates.bind (h.relates_checkLoadsourceDisagreement reading env) fun _ => ?_
  refine h.moves _ fun sm => ⟨rfl, rfl, rfl, rfl, fun k hk => ?_⟩
  dsimp only
  split <;> simp [hk]

end OuterParts

section Parts

variable {m : RegisterMap} {reading : Reading} {env : PollEnv} {comms : CommsRef} {now : ℚ}
  {c c' : Ctx StateMachine} {u : Unit}

def withEngineState (c : Ctx StateMachine) (state : EngineState) : Ctx StateMachine :=
  { c with self := { c.self with snap := { c.self.snap with engineState := state } } }

theorem updateEngineState_keeps (hd : c.self.NumericDerived)
    (h : (updateEngineState m reading now).run c = .ok u c') :
    Keeps (withEngineState c (nextEngineState m reading.values c.self.snap.engineState)) c' := by
  obtain ⟨old, c₁, hg, h⟩ := bind_ok.mp h
  obtain ⟨rfl, rfl⟩ := getSelf_ok.mp hg
  generalize hn : nextEngineState m reading.values c.self.snap.engineState = new at h ⊢
  by_cases hne : new = c.self.snap.engineState
  · have hc : withEngineState c new = c := by rw [hne]; rfl
    simp only [hn, hne, ne_eq, not_true_eq_false, if_false] at h
    obtain ⟨-, rfl⟩ := pure_ok.mp h
    rw [hc]
    exact Std.Refl.refl (r := Beside) c hd
  · simp only [hn, ne_eq, hne, not_false_eq_true, if_true] at h
    obtain ⟨c₂, hm, h⟩ := seq_ok.mp h
    obtain rfl := modifySelf_ok.mp hm
    have hset : Keeps (withEngineState c new) { c with self := { c.self with
        snap := { c.self.snap with engineState := new, stateStartedAt := now } } } :=
      ⟨rfl, rfl, rfl, rfl, rfl, hd, fun _ _ => Iff.rfl, fun _ _ => Iff.rfl, [],
        by simp [withEngineState]⟩
    have hlog : Relates Beside (do
        emit (.transition c.self.snap.engineState new now)
        writeEvent .ok .transition (.engineState c.self.snap.engineState new) none now) :=
      Relates.bind (beside_emit rfl (by simp [Event.alarmCode, Event.raises, Event.clears]))
        fun _ => beside_writeEvent _ _ _ _ _
    exact hset.trans (hlog.ok h hd)

theorem updateComms_ok (h : (updateComms env comms).run c = .ok u c') :
    c'.self = c.self ∧ c'.db.alarmsActive = c.db.alarmsActive ∧
    ∃ new, c'.emitted = c.emitted ++ new ∧ (∀ e ∈ new, e.alarmCode = none) ∧
      new.filterMap Event.commsChange =
        commsDiff .h100 (env.heap c.self.snap.comms).state (env.heap comms).state := by
  obtain ⟨sm, c₁, hg, h⟩ := bind_ok.mp h
  obtain ⟨rfl, rfl⟩ := getSelf_ok.mp hg
  unfold commsDiff
  split
  · rename_i hne
    simp only [hne, not_false_eq_true, if_true, ne_eq] at h
    obtain ⟨c₂, hw, h⟩ := seq_ok.mp h
    obtain ⟨-, -, rfl⟩ := dbCall_ok.mp hw
    obtain rfl := emit_ok.mp h
    exact ⟨rfl, rfl, [_], rfl, by simp [Event.alarmCode, Event.raises, Event.clears], rfl⟩
  · rename_i heq
    simp only [heq, if_false] at h
    obtain ⟨-, rfl⟩ := pure_ok.mp h
    exact ⟨rfl, rfl, [], by simp⟩

/-- The parts of a completed update, for an alarm pipeline that leaves the numeric alarms alone. -/
theorem update_parts (hd : c.self.NumericDerived) (h : (update env reading comms).run c = .ok u c')
    (halarms : ∀ {m c c'}, (updateAlarms m reading env.now).run c = .ok () c' →
      c'.self.numericRaised = c.self.numericRaised) :
    ∃ c₁ c₂ c₃ c₄ c₅,
      Keeps (withEngineState c
        (nextEngineState c.self.regmap reading.values c.self.snap.engineState)) c₁ ∧
      (updateAlarms c.self.regmap reading env.now).run c₁ = .ok () c₂ ∧
      Keeps c₂ c₃ ∧ (updateComms env comms).run c₃ = .ok () c₄ ∧ Keeps c₄ c₅ ∧
      (finishUpdate reading comms).run c₅ = .ok () c' := by
  obtain ⟨sm, c₀, hg, h⟩ := bind_ok.mp h
  obtain ⟨rfl, rfl⟩ := getSelf_ok.mp hg
  obtain ⟨c₁, h₁, h⟩ := seq_ok.mp h
  have k₁ := updateEngineState_keeps hd h₁
  obtain ⟨c₂, h₂, h⟩ := seq_ok.mp h
  have d₂ : c₂.self.NumericDerived := by
    unfold NumericDerived
    rw [halarms h₂]
    exact k₁.numeric
  obtain ⟨c₃, h₃, h⟩ := seq_ok.mp h
  have k₃ : Keeps c₂ c₃ := (beside_updateNumeric _ _ _).ok h₃ d₂
  obtain ⟨c₄, h₄, h⟩ := seq_ok.mp h
  have d₄ : c₄.self.NumericDerived := (updateComms_ok h₄).1 ▸ k₃.numeric
  obtain ⟨c₅, h₅, h⟩ := seq_ok.mp h
  have k₅ : Keeps c₄ c₅ := (beside_updatePanelMode _ _).ok h₅ d₄
  obtain ⟨c₆, h₆, h⟩ := seq_ok.mp h
  have k₆ : Keeps c₅ c₆ := (beside_updateLoadSource _ _).ok h₆ k₅.numeric
  obtain ⟨c₇, h₇, h⟩ := seq_ok.mp h
  have k₇ : Keeps c₆ c₇ := (beside_checkLoadsourceDisagreement _ _).ok h₇ k₆.numeric
  exact ⟨c₁, c₂, c₃, c₄, c₇, k₁, h₂, k₃, h₄, (k₅.trans k₆).trans k₇, h⟩

end Parts

theorem total_update (env : PollEnv) (reading : Reading) (comms : CommsRef) :
    Total (update env reading comms) := by
  unfold update updateEngineState updateAlarms raiseIfNew clearIfLow updateNumeric
    checkNumericRanges raiseNumeric clearNumeric updateComms updatePanelMode updateLoadSource
    checkLoadsourceDisagreement resetDisagree emitDisagreeRaise emitDisagreeClear finishUpdate
  repeat' first
    | with_reducible refine Total.bind ?_ fun _ => ?_
    | with_reducible refine Total.forM fun _ => ?_
    | with_reducible refine Total.ite ?_ ?_
    | with_reducible exact Total.pure _
    | with_reducible exact Total.getSelf
    | with_reducible exact Total.modifySelf _
    | with_reducible exact Total.emit _
    | split
    | exact Total.dbCall _

end StateMachine

end GenWatch

import GenWatch.Alarms.Severity

/-! # What the debounce of a numeric alarm counts

The counter of a numeric alarm advances at every callback that finds its register out of
range, whichever tier was polled and whether or not the value is new. So one noisy sample
of a slow register raises its alarm after two callbacks of the fast tier. It counts
samples only as long as every check that finds the register out of range is that of a
poll which decoded it.
-/

namespace GenWatch

open Handler ServiceM Transition

def Event.rangeCode : Event → Option String
  | .alarm code (.outOfRange ..) _ _ => some code
  | _ => none

namespace StateMachine

variable {code : String} {c c' : Ctx StateMachine}

theorem alarmCode_of_rangeCode {e : Event} (h : e.rangeCode = some code) :
    e.alarmCode = some code := by
  unfold Event.rangeCode at h
  split at h
  · exact h
  · cases h

/-- What leaves the numeric alarms alone and raises none. -/
structure Calm (code : String) (c c' : Ctx StateMachine) : Prop where
  regmap : c'.self.regmap = c.self.regmap
  counts : c'.self.numericPollCounts = c.self.numericPollCounts
  raised : c'.self.numericRaised = c.self.numericRaised
  emits : ∃ new, c'.emitted = c.emitted ++ new ∧ ∀ e ∈ new, e.rangeCode ≠ some code

instance : Std.Refl (Calm code) := ⟨fun _ => ⟨rfl, rfl, rfl, [], by simp⟩⟩

instance : IsTrans (Ctx StateMachine) (Calm code) where
  trans _ _ _ h h' := by
    obtain ⟨new, he, hn⟩ := h.emits
    obtain ⟨new', he', hn'⟩ := h'.emits
    refine ⟨h'.regmap.trans h.regmap, h'.counts.trans h.counts, h'.raised.trans h.raised,
      new ++ new', by rw [he', he, List.append_assoc], fun e hm => ?_⟩
    exact (List.mem_append.mp hm).elim (hn e) (hn' e)

section Calm

theorem calm_modifySelf {f : StateMachine → StateMachine}
    (h : ∀ sm, (f sm).regmap = sm.regmap ∧ (f sm).numericPollCounts = sm.numericPollCounts ∧
      (f sm).numericRaised = sm.numericRaised) : Relates (Calm code) (modifySelf f) :=
  Relates.modify fun c => ⟨(h c.self).1, (h c.self).2.1, (h c.self).2.2, [], by simp⟩

theorem calm_emit {e : Event} (h : e.rangeCode ≠ some code) : Relates (Calm code) (emit e) :=
  Relates.modify fun _ => ⟨rfl, rfl, rfl, [e], rfl, by simpa using h⟩

theorem calm_dbCall {α : Type} (op : Database → α × Database) :
    Relates (Calm code) (dbCall op : ServiceM StateMachine α) :=
  relates_dbCall (fun _ _ => ⟨rfl, rfl, rfl, [], by simp⟩) fun _ _ => ⟨rfl, rfl, rfl, [], by simp⟩

theorem calm_rules (hk : IsRange code) : OuterRules (Calm code) where
  writes _ _ _ _ _ := calm_dbCall _
  raises _ _ _ _ := calm_dbCall _
  clears := calm_dbCall _
  emits _ he := calm_emit fun h => ne_disagree hk (he code (alarmCode_of_rangeCode h))
  moves _ hf := calm_modifySelf fun sm => ⟨(hf sm).1, (hf sm).2.2.1, (hf sm).2.2.2.1⟩

theorem calm_announceIf {e : Event} (h : e.rangeCode ≠ some code) (severity : Severity)
    (type : EventType) (message : Message) (info : Option String) (now : ℚ) (changed : Bool) :
    Relates (Calm code)
      (if changed then writeEvent severity type message info now >>= fun _ => emit e
        else pure ()) :=
  Relates.ite (fun _ => Relates.bind (calm_dbCall _) fun _ => calm_emit h) fun _ => Relates.pure _

theorem calm_updateAlarms (m : RegisterMap) (reading : Reading) (now : ℚ) :
    Relates (Calm code) (updateAlarms m reading now) := by
  refine Relates.bind (calm_modifySelf fun _ => ⟨rfl, rfl, rfl⟩) fun _ => ?_
  refine Relates.bind relates_getSelf fun sm => ?_
  refine Relates.bind (Relates.forM fun ab _ => ?_) fun _ => ?_
  · refine Relates.ite (fun _ => Relates.pure _) fun _ => Relates.bind (calm_dbCall _) fun _ => ?_
    exact Relates.bind (calm_modifySelf fun _ => ⟨rfl, rfl, rfl⟩) fun _ =>
      calm_announceIf (by simp [Event.rangeCode]) _ _ _ _ _ _
  refine Relates.bind relates_getSelf fun sm => ?_
  refine Relates.bind (Relates.forM fun other _ => ?_) fun _ =>
    calm_modifySelf fun _ => ⟨rfl, rfl, rfl⟩
  refine Relates.ite (fun _ => Relates.pure _) fun _ => Relates.bind (calm_dbCall _) fun _ => ?_
  exact Relates.bind (calm_modifySelf fun _ => ⟨rfl, rfl, rfl⟩) fun _ =>
    calm_announceIf (by simp [Event.rangeCode]) _ _ _ _ _ _

end Calm

section Check

/-- With the counters at `counts`, an alarm is raised only if its code is among the active ones and
due. -/
def RaisesDue (code : String) (counts : String → ℕ) (active : List String)
    (c c' : Ctx StateMachine) : Prop :=
  c.self.numericPollCounts = counts → c'.self.regmap = c.self.regmap ∧
    c'.self.numericPollCounts = counts ∧ ∃ new, c'.emitted = c.emitted ++ new ∧
      ((code ∈ c'.self.numericRaised.keys ∧ code ∉ c.self.numericRaised.keys) ∨
        (∃ e ∈ new, e.rangeCode = some code) → code ∈ active ∧ numericAlarmMinPolls ≤ counts code)

variable {counts : String → ℕ} {active : List String}

instance : Std.Refl (RaisesDue code counts active) :=
  ⟨fun _ h => ⟨rfl, h, [], by simp, fun hr => by simp at hr⟩⟩

instance : IsTrans (Ctx StateMachine) (RaisesDue code counts active) where
  trans c₁ c₂ c₃ h h' hc := by
    obtain ⟨hmap, hcounts, new, he, hr⟩ := h hc
    obtain ⟨hmap', hcounts', new', he', hr'⟩ := h' hcounts
    refine ⟨hmap'.trans hmap, hcounts', new ++ new', by rw [he', he, List.append_assoc], ?_⟩
    rintro (⟨hin, hout⟩ | ⟨e, hm, hrange⟩)
    · by_cases hmid : code ∈ c₂.self.numericRaised.keys
      · exact hr (Or.inl ⟨hmid, hout⟩)
      · exact hr' (Or.inl ⟨hin, hmid⟩)
    · rcases List.mem_append.mp hm with hm | hm
      · exact hr (Or.inr ⟨e, hm, hrange⟩)
      · exact hr' (Or.inr ⟨e, hm, hrange⟩)

theorem raisesDue_modifySelf {f : StateMachine → StateMachine}
    (h : ∀ sm, (f sm).regmap = sm.regmap ∧ (f sm).numericPollCounts = sm.numericPollCounts ∧
      (code ∈ (f sm).numericRaised.keys → code ∉ sm.numericRaised.keys →
        code ∈ active ∧ numericAlarmMinPolls ≤ counts code)) :
    Relates (RaisesDue code counts active) (modifySelf f) := by
  refine Relates.modify fun c hc => ?_
  obtain ⟨hmap, hcounts, hraised⟩ := h c.self
  refine ⟨hmap, hcounts.trans hc, [], by simp, ?_⟩
  rintro (⟨hin, hout⟩ | ⟨e, hm, -⟩)
  · exact hraised hin hout
  · cases hm

theorem raisesDue_dbCall {α : Type} (op : Database → α × Database) :
    Relates (RaisesDue code counts active) (dbCall op : ServiceM StateMachine α) :=
  relates_dbCall (fun _ _ h => ⟨rfl, h, [], by simp, fun hr => by simp at hr⟩)
    fun _ _ h => ⟨rfl, h, [], by simp, fun hr => by simp at hr⟩

theorem raisesDue_announceIf {e : Event}
    (h : e.rangeCode = some code → code ∈ active ∧ numericAlarmMinPolls ≤ counts code)
    (severity : Severity) (type : EventType) (message : Message) (info : Option String) (now : ℚ)
    (changed : Bool) :
    Relates (RaisesDue code counts active)
      (if changed then writeEvent severity type message info now >>= fun _ => emit e
        else pure ()) := by
  refine Relates.ite (fun _ => Relates.bind (raisesDue_dbCall _) fun _ => ?_) fun _ =>
    Relates.pure _
  refine Relates.modify fun c hc => ⟨rfl, hc, [e], rfl, ?_⟩
  rintro (⟨hin, hout⟩ | ⟨e', hm, hrange⟩)
  · exact absurd hin hout
  · obtain rfl := List.mem_singleton.mp hm
    exact h hrange

theorem raisesDue_raiseNumeric {values : Values} {now : ℚ} {hit : NumericHit}
    (hactive : hit.code ∈ active) :
    Relates (RaisesDue code counts active) (raiseNumeric values now hit) := by
  intro c hc
  rw [raiseNumeric, bind_run (getSelf_ok.mpr ⟨rfl, rfl⟩)]
  by_cases hskip : c.self.numericPollCounts hit.code < numericAlarmMinPolls ∨
      hit.code ∈ c.self.numericRaised.keys
  · rw [if_pos hskip]
    exact Relates.pure (R := RaisesDue code counts active) () c hc
  · rw [if_neg hskip]
    have hdue : hit.code = code → code ∈ active ∧ numericAlarmMinPolls ≤ counts code := by
      rintro rfl
      exact ⟨hactive, hc ▸ not_lt.mp (not_or.mp hskip).1⟩
    refine (?_ : Relates (RaisesDue code counts active) _) c hc
    refine Relates.bind (raisesDue_modifySelf fun sm => ⟨rfl, rfl, fun hin hout => ?_⟩) fun _ =>
      Relates.bind (raisesDue_dbCall _) fun raised => ?_
    · exact hdue ((Table.mem_keys_insertReplace.mp hin).resolve_left hout).symm
    · refine raisesDue_announceIf ?_ _ _ _ _ _ _
      exact fun h => hdue (Option.some.inj h)

theorem raisesDue_clearNumeric {now : ℚ} {other : String} :
    Relates (RaisesDue code counts active) (clearNumeric active now other) := by
  refine Relates.ite (fun _ => Relates.pure _) fun _ => ?_
  refine Relates.bind (raisesDue_modifySelf fun sm => ⟨rfl, rfl, fun hin hout => ?_⟩) fun _ =>
    Relates.bind (raisesDue_dbCall _) fun cleared => ?_
  · exact absurd (Table.mem_keys_delete.mp hin).1 hout
  · refine raisesDue_announceIf ?_ _ _ _ _ _ _
    exact fun h => by cases h

def withPolls (c : Ctx StateMachine) (active : List String) : Ctx StateMachine :=
  { c with self := { c.self with
    numericPollCounts := countPolls c.self.numericPollCounts active } }

/-- The numeric check, completed or not: it counts the registers out of range, and raises an alarm
only if it counted it often enough. -/
theorem checkNumericRanges_raisesDue (m : RegisterMap) (reading : Reading) (now : ℚ)
    (c : Ctx StateMachine) :
    RaisesDue code (countPolls c.self.numericPollCounts
        (numericActive m reading.values c.self.snap.engineState).keys)
      (numericActive m reading.values c.self.snap.engineState).keys
      (withPolls c (numericActive m reading.values c.self.snap.engineState).keys)
      (finalState ((checkNumericRanges m reading now).run c)) := by
  rw [checkNumericRanges, bind_run (getSelf_ok.mpr ⟨rfl, rfl⟩)]
  dsimp only
  rw [bind_run (a := ()) (modifySelf_ok.mpr rfl)]
  refine (Relates.bind (Relates.forM fun hit hmem => ?_) fun _ =>
    Relates.bind relates_getSelf fun sm => Relates.forM fun other _ => ?_ :
    Relates (RaisesDue _ _ _) _) _
  · exact raisesDue_raiseNumeric (Table.mem_keys.mpr ⟨hit, hmem, rfl⟩)
  · exact raisesDue_clearNumeric

end Check

section Update

def beforeNumeric (m : RegisterMap) (reading : Reading) (now : ℚ) : ServiceM StateMachine Unit := do
  updateEngineState m reading now
  updateAlarms m reading now

def afterNumeric (m : RegisterMap) (env : PollEnv) (reading : Reading) (comms : CommsRef) :
    ServiceM StateMachine Unit := do
  updateComms env comms
  updatePanelMode m reading
  updateLoadSource env reading
  checkLoadsourceDisagreement env reading
  finishUpdate reading comms

theorem update_eq_beforeNumeric (env : PollEnv) (reading : Reading) (comms : CommsRef) :
    update env reading comms = getSelf >>= fun sm =>
      beforeNumeric sm.regmap reading env.now >>= fun _ =>
        updateNumeric sm.regmap reading env.now >>= fun _ =>
          afterNumeric sm.regmap env reading comms := by
  simp only [update, beforeNumeric, afterNumeric, bind_assoc]

/-- The map enables numeric alarms, and no database error ends the update before it checks them. -/
def ChecksNumeric (reading : Reading) (now : ℚ) (c : Ctx StateMachine) : Prop :=
  c.self.regmap.numericAlarmsEnabled = true ∧
    completed ((beforeNumeric c.self.regmap reading now).run c) = true

instance (reading : Reading) (now : ℚ) (c : Ctx StateMachine) :
    Decidable (ChecksNumeric reading now c) :=
  inferInstanceAs (Decidable (_ ∧ _))

theorem Calm.raisesDue {counts : String → ℕ} {active : List String} (h : Calm code c c') :
    RaisesDue code counts active c c' := by
  intro hc
  obtain ⟨new, he, hn⟩ := h.emits
  refine ⟨h.regmap, h.counts.trans hc, new, he, ?_⟩
  rintro (⟨hin, hout⟩ | ⟨e, hm, hrange⟩)
  · rw [h.raised] at hin
    exact absurd hin hout
  · exact absurd hrange (hn e hm)

theorem beforeNumeric_ok {m : RegisterMap} {reading : Reading} {now : ℚ} {u : Unit}
    (h : (beforeNumeric m reading now).run c = .ok u c') :
    c'.self.snap.engineState = nextEngineState m reading.values c.self.snap.engineState := by
  obtain ⟨c₁, h₁, h₂⟩ := seq_ok.mp h
  exact (updateAlarms_observes h₂).engineState.trans (updateEngineState_ok h₁)

/-- What an update does to the counters, and what it takes to raise a numeric alarm. -/
structure Polls (code : String) (reading : Reading) (now : ℚ) (c c' : Ctx StateMachine) :
    Prop where
  regmap : c'.self.regmap = c.self.regmap
  counts : c'.self.numericPollCounts = if ChecksNumeric reading now c then
    countPolls c.self.numericPollCounts (c.self.numericHits reading.values).keys
    else c.self.numericPollCounts
  raises : ∃ new, c'.emitted = c.emitted ++ new ∧
    ((code ∈ c'.self.numericRaised.keys ∧ code ∉ c.self.numericRaised.keys) ∨
        (∃ e ∈ new, e.rangeCode = some code) →
      ChecksNumeric reading now c ∧ code ∈ (c.self.numericHits reading.values).keys ∧
        numericAlarmMinPolls ≤ c'.self.numericPollCounts code)

theorem Calm.polls {reading : Reading} {now : ℚ} (h : Calm code c c')
    (hskip : ¬ChecksNumeric reading now c) : Polls code reading now c c' := by
  obtain ⟨new, he, hn⟩ := h.emits
  refine ⟨h.regmap, by rw [h.counts, if_neg hskip], new, he, ?_⟩
  rintro (⟨hin, hout⟩ | ⟨e, hm, hrange⟩)
  · rw [h.raised] at hin
    exact absurd hin hout
  · exact absurd hrange (hn e hm)

theorem Calm.polls_of_check {c₂ : Ctx StateMachine} {reading : Reading} {now : ℚ}
    (h : Calm code c c₂) (hchecks : ChecksNumeric reading now c)
    (hdue : RaisesDue code
      (countPolls c.self.numericPollCounts (c.self.numericHits reading.values).keys)
      (c.self.numericHits reading.values).keys
      (withPolls c₂ (c.self.numericHits reading.values).keys) c') :
    Polls code reading now c c' := by
  obtain ⟨new, he, hn⟩ := h.emits
  obtain ⟨hmap, hcounts, new', he', hr⟩ := hdue (by rw [withPolls, h.counts])
  have hemitted : c'.emitted = (c.emitted ++ new) ++ new' := by
    rw [← he]
    exact he'
  refine ⟨hmap.trans h.regmap, by rw [hcounts, if_pos hchecks], new ++ new', ?_, fun hraise => ?_⟩
  · rw [hemitted, List.append_assoc]
  · rw [hcounts]
    refine ⟨hchecks, hr ?_⟩
    rcases hraise with ⟨hin, hout⟩ | ⟨e, hm, hrange⟩
    · left
      refine ⟨hin, ?_⟩
      show code ∉ c₂.self.numericRaised.keys
      rw [h.raised]
      exact hout
    · right
      exact ⟨e, (List.mem_append.mp hm).resolve_left fun hm => hn e hm hrange, hrange⟩

variable (hk : IsRange code) (env : PollEnv) (reading : Reading) (comms : CommsRef)

include hk

theorem calm_beforeNumeric (m : RegisterMap) (now : ℚ) :
    Relates (Calm code) (beforeNumeric m reading now) :=
  Relates.bind ((calm_rules hk).relates_updateEngineState _ _ _) fun _ => calm_updateAlarms _ _ _

theorem calm_afterNumeric (m : RegisterMap) :
    Relates (Calm code) (modifySelf (fun sm => { sm with snap := { sm.snap with
      activeAlarms := sm.snap.activeAlarms ∪ sm.numericRaised.keys.toFinset } }) >>= fun _ =>
        afterNumeric m env reading comms) :=
  Relates.bind (calm_modifySelf fun _ => ⟨rfl, rfl, rfl⟩) fun _ =>
    (calm_rules hk).relates_afterNumeric m reading env comms

theorem update_polls (c : Ctx StateMachine) :
    Polls code reading env.now c (finalState ((update env reading comms).run c)) := by
  have k₁ := calm_beforeNumeric hk reading c.self.regmap env.now c
  rw [update_eq_beforeNumeric, bind_run (getSelf_ok.mpr ⟨rfl, rfl⟩)]
  cases h₁ : (beforeNumeric c.self.regmap reading env.now).run c with
  | error e c₁ =>
    rw [h₁] at k₁
    rw [bind_error h₁]
    exact k₁.polls fun hchecks => by simpa [h₁, completed] using hchecks.2
  | ok u c₂ =>
    rw [h₁] at k₁
    have hstate := beforeNumeric_ok h₁
    have k₁ : Calm code c c₂ := k₁
    have kafter := calm_afterNumeric hk env reading comms c.self.regmap
    rw [bind_run h₁, updateNumeric]
    by_cases hon : c.self.regmap.numericAlarmsEnabled = true
    · rw [if_pos hon, bind_assoc]
      have hchecks : ChecksNumeric reading env.now c := ⟨hon, by rw [h₁]; rfl⟩
      have hdue : RaisesDue code _ _ _ _ :=
        checkNumericRanges_raisesDue c.self.regmap reading env.now c₂
      rw [hstate, k₁.counts] at hdue
      refine k₁.polls_of_check hchecks ?_
      cases h₂ : (checkNumericRanges c.self.regmap reading env.now).run c₂ with
      | error e d =>
        rw [h₂] at hdue
        rw [bind_error h₂]
        exact hdue
      | ok u d =>
        rw [h₂] at hdue
        rw [bind_run h₂]
        exact IsTrans.trans _ _ _ hdue (kafter d).raisesDue
    · rw [if_neg hon]
      refine Calm.polls (IsTrans.trans _ _ _ k₁ ?_) fun hchecks => hon hchecks.1
      exact kafter c₂

end Update

end StateMachine

/-- A value outside one of the register's ranges. -/
def RegisterDef.OutOfBand (reg : RegisterDef) (v : ℚ) : Prop :=
  ∃ range, (reg.alarmRange = some range ∨ reg.warnRange = some range) ∧
    (v < range.1 ∨ range.2 < v)

/-- A callback as the numeric check sees it: the poll it belongs to, the values of the reading, the
engine state, and whether the update got to the check. -/
structure Checked where
  done : Completion
  values : Values
  state : EngineState
  checked : Bool

/-- The generator's poller with its state machine, and the callbacks so far, newest first. -/
structure RangeWatch where
  link : Polled AlarmDesk
  log : List Checked

namespace RangeWatch

open StateMachine

abbrev Label := DebounceWatch.Label

def start (m : RegisterMap) (now mono : ℚ) (db : Database) : RangeWatch :=
  ⟨.start m now mono (.start m db now), []⟩

def sm (w : RangeWatch) : StateMachine := w.link.consumer.sm

def served (w : RangeWatch) : Label → List Checked
  | .loop l input =>
    match w.link.callback l, w.link.journal.loops.completed l with
    | some cb, some c => [⟨c, cb.reading.values,
        nextEngineState w.sm.regmap cb.reading.values w.sm.snap.engineState,
        ChecksNumeric cb.reading cb.now ⟨w.sm, w.link.consumer.db, [], input.2⟩⟩]
    | _, _ => []
  | .other _ => []

def step (w : RangeWatch) (k : Label) : Option RangeWatch :=
  (Polled.step AlarmDesk.onPoll AlarmDesk.onElsewhere w.link k).map fun link =>
    ⟨link, w.served k ++ w.log⟩

/-- The step raises a numeric alarm, or publishes that it does. -/
def RaisesRange (w : RangeWatch) (k : Label) (w' : RangeWatch) (code : String) : Prop :=
  (code ∈ w'.sm.numericRaised.keys ∧ code ∉ w.sm.numericRaised.keys) ∨
    (w.served k ≠ [] ∧ ∃ e ∈ w'.link.consumer.published, e.rangeCode = some code)

def Decodes (reg : RegisterDef) (e : Checked) : Prop :=
  e.done.poll.tier = reg.tier ∧ (readRegister e.done.poll.results reg).isSome

instance (reg : RegisterDef) (e : Checked) : Decidable (Decodes reg e) :=
  inferInstanceAs (Decidable (_ ∧ _))

/-- The last polls that decoded the register, as many as an alarm takes, all found it out of range
while the engine was producing. -/
def SeenOut (reg : RegisterDef) (log : List Checked) : Prop :=
  let decodes := log.filter fun e => Decodes reg e
  numericAlarmMinPolls ≤ decodes.length ∧ ∀ e ∈ decodes.take numericAlarmMinPolls,
    e.state ∈ numericAlarmStates ∧ ∃ v ∈ readRegister e.done.poll.results reg, reg.OutOfBand v

/-- The check of a callback finds the register's code out of range. -/
def FindsOut (m : RegisterMap) (reg : RegisterDef) (e : Checked) : Prop :=
  numericCode reg ∈ (numericActive m e.values e.state).keys

instance (m : RegisterMap) (reg : RegisterDef) (e : Checked) : Decidable (FindsOut m reg e) :=
  inferInstanceAs (Decidable (_ ∈ _))

/-- A check that finds the register out of range is that of a poll which decoded it, and a poll
that decodes it is checked. -/
def ChecksSample (m : RegisterMap) (reg : RegisterDef) (e : Checked) : Prop :=
  (e.checked = true → FindsOut m reg e → Decodes reg e) ∧ (Decodes reg e → e.checked = true)

instance (m : RegisterMap) (reg : RegisterDef) (e : Checked) : Decidable (ChecksSample m reg e) :=
  inferInstanceAs (Decidable (_ ∧ _))

structure Sound (m : RegisterMap) (w : RangeWatch) : Prop where
  timely : w.link.Timely m
  regmap : w.sm.regmap = m
  fresh : ∀ e ∈ w.log, ∀ reg ∈ m.registers, e.done.poll.tier = reg.tier →
    ∀ v ∈ readRegister e.done.poll.results reg, ∀ v' ∈ e.values reg.name, v' = v
  counted : ∀ reg n, n ≤ w.sm.numericPollCounts (numericCode reg) →
    n ≤ (w.log.filter fun e => e.checked).length ∧
      ∀ e ∈ (w.log.filter fun e => e.checked).take n, FindsOut m reg e

section Steps

variable {m : RegisterMap} {w w' : RangeWatch} {k : Label}

theorem step_cases (hm : w.link.Timely m) (h : step w k = some w') :
    (w.served k = [] ∧ w'.log = w.log ∧ w'.sm = w.sm) ∨
    ∃ l input cb c, k = .loop l input ∧
      w'.log = ⟨c, cb.reading.values,
        nextEngineState w.sm.regmap cb.reading.values w.sm.snap.engineState,
        ChecksNumeric cb.reading cb.now ⟨w.sm, w.link.consumer.db, [], input.2⟩⟩ :: w.log ∧
      c.poll.regmap = m ∧
      cb.reading = c.poll.reading w.link.journal.loops.poller.reading c.now c.mono ∧
      w'.link.consumer = w.link.consumer.onPoll w'.link.journal.loops.poller.link.health cb
        input := by
  obtain ⟨link, hlink, rfl⟩ := Option.map_eq_some_iff.mp h
  cases k with
  | other db =>
    obtain rfl := Polled.step_other hlink
    exact Or.inl ⟨rfl, rfl, rfl⟩
  | loop l input =>
    cases hcb : w.link.callback l with
    | none =>
      have hserved : w.served (.loop l input) = [] := by simp [served, hcb]
      obtain ⟨hconsumer, -⟩ := Polled.step_quiet hlink hcb
      exact Or.inl ⟨hserved, by simp [hserved], congrArg AlarmDesk.sm hconsumer⟩
    | some cb =>
      obtain ⟨c, hc, -, hmap, hreading⟩ :=
        DebounceWatch.completed_of_callback (w := ⟨w.link, []⟩) hm hlink hcb
      obtain ⟨hconsumer, -⟩ := Polled.step_callback hlink hcb
      have hc : w.link.journal.loops.completed l = some c := hc
      exact Or.inr ⟨l, input, cb, c, rfl, by simp [served, hcb, hc], hmap, hreading, hconsumer⟩

theorem onPoll_polls (d : AlarmDesk) (health : CommsHealth) (cb : Callback)
    (input : Option AtsView × List Bool) {code : String} (hk : IsRange code) :
    ∃ c', Polls code cb.reading cb.now ⟨d.sm, d.db, [], input.2⟩ c' ∧
      (d.onPoll health cb input).sm = c'.self ∧
      ∀ e ∈ (d.onPoll health cb input).published, e ∈ c'.emitted := by
  refine ⟨_, update_polls hk ⟨cb.now, input.1, Function.update (fun _ => .initial 1500) .poller
    health⟩ cb.reading .poller ⟨d.sm, d.db, [], input.2⟩, (AlarmDesk.update_final _ _ _ _ _).1, ?_⟩
  unfold AlarmDesk.onPoll AlarmDesk.update
  split
  · rename_i u c' hok
    rw [hok]
    exact fun e he => he
  · simp

theorem counted_cons {new : Checked} {log : List Checked} {counts counts' : String → ℕ}
    (h : ∀ reg n, n ≤ counts (numericCode reg) → n ≤ (log.filter fun e => e.checked).length ∧
      ∀ e ∈ (log.filter fun e => e.checked).take n, FindsOut m reg e)
    (hnext : counts' = if new.checked = true then
      countPolls counts (numericActive m new.values new.state).keys else counts) :
    ∀ reg n, n ≤ counts' (numericCode reg) →
      n ≤ ((new :: log).filter fun e => e.checked).length ∧
        ∀ e ∈ ((new :: log).filter fun e => e.checked).take n, FindsOut m reg e := by
  intro reg n hn
  by_cases hchecked : new.checked = true
  · rw [List.filter_cons_of_pos (by simpa using hchecked)]
    cases n with
    | zero => exact ⟨Nat.zero_le _, by simp⟩
    | succ n =>
      rw [hnext, if_pos hchecked, countPolls_eq] at hn
      split at hn
      · rename_i hfinds
        have hone : (numericActive m new.values new.state).keys.count (numericCode reg) ≤ 1 :=
          List.nodup_iff_count_le_one.mp (numericActive m new.values new.state).nodup _
        obtain ⟨hlen, hall⟩ := h reg n (by omega)
        rw [List.take_succ_cons]
        exact ⟨Nat.succ_le_succ hlen, List.forall_mem_cons.mpr ⟨hfinds, hall⟩⟩
      · cases hn
  · rw [List.filter_cons_of_neg (by simpa using hchecked)]
    rw [hnext, if_neg hchecked] at hn
    exact h reg n hn

theorem sound_start (m : RegisterMap) (now mono : ℚ) (db : Database) :
    (start m now mono db).Sound m where
  timely := Polled.timely_start m now mono _
  regmap := rfl
  fresh _ he := by cases he
  counted _ n hn := by
    obtain rfl : n = 0 := Nat.le_zero.mp hn
    exact ⟨le_rfl, by simp⟩

theorem Sound.step (hm : m.Accepted) (hs : w.Sound m) (h : RangeWatch.step w k = some w') :
    w'.Sound m := by
  have htimely : w'.link.Timely m := by
    obtain ⟨link, hlink, rfl⟩ := Option.map_eq_some_iff.mp h
    exact hs.timely.step hm hlink
  obtain ⟨-, hlog, hsm⟩ | ⟨l, input, cb, c, -, hlog, hmap, hreading, hconsumer⟩ :=
    step_cases hs.timely h
  · refine ⟨htimely, hsm ▸ hs.regmap, ?_, ?_⟩
    · rw [hlog]
      exact hs.fresh
    · rw [hlog, hsm]
      exact hs.counted
  · -- the counters do not depend on the code
    obtain ⟨c', hp, hself, -⟩ := onPoll_polls w.link.consumer
      w'.link.journal.loops.poller.link.health cb input (isRange_numericCode (.plain ""))
    rw [← hconsumer, ← sm] at hself
    refine ⟨htimely, ?_, ?_, ?_⟩
    · rw [hself, hp.regmap]
      exact hs.regmap
    · rw [hlog]
      refine List.forall_mem_cons.mpr ⟨fun reg hreg htier v hv v' hv' => ?_, hs.fresh⟩
      rw [hreading] at hv'
      exact DebounceWatch.values_of_fresh hm hmap _ hreg htier hv hv'
    · rw [hlog]
      refine counted_cons hs.counted ?_
      rw [hself, hp.counts]
      have hregmap : w.link.consumer.sm.regmap = m := hs.regmap
      refine if_congr decide_eq_true_iff.symm ?_ rfl
      simp only [numericHits, sm, hregmap]

theorem outOfBand_of_severityFor {values : Values} {reg : RegisterDef}
    (h : (severityFor values reg).isSome) : ∃ v ∈ values reg.name, reg.OutOfBand v := by
  unfold severityFor at h
  split at h
  · cases h
  · rename_i v hv
    refine ⟨v, hv, ?_⟩
    rw [Option.isSome_or, Bool.or_eq_true] at h
    rcases h with h | h
    · cases hr : reg.alarmRange with
      | none => simp [hr] at h
      | some range =>
        refine ⟨range, Or.inl hr, ?_⟩
        by_contra hin
        simp [hr, hin] at h
    · cases hr : reg.warnRange with
      | none => simp [hr] at h
      | some range =>
        refine ⟨range, Or.inr hr, ?_⟩
        by_contra hin
        simp [hr, hin] at h

theorem Sound.seen_of_findsOut (hs : w.Sound m) {reg : RegisterDef} (hreg : reg ∈ m.registers)
    (hsole : ∀ other ∈ m.registers, numericCode other = numericCode reg → other = reg)
    {e : Checked} (he : e ∈ w.log) (hdecodes : Decodes reg e) (hout : FindsOut m reg e) :
    e.state ∈ numericAlarmStates ∧
      ∃ v ∈ readRegister e.done.poll.results reg, reg.OutOfBand v := by
  constructor
  · by_contra hstate
    rw [FindsOut, numericActive, if_neg hstate] at hout
    cases hout
  · obtain ⟨hit, hmem, hcode⟩ := Table.mem_keys.mp hout
    obtain ⟨other, hother, hcode', hsev⟩ := exists_of_mem_numericActive hit hmem
    obtain rfl := hsole other hother (hcode'.trans hcode)
    obtain ⟨v, hv, hband⟩ := outOfBand_of_severityFor hsev
    obtain ⟨v', hv'⟩ := Option.isSome_iff_exists.mp hdecodes.2
    obtain rfl := hs.fresh e he other hreg hdecodes.1 v' hv' v hv
    exact ⟨v, hv', hband⟩

/-- Where the checks are those of samples, the last of them are the last polls that decoded the
register. -/
theorem Sound.seenOut (hs : w.Sound m) {reg : RegisterDef} (hreg : reg ∈ m.registers)
    (hsole : ∀ other ∈ m.registers, numericCode other = numericCode reg → other = reg)
    (hsamples : ∀ e ∈ w.log, ChecksSample m reg e)
    (hdue : numericAlarmMinPolls ≤ w.sm.numericPollCounts (numericCode reg)) :
    SeenOut reg w.log := by
  obtain ⟨hlen, hout⟩ := hs.counted reg _ hdue
  have hdecodes : ∀ e ∈ (w.log.filter fun e => e.checked).take numericAlarmMinPolls,
      e ∈ w.log ∧ Decodes reg e := by
    intro e he
    obtain ⟨hmem, hchecked⟩ := List.mem_filter.mp (List.mem_of_mem_take he)
    exact ⟨hmem, (hsamples e hmem).1 hchecked (hout e he)⟩
  have hfilter : (w.log.filter fun e => e.checked).filter (fun e => Decodes reg e) =
      w.log.filter fun e => Decodes reg e := by
    rw [List.filter_filter]
    refine List.filter_congr fun e he => ?_
    by_cases hd : Decodes reg e
    · simp [hd, (hsamples e he).2 hd]
    · simp [hd]
  obtain ⟨htake, hmany⟩ := Window.take_filter (p := fun e => Decodes reg e)
    (fun e he => decide_eq_true (hdecodes e he).2) hlen
  rw [hfilter] at htake hmany
  refine ⟨hmany, fun e he => ?_⟩
  rw [htake] at he
  obtain ⟨hmem, hd⟩ := hdecodes e he
  exact hs.seen_of_findsOut hreg hsole hmem hd (hout e he)

theorem due_of_raisesRange (hm : w.link.Timely m) (h : step w k = some w') {code : String}
    (hk : IsRange code) (hraise : RaisesRange w k w' code) :
    numericAlarmMinPolls ≤ w'.sm.numericPollCounts code := by
  obtain ⟨hserved, -, hsm⟩ | ⟨l, input, cb, c, -, -, -, -, hconsumer⟩ := step_cases hm h
  · rcases hraise with ⟨hin, hout⟩ | ⟨hserved', -⟩
    · exact absurd (hsm ▸ hin) hout
    · exact absurd hserved hserved'
  · obtain ⟨c', hp, hself, hpublished⟩ := onPoll_polls w.link.consumer
      w'.link.journal.loops.poller.link.health cb input hk
    rw [← hconsumer] at hself hpublished
    obtain ⟨new, hemit, hraises⟩ := hp.raises
    obtain rfl : c'.emitted = new := hemit
    have hself : w'.sm = c'.self := hself
    rw [hself]
    refine (hraises ?_).2.2
    rcases hraise with ⟨hin, hout⟩ | ⟨-, e, he, hrange⟩
    · exact Or.inl ⟨hself ▸ hin, hout⟩
    · exact Or.inr ⟨e, hpublished e he, hrange⟩

end Steps

/-- In every run of the two loops over an accepted map, with the tables changed elsewhere at any
time and any database call raising: if no other register has the register's code, every check that
finds it out of range is that of a poll which decoded it, and every poll that decodes it is checked,
then its alarm is raised only after as many polls in a row as an alarm takes have decoded it out of
range while the engine was producing. -/
theorem numeric_alarm_seen_of_checksSample (m : RegisterMap) (hm : m.Accepted) (now mono : ℚ)
    (db : Database) (ls : List Label) (reg : RegisterDef) (hreg : reg ∈ m.registers)
    (hsole : ∀ other ∈ m.registers, numericCode other = numericCode reg → other = reg)
    (hsamples : ∀ w k w', Takes step (start m now mono db) ls w k w' →
      ∀ e ∈ w.served k, ChecksSample m reg e) :
    ∀ w k w', Takes step (start m now mono db) ls w k w' →
      RaisesRange w k w' (numericCode reg) → SeenOut reg w'.log := by
  intro w k w' ht hraise
  have hserve : ∀ w k w', (w.Sound m ∧ ∀ e ∈ w.log, ChecksSample m reg e) →
      (∀ e ∈ w.served k, ChecksSample m reg e) → step w k = some w' →
      w'.Sound m ∧ ∀ e ∈ w'.log, ChecksSample m reg e := by
    rintro w k w' ⟨hs, hlog⟩ hserved hstep
    refine ⟨hs.step hm hstep, ?_⟩
    obtain ⟨link, -, rfl⟩ := Option.map_eq_some_iff.mp hstep
    exact List.forall_mem_append.mpr ⟨hserved, hlog⟩
  have hw := ht.invariant (I := fun w => w.Sound m ∧ ∀ e ∈ w.log, ChecksSample m reg e)
    (C := fun w k _ => ∀ e ∈ w.served k, ChecksSample m reg e) hsamples
    ⟨sound_start m now mono db, by simp [start]⟩ hserve
  have hw' := hserve w k w' hw (hsamples w k w' ht) ht.step_eq
  exact hw'.1.seenOut hreg hsole hw'.2
    (due_of_raisesRange hw.1.timely ht.step_eq (isRange_numericCode reg) hraise)

/-- A register with a range in the slow tier, beside the one of the engine. -/
def oilGauge : RegisterDef :=
  { RegisterDef.plain "oil" 1 with warnRange := some (10, 20), tier := .base }

def gaugeMap : RegisterMap :=
  { RegisterMap.bare with
    registers := [.plain "engine", oilGauge]
    engineStateBits := [⟨.running, "engine", 1⟩]
    numericAlarmsEnabled := true }

/-- A whole poll of a tier that reads the given words, with its callback. -/
def wholePoll (tier : RegTier) (words : List ℤ) (t : ℚ) : List Label :=
  [.loop (.begin tier) (none, []), .loop (.returned tier ⟨some words, 0⟩ t t) (none, []),
    .loop (.callbackDone tier) (none, [])]

/-- The engine runs, and three polls of the slow tier decode the pressure out of range. -/
def threeSamples : List Label :=
  wholePoll .prime [1] 1 ++ wholePoll .base [30] 2 ++ wholePoll .base [30] 17 ++
    [.loop (.begin .base) (none, [])]

/-- The third of them raises the alarm. -/
theorem third_sample_raises :
    ∃ w w', Takes step (start gaugeMap 0 0 .empty)
        (threeSamples ++ [.loop (.returned .base ⟨some [30], 0⟩ 32 32) (none, [])]) w
        (.loop (.returned .base ⟨some [30], 0⟩ 32 32) (none, [])) w' ∧
      numericCode oilGauge ∈ w'.sm.numericRaised.keys ∧
      SeenOut oilGauge w'.log := by
  obtain ⟨w, w', ht, htest⟩ := takes_of_lastStep step (start gaugeMap 0 0 .empty)
    threeSamples (.loop (.returned .base ⟨some [30], 0⟩ 32 32) (none, []))
    (fun w _ w' => numericCode oilGauge ∈ w'.sm.numericRaised.keys ∧
      numericCode oilGauge ∉ w.sm.numericRaised.keys) (by decide +kernel)
  have hraise := of_decide_eq_true htest
  refine ⟨w, w', ht, hraise.1, ?_⟩
  refine numeric_alarm_seen_of_checksSample gaugeMap (by decide +kernel) 0 0 .empty _
    oilGauge (by decide +kernel) (by decide +kernel) (fun w k w' h e he => ?_) w _ w' ht
    (Or.inl hraise)
  have hevery := h.test_of_everyStep (fun w k _ => ∀ e ∈ w.served k, ChecksSample
    gaugeMap oilGauge e) (by decide +kernel)
  exact of_decide_eq_true hevery e he

/-- The engine runs, and the slow tier decodes the pressure out of range once. -/
def oneSample : List Label :=
  wholePoll .prime [1] 1 ++ wholePoll .base [30] 2 ++ wholePoll .prime [1] 3 ++
    [.loop (.begin .prime) (none, [])]

/-- Two callbacks of the fast tier count the retained pressure again, and raise the alarm. -/
theorem one_sample_raises :
    ∃ w w', Takes step (start gaugeMap 0 0 .empty)
        (oneSample ++ [.loop (.returned .prime ⟨some [1], 0⟩ 4 4) (none, [])]) w
        (.loop (.returned .prime ⟨some [1], 0⟩ 4 4) (none, [])) w' ∧
      RaisesRange w (.loop (.returned .prime ⟨some [1], 0⟩ 4 4) (none, [])) w'
        (numericCode oilGauge) ∧
      (w'.log.filter fun e => Decodes oilGauge e).length = 1 ∧
      ¬SeenOut oilGauge w'.log := by
  obtain ⟨w, w', ht, htest⟩ := takes_of_lastStep step (start gaugeMap 0 0 .empty)
    oneSample (.loop (.returned .prime ⟨some [1], 0⟩ 4 4) (none, []))
    (fun w _ w' => (numericCode oilGauge ∈ w'.sm.numericRaised.keys ∧
      numericCode oilGauge ∉ w.sm.numericRaised.keys) ∧
      (w'.log.filter fun e => Decodes oilGauge e).length = 1) (by decide +kernel)
  obtain ⟨hraise, hone⟩ := of_decide_eq_true htest
  refine ⟨w, w', ht, Or.inl hraise, hone, fun hseen => ?_⟩
  have hlen := hseen.1
  rw [hone] at hlen
  exact absurd hlen (by decide)

end RangeWatch

end GenWatch

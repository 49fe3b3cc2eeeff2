import GenWatch.Alarms.Flips
import GenWatch.Ats.TimeSkew
import GenWatch.Services.Monitor

/-! # Rows that follow their announcements

Whoever applies the announcements of a completed update, in their order, to the codes that
had rows before gets the codes that have rows after. The update of the companion has one
exception: the clock-skew alarm is never announced.
-/

namespace GenWatch

open Handler ServiceM

/-- What the announcements make of a code: the last word counts. -/
def settles (code : String) (es : List Event) (was : Bool) : Bool :=
  (flips code es).getLast?.getD was

section Settles

variable {code : String} {es es' : List Event} {was : Bool}

@[simp] theorem settles_nil : settles code [] was = was := rfl

theorem settles_append :
    settles code (es ++ es') was = settles code es' (settles code es was) := by
  simp only [settles, flips_append, List.getLast?_append]
  cases (flips code es').getLast? <;> rfl

theorem settles_of_flips_nil (h : flips code es = []) : settles code es was = was := by
  rw [settles, h]
  rfl

theorem settles_of_flips_ne_nil (h : flips code es ≠ []) (was' : Bool) :
    settles code es was = settles code es was' := by
  unfold settles
  cases hlast : (flips code es).getLast? with
  | none => exact absurd (List.getLast?_eq_none_iff.mp hlast) h
  | some b => rfl

theorem flips_of_alarmFree (h : ∀ e ∈ es, e.alarmCode = none) : flips code es = [] :=
  List.filterMap_eq_nil_iff.mpr fun e he => flip_of_alarmCode_ne (by simp [h e he])

theorem exists_of_flips_ne_nil (h : flips code es ≠ []) : ∃ e ∈ es, code ∈ e.alarmCode := by
  by_contra hno
  push Not at hno
  exact h (List.filterMap_eq_nil_iff.mpr fun e he => flip_of_alarmCode_ne (hno e he))

end Settles

def Database.hasRow (db : Database) (code : String) : Bool := db.Active code

theorem Database.hasRow_congr {db db' : Database} {code : String}
    (h : db'.Active code ↔ db.Active code) : db.hasRow code = db'.hasRow code :=
  decide_eq_decide.mpr h.symm

theorem Database.active_acknowledgeAlarm (db : Database) (acked operator code : String)
    (ctl : Option ControlDef) (now : ℚ) :
    (db.acknowledgeAlarm acked operator ctl now).Active code ↔ db.Active code ∧ code ≠ acked :=
  Table.mem_keys_delete

/-- The row of a code follows the announcements between two moments. -/
def Follows {S : Type} (code : String) (c c' : Ctx S) : Prop :=
  ∃ new, c'.emitted = c.emitted ++ new ∧ settles code new (c.db.hasRow code) = c'.db.hasRow code

section Rules

variable {S : Type} {code : String}

instance : Std.Refl (Follows (S := S) code) := ⟨fun _ => ⟨[], by simp, rfl⟩⟩

instance : IsTrans (Ctx S) (Follows code) where
  trans _ _ _ h h' := by
    obtain ⟨new, he, hs⟩ := h
    obtain ⟨new', he', hs'⟩ := h'
    refine ⟨new ++ new', by rw [he', he, List.append_assoc], ?_⟩
    rw [settles_append, hs, hs']

theorem Flips.follows {c c' : Ctx S} (h : Flips code c c') : Follows code c c' := by
  obtain ⟨new, he, htoggles⟩ := h
  exact ⟨new, he, htoggles.getLast⟩

end Rules

theorem follows_stateMachine_update {code : String} (env : PollEnv) (reading : Reading)
    (comms : CommsRef) : Ensures (Follows code) (StateMachine.update env reading comms) :=
  fun c u c' h => (StateMachine.flips_update env reading comms c u c' h).follows

namespace AtsService

/-- As long as the clock-skew flag stays where it is, the row of a code follows its
announcements. -/
def Agreeing (flag : Bool) (code : String) (c c' : Ctx AtsService) : Prop :=
  c.self.timeSkewAlarmActive = flag → c'.self.timeSkewAlarmActive = flag ∧ Follows code c c'

variable {flag : Bool} {code : String}

instance : Std.Refl (Agreeing flag code) := ⟨fun c h => ⟨h, Std.Refl.refl c⟩⟩

instance : IsTrans (Ctx AtsService) (Agreeing flag code) where
  trans _ _ _ h h' hflag := by
    obtain ⟨hflag', hfollows⟩ := h hflag
    obtain ⟨hflag'', hfollows'⟩ := h' hflag'
    exact ⟨hflag'', IsTrans.trans _ _ _ hfollows hfollows'⟩

theorem agreeing_of_beside {α : Type} {x : ServiceM AtsService α} (h : Relates (Beside ∅) x)
    (hflag : Relates (SkewChecked none 0) x) : Ensures (Agreeing flag code) x := by
  intro c a c' hr hc
  have hbeside := h.ok hr
  have hsame : c'.self.timeSkewAlarmActive = c.self.timeSkewAlarmActive := by
    simpa [SkewChecked] using hflag.ok hr
  obtain ⟨new, he, hnew⟩ := hbeside.emits
  refine ⟨hsame.trans hc, new, he, ?_⟩
  have hfree : ∀ e ∈ new, e.alarmCode = none := fun e hm =>
    Option.eq_none_iff_forall_not_mem.mpr fun other ho => (hnew e hm).2 other ho
  rw [settles_of_flips_nil (flips_of_alarmFree hfree)]
  exact Database.hasRow_congr (hbeside.rows code (Set.notMem_empty code))

theorem agreeing_announce {op : Database → Bool × Database} {e : Event} {severity : Severity}
    {type : EventType} {message : Message} {info : Option String} {now : ℚ}
    (h : ∀ db, settles code [e] (db.hasRow code) = (op db).2.hasRow code) :
    Ensures (Agreeing flag code)
      ((dbCall op : ServiceM AtsService Bool) >>= fun _ =>
        emitEvent e severity type message info now) := by
  intro c u c' hr hc
  obtain ⟨b, c₁, h₁, h₂⟩ := bind_ok.mp hr
  obtain ⟨-, -, rfl⟩ := dbCall_ok.mp h₁
  obtain ⟨db, faults, hrun, hdb, -⟩ := emitEvent_run e severity type message info now
    { c with db := (op c.db).2, faults := c.faults.tail }
  rw [hrun] at h₂
  cases h₂
  refine ⟨hc, [e], rfl, (h c.db).trans ?_⟩
  exact Database.hasRow_congr (by rw [Database.Active, hdb]; rfl)

theorem agreeing_raiseFault (m : RegisterMap) (now : ℚ) (fault : String) :
    Ensures (Agreeing flag code) (raiseFault m now fault) := by
  refine agreeing_announce fun db => ?_
  by_cases hcode : fault = code
  · subst hcode
    simp [settles, flips, Event.flip, Event.raises, Database.hasRow, Database.Active,
      Database.raiseAlarm]
  · have hne : (Event.alarm fault (.text (faultDesc m fault)) .warn now).alarmCode ≠ some code := by
      simpa [Event.alarmCode, Event.raises] using hcode
    rw [settles_of_flips_nil (by simp [flips, flip_of_alarmCode_ne hne])]
    refine Database.hasRow_congr ?_
    simp [Database.Active, Database.raiseAlarm, Ne.symm hcode]

theorem agreeing_clearFault (m : RegisterMap) (now : ℚ) (fault : String) :
    Ensures (Agreeing flag code) (clearFault m now fault) := by
  refine agreeing_announce fun db => ?_
  by_cases hcode : fault = code
  · subst hcode
    simp [settles, flips, Event.flip, Event.raises, Event.clears, Database.hasRow,
      Database.Active, Database.clearAlarm]
  · have hne : (Event.alarmCleared fault (.text (faultDesc m fault)) now).alarmCode ≠
        some code := by
      simpa [Event.alarmCode, Event.raises, Event.clears] using hcode
    rw [settles_of_flips_nil (by simp [flips, flip_of_alarmCode_ne hne])]
    refine Database.hasRow_congr ?_
    simp [Database.Active, Database.clearAlarm, Ne.symm hcode]

/-- The clock-skew check finds the flag as it would set it. -/
def SkewQuiet (flag : Bool) (wallclock : Option ℚ) (now : ℚ) : Prop :=
  ∀ w ∈ wallclock, decide (timeSkewThresholdS < |w - now|) = flag

instance (flag : Bool) (wallclock : Option ℚ) (now : ℚ) :
    Decidable (SkewQuiet flag wallclock now) :=
  inferInstanceAs (Decidable (∀ _ ∈ _, _))

theorem agreeing_checkTimeSkew {wallclock : Option ℚ} {now : ℚ}
    (hquiet : SkewQuiet flag wallclock now) :
    Ensures (Agreeing flag code) (checkTimeSkew wallclock now) := by
  intro c u c' hr hc
  unfold checkTimeSkew at hr
  split at hr
  · obtain ⟨-, rfl⟩ := pure_ok.mp hr
    exact ⟨hc, Std.Refl.refl c⟩
  rename_i w
  obtain ⟨ats, c₀, hg, hr⟩ := bind_ok.mp hr
  obtain ⟨rfl, rfl⟩ := getSelf_ok.mp hg
  have hw := hquiet w rfl
  rw [← hc] at hw
  have hup : ¬(timeSkewThresholdS < |w - now| ∧ ¬c.self.timeSkewAlarmActive = true) := by
    rintro ⟨hskew, hoff⟩
    exact hoff (hw ▸ decide_eq_true hskew)
  have hdown : ¬(|w - now| ≤ timeSkewThresholdS ∧ c.self.timeSkewAlarmActive = true) := by
    rintro ⟨hagree, hon⟩
    rw [hon] at hw
    exact absurd (of_decide_eq_true hw) (not_lt.mpr hagree)
  simp only [hup, hdown, if_false] at hr
  obtain ⟨-, rfl⟩ := pure_ok.mp hr
  exact ⟨hc, Std.Refl.refl c⟩

theorem agreeing_checkComms (env : AtsPollEnv) (prev ref : CommsRef) :
    Ensures (Agreeing flag code) (checkComms env prev ref) := by
  intro c u c' hr hc
  obtain ⟨hself, hdb, new, he, hfree, -⟩ := checkComms_ok hr
  refine ⟨hself ▸ hc, new, he, ?_⟩
  rw [settles_of_flips_nil (flips_of_alarmFree hfree)]
  exact Database.hasRow_congr (by rw [Database.Active, hdb]; rfl)

theorem agreeing_announceChanges (ats : AtsService) (env : AtsPollEnv) (v : Values)
    (new : AtsSnapshot) (hquiet : SkewQuiet flag (epochOrNone (v "ats_pi_wallclock")) env.now) :
    Ensures (Agreeing flag code) (announceChanges ats env v new) := by
  have hsource : ∀ normal prev new, Ensures (Agreeing flag code)
      (checkSource normal prev new env.now) := fun _ _ _ =>
    agreeing_of_beside (beside_checkSource _ _ _ _) (skewChecked_checkSource _ _ _ _)
  refine Ensures.bind ?_ fun _ => ?_
  · refine agreeing_of_beside (beside_checkPosition _ _ _) ?_
    exact Relates.ite (fun _ => Relates.ite (fun _ => Relates.pure _) fun _ =>
      skewChecked_emitEvent _ _ _ _ _ _) fun _ => Relates.pure _
  refine Ensures.bind (hsource _ _ _) fun _ => Ensures.bind (hsource _ _ _) fun _ => ?_
  refine Ensures.bind ?_ fun _ => ?_
  · refine agreeing_of_beside (beside_checkMode _ _ _) ?_
    exact Relates.ite (fun _ => skewChecked_emitEvent _ _ _ _ _ _) fun _ => Relates.pure _
  refine Ensures.bind (Ensures.forM fun fault _ => agreeing_raiseFault _ _ fault) fun _ => ?_
  refine Ensures.bind (Ensures.forM fun fault _ => agreeing_clearFault _ _ fault) fun _ => ?_
  refine Ensures.bind ?_ fun _ => ?_
  · refine agreeing_of_beside (beside_checkMaintainedCmdEdges _ _ _) ?_
    exact Relates.ite (fun _ => Relates.pure _) fun _ =>
      Relates.bind (skewChecked_checkCmdEdge _ _ _ _ _) fun _ => skewChecked_checkCmdEdge _ _ _ _ _
  refine Ensures.bind ?_ fun _ => agreeing_checkTimeSkew hquiet
  exact agreeing_of_beside (beside_checkReboot _ _) (skewChecked_checkReboot _ _)

/-- In a completed update that finds the clock-skew flag as it would set it, all rows follow their
announcements. -/
theorem agreeing_update (env : AtsPollEnv) (reading : Reading) (comms : CommsRef)
    (hquiet : SkewQuiet flag (epochOrNone (reading.values "ats_pi_wallclock")) env.now) :
    Ensures (Agreeing flag code) (update env reading comms) := by
  refine Ensures.bind relates_getSelf.ensures fun ats => ?_
  refine Ensures.bind (agreeing_announceChanges _ _ _ _ hquiet) fun _ => ?_
  refine Ensures.bind (agreeing_checkComms _ _ _) fun _ => ?_
  refine Ensures.bind ?_ fun _ => ?_
  · exact agreeing_of_beside (beside_checkIcdVersion _ _ _) (skewChecked_checkIcdVersion _ _ _)
  · intro c u c' hr hc
    obtain rfl := modifySelf_ok.mp hr
    exact ⟨hc, [], (List.append_nil _).symm, rfl⟩

end AtsService

namespace Monitor

variable (mon : Monitor)

/-- The update of a callback over the generator's link runs to its end. -/
def PollCompletes (faults : List Bool) (now : ℚ) (reading : Reading) : Prop :=
  completed ((StateMachine.update ⟨now, mon.atsView, mon.heap⟩ reading .poller).run
    ⟨mon.stateMachine, mon.db, [], faults⟩) = true

/-- The update of a callback over the companion's link runs to its end, and its clock-skew check
has nothing to change. -/
def AtsPollAnnounces (ats : AtsService) (faults : List Bool) (now mono : ℚ) (tier : RegTier)
    (reading : Reading) : Prop :=
  completed ((AtsService.update ⟨now, mono, tier, mon.heap⟩ reading .atsPoller).run
      ⟨ats, mon.db, [], faults⟩) = true ∧
    AtsService.SkewQuiet ats.timeSkewAlarmActive
      (AtsService.epochOrNone (reading.values "ats_pi_wallclock")) now

instance (faults : List Bool) (now : ℚ) (reading : Reading) :
    Decidable (mon.PollCompletes faults now reading) := inferInstanceAs (Decidable (_ = _))

instance (ats : AtsService) (faults : List Bool) (now mono : ℚ) (tier : RegTier)
    (reading : Reading) : Decidable (mon.AtsPollAnnounces ats faults now mono tier reading) :=
  inferInstanceAs (Decidable (_ ∧ _))

variable {mon}

theorem follows_onPoll {faults : List Bool} {now : ℚ} {reading : Reading}
    (h : mon.PollCompletes faults now reading) (code : String) :
    settles code (mon.onPoll faults now reading).2 (mon.db.hasRow code) =
      (mon.onPoll faults now reading).1.db.hasRow code := by
  unfold PollCompletes at h
  unfold onPoll
  cases hr : (StateMachine.update ⟨now, mon.atsView, mon.heap⟩ reading .poller).run
      ⟨mon.stateMachine, mon.db, [], faults⟩ with
  | error e c =>
    rw [hr] at h
    cases h
  | ok u c =>
    obtain ⟨new, he, hs⟩ := follows_stateMachine_update _ _ _ _ u c hr
    rw [List.nil_append] at he
    simp only [publish, he]
    exact hs

theorem pollCompletes_of_events {faults : List Bool} {now : ℚ} {reading : Reading}
    (h : (mon.onPoll faults now reading).2 ≠ []) : mon.PollCompletes faults now reading := by
  unfold onPoll at h
  unfold PollCompletes
  cases hr : (StateMachine.update ⟨now, mon.atsView, mon.heap⟩ reading .poller).run
      ⟨mon.stateMachine, mon.db, [], faults⟩ with
  | error e c =>
    rw [hr] at h
    exact absurd rfl h
  | ok u c => rfl

theorem follows_onAtsPoll {ats : AtsService} {faults : List Bool} {now mono : ℚ} {tier : RegTier}
    {reading : Reading} (h : mon.AtsPollAnnounces ats faults now mono tier reading)
    (code : String) :
    settles code (mon.onAtsPoll ats faults now mono tier reading).2 (mon.db.hasRow code) =
      (mon.onAtsPoll ats faults now mono tier reading).1.db.hasRow code := by
  obtain ⟨hcompletes, hquiet⟩ := h
  unfold onAtsPoll
  cases hr : (AtsService.update ⟨now, mono, tier, mon.heap⟩ reading .atsPoller).run
      ⟨ats, mon.db, [], faults⟩ with
  | error e c =>
    rw [hr] at hcompletes
    cases hcompletes
  | ok u c =>
    have hagrees : AtsService.Agreeing ats.timeSkewAlarmActive code ⟨ats, mon.db, [], faults⟩ c :=
      AtsService.agreeing_update ⟨now, mono, tier, mon.heap⟩ reading .atsPoller hquiet _ u c hr
    obtain ⟨-, new, he, hs⟩ := hagrees rfl
    rw [List.nil_append] at he
    simp only [publish, he]
    exact hs

end Monitor

end GenWatch

import GenWatch.Services.AtsFrame

/-! # The database calls of a companion poll

An update makes its database calls in an order fixed by the poll and the previous
snapshot. The event writes of `emitEvent` are guarded; the alarm rows and the comms
event are not. The update completes exactly when no unguarded call raises, and an
update that is cut short leaves the previous snapshot in place.
-/

namespace GenWatch

open Handler ServiceM

inductive AtsCall where
  | raiseAlarm (code : String)
  | clearAlarm (code : String)
  | writeEvent (type : EventType)
  deriving DecidableEq

namespace AtsCall

/-- An error of this call is caught where it is made. -/
def Guarded : AtsCall → Prop
  | raiseAlarm _ => False
  | clearAlarm _ => False
  | writeEvent type => type ≠ .atsComms

instance : DecidablePred Guarded
  | raiseAlarm _ => inferInstanceAs (Decidable False)
  | clearAlarm _ => inferInstanceAs (Decidable False)
  | writeEvent _ => inferInstanceAs (Decidable (_ ≠ _))

end AtsCall

/-- The calls that raise are guarded ones. -/
def Spares (faults : List Bool) (calls : List AtsCall) : Prop :=
  ∀ p ∈ calls.zip faults, p.2 = true → p.1.Guarded

instance (faults : List Bool) (calls : List AtsCall) : Decidable (Spares faults calls) :=
  inferInstanceAs (Decidable (∀ p ∈ calls.zip faults, _))

@[simp] theorem spares_nil (faults : List Bool) : Spares faults [] := by
  simp [Spares]

theorem spares_append (faults : List Bool) (xs ys : List AtsCall) :
    Spares faults (xs ++ ys) ↔ Spares faults xs ∧ Spares (faults.drop xs.length) ys := by
  induction xs generalizing faults with
  | nil => simp
  | cons x xs ih =>
    cases faults with
    | nil => simp [Spares]
    | cons b faults =>
      have hcons : ∀ zs : List AtsCall, Spares (b :: faults) (x :: zs) ↔
          (b = true → x.Guarded) ∧ Spares faults zs := by
        simp [Spares]
      rw [List.cons_append, hcons, hcons, ih, and_assoc]
      rfl

namespace AtsService

section Rules

variable {α β : Type}

/-- What is known of a part of the update: its calls and its effect on the service, which does not
touch the snapshot, provided no unguarded call raises. -/
structure Performs (x : ServiceM AtsService α) (calls : AtsService → List AtsCall)
    (effect : AtsService → AtsService) : Prop where
  keeps : ∀ ats, (effect ats).snap = ats.snap
  ok : ∀ c, Spares c.faults (calls c.self) → ∃ a c', x.run c = .ok a c' ∧
    c'.self = effect c.self ∧ c'.faults = c.faults.drop (calls c.self).length
  error : ∀ c, ¬Spares c.faults (calls c.self) →
    ∃ e c', x.run c = .error e c' ∧ c'.self.snap = c.self.snap

variable {x : ServiceM AtsService α} {p q : AtsService → List AtsCall}
  {f g : AtsService → AtsService}

theorem Performs.pure (a : α) : Performs (pure a : ServiceM AtsService α) (fun _ => []) id where
  keeps _ := rfl
  ok c _ := ⟨a, c, rfl, rfl, rfl⟩
  error c h := absurd (spares_nil c.faults) h

theorem Performs.bind {y : α → ServiceM AtsService β} (hx : Performs x p f)
    (hy : ∀ a, Performs (y a) q g) :
    Performs (x >>= y) (fun ats => p ats ++ q (f ats)) (g ∘ f) where
  keeps ats := by
    obtain ⟨a⟩ : Nonempty α := by
      obtain ⟨a, -⟩ := hx.ok ⟨ats, .empty, [], []⟩ (by simp [Spares])
      exact ⟨a⟩
    exact ((hy a).keeps (f ats)).trans (hx.keeps ats)
  ok c h := by
    obtain ⟨hp, hq⟩ := (spares_append _ _ _).mp h
    obtain ⟨a, c₁, h₁, s₁, f₁⟩ := hx.ok c hp
    rw [← f₁, ← s₁] at hq
    obtain ⟨b, c₂, h₂, s₂, f₂⟩ := (hy a).ok c₁ hq
    refine ⟨b, c₂, bind_ok.mpr ⟨a, c₁, h₁, h₂⟩, by rw [s₂, s₁]; rfl, ?_⟩
    rw [f₂, f₁, s₁, List.drop_drop, List.length_append]
  error c h := by
    rw [spares_append, not_and_or] at h
    by_cases hp : Spares c.faults (p c.self)
    · obtain ⟨a, c₁, h₁, s₁, f₁⟩ := hx.ok c hp
      have hq := h.resolve_left (not_not.mpr hp)
      rw [← f₁, ← s₁] at hq
      obtain ⟨e, c₂, h₂, s₂⟩ := (hy a).error c₁ hq
      refine ⟨e, c₂, ?_, by rw [s₂, s₁, hx.keeps]⟩
      rw [EStateM.run_bind, h₁]
      exact h₂
    · obtain ⟨e, c₁, h₁, s₁⟩ := hx.error c hp
      refine ⟨e, c₁, ?_, s₁⟩
      rw [EStateM.run_bind, h₁]

theorem Performs.getSelf {y : AtsService → ServiceM AtsService α}
    (calls : AtsService → AtsService → List AtsCall)
    (effect : AtsService → AtsService → AtsService)
    (hy : ∀ ats, Performs (y ats) (calls ats) (effect ats)) :
    Performs (ServiceM.getSelf >>= y) (fun ats => calls ats ats) (fun ats => effect ats ats) where
  keeps ats := (hy ats).keeps ats
  ok c := (hy c.self).ok c
  error c := (hy c.self).error c

theorem Performs.modifySelf (effect : AtsService → AtsService)
    (h : ∀ ats, (effect ats).snap = ats.snap) :
    Performs (ServiceM.modifySelf effect) (fun _ => []) effect where
  keeps := h
  ok _ _ := ⟨(), _, rfl, rfl, rfl⟩
  error c h := absurd (spares_nil c.faults) h

theorem Performs.dbCall {op : Database → α × Database} (call : AtsCall) (h : ¬call.Guarded) :
    Performs (ServiceM.dbCall op) (fun _ => [call]) id where
  keeps _ := rfl
  ok c hs := by
    obtain ⟨self, db, emitted, faults⟩ := c
    rcases faults with _ | ⟨_ | _, rest⟩
    · exact ⟨_, _, rfl, rfl, rfl⟩
    · exact ⟨_, _, rfl, rfl, rfl⟩
    · exact absurd (hs (call, true) (by simp) rfl) h
  error c hs := by
    obtain ⟨self, db, emitted, faults⟩ := c
    rcases faults with _ | ⟨_ | _, rest⟩
    · exact absurd (by simp [Spares]) hs
    · exact absurd (by simp [Spares]) hs
    · exact ⟨_, _, rfl, rfl⟩

theorem Performs.emitEvent (e : Event) (severity : Severity) {type : EventType} (message : Message)
    (info : Option String) (now : ℚ) (h : type ≠ .atsComms) :
    Performs (emitEvent e severity type message info now) (fun _ => [.writeEvent type]) id where
  keeps _ := rfl
  ok c _ := by
    obtain ⟨self, db, emitted, faults⟩ := c
    rcases faults with _ | ⟨_ | _, rest⟩ <;> exact ⟨_, _, rfl, rfl, rfl⟩
  error c hs := by
    refine absurd (fun p hp _ => ?_) hs
    have hcall : p.1 = .writeEvent type := List.mem_singleton.mp (List.of_mem_zip hp).1
    rw [hcall]
    exact h

theorem Performs.forM {ι : Type} (l : List ι) {y : ι → ServiceM AtsService PUnit}
    {calls : ι → List AtsCall} (hy : ∀ i, Performs (y i) (fun _ => calls i) id) :
    Performs (l.forM y) (fun _ => l.flatMap calls) id := by
  induction l with
  | nil => exact Performs.pure _
  | cons i l ih => simpa using Performs.bind (hy i) fun _ => ih

end Rules

section Parts

variable (now : ℚ)

def positionCalls (prev new : LoadSource) : List AtsCall :=
  if new ≠ prev ∧ ¬(prev = .unknown ∧ new = .utility) then [.writeEvent .atsPosition] else []

def sourceCalls (prev new : Option Bool) : List AtsCall :=
  if new.isSome ∧ prev.isSome ∧ new ≠ prev then [.writeEvent .atsSource] else []

def modeCalls (prev new : AtsMode) : List AtsCall :=
  if new ≠ prev ∧ prev ≠ .unknown then [.writeEvent .atsMode] else []

def raiseFaultCalls (code : String) : List AtsCall := [.raiseAlarm code, .writeEvent .alarm]

def clearFaultCalls (code : String) : List AtsCall := [.clearAlarm code, .writeEvent .alarm]

def cmdEdgeCalls (mono : ℚ) (wrote : Option ℚ) (was isNow : Bool) : List AtsCall :=
  if was ≠ isNow ∧ ¬isEcho mono wrote then [.writeEvent .atsCommand] else []

def maintainedCmdCalls (ats : AtsService) (mono : ℚ) (new : AtsSnapshot) : List AtsCall :=
  let prev := ats.snap
  if prev.lastReadingTs = 0 then []
  else
    cmdEdgeCalls mono (ats.cmdWriteMonotonic (.inhibit, new.cmdInhibitActive))
      prev.cmdInhibitActive new.cmdInhibitActive ++
    cmdEdgeCalls mono (ats.cmdWriteMonotonic (.forceTransfer, new.cmdForceTransferActive))
      prev.cmdForceTransferActive new.cmdForceTransferActive

def rebootCalls (prevUptimeS uptimeS : ℤ) : List AtsCall :=
  if 0 < prevUptimeS ∧ uptimeS < prevUptimeS then [.writeEvent .atsReboot] else []

def timeSkewCalls (active : Bool) (wallclock : Option ℚ) : List AtsCall :=
  match wallclock with
  | none => []
  | some w =>
    if timeSkewThresholdS < |w - now| ∧ ¬active then [.raiseAlarm timeSkewAlarmCode]
    else if |w - now| ≤ timeSkewThresholdS ∧ active then [.clearAlarm timeSkewAlarmCode]
    else []

def commsCalls (prev new : CommsState) : List AtsCall :=
  if new ≠ prev then [.writeEvent .atsComms] else []

def icdCalls (validated : Bool) (major minor : ℤ) : List AtsCall :=
  if ¬validated ∧ 0 < major ∧ (icdCompatibility major minor).isSome then
    [.writeEvent .atsIcdVersion]
  else []

theorem performs_checkPosition (prev new : LoadSource) :
    Performs (checkPosition prev new now) (fun _ => positionCalls prev new) id := by
  unfold checkPosition emitPosition positionCalls
  by_cases h : new = prev
  · simpa [h] using Performs.pure PUnit.unit
  by_cases hu : prev = .unknown ∧ new = .utility
  · simpa [h, hu] using Performs.pure PUnit.unit
  · simp only [h, hu, ne_eq, not_false_eq_true, if_true, if_false, and_true]
    exact Performs.emitEvent _ _ _ _ _ (by decide)

theorem performs_checkSource (normal : Bool) (prev new : Option Bool) :
    Performs (checkSource normal prev new now) (fun _ => sourceCalls prev new) id := by
  unfold checkSource emitSource sourceCalls
  rcases new with _ | available
  · simpa using Performs.pure PUnit.unit
  rcases prev with _ | was
  · simpa using Performs.pure PUnit.unit
  by_cases h : available = was
  · simpa [h] using Performs.pure PUnit.unit
  · simp only [h, ne_eq, not_false_eq_true, if_true, Option.isSome_some, Option.some.injEq,
      and_self]
    exact Performs.emitEvent _ _ _ _ _ (by decide)

theorem performs_checkMode (prev new : AtsMode) :
    Performs (checkMode prev new now) (fun _ => modeCalls prev new) id := by
  unfold checkMode modeCalls
  split
  · exact Performs.emitEvent _ _ _ _ _ (by decide)
  · exact Performs.pure _

theorem performs_raiseFault (m : RegisterMap) (code : String) :
    Performs (raiseFault m now code) (fun _ => raiseFaultCalls code) id :=
  Performs.bind (Performs.dbCall (.raiseAlarm code) id) fun _ =>
    Performs.emitEvent _ _ _ _ _ (by decide)

theorem performs_clearFault (m : RegisterMap) (code : String) :
    Performs (clearFault m now code) (fun _ => clearFaultCalls code) id :=
  Performs.bind (Performs.dbCall (.clearAlarm code) id) fun _ =>
    Performs.emitEvent _ _ _ _ _ (by decide)

theorem performs_checkCmdEdge (mono : ℚ) (command : Action) (was isNow : Bool) :
    Performs (checkCmdEdge mono now command was isNow)
      (fun ats => cmdEdgeCalls mono (ats.cmdWriteMonotonic (command, isNow)) was isNow) id := by
  refine Performs.getSelf
    (fun ats _ => cmdEdgeCalls mono (ats.cmdWriteMonotonic (command, isNow)) was isNow)
    (fun _ => id) fun ats => ?_
  unfold cmdEdgeCalls
  split
  · exact Performs.emitEvent _ _ _ _ _ (by decide)
  · exact Performs.pure _

theorem performs_checkMaintainedCmdEdges (env : AtsPollEnv) (prev new : AtsSnapshot) :
    Performs (checkMaintainedCmdEdges env prev new)
      (fun ats => maintainedCmdCalls { ats with snap := prev } env.mono new) id := by
  unfold checkMaintainedCmdEdges maintainedCmdCalls
  split
  · rename_i h
    simpa only [h, if_true] using Performs.pure PUnit.unit
  · rename_i h
    simp only [h, if_false]
    exact Performs.bind (performs_checkCmdEdge _ _ _ _ _) fun _ => performs_checkCmdEdge _ _ _ _ _

theorem performs_checkReboot (uptimeS : ℤ) :
    Performs (checkReboot uptimeS now) (fun ats => rebootCalls ats.prevUptimeS uptimeS)
      (fun ats => { ats with prevUptimeS := uptimeS }) := by
  have hannounce : ∀ prevUptimeS, Performs (announceReboot prevUptimeS uptimeS now)
      (fun _ => rebootCalls prevUptimeS uptimeS) id := by
    intro prevUptimeS
    unfold announceReboot rebootCalls
    split
    · exact Performs.emitEvent _ _ _ _ _ (by decide)
    · exact Performs.pure _
  have hbind := Performs.getSelf (fun ats _ => rebootCalls ats.prevUptimeS uptimeS ++ [])
    (fun _ ats => { ats with prevUptimeS := uptimeS }) fun ats =>
    Performs.bind (hannounce ats.prevUptimeS) fun _ =>
      Performs.modifySelf (fun ats => { ats with prevUptimeS := uptimeS }) fun _ => rfl
  simp only [List.append_nil] at hbind
  exact hbind

/-- The service after the clock-skew check of a poll that `ats` began. -/
def noteTimeSkew (wallclock : Option ℚ) (ats ats' : AtsService) : AtsService :=
  match wallclock with
  | none => ats'
  | some w =>
    if timeSkewThresholdS < |w - now| ∧ ¬ats.timeSkewAlarmActive then
      { ats' with timeSkewAlarmActive := true }
    else if |w - now| ≤ timeSkewThresholdS ∧ ats.timeSkewAlarmActive then
      { ats' with timeSkewAlarmActive := false }
    else ats'

@[simp] theorem noteTimeSkew_icdVersionValidated (wallclock : Option ℚ) (ats ats' : AtsService) :
    (noteTimeSkew now wallclock ats ats').icdVersionValidated = ats'.icdVersionValidated := by
  unfold noteTimeSkew
  split
  · rfl
  · split_ifs <;> rfl

theorem noteTimeSkew_timeSkewAlarmActive (wallclock : Option ℚ) {ats ats' : AtsService}
    (h : ats'.timeSkewAlarmActive = ats.timeSkewAlarmActive) :
    (noteTimeSkew now wallclock ats' ats').timeSkewAlarmActive =
      (noteTimeSkew now wallclock ats ats).timeSkewAlarmActive := by
  unfold noteTimeSkew
  rw [h]
  split
  · exact h
  · split_ifs
    · rfl
    · rfl
    · exact h

theorem performs_checkTimeSkew (wallclock : Option ℚ) :
    Performs (checkTimeSkew wallclock now)
      (fun ats => timeSkewCalls now ats.timeSkewAlarmActive wallclock)
      (fun ats => noteTimeSkew now wallclock ats ats) := by
  unfold checkTimeSkew
  rcases wallclock with _ | w
  · exact Performs.pure _
  refine Performs.getSelf (fun ats _ => timeSkewCalls now ats.timeSkewAlarmActive (some w))
    (noteTimeSkew now (some w)) fun ats => ?_
  unfold timeSkewCalls noteTimeSkew
  by_cases hraise : timeSkewThresholdS < |w - now| ∧ ¬ats.timeSkewAlarmActive
  · rw [if_pos hraise]
    simp only [if_pos hraise]
    exact Performs.bind
      (Performs.modifySelf (fun ats => { ats with timeSkewAlarmActive := true }) fun _ => rfl)
      fun _ => Performs.bind (Performs.dbCall (.raiseAlarm timeSkewAlarmCode) id) fun _ =>
        Performs.pure _
  by_cases hclear : |w - now| ≤ timeSkewThresholdS ∧ ats.timeSkewAlarmActive
  · rw [if_neg hraise, if_pos hclear]
    simp only [if_neg hraise, if_pos hclear]
    exact Performs.bind
      (Performs.modifySelf (fun ats => { ats with timeSkewAlarmActive := false }) fun _ => rfl)
      fun _ => Performs.bind (Performs.dbCall (.clearAlarm timeSkewAlarmCode) id) fun _ =>
        Performs.pure _
  · rw [if_neg hraise, if_neg hclear]
    simp only [if_neg hraise, if_neg hclear]
    exact Performs.pure _

theorem performs_checkComms (env : AtsPollEnv) (prev comms : CommsRef) :
    Performs (checkComms env prev comms)
      (fun _ => commsCalls (env.heap prev).state (env.heap comms).state) id := by
  unfold checkComms commsCalls
  by_cases h : (env.heap comms).state ≠ (env.heap prev).state
  · have hemit : ∀ e : Event, Performs (emit e : ServiceM AtsService Unit) (fun _ => []) id :=
      fun e => ⟨fun _ => rfl, fun _ _ => ⟨_, _, rfl, rfl, rfl⟩,
        fun c h => absurd (spares_nil c.faults) h⟩
    have hcall : ¬AtsCall.Guarded (.writeEvent .atsComms) := fun h => h rfl
    simp only [if_pos h]
    exact Performs.bind (Performs.dbCall (.writeEvent .atsComms) hcall) fun _ => hemit _
  · simp only [if_neg h]
    exact Performs.pure _

/-- The service after the version check of a poll that `ats` began. -/
def noteIcdVersion (major : ℤ) (ats ats' : AtsService) : AtsService :=
  if ¬ats.icdVersionValidated ∧ 0 < major then { ats' with icdVersionValidated := true } else ats'

@[simp] theorem noteIcdVersion_timeSkewAlarmActive (major : ℤ) (ats ats' : AtsService) :
    (noteIcdVersion major ats ats').timeSkewAlarmActive = ats'.timeSkewAlarmActive := by
  unfold noteIcdVersion
  split_ifs <;> rfl

theorem performs_checkIcdVersion (major minor : ℤ) :
    Performs (checkIcdVersion major minor now)
      (fun ats => icdCalls ats.icdVersionValidated major minor)
      (fun ats => noteIcdVersion major ats ats) := by
  refine Performs.getSelf (fun ats _ => icdCalls ats.icdVersionValidated major minor)
    (noteIcdVersion major) fun ats => ?_
  unfold icdCalls noteIcdVersion
  by_cases h : ¬ats.icdVersionValidated ∧ 0 < major
  · have hvalidate : Performs (validateIcdVersion major minor now)
        (fun _ => if (icdCompatibility major minor).isSome then [.writeEvent .atsIcdVersion]
          else []) id := by
      unfold validateIcdVersion
      split
      · rename_i hcomp
        simp only [hcomp, Option.isSome_some, if_true]
        exact Performs.emitEvent _ _ _ _ _ (by decide)
      · rename_i hcomp
        simp only [hcomp, Option.isSome_none, Bool.false_eq_true, if_false]
        exact Performs.pure _
    have hcalls : (¬ats.icdVersionValidated ∧ 0 < major ∧
        (icdCompatibility major minor).isSome) ↔ (icdCompatibility major minor).isSome :=
      ⟨fun h' => h'.2.2, fun h' => ⟨h.1, h.2, h'⟩⟩
    have hbind := Performs.bind hvalidate fun _ =>
      Performs.modifySelf (fun ats => { ats with icdVersionValidated := true }) fun _ => rfl
    simp only [List.append_nil] at hbind
    simp only [if_pos h, hcalls]
    exact hbind
  · have hnone : ¬(¬ats.icdVersionValidated ∧ 0 < major ∧
        (icdCompatibility major minor).isSome) := fun h' => h ⟨h'.1, h'.2.1⟩
    simp only [if_neg h, if_neg hnone]
    exact Performs.pure _

end Parts

/-- The database calls of an update, in order, as long as nothing cuts it short. -/
def updateCalls (ats : AtsService) (env : AtsPollEnv) (reading : Reading) (comms : CommsRef) :
    List AtsCall :=
  let prev := ats.snap
  let new := ats.nextSnapshot env reading comms
  let v := reading.values
  positionCalls prev.position new.position ++
  (sourceCalls prev.normalAvailable (boolOrNone (v "normal_available")) ++
  (sourceCalls prev.emergencyAvailable (boolOrNone (v "emergency_available")) ++
  (modeCalls prev.atsMode new.atsMode ++
  ((sortedCodes (new.faultCodes \ prev.faultCodes)).flatMap raiseFaultCalls ++
  ((sortedCodes (prev.faultCodes \ new.faultCodes)).flatMap clearFaultCalls ++
  (maintainedCmdCalls ats env.mono new ++
  (rebootCalls ats.prevUptimeS new.atsPiUptimeS ++
  timeSkewCalls env.now ats.timeSkewAlarmActive (epochOrNone (v "ats_pi_wallclock"))))))))) ++
  (commsCalls (env.heap prev.comms).state (env.heap comms).state ++
  icdCalls ats.icdVersionValidated new.icdVersion.1 new.icdVersion.2)

/-- Everything an update does before it replaces the snapshot. -/
def announceAll (ats : AtsService) (env : AtsPollEnv) (reading : Reading) (comms : CommsRef) :
    ServiceM AtsService Unit := do
  let new := ats.nextSnapshot env reading comms
  announceChanges ats env reading.values new
  checkComms env ats.snap.comms comms
  checkIcdVersion new.icdVersion.1 new.icdVersion.2 env.now

theorem update_eq (env : AtsPollEnv) (reading : Reading) (comms : CommsRef) :
    update env reading comms = getSelf >>= fun ats => announceAll ats env reading comms >>=
      fun _ => modifySelf fun ats' => { ats' with snap := ats.nextSnapshot env reading comms } := by
  simp only [update, announceAll, bind_assoc]

theorem performs_announceAll (ats : AtsService) (env : AtsPollEnv) (reading : Reading)
    (comms : CommsRef) :
    ∃ calls effect, Performs (announceAll ats env reading comms) calls effect ∧
      calls ats = updateCalls ats env reading comms ∧
      (effect ats).timeSkewAlarmActive = (noteTimeSkew env.now
        (epochOrNone (reading.values "ats_pi_wallclock")) ats ats).timeSkewAlarmActive := by
  have hchanges := Performs.bind (performs_checkPosition env.now ats.snap.position
      (ats.nextSnapshot env reading comms).position) fun _ =>
    Performs.bind (performs_checkSource env.now true ats.snap.normalAvailable
      (boolOrNone (reading.values "normal_available"))) fun _ =>
    Performs.bind (performs_checkSource env.now false ats.snap.emergencyAvailable
      (boolOrNone (reading.values "emergency_available"))) fun _ =>
    Performs.bind (performs_checkMode env.now ats.snap.atsMode
      (ats.nextSnapshot env reading comms).atsMode) fun _ =>
    Performs.bind (Performs.forM (sortedCodes ((ats.nextSnapshot env reading comms).faultCodes \
      ats.snap.faultCodes)) (performs_raiseFault env.now ats.regmap)) fun _ =>
    Performs.bind (Performs.forM (sortedCodes (ats.snap.faultCodes \
      (ats.nextSnapshot env reading comms).faultCodes))
      (performs_clearFault env.now ats.regmap)) fun _ =>
    Performs.bind (performs_checkMaintainedCmdEdges env ats.snap
      (ats.nextSnapshot env reading comms)) fun _ =>
    Performs.bind (performs_checkReboot env.now
      (ats.nextSnapshot env reading comms).atsPiUptimeS) fun _ =>
      performs_checkTimeSkew env.now (epochOrNone (reading.values "ats_pi_wallclock"))
  have hall := Performs.bind hchanges fun _ =>
    Performs.bind (performs_checkComms env ats.snap.comms comms) fun _ =>
      performs_checkIcdVersion env.now (ats.nextSnapshot env reading comms).icdVersion.1
        (ats.nextSnapshot env reading comms).icdVersion.2
  refine ⟨_, _, hall, ?_, ?_⟩
  · simp only [updateCalls, Function.comp_apply, id_eq, noteTimeSkew_icdVersionValidated]
  · simp only [Function.comp_apply, id_eq, noteIcdVersion_timeSkewAlarmActive]
    exact noteTimeSkew_timeSkewAlarmActive _ _ rfl

/-- An update completes when no unguarded call raises, and otherwise keeps the snapshot. -/
theorem update_run (env : AtsPollEnv) (reading : Reading) (comms : CommsRef)
    (c : Ctx AtsService) :
    (Spares c.faults (updateCalls c.self env reading comms) → ∃ c',
      (update env reading comms).run c = .ok () c' ∧
        c'.self.snap = c.self.nextSnapshot env reading comms ∧
        c'.self.timeSkewAlarmActive = (noteTimeSkew env.now
          (epochOrNone (reading.values "ats_pi_wallclock")) c.self c.self).timeSkewAlarmActive) ∧
    (¬Spares c.faults (updateCalls c.self env reading comms) → ∃ e c',
      (update env reading comms).run c = .error e c' ∧ c'.self.snap = c.self.snap) := by
  obtain ⟨calls, effect, hall, hcalls, hskew⟩ := performs_announceAll c.self env reading comms
  have hrun : (update env reading comms).run c = (announceAll c.self env reading comms >>=
      fun _ => modifySelf fun ats' =>
        { ats' with snap := c.self.nextSnapshot env reading comms }).run c := by
    rw [update_eq]
    rfl
  rw [hrun, ← hcalls]
  constructor
  · intro hs
    obtain ⟨u, c₁, h₁, hself, -⟩ := hall.ok c hs
    refine ⟨_, seq_ok.mpr ⟨c₁, h₁, rfl⟩, rfl, ?_⟩
    rw [← hskew, ← hself]
  · intro hs
    obtain ⟨e, c₁, h₁, hsnap⟩ := hall.error c hs
    refine ⟨e, c₁, ?_, hsnap⟩
    rw [EStateM.run_bind, h₁]

end AtsService

end GenWatch

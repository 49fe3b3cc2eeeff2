import GenWatch.Services.AtsFrame

/-! # What a companion poll announces of its switch

A completed update announces the new position of the switch and the read-back edges
of the maintained commands in two of its parts. The others announce neither, and no
part touches the log of our own command writes.
-/

namespace GenWatch

open Handler ServiceM

def Event.switching : Event → Bool
  | .atsPosition _ _ _ => true
  | .atsCommandExternal _ _ _ => true
  | _ => false

namespace AtsService

variable {β : Type}

/-- What a part keeps that announces nothing a selection of events picks. -/
structure Silent (sel : Event → Option β) (c c' : Ctx AtsService) : Prop where
  writes : c'.self.cmdWriteMonotonic = c.self.cmdWriteMonotonic
  emits : c'.emitted.filterMap sel = c.emitted.filterMap sel

variable {sel : Event → Option β}

instance : Std.Refl (Silent sel) := ⟨fun _ => ⟨rfl, rfl⟩⟩

instance : IsTrans (Ctx AtsService) (Silent sel) where
  trans _ _ _ h h' := ⟨h'.writes.trans h.writes, h'.emits.trans h.emits⟩

theorem silent_dbCall {α : Type} (op : Database → α × Database) :
    Relates (Silent sel) (dbCall op : ServiceM AtsService α) :=
  relates_dbCall (fun _ _ => ⟨rfl, rfl⟩) fun _ _ => ⟨rfl, rfl⟩

theorem silent_modifySelf {f : AtsService → AtsService}
    (h : ∀ ats, (f ats).cmdWriteMonotonic = ats.cmdWriteMonotonic) :
    Relates (Silent sel) (modifySelf f) :=
  Relates.modify fun c => ⟨h c.self, rfl⟩

theorem silent_emit {e : Event} (h : sel e = none) :
    Relates (Silent sel) (emit e : ServiceM AtsService Unit) :=
  Relates.modify fun c => ⟨rfl, by simp [h]⟩

theorem silent_emitEvent {e : Event} {severity : Severity} {type : EventType} {message : Message}
    {info : Option String} {now : ℚ} (h : sel e = none) :
    Relates (Silent sel) (emitEvent e severity type message info now) := by
  intro c
  obtain ⟨db, faults, hr, -⟩ := emitEvent_run e severity type message info now c
  rw [hr]
  exact ⟨rfl, by simp [finalState, h]⟩

section Parts

variable (hsel : ∀ e : Event, e.switching = false → sel e = none) (now : ℚ)

include hsel

theorem silent_checkSource (normal : Bool) (prev new : Option Bool) :
    Relates (Silent sel) (checkSource normal prev new now) := by
  unfold checkSource
  split
  · exact Relates.ite (fun _ => silent_emitEvent (hsel _ rfl)) fun _ => Relates.pure _
  · exact Relates.pure _

theorem silent_checkMode (prev new : AtsMode) : Relates (Silent sel) (checkMode prev new now) :=
  Relates.ite (fun _ => silent_emitEvent (hsel _ rfl)) fun _ => Relates.pure _

theorem silent_raiseFault (m : RegisterMap) (code : String) :
    Relates (Silent sel) (raiseFault m now code) :=
  Relates.bind (silent_dbCall _) fun _ => silent_emitEvent (hsel _ rfl)

theorem silent_clearFault (m : RegisterMap) (code : String) :
    Relates (Silent sel) (clearFault m now code) :=
  Relates.bind (silent_dbCall _) fun _ => silent_emitEvent (hsel _ rfl)

theorem silent_checkReboot (uptimeS : ℤ) : Relates (Silent sel) (checkReboot uptimeS now) :=
  Relates.bind relates_getSelf fun _ => Relates.bind
    (Relates.ite (fun _ => silent_emitEvent (hsel _ rfl)) fun _ => Relates.pure _) fun _ =>
    silent_modifySelf fun _ => rfl

theorem silent_checkComms (env : AtsPollEnv) (prev comms : CommsRef) :
    Relates (Silent sel) (checkComms env prev comms) :=
  Relates.ite (fun _ => Relates.bind (silent_dbCall _) fun _ => silent_emit (hsel _ rfl)) fun _ =>
    Relates.pure _

theorem silent_checkIcdVersion (major minor : ℤ) :
    Relates (Silent sel) (checkIcdVersion major minor now) := by
  refine Relates.bind relates_getSelf fun ats => Relates.ite (fun _ => ?_) fun _ => Relates.pure _
  refine Relates.bind ?_ fun _ => silent_modifySelf fun _ => rfl
  unfold validateIcdVersion
  split
  · exact silent_emitEvent (hsel _ rfl)
  · exact Relates.pure _

omit hsel in
theorem silent_checkTimeSkew (wallclock : Option ℚ) :
    Relates (Silent sel) (checkTimeSkew wallclock now) := by
  unfold checkTimeSkew
  split
  · exact Relates.pure _
  refine Relates.bind relates_getSelf fun ats => Relates.ite (fun _ => ?_) fun _ =>
    Relates.ite (fun _ => ?_) fun _ => Relates.pure _
  · exact Relates.bind (silent_modifySelf fun _ => rfl) fun _ =>
      Relates.bind (silent_dbCall _) fun _ => Relates.pure _
  · exact Relates.bind (silent_modifySelf fun _ => rfl) fun _ =>
      Relates.bind (silent_dbCall _) fun _ => Relates.pure _

omit hsel in
theorem silent_checkPosition (h : ∀ e, sel e = none) (prev new : LoadSource) :
    Relates (Silent sel) (checkPosition prev new now) :=
  Relates.ite (fun _ => Relates.ite (fun _ => Relates.pure _) fun _ => silent_emitEvent (h _))
    fun _ => Relates.pure _

omit hsel in
theorem silent_checkMaintainedCmdEdges (h : ∀ e, sel e = none) (env : AtsPollEnv)
    (prev new : AtsSnapshot) : Relates (Silent sel) (checkMaintainedCmdEdges env prev new) := by
  have hedge : ∀ mono now command was isNow,
      Relates (Silent sel) (checkCmdEdge mono now command was isNow) := fun _ _ _ _ _ =>
    Relates.bind relates_getSelf fun _ => Relates.ite (fun _ => silent_emitEvent (h _)) fun _ =>
      Relates.pure _
  exact Relates.ite (fun _ => Relates.pure _) fun _ =>
    Relates.bind (hedge _ _ _ _ _) fun _ => hedge _ _ _ _ _

end Parts

theorem update_cmdWriteMonotonic (env : AtsPollEnv) (reading : Reading) (ref : CommsRef)
    (c : Ctx AtsService) :
    (finalState ((update env reading ref).run c)).self.cmdWriteMonotonic =
      c.self.cmdWriteMonotonic := by
  have hnone : ∀ e : Event, (fun _ => none : Event → Option Unit) e = none := fun _ => rfl
  have hsel : ∀ e : Event, e.switching = false → (fun _ => none : Event → Option Unit) e = none :=
    fun _ _ => rfl
  have hall : Relates (Silent fun _ => (none : Option Unit)) (update env reading ref) := by
    refine Relates.bind relates_getSelf fun ats => Relates.bind ?_ fun _ =>
      Relates.bind (silent_checkComms hsel _ _ _) fun _ =>
      Relates.bind (silent_checkIcdVersion hsel _ _ _) fun _ => silent_modifySelf fun _ => rfl
    refine Relates.bind (silent_checkPosition _ hnone _ _) fun _ => ?_
    refine Relates.bind (silent_checkSource hsel _ _ _ _) fun _ => ?_
    refine Relates.bind (silent_checkSource hsel _ _ _ _) fun _ => ?_
    refine Relates.bind (silent_checkMode hsel _ _ _) fun _ => ?_
    refine Relates.bind (Relates.forM fun code _ => silent_raiseFault hsel _ _ code) fun _ => ?_
    refine Relates.bind (Relates.forM fun code _ => silent_clearFault hsel _ _ code) fun _ => ?_
    refine Relates.bind (silent_checkMaintainedCmdEdges hnone _ _ _) fun _ => ?_
    exact Relates.bind (silent_checkReboot hsel _ _) fun _ => silent_checkTimeSkew _ _
  exact (hall c).writes

/-- The announcement of a new position, except for the first one at the utility. -/
def positionEvents (prev new : LoadSource) (now : ℚ) : List Event :=
  if new ≠ prev ∧ ¬(prev = .unknown ∧ new = .utility) then [.atsPosition prev new now] else []

/-- The announcement of a read-back edge that no recent write of ours explains. -/
def cmdEdgeEvents (ats : AtsService) (mono now : ℚ) (command : Action) (was isNow : Bool) :
    List Event :=
  if was ≠ isNow ∧ ¬isEcho mono (ats.cmdWriteMonotonic (command, isNow)) then
    [.atsCommandExternal command isNow now]
  else []

def maintainedCmdEvents (ats : AtsService) (env : AtsPollEnv) (prev new : AtsSnapshot) :
    List Event :=
  if prev.lastReadingTs = 0 then []
  else
    cmdEdgeEvents ats env.mono env.now .inhibit prev.cmdInhibitActive new.cmdInhibitActive ++
    cmdEdgeEvents ats env.mono env.now .forceTransfer prev.cmdForceTransferActive
      new.cmdForceTransferActive

theorem emitEvent_ok {e : Event} {severity : Severity} {type : EventType} {message : Message}
    {info : Option String} {now : ℚ} {c c' : Ctx AtsService} {u : Unit}
    (h : (emitEvent e severity type message info now).run c = .ok u c') :
    c'.self = c.self ∧ c'.emitted = c.emitted ++ [e] := by
  obtain ⟨db, faults, hr, -⟩ := emitEvent_run e severity type message info now c
  rw [hr] at h
  cases h
  exact ⟨rfl, rfl⟩

theorem checkPosition_ok {prev new : LoadSource} {now : ℚ} {c c' : Ctx AtsService} {u : Unit}
    (h : (checkPosition prev new now).run c = .ok u c') :
    c'.self = c.self ∧ c'.emitted = c.emitted ++ positionEvents prev new now := by
  unfold checkPosition emitPosition at h
  unfold positionEvents
  by_cases hne : new ≠ prev
  · rw [if_pos hne] at h
    by_cases hboot : prev = .unknown ∧ new = .utility
    · rw [if_pos hboot] at h
      obtain ⟨-, rfl⟩ := pure_ok.mp h
      rw [if_neg fun hn => hn.2 hboot, List.append_nil]
      exact ⟨rfl, rfl⟩
    · rw [if_neg hboot] at h
      rw [if_pos ⟨hne, hboot⟩]
      exact emitEvent_ok h
  · rw [if_neg hne] at h
    obtain ⟨-, rfl⟩ := pure_ok.mp h
    rw [if_neg fun hn => hne hn.1, List.append_nil]
    exact ⟨rfl, rfl⟩

theorem checkCmdEdge_ok {mono now : ℚ} {command : Action} {was isNow : Bool}
    {c c' : Ctx AtsService} {u : Unit}
    (h : (checkCmdEdge mono now command was isNow).run c = .ok u c') :
    c'.self = c.self ∧
      c'.emitted = c.emitted ++ cmdEdgeEvents c.self mono now command was isNow := by
  obtain ⟨ats, c₀, hg, h⟩ := bind_ok.mp h
  obtain ⟨rfl, rfl⟩ := getSelf_ok.mp hg
  unfold cmdEdgeEvents
  split at h
  · rename_i hedge
    rw [if_pos hedge]
    exact emitEvent_ok h
  · rename_i hedge
    obtain ⟨-, rfl⟩ := pure_ok.mp h
    rw [if_neg hedge, List.append_nil]
    exact ⟨rfl, rfl⟩

theorem checkMaintainedCmdEdges_ok {env : AtsPollEnv} {prev new : AtsSnapshot}
    {c c' : Ctx AtsService} {u : Unit}
    (h : (checkMaintainedCmdEdges env prev new).run c = .ok u c') :
    c'.self = c.self ∧ c'.emitted = c.emitted ++ maintainedCmdEvents c.self env prev new := by
  unfold checkMaintainedCmdEdges at h
  unfold maintainedCmdEvents
  split at h
  · rename_i hfirst
    obtain ⟨-, rfl⟩ := pure_ok.mp h
    rw [if_pos hfirst, List.append_nil]
    exact ⟨rfl, rfl⟩
  · rename_i hfirst
    obtain ⟨c₁, h₁, h₂⟩ := seq_ok.mp h
    obtain ⟨s₁, e₁⟩ := checkCmdEdge_ok h₁
    obtain ⟨s₂, e₂⟩ := checkCmdEdge_ok h₂
    rw [if_neg hfirst, e₂, e₁, s₁, List.append_assoc]
    exact ⟨s₂.trans s₁, rfl⟩

/-- Among the events of a completed update, those about the switch are those of the two parts. -/
theorem update_emits {env : AtsPollEnv} {reading : Reading} {ref : CommsRef}
    {c c' : Ctx AtsService} {u : Unit} (hsel : ∀ e : Event, e.switching = false → sel e = none)
    (h : (update env reading ref).run c = .ok u c') :
    c'.emitted.filterMap sel = c.emitted.filterMap sel ++
      (positionEvents c.self.snap.position (c.self.nextSnapshot env reading ref).position env.now ++
        maintainedCmdEvents c.self env c.self.snap
          (c.self.nextSnapshot env reading ref)).filterMap sel := by
  obtain ⟨ats, c₀, hg, h⟩ := bind_ok.mp h
  obtain ⟨rfl, rfl⟩ := getSelf_ok.mp hg
  obtain ⟨cₐ, hₐ, h⟩ := seq_ok.mp h
  obtain ⟨c₁, h₁, hₐ⟩ := seq_ok.mp hₐ
  obtain ⟨s₁, e₁⟩ := checkPosition_ok h₁
  obtain ⟨c₂, h₂, hₐ⟩ := seq_ok.mp hₐ
  obtain ⟨c₃, h₃, hₐ⟩ := seq_ok.mp hₐ
  obtain ⟨c₄, h₄, hₐ⟩ := seq_ok.mp hₐ
  obtain ⟨c₅, h₅, hₐ⟩ := seq_ok.mp hₐ
  obtain ⟨c₆, h₆, hₐ⟩ := seq_ok.mp hₐ
  have q₂ : Silent sel c₁ c₂ := (silent_checkSource hsel _ _ _ _).ok h₂
  have q₃ : Silent sel c₂ c₃ := (silent_checkSource hsel _ _ _ _).ok h₃
  have q₄ : Silent sel c₃ c₄ := (silent_checkMode hsel _ _ _).ok h₄
  have q₅ : Silent sel c₄ c₅ := (Relates.forM fun code _ => silent_raiseFault hsel _ _ code).ok h₅
  have q₆ : Silent sel c₅ c₆ := (Relates.forM fun code _ => silent_clearFault hsel _ _ code).ok h₆
  obtain ⟨c₇, h₇, hₐ⟩ := seq_ok.mp hₐ
  obtain ⟨s₇, e₇⟩ := checkMaintainedCmdEdges_ok h₇
  obtain ⟨c₈, h₈, h₉⟩ := seq_ok.mp hₐ
  have q₈ : Silent sel c₇ c₈ := (silent_checkReboot hsel _ _).ok h₈
  have q₉ : Silent sel c₈ cₐ := (silent_checkTimeSkew _ _).ok h₉
  obtain ⟨c₁₀, h₁₀, h⟩ := seq_ok.mp h
  have q₁₀ : Silent sel cₐ c₁₀ := (silent_checkComms hsel _ _ _).ok h₁₀
  obtain ⟨c₁₁, h₁₁, h⟩ := seq_ok.mp h
  have q₁₁ : Silent sel c₁₀ c₁₁ := (silent_checkIcdVersion hsel _ _ _).ok h₁₁
  obtain rfl := modifySelf_ok.mp h
  have before : Silent sel c₁ c₆ := IsTrans.trans _ _ _ q₂
    (IsTrans.trans _ _ _ q₃ (IsTrans.trans _ _ _ q₄ (IsTrans.trans _ _ _ q₅ q₆)))
  have after : Silent sel c₇ c₁₁ := IsTrans.trans _ _ _ q₈
    (IsTrans.trans _ _ _ q₉ (IsTrans.trans _ _ _ q₁₀ q₁₁))
  have hwrites : c₆.self.cmdWriteMonotonic = c.self.cmdWriteMonotonic := by
    rw [before.writes, s₁]
  have hmaintained : maintainedCmdEvents c₆.self env c.self.snap
      (c.self.nextSnapshot env reading ref) = maintainedCmdEvents c.self env c.self.snap
      (c.self.nextSnapshot env reading ref) := by
    simp only [maintainedCmdEvents, cmdEdgeEvents, hwrites]
  show c₁₁.emitted.filterMap sel = _
  rw [after.emits, e₇, List.filterMap_append, before.emits, e₁, hmaintained]
  simp only [List.filterMap_append, List.append_assoc]

end AtsService

end GenWatch

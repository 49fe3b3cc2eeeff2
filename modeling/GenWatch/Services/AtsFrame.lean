import GenWatch.Services.Ats
import GenWatch.Services.Frame

/-! # What a companion poll leaves alone

An update of the companion's service replaces the snapshot at its end and touches
only the rows of the companion's own alarm codes. Apart from its comms check it
announces nothing about a link, and without database errors it completes.
-/

namespace GenWatch

open Handler ServiceM

namespace AtsService

/-- The alarm codes of the companion: its fault bits and the clock skew. -/
def codes (m : RegisterMap) : Set String :=
  {code | code ∈ m.alarmCodes ∨ code = timeSkewAlarmCode}

theorem decodeFaultBits_subset (raw : ℤ) (m : RegisterMap) :
    ∀ code ∈ decodeFaultBits raw m, code ∈ codes m := by
  intro code hc
  obtain ⟨ab, hab, rfl⟩ := List.mem_map.mp (List.mem_toFinset.mp hc)
  exact Or.inl (List.mem_map.mpr ⟨ab, (List.mem_filter.mp hab).1, rfl⟩)

/-- What the parts around the comms check keep, for a set of codes of their own. -/
structure Beside (K : Set String) (c c' : Ctx AtsService) : Prop where
  snap : c'.self.snap = c.self.snap
  regmap : c'.self.regmap = c.self.regmap
  unit : c'.self.expectedUnitId = c.self.expectedUnitId
  rows : ∀ code ∉ K, (c'.db.Active code ↔ c.db.Active code)
  emits : ∃ new, c'.emitted = c.emitted ++ new ∧
    ∀ e ∈ new, e.commsChange = none ∧ ∀ code ∈ e.alarmCode, code ∈ K

variable {K : Set String}

instance : Std.Refl (Beside K) := ⟨fun _ => ⟨rfl, rfl, rfl, fun _ _ => Iff.rfl, [], by simp⟩⟩

instance : IsTrans (Ctx AtsService) (Beside K) where
  trans _ _ _ h h' := by
    refine ⟨h'.snap.trans h.snap, h'.regmap.trans h.regmap, h'.unit.trans h.unit,
      fun code hc => (h'.rows code hc).trans (h.rows code hc), ?_⟩
    obtain ⟨new, he, hn⟩ := h.emits
    obtain ⟨new', he', hn'⟩ := h'.emits
    refine ⟨new ++ new', by rw [he', he, List.append_assoc], fun e hm => ?_⟩
    exact (List.mem_append.mp hm).elim (hn e) (hn' e)

theorem beside_modifySelf {f : AtsService → AtsService}
    (h : ∀ ats, (f ats).snap = ats.snap ∧ (f ats).regmap = ats.regmap ∧
      (f ats).expectedUnitId = ats.expectedUnitId) : Relates (Beside K) (modifySelf f) :=
  Relates.modify fun c =>
    ⟨(h c.self).1, (h c.self).2.1, (h c.self).2.2, fun _ _ => Iff.rfl, [], by simp⟩

theorem beside_dbCall {α : Type} {op : Database → α × Database}
    (h : ∀ db, ∀ code ∉ K, ((op db).2.Active code ↔ db.Active code)) :
    Relates (Beside K) (dbCall op : ServiceM AtsService α) :=
  relates_dbCall (fun _ _ => ⟨rfl, rfl, rfl, fun _ _ => Iff.rfl, [], by simp⟩)
    fun c _ => ⟨rfl, rfl, rfl, fun code hc => h c.db code hc, [], by simp⟩

theorem beside_raiseAlarm {code : String} (hk : code ∈ K) (desc : Desc) (severity : Severity)
    (raw : ℤ) (now : ℚ) : Relates (Beside K) (raiseAlarm code desc severity raw now) := by
  refine beside_dbCall fun db other ho => ?_
  simp only [Database.raiseAlarm, Database.Active, Table.mem_keys_insertIgnore]
  exact ⟨fun h => h.resolve_right fun he => ho (he ▸ hk), Or.inl⟩

theorem beside_clearAlarm {code : String} (hk : code ∈ K) :
    Relates (Beside K) (clearAlarm code : ServiceM AtsService Bool) := by
  refine beside_dbCall fun db other ho => ?_
  simp only [Database.clearAlarm, Database.Active, Table.mem_keys_delete]
  exact ⟨And.left, fun h => ⟨h, fun he => ho (he ▸ hk)⟩⟩

theorem emitEvent_run (e : Event) (severity : Severity) (type : EventType) (message : Message)
    (info : Option String) (now : ℚ) (c : Ctx AtsService) :
    ∃ db faults, (emitEvent e severity type message info now).run c =
        .ok () ⟨c.self, db, c.emitted ++ [e], faults⟩ ∧
      db.alarmsActive = c.db.alarmsActive ∧ (c.faults = [] → faults = []) := by
  obtain ⟨self, db, emitted, faults⟩ := c
  rcases faults with _ | ⟨_ | _, rest⟩
  · exact ⟨_, _, rfl, rfl, fun _ => rfl⟩
  · exact ⟨_, _, rfl, rfl, fun h => nomatch h⟩
  · exact ⟨_, _, rfl, rfl, fun h => nomatch h⟩

theorem beside_emitEvent {e : Event} {severity : Severity} {type : EventType} {message : Message}
    {info : Option String} {now : ℚ} (hc : e.commsChange = none)
    (ha : ∀ code ∈ e.alarmCode, code ∈ K) :
    Relates (Beside K) (emitEvent e severity type message info now) := by
  intro c
  obtain ⟨db, faults, hr, hd, -⟩ := emitEvent_run e severity type message info now c
  rw [hr]
  refine ⟨rfl, rfl, rfl, fun _ _ => ?_, [e], rfl, by simpa using ⟨hc, ha⟩⟩
  simp only [finalState, Database.Active, hd]

section Parts

variable (now : ℚ)

theorem beside_checkPosition (prev new : LoadSource) :
    Relates (Beside K) (checkPosition prev new now) :=
  Relates.ite (fun _ => Relates.ite (fun _ => Relates.pure _) fun _ => beside_emitEvent rfl
    (by simp [Event.alarmCode, Event.raises, Event.clears])) fun _ => Relates.pure _

theorem beside_checkSource (normal : Bool) (prev new : Option Bool) :
    Relates (Beside K) (checkSource normal prev new now) := by
  unfold checkSource
  split
  · exact Relates.ite (fun _ => beside_emitEvent rfl
      (by simp [Event.alarmCode, Event.raises, Event.clears])) fun _ => Relates.pure _
  · exact Relates.pure _

theorem beside_checkMode (prev new : AtsMode) : Relates (Beside K) (checkMode prev new now) :=
  Relates.ite (fun _ => beside_emitEvent rfl
    (by simp [Event.alarmCode, Event.raises, Event.clears])) fun _ => Relates.pure _

theorem beside_raiseFault (m : RegisterMap) {code : String} (hk : code ∈ K) :
    Relates (Beside K) (raiseFault m now code) :=
  Relates.bind (beside_raiseAlarm hk _ _ _ _) fun _ =>
    beside_emitEvent rfl (by simpa [Event.alarmCode, Event.raises] using hk)

theorem beside_clearFault (m : RegisterMap) {code : String} (hk : code ∈ K) :
    Relates (Beside K) (clearFault m now code) :=
  Relates.bind (beside_clearAlarm hk) fun _ =>
    beside_emitEvent rfl (by simpa [Event.alarmCode, Event.raises, Event.clears] using hk)

theorem beside_checkCmdEdge (mono : ℚ) (command : Action) (was isNow : Bool) :
    Relates (Beside K) (checkCmdEdge mono now command was isNow) :=
  Relates.bind relates_getSelf fun _ => Relates.ite (fun _ => beside_emitEvent rfl
    (by simp [Event.alarmCode, Event.raises, Event.clears])) fun _ => Relates.pure _

theorem beside_checkMaintainedCmdEdges (env : AtsPollEnv) (prev new : AtsSnapshot) :
    Relates (Beside K) (checkMaintainedCmdEdges env prev new) :=
  Relates.ite (fun _ => Relates.pure _) fun _ =>
    Relates.bind (beside_checkCmdEdge _ _ _ _ _) fun _ => beside_checkCmdEdge _ _ _ _ _

theorem beside_checkReboot (uptimeS : ℤ) : Relates (Beside K) (checkReboot uptimeS now) :=
  Relates.bind relates_getSelf fun _ => Relates.bind (Relates.ite (fun _ => beside_emitEvent rfl
    (by simp [Event.alarmCode, Event.raises, Event.clears])) fun _ => Relates.pure _) fun _ =>
    beside_modifySelf fun _ => ⟨rfl, rfl, rfl⟩

theorem beside_checkTimeSkew (hk : timeSkewAlarmCode ∈ K) (wallclock : Option ℚ) :
    Relates (Beside K) (checkTimeSkew wallclock now) := by
  unfold checkTimeSkew
  split
  · exact Relates.pure _
  refine Relates.bind relates_getSelf fun ats => Relates.ite (fun _ => ?_) fun _ =>
    Relates.ite (fun _ => ?_) fun _ => Relates.pure _
  · exact Relates.bind (beside_modifySelf fun _ => ⟨rfl, rfl, rfl⟩) fun _ =>
      Relates.bind (beside_raiseAlarm hk _ _ _ _) fun _ => Relates.pure _
  · exact Relates.bind (beside_modifySelf fun _ => ⟨rfl, rfl, rfl⟩) fun _ =>
      Relates.bind (beside_clearAlarm hk) fun _ => Relates.pure _

theorem beside_checkIcdVersion (major minor : ℤ) :
    Relates (Beside K) (checkIcdVersion major minor now) := by
  refine Relates.bind relates_getSelf fun ats => Relates.ite (fun _ => ?_) fun _ => Relates.pure _
  refine Relates.bind ?_ fun _ => beside_modifySelf fun _ => ⟨rfl, rfl, rfl⟩
  unfold validateIcdVersion
  split
  · exact beside_emitEvent rfl (by simp [Event.alarmCode, Event.raises, Event.clears])
  · exact Relates.pure _

theorem checkComms_ok {env : AtsPollEnv} {prev ref : CommsRef} {c c' : Ctx AtsService} {u : Unit}
    (h : (checkComms env prev ref).run c = .ok u c') :
    c'.self = c.self ∧ c'.db.alarmsActive = c.db.alarmsActive ∧
    ∃ new, c'.emitted = c.emitted ++ new ∧ (∀ e ∈ new, e.alarmCode = none) ∧
      new.filterMap Event.commsChange =
        commsDiff .ats (env.heap prev).state (env.heap ref).state := by
  unfold checkComms at h
  unfold commsDiff
  split
  · rename_i hne
    simp only [hne, not_false_eq_true, if_true, ne_eq] at h
    obtain ⟨c₂, hw, h⟩ := seq_ok.mp h
    obtain ⟨-, -, rfl⟩ := dbCall_ok.mp hw
    obtain rfl := emit_ok.mp h
    exact ⟨rfl, rfl, [_], rfl, by simp [Event.alarmCode, Event.raises, Event.clears], rfl⟩
  · rename_i heq
    simp only [heq, if_false] at h
    obtain ⟨-, rfl⟩ := pure_ok.mp h
    exact ⟨rfl, rfl, [], by simp⟩

end Parts

structure Updated (env : AtsPollEnv) (reading : Reading) (ref : CommsRef)
    (c c' : Ctx AtsService) : Prop where
  snap : c'.self.snap = c.self.nextSnapshot env reading ref
  regmap : c'.self.regmap = c.self.regmap
  unit : c'.self.expectedUnitId = c.self.expectedUnitId
  rows : ∀ code ∉ codes c.self.regmap, (c'.db.Active code ↔ c.db.Active code)
  emits : ∃ new, c'.emitted = c.emitted ++ new ∧
    (∀ e ∈ new, ∀ code ∈ e.alarmCode, code ∈ codes c.self.regmap) ∧
    new.filterMap Event.commsChange =
      commsDiff .ats (env.heap c.self.snap.comms).state (env.heap ref).state

/-- The faults on display are the companion's own codes. -/
def FaultsOwn (ats : AtsService) : Prop := ∀ code ∈ ats.snap.faultCodes, code ∈ codes ats.regmap

theorem beside_announceChanges {ats : AtsService} {env : AtsPollEnv} {v : Values}
    {new : AtsSnapshot} (hraised : ∀ code ∈ new.faultCodes \ ats.snap.faultCodes, code ∈ K)
    (hcleared : ∀ code ∈ ats.snap.faultCodes \ new.faultCodes, code ∈ K)
    (hskew : timeSkewAlarmCode ∈ K) :
    Relates (Beside K) (announceChanges ats env v new) := by
  refine Relates.bind (beside_checkPosition _ _ _) fun _ => ?_
  refine Relates.bind (beside_checkSource _ _ _ _) fun _ => ?_
  refine Relates.bind (beside_checkSource _ _ _ _) fun _ => ?_
  refine Relates.bind (beside_checkMode _ _ _) fun _ => ?_
  refine Relates.bind (Relates.forM fun code hc => ?_) fun _ => ?_
  · exact beside_raiseFault _ _ (hraised code (mem_sortedCodes.mp hc))
  refine Relates.bind (Relates.forM fun code hc => ?_) fun _ => ?_
  · exact beside_clearFault _ _ (hcleared code (mem_sortedCodes.mp hc))
  refine Relates.bind (beside_checkMaintainedCmdEdges _ _ _) fun _ => ?_
  exact Relates.bind (beside_checkReboot _ _) fun _ => beside_checkTimeSkew _ hskew _

theorem update_updated {env : AtsPollEnv} {reading : Reading} {ref : CommsRef}
    {c c' : Ctx AtsService} {u : Unit} (hf : c.self.FaultsOwn)
    (h : (update env reading ref).run c = .ok u c') : Updated env reading ref c c' := by
  obtain ⟨ats, c₀, hg, h⟩ := bind_ok.mp h
  obtain ⟨rfl, rfl⟩ := getSelf_ok.mp hg
  obtain ⟨c₁, h₁, h⟩ := seq_ok.mp h
  have hown : Relates (Beside (codes c.self.regmap)) (announceChanges c.self env reading.values
      (c.self.nextSnapshot env reading ref)) :=
    beside_announceChanges
      (fun code hc => decodeFaultBits_subset _ _ code (Finset.mem_sdiff.mp hc).1)
      (fun code hc => hf code (Finset.mem_sdiff.mp hc).1) (Or.inr rfl)
  have b₁ := hown.ok h₁
  obtain ⟨c₂, h₂, h⟩ := seq_ok.mp h
  obtain ⟨s₂, d₂, new₂, e₂, a₂, diff₂⟩ := checkComms_ok h₂
  obtain ⟨c₃, h₃, h⟩ := seq_ok.mp h
  have b₃ : Beside (codes c.self.regmap) c₂ c₃ := (beside_checkIcdVersion _ _ _).ok h₃
  obtain rfl := modifySelf_ok.mp h
  refine ⟨rfl, ?_, ?_, fun code hc => ?_, ?_⟩
  · exact b₃.regmap.trans (s₂ ▸ b₁.regmap)
  · exact b₃.unit.trans (s₂ ▸ b₁.unit)
  · have hrow : c₂.db.Active code ↔ c₁.db.Active code := by rw [Database.Active, d₂]; rfl
    exact (b₃.rows code hc).trans (hrow.trans (b₁.rows code hc))
  · obtain ⟨new₁, e₁, n₁⟩ := b₁.emits
    obtain ⟨new₃, e₃, n₃⟩ := b₃.emits
    have hnone : ∀ {es : List Event}, (∀ e ∈ es, e.commsChange = none) →
        es.filterMap Event.commsChange = [] := fun h => List.filterMap_eq_nil_iff.mpr h
    refine ⟨new₁ ++ (new₂ ++ new₃), by simp only [e₃, e₂, e₁, List.append_assoc], ?_, ?_⟩
    · intro e he code hc
      rcases List.mem_append.mp he with he | he
      · exact (n₁ e he).2 code hc
      rcases List.mem_append.mp he with he | he
      · rw [a₂ e he] at hc
        cases hc
      · exact (n₃ e he).2 code hc
    · simp only [List.filterMap_append, hnone fun e he => (n₁ e he).1,
        hnone fun e he => (n₃ e he).1, List.nil_append, List.append_nil, diff₂]

theorem Updated.faultsOwn {env : AtsPollEnv} {reading : Reading} {ref : CommsRef}
    {c c' : Ctx AtsService} (h : Updated env reading ref c c') : c'.self.FaultsOwn := by
  intro code hc
  rw [h.snap] at hc
  rw [h.regmap]
  exact decodeFaultBits_subset _ _ code hc

theorem faultsOwn_init (m : RegisterMap) (unit : Option ℤ) : (init m unit).FaultsOwn := by
  simp [FaultsOwn, init, AtsSnapshot.initial]

theorem total_emitEvent (e : Event) (severity : Severity) (type : EventType) (message : Message)
    (info : Option String) (now : ℚ) : Total (emitEvent e severity type message info now) := by
  intro c hc
  obtain ⟨db, faults, hr, -, hf⟩ := emitEvent_run e severity type message info now c
  exact ⟨(), _, hr, hf hc⟩

theorem total_update (env : AtsPollEnv) (reading : Reading) (ref : CommsRef) :
    Total (update env reading ref) := by
  unfold update announceChanges checkPosition emitPosition checkSource emitSource checkMode
    raiseFault clearFault checkMaintainedCmdEdges checkCmdEdge checkReboot announceReboot
    checkTimeSkew checkComms checkIcdVersion validateIcdVersion
  repeat' first
    | with_reducible refine Total.bind ?_ fun _ => ?_
    | with_reducible refine Total.forM fun _ => ?_
    | with_reducible refine Total.ite ?_ ?_
    | with_reducible exact Total.pure _
    | with_reducible exact Total.getSelf
    | with_reducible exact Total.modifySelf _
    | with_reducible exact Total.emit _
    | with_reducible exact total_emitEvent _ _ _ _ _ _
    | split
    | exact Total.dbCall _

end AtsService

end GenWatch

import GenWatch.Prelude.Logs
import GenWatch.Services.Frame

/-! # Events and rows

An alarm row is inserted and deleted only together with its announcement. So in a
completed update the events of any code are the flips of its row, one for each.
-/

namespace GenWatch

open Handler ServiceM

def Event.flip (code : String) (e : Event) : Option Bool :=
  if e.raises = some code then some true
  else if e.clears = some code then some false
  else none

/-- The raises and clears of a code among some events. -/
def flips (code : String) (es : List Event) : List Bool := es.filterMap (Event.flip code)

theorem flips_append (code : String) (es es' : List Event) :
    flips code (es ++ es') = flips code es ++ flips code es' :=
  List.filterMap_append

theorem flip_of_alarmCode_ne {code : String} {e : Event} (h : e.alarmCode ≠ some code) :
    e.flip code = none := by
  rw [Event.flip, if_neg (mt Event.alarmCode_of_raises h), if_neg (mt Event.alarmCode_of_clears h)]

/-- The events of a code between two moments are the flips of its row. -/
def Flips {S : Type} (code : String) (c c' : Ctx S) : Prop :=
  ∃ new, c'.emitted = c.emitted ++ new ∧
    Toggles (c.db.Active code) (flips code new) (c'.db.Active code)

section Rules

variable {S : Type} {code : String}

instance : Std.Refl (Flips (S := S) code) := ⟨fun _ => ⟨[], by simp, rfl⟩⟩

instance : IsTrans (Ctx S) (Flips code) where
  trans _ _ _ h h' := by
    obtain ⟨new, he, ht⟩ := h
    obtain ⟨new', he', ht'⟩ := h'
    refine ⟨new ++ new', by rw [he', he, List.append_assoc], ?_⟩
    rw [flips_append]
    exact ht.append ht'

theorem flips_of_frame {c c' : Ctx S} {new : List Event}
    (hdb : c'.db.alarmsActive = c.db.alarmsActive) (he : c'.emitted = c.emitted ++ new)
    (hnew : ∀ e ∈ new, e.alarmCode = none) : Flips code c c' := by
  refine ⟨new, he, ?_⟩
  have hnone : flips code new = [] := List.filterMap_eq_nil_iff.mpr fun e hm =>
    flip_of_alarmCode_ne (by rw [hnew e hm]; simp)
  rw [hnone]
  exact decide_eq_decide.mpr (by rw [Database.Active, Database.Active, hdb])

theorem flips_modifySelf (f : S → S) : Ensures (Flips code) (modifySelf f) :=
  fun _ _ _ h => modifySelf_ok.mp h ▸ flips_of_frame rfl (List.append_nil _).symm (by simp)

theorem flips_getSelf : Ensures (Flips code) (getSelf : ServiceM S S) := relates_getSelf.ensures

theorem flips_emit {e : Event} (h : e.alarmCode = none) :
    Ensures (Flips code) (emit e : ServiceM S Unit) :=
  fun _ _ _ hr => emit_ok.mp hr ▸ flips_of_frame rfl rfl (by simpa using h)

theorem flips_writeEvent (severity : Severity) (type : EventType) (message : Message)
    (info : Option String) (now : ℚ) :
    Ensures (Flips code) (writeEvent severity type message info now : ServiceM S Unit) := by
  intro c u c' h
  obtain ⟨-, -, rfl⟩ := dbCall_ok.mp h
  exact flips_of_frame rfl (List.append_nil _).symm (by simp)

theorem announceIf_ok {e : Event} {severity : Severity} {type : EventType} {message : Message}
    {info : Option String} {now : ℚ} {changed : Bool} {c c' : Ctx S} {u : Unit}
    (h : (if changed then writeEvent severity type message info now >>= fun _ => emit e
      else (pure () : ServiceM S Unit)).run c = .ok u c') :
    c'.self = c.self ∧ c'.db.alarmsActive = c.db.alarmsActive ∧
      c'.emitted = c.emitted ++ if changed then [e] else [] := by
  cases changed with
  | true =>
    obtain ⟨c₁, h₁, h₂⟩ := seq_ok.mp h
    obtain ⟨-, -, rfl⟩ := dbCall_ok.mp h₁
    obtain rfl := emit_ok.mp h₂
    exact ⟨rfl, rfl, rfl⟩
  | false =>
    obtain ⟨-, rfl⟩ := pure_ok.mp h
    exact ⟨rfl, rfl, (List.append_nil _).symm⟩

/-- A continuation that announces an event exactly when it is told that a row changed. -/
def AnnouncesIf (e : Event) (g : Bool → ServiceM S Unit) : Prop :=
  ∀ changed c u c', (g changed).run c = .ok u c' → c'.db.alarmsActive = c.db.alarmsActive ∧
    c'.emitted = c.emitted ++ if changed then [e] else []

theorem announcesIf_write (e : Event) (severity : Severity) (type : EventType) (message : Message)
    (info : Option String) (now : ℚ) :
    AnnouncesIf e fun changed : Bool =>
      if changed then writeEvent severity type message info now >>= fun _ => emit e
      else (pure () : ServiceM S Unit) :=
  fun _ _ _ _ h => (announceIf_ok h).2

theorem announcesIf_modify {e : Event} {g : Bool → ServiceM S Unit} (f : S → S)
    (h : AnnouncesIf e g) : AnnouncesIf e fun changed => modifySelf f >>= fun _ => g changed := by
  intro changed c u c' hr
  obtain ⟨c₁, h₁, h₂⟩ := seq_ok.mp hr
  obtain rfl := modifySelf_ok.mp h₁
  obtain ⟨hdb, hemit⟩ := h changed _ u c' h₂
  exact ⟨hdb, hemit⟩

theorem flips_raise {raised : String} {desc : Desc} {severity : Severity} {raw : ℤ} {now : ℚ}
    {e : Event} {g : Bool → ServiceM S Unit} (he : e.raises = some raised)
    (hg : AnnouncesIf e g) :
    Ensures (Flips code) (raiseAlarm raised desc severity raw now >>= g) := by
  intro c u c' h
  obtain ⟨changed, c₁, h₁, h₂⟩ := bind_ok.mp h
  obtain ⟨-, rfl, rfl⟩ := dbCall_ok.mp h₁
  obtain ⟨hdb, hemit⟩ := hg _ _ u c' h₂
  refine ⟨_, hemit, ?_⟩
  have hrow : c'.db.Active code ↔ c.db.Active code ∨ code = raised := by
    simp only [Database.Active, hdb, Database.raiseAlarm, Table.mem_keys_insertIgnore]
  by_cases hactive : c.db.Active raised
  · have hold : raised ∈ c.db.alarmsActive.keys := hactive
    have hsame : c'.db.Active code ↔ c.db.Active code :=
      hrow.trans ⟨fun hor => hor.elim id fun heq => heq ▸ hactive, Or.inl⟩
    simp only [Database.raiseAlarm, hold, not_true_eq_false, decide_false, Bool.false_eq_true,
      if_false]
    exact decide_eq_decide.mpr hsame.symm
  · have hnew : raised ∉ c.db.alarmsActive.keys := hactive
    simp only [Database.raiseAlarm, hnew, not_false_eq_true, decide_true, if_true]
    by_cases hcode : code = raised
    · subst hcode
      have hflip : flips code [e] = [true] := by simp [flips, Event.flip, he]
      rw [hflip]
      exact ⟨by simpa using hactive, (decide_eq_true (hrow.mpr (Or.inr rfl))).symm⟩
    · have hflip : flips code [e] = [] := by
        have hne : e.alarmCode ≠ some code := by
          simp [Event.alarmCode, he, Ne.symm hcode]
        simp [flips, flip_of_alarmCode_ne hne]
      rw [hflip]
      exact decide_eq_decide.mpr (hrow.trans (or_iff_left hcode)).symm

theorem flips_clear {cleared : String} {e : Event} {g : Bool → ServiceM S Unit}
    (hr : e.raises = none) (he : e.clears = some cleared) (hg : AnnouncesIf e g) :
    Ensures (Flips code) (clearAlarm cleared >>= g) := by
  intro c u c' h
  obtain ⟨changed, c₁, h₁, h₂⟩ := bind_ok.mp h
  obtain ⟨-, rfl, rfl⟩ := dbCall_ok.mp h₁
  obtain ⟨hdb, hemit⟩ := hg _ _ u c' h₂
  refine ⟨_, hemit, ?_⟩
  have hrow : c'.db.Active code ↔ c.db.Active code ∧ code ≠ cleared := by
    simp only [Database.Active, hdb, Database.clearAlarm, Table.mem_keys_delete]
  by_cases hactive : c.db.Active cleared
  · have hold : cleared ∈ c.db.alarmsActive.keys := hactive
    simp only [Database.clearAlarm, hold, decide_true, if_true]
    by_cases hcode : code = cleared
    · subst hcode
      have hflip : flips code [e] = [false] := by simp [flips, Event.flip, hr, he]
      rw [hflip]
      exact ⟨by simpa using hactive, (decide_eq_false fun hc => (hrow.mp hc).2 rfl).symm⟩
    · have hflip : flips code [e] = [] := by
        have hne : e.alarmCode ≠ some code := by
          simp [Event.alarmCode, hr, he, Ne.symm hcode]
        simp [flips, flip_of_alarmCode_ne hne]
      rw [hflip]
      exact decide_eq_decide.mpr (hrow.trans (and_iff_left hcode)).symm
  · have hnone : cleared ∉ c.db.alarmsActive.keys := hactive
    have hsame : c'.db.Active code ↔ c.db.Active code :=
      hrow.trans ⟨And.left, fun ha => ⟨ha, fun heq => hactive (heq ▸ ha)⟩⟩
    simp only [Database.clearAlarm, hnone, decide_false, Bool.false_eq_true, if_false]
    exact decide_eq_decide.mpr hsame.symm

end Rules

namespace StateMachine

variable {code : String}

theorem flips_raiseIfNew (prev : Finset String) (now : ℚ) (ab : AlarmBit) :
    Ensures (Flips code) (raiseIfNew prev now ab) :=
  Ensures.ite (fun _ => Ensures.pure _) fun _ =>
    flips_raise rfl (announcesIf_modify _ (announcesIf_write _ _ _ _ _ _))

theorem flips_clearIfLow (m : RegisterMap) (rawCodes : List String) (now : ℚ) (other : String) :
    Ensures (Flips code) (clearIfLow m rawCodes now other) :=
  Ensures.ite (fun _ => Ensures.pure _) fun _ =>
    flips_clear rfl rfl (announcesIf_modify _ (announcesIf_write _ _ _ _ _ _))

theorem flips_updateAlarms (m : RegisterMap) (reading : Reading) (now : ℚ) :
    Ensures (Flips code) (updateAlarms m reading now) := by
  refine Ensures.bind (flips_modifySelf _) fun _ => Ensures.bind flips_getSelf fun sm => ?_
  refine Ensures.bind (Ensures.forM fun ab _ => flips_raiseIfNew _ _ ab) fun _ => ?_
  refine Ensures.bind flips_getSelf fun sm => ?_
  exact Ensures.bind (Ensures.forM fun other _ => flips_clearIfLow _ _ _ other) fun _ =>
    flips_modifySelf _

theorem flips_checkNumericRanges (m : RegisterMap) (reading : Reading) (now : ℚ) :
    Ensures (Flips code) (checkNumericRanges m reading now) := by
  refine Ensures.bind flips_getSelf fun sm => Ensures.bind (flips_modifySelf _) fun _ => ?_
  refine Ensures.bind (Ensures.forM fun hit _ => ?_) fun _ => ?_
  · refine Ensures.bind flips_getSelf fun sm => Ensures.ite (fun _ => Ensures.pure _) fun _ => ?_
    exact Ensures.bind (flips_modifySelf _) fun _ =>
      flips_raise rfl (announcesIf_write _ _ _ _ _ _)
  · refine Ensures.bind flips_getSelf fun sm => Ensures.forM fun other _ => ?_
    refine Ensures.ite (fun _ => Ensures.pure _) fun _ => ?_
    exact Ensures.bind (flips_modifySelf _) fun _ =>
      flips_clear rfl rfl (announcesIf_write _ _ _ _ _ _)

theorem flips_updateNumeric (m : RegisterMap) (reading : Reading) (now : ℚ) :
    Ensures (Flips code) (updateNumeric m reading now) := by
  unfold updateNumeric
  split
  · exact Ensures.bind (flips_checkNumericRanges m reading now) fun _ => flips_modifySelf _
  · exact flips_modifySelf _

theorem flips_updateLoadSource (env : PollEnv) (reading : Reading) :
    Ensures (Flips code) (updateLoadSource env reading) := by
  refine Ensures.bind flips_getSelf fun sm => Ensures.ite (fun _ => ?_) fun _ => Ensures.pure _
  refine Ensures.bind (flips_modifySelf _) fun _ =>
    Ensures.ite (fun _ => Ensures.pure _) fun _ => ?_
  refine Ensures.bind (flips_emit rfl) fun _ => ?_
  split
  · exact flips_writeEvent _ _ _ _ _
  · exact Ensures.pure _

theorem flips_resetDisagree (reason : DisagreeReason) (now : ℚ) :
    Ensures (Flips code) (resetDisagree reason now) := by
  refine Ensures.bind flips_getSelf fun sm => ?_
  split
  · refine Ensures.bind ?_ fun _ => flips_modifySelf _
    exact flips_clear rfl rfl (announcesIf_modify _ (announcesIf_write _ _ _ _ _ _))
  · exact flips_modifySelf _

theorem flips_checkLoadsourceDisagreement (env : PollEnv) (reading : Reading) :
    Ensures (Flips code) (checkLoadsourceDisagreement env reading) := by
  refine Ensures.bind flips_getSelf fun sm => ?_
  split
  · exact flips_resetDisagree _ _
  refine Ensures.ite (fun _ => flips_resetDisagree _ _) fun _ => ?_
  refine Ensures.ite (fun _ => flips_resetDisagree _ _) fun _ => ?_
  refine Ensures.ite (fun _ => Ensures.pure _) fun _ => ?_
  split
  · split
    · refine Ensures.bind (flips_modifySelf _) fun _ => Ensures.bind flips_getSelf fun sm => ?_
      refine Ensures.ite (fun _ => ?_) fun _ => Ensures.pure _
      exact flips_raise rfl (announcesIf_modify _ (announcesIf_write _ _ _ _ _ _))
    · exact flips_resetDisagree _ _
  · exact Ensures.pure _

/-- In a completed update the events of a code are the flips of its row. -/
theorem flips_update (env : PollEnv) (reading : Reading) (comms : CommsRef) :
    Ensures (Flips code) (update env reading comms) := by
  have hengine : ∀ m, Ensures (Flips code) (updateEngineState m reading env.now) := fun m =>
    Ensures.bind flips_getSelf fun sm => Ensures.ite
      (fun _ => Ensures.bind (flips_modifySelf _) fun _ => Ensures.bind (flips_emit rfl) fun _ =>
        flips_writeEvent _ _ _ _ _) fun _ => Ensures.pure _
  have hcomms : Ensures (Flips code) (updateComms env comms) :=
    Ensures.bind flips_getSelf fun sm => Ensures.ite
      (fun _ => Ensures.bind (flips_writeEvent _ _ _ _ _) fun _ => flips_emit rfl)
      fun _ => Ensures.pure _
  refine Ensures.bind flips_getSelf fun sm => ?_
  refine Ensures.bind (hengine _) fun _ => ?_
  refine Ensures.bind (flips_updateAlarms _ _ _) fun _ => ?_
  refine Ensures.bind (flips_updateNumeric _ _ _) fun _ => ?_
  refine Ensures.bind hcomms fun _ => ?_
  refine Ensures.bind (flips_modifySelf _) fun _ => ?_
  refine Ensures.bind (flips_updateLoadSource _ _) fun _ => ?_
  exact Ensures.bind (flips_checkLoadsourceDisagreement _ _) fun _ => flips_modifySelf _

end StateMachine

end GenWatch

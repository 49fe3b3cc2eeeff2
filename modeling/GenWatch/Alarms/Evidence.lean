import GenWatch.Prelude.Transition
import GenWatch.Alarms.Pipeline

/-! # Clearing alarms on evidence

An update clears an alarm of the session when none of its bits is found set, and a
register that is missing from the reading counts as not set. Alarms are therefore
cleared on evidence exactly as long as the readings carry the registers of the
alarms that are about to be cleared. Updates may be cut short by database errors.
-/

namespace GenWatch

open Handler ServiceM Transition

/-- No alarm bit of the map uses a derived code. -/
def RegisterMap.Plain (m : RegisterMap) : Prop := ∀ code ∈ m.alarmCodes, ¬IsDerived code

instance (m : RegisterMap) : Decidable m.Plain :=
  inferInstanceAs (Decidable (∀ code ∈ m.alarmCodes, ¬IsDerived code))

namespace StateMachine

/-- The raised codes are those of an earlier moment or among the set ones. -/
structure Bounded (raised raw : Set String) (sm : StateMachine) : Prop where
  numeric : sm.NumericDerived
  codes : ∀ code ∈ sm.raisedThisSession, code ∈ raised ∨ code ∈ raw

/-- What the parts of an update do to the rows of alarm bits, completed or not: they only delete the
row of a code that was raised before the update and is not among the set ones. -/
def Retains (raised raw : Set String) (c c' : Ctx StateMachine) : Prop :=
  c.self.Bounded raised raw → c'.self.Bounded raised raw ∧ c'.self.regmap = c.self.regmap ∧
    ∀ code, ¬IsDerived code → c.db.Active code → c'.db.Active code ∨ (code ∈ raised ∧ code ∉ raw)

section Retains

variable {raised raw : Set String}

instance : Std.Refl (Retains raised raw) := ⟨fun _ hb => ⟨hb, rfl, fun _ _ => Or.inl⟩⟩

instance : IsTrans (Ctx StateMachine) (Retains raised raw) where
  trans _ _ _ h h' hb := by
    obtain ⟨hb₁, hm, hr⟩ := h hb
    obtain ⟨hb₂, hm', hr'⟩ := h' hb₁
    exact ⟨hb₂, hm'.trans hm, fun code hc ha => (hr code hc ha).elim (hr' code hc) Or.inr⟩

theorem retains_of_beside {α : Type} {x : ServiceM StateMachine α} (h : Relates Beside x) :
    Relates (Retains raised raw) x := by
  intro c hb
  have k := h c hb.numeric
  refine ⟨⟨k.numeric, fun code hc => hb.codes code (k.raised ▸ hc)⟩, k.regmap, ?_⟩
  exact fun code hc ha => Or.inl ((k.rows code hc).mpr ha)

theorem retains_modifySelf {f : StateMachine → StateMachine}
    (h : ∀ sm, (f sm).regmap = sm.regmap ∧ (f sm).numericRaised = sm.numericRaised ∧
      ∀ code ∈ (f sm).raisedThisSession, code ∈ sm.raisedThisSession ∨ code ∈ raw) :
    Relates (Retains raised raw) (modifySelf f) := by
  refine Relates.modify fun c hb => ?_
  obtain ⟨hm, hn, hr⟩ := h c.self
  refine ⟨⟨?_, fun code hc => (hr code hc).elim (hb.codes code) Or.inr⟩, hm, fun _ _ => Or.inl⟩
  unfold NumericDerived
  rw [hn]
  exact hb.numeric

theorem retains_emit (e : Event) : Relates (Retains raised raw) (emit e) :=
  Relates.modify fun _ hb => ⟨hb, rfl, fun _ _ => Or.inl⟩

theorem retains_raiseIfNew {prev : Finset String} {now : ℚ} {ab : AlarmBit} (h : ab.code ∈ raw) :
    Relates (Retains raised raw) (raiseIfNew prev now ab) := by
  refine Relates.ite (fun _ => Relates.pure _) fun _ => Relates.bind ?_ fun raised => ?_
  · refine relates_dbCall (fun _ _ hb => ⟨hb, rfl, fun _ _ => Or.inl⟩) fun c _ hb =>
      ⟨hb, rfl, fun code _ ha => Or.inl ?_⟩
    exact Table.mem_keys_insertIgnore.mpr (Or.inl ha)
  refine Relates.bind (retains_modifySelf fun sm => ⟨rfl, rfl, fun code hc => ?_⟩) fun _ =>
    Relates.ite (fun _ => ?_) fun _ => Relates.pure _
  · exact (List.mem_insert_iff.mp hc).elim (fun he => Or.inr (he ▸ h)) Or.inl
  · exact Relates.bind (retains_of_beside (beside_writeEvent _ _ _ _ _)) fun _ => retains_emit _

theorem retains_clearIfLow {m : RegisterMap} {rawCodes : List String} {now : ℚ} {code : String}
    (hraw : ∀ code ∈ raw, code ∈ rawCodes) (hcode : code ∈ raised ∨ code ∈ raw) :
    Relates (Retains raised raw) (clearIfLow m rawCodes now code) := by
  refine Relates.ite (fun _ => Relates.pure _) fun hlow => Relates.bind ?_ fun cleared => ?_
  · refine relates_dbCall (fun _ _ hb => ⟨hb, rfl, fun _ _ => Or.inl⟩) fun c _ hb =>
      ⟨hb, rfl, fun other _ ha => ?_⟩
    by_cases he : other = code
    · have hn : code ∉ raw := fun h => hlow (hraw code h)
      exact Or.inr (he ▸ ⟨hcode.resolve_right hn, hn⟩)
    · exact Or.inl (Table.mem_keys_delete.mpr ⟨ha, he⟩)
  refine Relates.bind (retains_modifySelf fun sm => ⟨rfl, rfl, fun other ho => ?_⟩) fun _ =>
    Relates.ite (fun _ => ?_) fun _ => Relates.pure _
  · exact Or.inl (List.mem_filter.mp ho).1
  · exact Relates.bind (retains_of_beside (beside_writeEvent _ _ _ _ _)) fun _ => retains_emit _

theorem retains_updateAlarms (m : RegisterMap) (reading : Reading) (now : ℚ) :
    Relates (Retains raised (setCodes m reading.values)) (updateAlarms m reading now) := by
  have hset : ∀ f : StateMachine → StateMachine,
      (∀ sm, (f sm).regmap = sm.regmap ∧ (f sm).numericRaised = sm.numericRaised ∧
        (f sm).raisedThisSession = sm.raisedThisSession) →
      Relates (Retains raised (setCodes m reading.values)) (modifySelf f) := fun f hf =>
    retains_modifySelf fun sm => ⟨(hf sm).1, (hf sm).2.1, fun code hc => Or.inl ((hf sm).2.2 ▸ hc)⟩
  refine Relates.bind (hset _ fun _ => ⟨rfl, rfl, rfl⟩) fun _ => ?_
  refine Relates.bind relates_getSelf fun sm => ?_
  refine Relates.bind (Relates.forM fun ab hab => ?_) fun _ => ?_
  · exact retains_raiseIfNew (List.mem_map.mpr ⟨ab, (List.mem_filter.mp hab).1, rfl⟩)
  refine relates_getSelf_bind fun c hb => ?_
  have hloop : Relates (Retains raised (setCodes m reading.values))
      (c.self.raisedThisSession.forM (clearIfLow m
        ((m.deriveActiveAlarms reading.values).map AlarmBit.code) now)) :=
    Relates.forM fun code hc => retains_clearIfLow (fun _ h => h) (hb.codes code hc)
  refine Relates.bind hloop (fun _ => hset _ ?_) c hb
  exact fun _ => ⟨rfl, rfl, rfl⟩

theorem retains_updateEngineState (m : RegisterMap) (reading : Reading) (now : ℚ) :
    Relates (Retains raised raw) (updateEngineState m reading now) := by
  refine Relates.bind relates_getSelf fun sm => Relates.ite (fun _ => ?_) fun _ => Relates.pure _
  refine Relates.bind (retains_modifySelf fun _ => ⟨rfl, rfl, fun _ => Or.inl⟩) fun _ => ?_
  exact Relates.bind (retains_emit _) fun _ => retains_of_beside (beside_writeEvent _ _ _ _ _)

theorem retains_updateComms (env : PollEnv) (comms : CommsRef) :
    Relates (Retains raised raw) (updateComms env comms) := by
  refine Relates.bind relates_getSelf fun sm => Relates.ite (fun _ => ?_) fun _ => Relates.pure _
  exact Relates.bind (retains_of_beside (beside_writeEvent _ _ _ _ _)) fun _ => retains_emit _

/-- An update, completed or not, deletes the row of an alarm bit only when the code was raised in
this session and none of its bits is set. -/
theorem update_retains (env : PollEnv) (reading : Reading) (ref : CommsRef)
    (c : Ctx StateMachine) (hd : c.self.NumericDerived) :
    let c' := finalState ((update env reading ref).run c)
    c'.self.NumericDerived ∧ c'.self.regmap = c.self.regmap ∧
    ∀ code, ¬IsDerived code → c.db.Active code →
      c'.db.Active code ∨
        (code ∈ c.self.raisedThisSession ∧ code ∉ setCodes c.self.regmap reading.values) := by
  have hparts : Retains {code | code ∈ c.self.raisedThisSession}
      (setCodes c.self.regmap reading.values) c (finalState ((update env reading ref).run c)) := by
    refine relates_getSelf_bind (R := fun d d' => d = c → Retains _ _ d d') (fun d hc => ?_) c rfl
    subst hc
    refine Relates.bind (retains_updateEngineState _ _ _) (fun _ => ?_) d
    refine Relates.bind (retains_updateAlarms _ _ _) fun _ => ?_
    refine Relates.bind (retains_of_beside (beside_updateNumeric _ _ _)) fun _ => ?_
    refine Relates.bind (retains_updateComms _ _) fun _ => ?_
    refine Relates.bind (retains_of_beside (beside_updatePanelMode _ _)) fun _ => ?_
    refine Relates.bind (retains_of_beside (beside_updateLoadSource _ _)) fun _ => ?_
    refine Relates.bind (retains_of_beside (beside_checkLoadsourceDisagreement _ _)) fun _ => ?_
    exact retains_modifySelf fun _ => ⟨rfl, rfl, fun _ => Or.inl⟩
  obtain ⟨hb, hm, hr⟩ := hparts ⟨hd, fun _ => Or.inl⟩
  exact ⟨hb.numeric, hm, hr⟩

end Retains

end StateMachine

/-- A state machine and the tables it shares, with the events published last. -/
structure AlarmDesk where
  sm : StateMachine
  db : Database
  published : List Event

namespace AlarmDesk

/-- A poll result is applied; the events of an update that raises are lost. -/
def update (d : AlarmDesk) (env : PollEnv) (reading : Reading) (ref : CommsRef)
    (faults : List Bool) : AlarmDesk :=
  match (StateMachine.update env reading ref).run ⟨d.sm, d.db, [], faults⟩ with
  | .ok _ c => ⟨c.self, c.db, c.emitted⟩
  | .error _ c => ⟨c.self, c.db, []⟩

/-- What can happen to a state machine and the tables it shares. -/
inductive Label where
  | update (env : PollEnv) (reading : Reading) (ref : CommsRef) (faults : List Bool)
  | applyRegmap (m : RegisterMap)
  /-- an acknowledgement, the companion's service or another session changes the tables -/
  | elsewhere (db : Database)

def step (d : AlarmDesk) : Label → Option AlarmDesk
  | .update env reading ref faults => some (d.update env reading ref faults)
  | .applyRegmap m => some { d with sm := d.sm.applyRegmap m, published := [] }
  | .elsewhere db => some { d with db := db, published := [] }

def start (m : RegisterMap) (db : Database) (now : ℚ) : AlarmDesk := ⟨.init m now, db, []⟩

/-- The update loses the row of the code, or announces that its alarm is cleared. -/
def Clears (d d' : AlarmDesk) (code : String) : Prop :=
  (d.db.Active code ∧ ¬d'.db.Active code) ∨ code ∈ clearedCodes d'.published

/-- Every rule of the code has its register in the reading, with the masked bits low. -/
def SeenLow (m : RegisterMap) (values : Values) (code : String) : Prop :=
  ∀ ab ∈ m.alarmBits, ab.code = code → values.low ab.register ab.mask = true

instance (m : RegisterMap) (values : Values) (code : String) : Decidable (SeenLow m values code) :=
  inferInstanceAs (Decidable (∀ ab ∈ m.alarmBits, _))

/-- An update clears an alarm only if the map has no rule for its code or all its rules are low. -/
def ClearsOnEvidence (d : AlarmDesk) (reading : Reading) (d' : AlarmDesk) : Prop :=
  ∀ code, d.Clears d' code →
    code ∉ d.sm.regmap.alarmCodes ∨ SeenLow d.sm.regmap reading.values code

/-- Every alarm of the session that has a row and no set bit has all its registers in the
reading. -/
def Witnessed (d : AlarmDesk) (reading : Reading) : Prop :=
  ∀ code ∈ d.sm.raisedThisSession, d.db.Active code →
    code ∉ StateMachine.setCodes d.sm.regmap reading.values →
    ∀ ab ∈ d.sm.regmap.alarmBits, ab.code = code → (reading.values ab.register).isSome

instance (d : AlarmDesk) (reading : Reading) : Decidable (d.Witnessed reading) :=
  inferInstanceAs (Decidable (∀ code ∈ d.sm.raisedThisSession, _))

section Update

variable {d : AlarmDesk} {env : PollEnv} {reading : Reading} {ref : CommsRef} {faults : List Bool}

theorem update_final (d : AlarmDesk) (env : PollEnv) (reading : Reading) (ref : CommsRef)
    (faults : List Bool) :
    let c' := finalState ((StateMachine.update env reading ref).run ⟨d.sm, d.db, [], faults⟩)
    (d.update env reading ref faults).sm = c'.self ∧
      (d.update env reading ref faults).db = c'.db := by
  unfold update
  split <;> rename_i h <;> rw [h] <;> exact ⟨rfl, rfl⟩

theorem numericDerived_update (hd : d.sm.NumericDerived) :
    (d.update env reading ref faults).sm.NumericDerived := by
  rw [(update_final d env reading ref faults).1]
  exact (StateMachine.update_retains env reading ref ⟨d.sm, d.db, [], faults⟩ hd).1

/-- A cleared code was raised in this session, had a row, and has no set bit. -/
theorem clears_spec (hd : d.sm.NumericDerived) {code : String} (hb : ¬IsDerived code)
    (h : d.Clears (d.update env reading ref faults) code) :
    code ∈ d.sm.raisedThisSession ∧ d.db.Active code ∧
      code ∉ StateMachine.setCodes d.sm.regmap reading.values := by
  rcases h with ⟨ha, hn⟩ | hc
  · rw [(update_final d env reading ref faults).2] at hn
    have hretains := StateMachine.update_retains env reading ref ⟨d.sm, d.db, [], faults⟩ hd
    obtain ⟨hr, hs⟩ := (hretains.2.2 code hb ha).resolve_left hn
    exact ⟨hr, ha, hs⟩
  · unfold update at hc
    split at hc
    · rename_i hok
      obtain ⟨new, he, -, -, hw⟩ := (StateMachine.update_updated hd hok).emits
      have hm : code ∈ clearedCodes new ∩ StateMachine.bitCodes := by
        simp only [he, List.nil_append] at hc
        exact ⟨hc, hb⟩
      rw [hw, StateMachine.bitLedger, Ledger.withdrawn_restrict] at hm
      exact ⟨hm.1.1.1, hm.1.2, hm.1.1.2⟩
    · simp at hc

theorem clearsOnEvidence_of_witnessed (hd : d.sm.NumericDerived) (hp : d.sm.regmap.Plain)
    (hw : d.Witnessed reading) :
    d.ClearsOnEvidence reading (d.update env reading ref faults) := by
  intro code hc
  by_cases hm : code ∈ d.sm.regmap.alarmCodes
  swap
  · exact Or.inl hm
  obtain ⟨hr, ha, hs⟩ := clears_spec hd (hp code hm) hc
  refine Or.inr fun ab hab he => (Values.low_iff _ _ _).mpr ⟨hw code hr ha hs ab hab he, ?_⟩
  rw [← Bool.not_eq_true]
  exact fun hset => hs (StateMachine.mem_setCodes.mpr ⟨ab, hab, he, hset⟩)

theorem witnessed_of_clearsOnEvidence (hd : d.sm.NumericDerived) (hp : d.sm.regmap.Plain)
    (h : d.ClearsOnEvidence reading (d.update env reading ref [])) : d.Witnessed reading := by
  intro code hr ha hs ab hab he
  have hm : code ∈ d.sm.regmap.alarmCodes := List.mem_map.mpr ⟨ab, hab, he⟩
  have hb : ¬IsDerived code := hp code hm
  obtain ⟨u, c', hok, -⟩ := StateMachine.total_update env reading ref ⟨d.sm, d.db, [], []⟩ rfl
  have hup := StateMachine.update_updated hd hok
  have hgone : ¬c'.db.Active code := by
    intro hact
    have hrow : code ∈ (StateMachine.bitLedger c'.self c'.db).rows := ⟨hact, hb⟩
    rw [hup.ledger] at hrow
    have hold := (Ledger.unset_row_iff (StateMachine.effectiveNow_subset _ _) hs).mp hrow
    exact hold.2 ⟨hr, hb⟩
  have hclear : d.Clears (d.update env reading ref []) code := by
    refine Or.inl ⟨ha, ?_⟩
    rw [(update_final d env reading ref []).2, hok]
    exact hgone
  have hlow := (h code hclear).resolve_left fun hn => hn hm
  exact ((Values.low_iff _ _ _).mp (hlow ab hab he)).1

end Update

theorem numericDerived_step {d d' : AlarmDesk} {l : Label} (hd : d.sm.NumericDerived)
    (h : d.step l = some d') : d'.sm.NumericDerived := by
  cases l with
  | update env reading ref faults =>
    obtain rfl := Option.some.inj h
    exact numericDerived_update hd
  | applyRegmap m =>
    obtain rfl := Option.some.inj h
    exact hd
  | elsewhere db =>
    obtain rfl := Option.some.inj h
    exact hd

theorem Takes.numericDerived {m : RegisterMap} {db : Database} {now : ℚ} {ls : List Label}
    {d d' : AlarmDesk} {l : Label} (h : Takes step (start m db now) ls d l d') :
    d.sm.NumericDerived := by
  exact h.reachable.invariant (I := fun d => d.sm.NumericDerived)
    (StateMachine.numericDerived_init m now) fun _ _ _ => numericDerived_step

/-- In a run whose maps keep clear of the derived codes and whose readings carry the registers of
every alarm about to be cleared, every alarm is cleared on evidence, whatever database calls raise;
without database errors no other such run does. -/
theorem clears_on_evidence_iff_witnessed (m : RegisterMap) (db : Database) (now : ℚ)
    (ls : List Label) :
    ((∀ d env reading ref faults d', Takes step (start m db now) ls d
        (.update env reading ref faults) d' → d.sm.regmap.Plain ∧ d.Witnessed reading) →
      ∀ d env reading ref faults d', Takes step (start m db now) ls d
        (.update env reading ref faults) d' → d.ClearsOnEvidence reading d') ∧
    ((∀ d env reading ref faults d', Takes step (start m db now) ls d
        (.update env reading ref faults) d' →
        d.sm.regmap.Plain ∧ faults = [] ∧ d.ClearsOnEvidence reading d') →
      ∀ d env reading ref faults d', Takes step (start m db now) ls d
        (.update env reading ref faults) d' → d.Witnessed reading) := by
  refine ⟨fun h d env reading ref faults d' ht => ?_, fun h d env reading ref faults d' ht => ?_⟩
  · obtain ⟨hp, hw⟩ := h _ _ _ _ _ _ ht
    obtain rfl := Option.some.inj ht.step_eq
    exact clearsOnEvidence_of_witnessed (Takes.numericDerived ht) hp hw
  · obtain ⟨hp, rfl, hc⟩ := h _ _ _ _ _ _ ht
    obtain rfl := Option.some.inj ht.step_eq
    exact witnessed_of_clearsOnEvidence (Takes.numericDerived ht) hp hc

/-- An alarm that is raised, then cleared by a reading in which its bit is low. -/
theorem seen_low_cleared_on_evidence :
    ∀ d env reading ref faults d', Takes step (start oneAlarmMap .empty 0)
      [.update (quietEnv 1) (statusReading (some 1)) .poller [],
        .update (quietEnv 2) (statusReading (some 0)) .poller []] d
      (.update env reading ref faults) d' → d.ClearsOnEvidence reading d' := by
  refine (clears_on_evidence_iff_witnessed oneAlarmMap .empty 0 _).1
    fun d env reading ref faults d' ht => ?_
  have hp : d.sm.regmap.Plain ∧ d.Witnessed reading := by
    have htest := ht.test_of_everyStep (fun d l _ => match l with
      | .update _ reading _ _ => decide (d.sm.regmap.Plain ∧ d.Witnessed reading)
      | _ => true) (by decide +kernel)
    exact of_decide_eq_true htest
  exact hp

/-- An alarm that is raised, then cleared by a reading without its register. -/
theorem evicted_register_clears_alarm :
    ¬∀ d env reading ref faults d', Takes step (start oneAlarmMap .empty 0)
      ([.update (quietEnv 1) (statusReading (some 1)) .poller []] ++
        [.update (quietEnv 2) (statusReading none) .poller []]) d
      (.update env reading ref faults) d' → d.ClearsOnEvidence reading d' := by
  intro h
  obtain ⟨d, d', ht, hd⟩ := takes_of_lastStep step (start oneAlarmMap .empty 0)
    [.update (quietEnv 1) (statusReading (some 1)) .poller []]
    (.update (quietEnv 2) (statusReading none) .poller [])
    (fun d _ d' => d.db.Active "LOW_OIL" ∧ ¬d'.db.Active "LOW_OIL" ∧
      d.sm.regmap.alarmBits = oneAlarmMap.alarmBits) (by decide +kernel)
  obtain ⟨ha, hn, hm⟩ := of_decide_eq_true hd
  rcases h _ _ _ _ _ _ ht "LOW_OIL" (Or.inl ⟨ha, hn⟩) with hc | hl
  · exact hc (by rw [RegisterMap.alarmCodes, hm]; decide)
  · have hlow := hl ⟨"status", 1, "LOW_OIL", "Low oil pressure", .alarm, [], 1⟩
      (by rw [hm]; decide) rfl
    exact absurd hlow (by decide)

end AlarmDesk

end GenWatch

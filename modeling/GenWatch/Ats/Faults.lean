import GenWatch.Prelude.Transition
import GenWatch.Alarms.Pipeline
import GenWatch.Ats.Calls
import GenWatch.Services.AtsControl

/-! # The companion's faults

A fault stays in the snapshot until a poll decodes the fault summary without its bit.
A poll without the fault summary decodes it as zero, so that every fault is withdrawn
unseen; and a poll whose unguarded database calls raise leaves the previous snapshot,
so that a new fault is not seen at all.
-/

namespace GenWatch

open Handler ServiceM Transition

namespace AtsService

/-- What an update does to the rows and the events, completed or not, for a set of codes that
contains those it raises and clears. -/
structure Around (K : Set String) (c c' : Ctx AtsService) : Prop where
  regmap : c'.self.regmap = c.self.regmap
  unit : c'.self.expectedUnitId = c.self.expectedUnitId
  rows : ∀ code ∉ K, (c'.db.Active code ↔ c.db.Active code)
  emits : ∃ new, c'.emitted = c.emitted ++ new ∧ ∀ e ∈ new, ∀ code ∈ e.alarmCode, code ∈ K

section Around

variable {K : Set String}

instance : Std.Refl (Around K) := ⟨fun _ => ⟨rfl, rfl, fun _ _ => Iff.rfl, [], by simp⟩⟩

instance : IsTrans (Ctx AtsService) (Around K) where
  trans _ _ _ h h' := by
    refine ⟨h'.regmap.trans h.regmap, h'.unit.trans h.unit,
      fun code hc => (h'.rows code hc).trans (h.rows code hc), ?_⟩
    obtain ⟨new, he, hn⟩ := h.emits
    obtain ⟨new', he', hn'⟩ := h'.emits
    refine ⟨new ++ new', by rw [he', he, List.append_assoc], fun e hm => ?_⟩
    exact (List.mem_append.mp hm).elim (hn e) (hn' e)

theorem around_of_beside {α : Type} {x : ServiceM AtsService α} (h : Relates (Beside K) x) :
    Relates (Around K) x := by
  intro c
  obtain ⟨new, he, hn⟩ := (h c).emits
  exact ⟨(h c).regmap, (h c).unit, (h c).rows, new, he, fun e hm => (hn e hm).2⟩

theorem around_checkComms (env : AtsPollEnv) (prev comms : CommsRef) :
    Relates (Around K) (checkComms env prev comms) := by
  have hwrite : ∀ severity type message info now, Relates (Around K)
      (writeEvent severity type message info now : ServiceM AtsService Unit) := by
    intro severity type message info now
    exact relates_dbCall (fun _ _ => ⟨rfl, rfl, fun _ _ => Iff.rfl, [], by simp⟩)
      fun _ _ => ⟨rfl, rfl, fun _ _ => Iff.rfl, [], by simp⟩
  refine Relates.ite (fun _ => ?_) fun _ => Relates.pure _
  refine Relates.bind (hwrite _ _ _ _ _) fun _ => Relates.modify fun c => ?_
  exact ⟨rfl, rfl, fun _ _ => Iff.rfl, [_], rfl,
    by simp [Event.alarmCode, Event.raises, Event.clears]⟩

/-- The faults that come and go with a poll, and the clock skew. -/
def touchedCodes (ats : AtsService) (env : AtsPollEnv) (reading : Reading) (comms : CommsRef) :
    Set String :=
  {code | code ∈ (ats.nextSnapshot env reading comms).faultCodes \ ats.snap.faultCodes ∨
    code ∈ ats.snap.faultCodes \ (ats.nextSnapshot env reading comms).faultCodes ∨
    code = timeSkewAlarmCode}

theorem around_update (env : AtsPollEnv) (reading : Reading) (comms : CommsRef)
    (c : Ctx AtsService) :
    Around (c.self.touchedCodes env reading comms) c
      (finalState ((update env reading comms).run c)) := by
  have hbody : Relates (Around (c.self.touchedCodes env reading comms))
      (announceAll c.self env reading comms >>= fun _ => modifySelf fun ats' =>
        { ats' with snap := c.self.nextSnapshot env reading comms }) := by
    refine Relates.bind ?_ fun _ =>
      Relates.modify fun c' => ⟨rfl, rfl, fun _ _ => Iff.rfl, [], by simp⟩
    refine Relates.bind (around_of_beside (beside_announceChanges (fun _ => Or.inl)
      (fun _ h => Or.inr (Or.inl h)) (Or.inr (Or.inr rfl)))) fun _ => ?_
    refine Relates.bind (around_checkComms _ _ _) fun _ => ?_
    exact around_of_beside (beside_checkIcdVersion _ _ _)
  rw [update_eq]
  exact hbody c

end Around

end AtsService

/-- The companion's service and the tables it shares, with the events published last. -/
structure AtsDesk where
  ats : AtsService
  db : Database
  published : List Event

namespace AtsDesk

/-- A poll result is applied; `on_poll` swallows an error, and the events of that update are
lost. -/
def onPoll (d : AtsDesk) (env : AtsPollEnv) (reading : Reading) (ref : CommsRef)
    (faults : List Bool) : AtsDesk :=
  match (AtsService.update env reading ref).run ⟨d.ats, d.db, [], faults⟩ with
  | .ok _ c => ⟨c.self, c.db, c.emitted⟩
  | .error _ c => ⟨c.self, c.db, []⟩

/-- What can happen to the companion's service and the tables it shares. -/
inductive Label where
  | poll (env : AtsPollEnv) (reading : Reading) (ref : CommsRef) (faults : List Bool)
  | noteCommandWrite (command : Action) (assert : Bool) (mono : ℚ)
  /-- an acknowledgement, the state machine or another session changes the tables -/
  | elsewhere (db : Database)

def step (d : AtsDesk) : Label → Option AtsDesk
  | .poll env reading ref faults => some (d.onPoll env reading ref faults)
  | .noteCommandWrite command assert mono =>
    some { d with ats := d.ats.noteCommandWrite command assert mono, published := [] }
  | .elsewhere db => some { d with db := db, published := [] }

def start (m : RegisterMap) (expectedUnitId : Option ℤ) (db : Database) : AtsDesk :=
  ⟨.init m expectedUnitId, db, []⟩

section Poll

variable {d : AtsDesk} {env : AtsPollEnv} {reading : Reading} {ref : CommsRef} {faults : List Bool}

/-- The calls that raise during the poll are guarded ones. -/
def Spared (d : AtsDesk) (env : AtsPollEnv) (reading : Reading) (ref : CommsRef)
    (faults : List Bool) : Prop :=
  Spares faults (d.ats.updateCalls env reading ref)

instance : Decidable (d.Spared env reading ref faults) :=
  inferInstanceAs (Decidable (Spares _ _))

theorem onPoll_snap_of_spared (h : d.Spared env reading ref faults) :
    (d.onPoll env reading ref faults).ats.snap = d.ats.nextSnapshot env reading ref := by
  obtain ⟨c', hr, hsnap, -⟩ :=
    (AtsService.update_run env reading ref ⟨d.ats, d.db, [], faults⟩).1 h
  rw [onPoll, hr]
  exact hsnap

theorem onPoll_snap_of_not_spared (h : ¬d.Spared env reading ref faults) :
    (d.onPoll env reading ref faults).ats.snap = d.ats.snap ∧
      (d.onPoll env reading ref faults).published = [] := by
  obtain ⟨e, c', hr, hsnap⟩ :=
    (AtsService.update_run env reading ref ⟨d.ats, d.db, [], faults⟩).2 h
  rw [onPoll, hr]
  exact ⟨hsnap, rfl⟩

theorem spared_nil : d.Spared env reading ref [] := by
  simp [Spared, Spares]

end Poll

/-! ### A fault clears only when it is seen cleared -/

/-- The fault leaves the snapshot, loses its row or is announced as cleared; the clock skew keeps a
row of its own. -/
def Withdraws (d d' : AtsDesk) (code : String) : Prop :=
  code ∈ d.ats.snap.faultCodes ∧
    (code ∉ d'.ats.snap.faultCodes ∨ code ≠ timeSkewAlarmCode ∧
      (d.db.Active code ∧ ¬d'.db.Active code ∨ code ∈ clearedCodes d'.published))

/-- The reading has a fault summary, with the bits of the code not all set. -/
def SeenCleared (m : RegisterMap) (values : Values) (code : String) : Prop :=
  ∃ raw ∈ values "fault_summary", ∀ ab ∈ m.alarmBits, ab.register = "fault_summary" →
    ab.code = code → Int.land (truncInt raw) ab.mask ≠ ab.mask

/-- Without a fault summary, blocking faults go on blocking asserts and position faults go on
withholding authority. -/
def StaysShut (d : AtsDesk) (reading : Reading) (d' : AtsDesk) : Prop :=
  reading.values "fault_summary" = none →
    (d.ats.snap.faultCodes ∩ assertBlockingFaults ≠ ∅ →
      d'.ats.snap.faultCodes ∩ assertBlockingFaults ≠ ∅) ∧
    (d.ats.snap.faultCodes ∩ positionFaults ≠ ∅ → ∀ heap, d'.ats.isAuthoritative heap = false)

/-- Every fault that a poll withdraws is seen cleared. -/
def ClearsOnSight (d : AtsDesk) (reading : Reading) (d' : AtsDesk) : Prop :=
  (∀ code, d.Withdraws d' code → SeenCleared d.ats.regmap reading.values code) ∧
    d.StaysShut reading d'

/-- A poll without the fault summary finds no fault on display, except for one that zero shows. -/
def Reported (d : AtsDesk) (reading : Reading) : Prop :=
  reading.values "fault_summary" = none →
    d.ats.snap.faultCodes ⊆ AtsService.decodeFaultBits 0 d.ats.regmap

section Faults

variable {d : AtsDesk} {env : AtsPollEnv} {reading : Reading} {ref : CommsRef} {faults : List Bool}

theorem mem_decodeFaultBits {raw : ℤ} {m : RegisterMap} {code : String} :
    code ∈ AtsService.decodeFaultBits raw m ↔ ∃ ab ∈ m.alarmBits, ab.register = "fault_summary" ∧
      Int.land raw ab.mask = ab.mask ∧ ab.code = code := by
  simp only [AtsService.decodeFaultBits, List.mem_toFinset, List.mem_map, List.mem_filter,
    decide_eq_true_eq]
  constructor
  · rintro ⟨ab, ⟨hab, hreg, hmask⟩, hcode⟩
    exact ⟨ab, hab, hreg, hmask, hcode⟩
  · rintro ⟨ab, hab, hreg, hmask, hcode⟩
    exact ⟨ab, ⟨hab, hreg, hmask⟩, hcode⟩

theorem onPoll_final (d : AtsDesk) (env : AtsPollEnv) (reading : Reading) (ref : CommsRef)
    (faults : List Bool) :
    let c' := finalState ((AtsService.update env reading ref).run ⟨d.ats, d.db, [], faults⟩)
    (d.onPoll env reading ref faults).ats = c'.self ∧
      (d.onPoll env reading ref faults).db = c'.db ∧
      ∀ e ∈ (d.onPoll env reading ref faults).published, e ∈ c'.emitted := by
  unfold onPoll
  split <;> rename_i h <;> rw [h] <;> simp [finalState]

theorem withdraws_spec {code : String} (h : d.Withdraws (d.onPoll env reading ref faults) code) :
    code ∈ d.ats.snap.faultCodes ∧ code ∉ (d.ats.nextSnapshot env reading ref).faultCodes := by
  obtain ⟨hold, h⟩ := h
  obtain ⟨-, hdb, hpub⟩ := onPoll_final d env reading ref faults
  have hK := AtsService.around_update env reading ref ⟨d.ats, d.db, [], faults⟩
  have hnotK : code ∈ (d.ats.nextSnapshot env reading ref).faultCodes → code ≠ timeSkewAlarmCode →
      code ∉ d.ats.touchedCodes env reading ref := by
    rintro hnew hskew (hin | hout | heq)
    · exact (Finset.mem_sdiff.mp hin).2 hold
    · exact (Finset.mem_sdiff.mp hout).2 hnew
    · exact hskew heq
  refine ⟨hold, fun hnew => ?_⟩
  rcases h with hleft | ⟨hskew, ⟨hrow, hgone⟩ | ⟨e, he, hclears⟩⟩
  · by_cases hs : d.Spared env reading ref faults
    · exact hleft (onPoll_snap_of_spared hs ▸ hnew)
    · exact hleft ((onPoll_snap_of_not_spared hs).1 ▸ hold)
  · rw [hdb] at hgone
    exact hgone ((hK.rows code (hnotK hnew hskew)).mpr hrow)
  · obtain ⟨new, hemitted, hin⟩ := hK.emits
    have hmem := hpub e he
    rw [hemitted, List.nil_append] at hmem
    exact hnotK hnew hskew (hin e hmem code (Event.alarmCode_of_clears hclears))

theorem onPoll_regmap : (d.onPoll env reading ref faults).ats.regmap = d.ats.regmap := by
  rw [(onPoll_final d env reading ref faults).1]
  exact (AtsService.around_update env reading ref ⟨d.ats, d.db, [], faults⟩).regmap

theorem onPoll_expectedUnitId :
    (d.onPoll env reading ref faults).ats.expectedUnitId = d.ats.expectedUnitId := by
  rw [(onPoll_final d env reading ref faults).1]
  exact (AtsService.around_update env reading ref ⟨d.ats, d.db, [], faults⟩).unit

theorem seenCleared_of_present {raw : ℚ} {code : String}
    (hraw : reading.values "fault_summary" = some raw)
    (hnew : code ∉ (d.ats.nextSnapshot env reading ref).faultCodes) :
    SeenCleared d.ats.regmap reading.values code := by
  refine ⟨raw, hraw, fun ab hab hreg hcode hmask => hnew ?_⟩
  simp only [AtsService.nextSnapshot, AtsService.intOr, hraw, Option.map_some, Option.getD_some]
  exact mem_decodeFaultBits.mpr ⟨ab, hab, hreg, hmask, hcode⟩

theorem nextSnapshot_of_missing (h : reading.values "fault_summary" = none) :
    (d.ats.nextSnapshot env reading ref).faultCodes =
      AtsService.decodeFaultBits 0 d.ats.regmap := by
  simp [AtsService.nextSnapshot, AtsService.intOr, h]

/-- A poll without the fault summary that withdraws nothing keeps every fault. -/
theorem staysShut_of_kept {d' : AtsDesk}
    (h : reading.values "fault_summary" = none → d.ats.snap.faultCodes ⊆ d'.ats.snap.faultCodes) :
    d.StaysShut reading d' := by
  intro hmissing
  have hkept := h hmissing
  constructor
  · intro hblocked
    obtain ⟨code, hcode⟩ := Finset.nonempty_iff_ne_empty.mpr hblocked
    obtain ⟨hin, hset⟩ := Finset.mem_inter.mp hcode
    exact Finset.ne_empty_of_mem (Finset.mem_inter.mpr ⟨hkept hin, hset⟩)
  · intro hposition heap
    obtain ⟨code, hcode⟩ := Finset.nonempty_iff_ne_empty.mpr hposition
    obtain ⟨hin, hset⟩ := Finset.mem_inter.mp hcode
    have hne := Finset.ne_empty_of_mem (Finset.mem_inter.mpr ⟨hkept hin, hset⟩)
    simp [AtsService.isAuthoritative, hne]

theorem clearsOnSight_of_reported (h : d.Reported reading) :
    d.ClearsOnSight reading (d.onPoll env reading ref faults) := by
  constructor
  · intro code hw
    obtain ⟨hold, hnew⟩ := withdraws_spec hw
    cases hraw : reading.values "fault_summary" with
    | some raw => exact seenCleared_of_present hraw hnew
    | none =>
      rw [nextSnapshot_of_missing hraw] at hnew
      exact absurd (h hraw hold) hnew
  · refine staysShut_of_kept fun hmissing => ?_
    by_cases hs : d.Spared env reading ref faults
    · rw [onPoll_snap_of_spared hs, nextSnapshot_of_missing hmissing]
      exact h hmissing
    · rw [(onPoll_snap_of_not_spared hs).1]

theorem reported_of_clearsOnSight (h : d.ClearsOnSight reading (d.onPoll env reading ref [])) :
    d.Reported reading := by
  intro hmissing code hcode
  by_contra hzero
  have hleft : code ∉ (d.onPoll env reading ref []).ats.snap.faultCodes := by
    rw [onPoll_snap_of_spared spared_nil, nextSnapshot_of_missing hmissing]
    exact hzero
  obtain ⟨raw, hraw, -⟩ := h.1 code ⟨hcode, Or.inl hleft⟩
  rw [hmissing] at hraw
  cases hraw

end Faults

/-- In every run in which no poll without the fault summary finds a fault on display, faults clear
only when seen cleared, whatever database calls raise; without database errors no other run
does. -/
theorem faults_clear_on_sight_iff_reported (m : RegisterMap) (expectedUnitId : Option ℤ)
    (db : Database) (ls : List Label) :
    ((∀ d env reading ref faults d', Takes step (start m expectedUnitId db) ls d
        (.poll env reading ref faults) d' → d.Reported reading) →
      ∀ d env reading ref faults d', Takes step (start m expectedUnitId db) ls d
        (.poll env reading ref faults) d' → d.ClearsOnSight reading d') ∧
    ((∀ d env reading ref faults d', Takes step (start m expectedUnitId db) ls d
        (.poll env reading ref faults) d' → faults = [] ∧ d.ClearsOnSight reading d') →
      ∀ d env reading ref faults d', Takes step (start m expectedUnitId db) ls d
        (.poll env reading ref faults) d' → d.Reported reading) := by
  constructor
  · intro h d env reading ref faults d' ht
    obtain rfl := Option.some.inj ht.step_eq
    exact clearsOnSight_of_reported (h _ _ _ _ _ _ ht)
  · intro h d env reading ref faults d' ht
    obtain ⟨rfl, hclears⟩ := h _ _ _ _ _ _ ht
    obtain rfl := Option.some.inj ht.step_eq
    exact reported_of_clearsOnSight hclears

def inputFaultMap : RegisterMap :=
  { RegisterMap.bare with
    registers := [.plain "fault_summary"]
    alarmBits := [⟨"fault_summary", 1, "ATS_PI_INPUT_FAULT", "Input fault", .warn, [], 1⟩] }

/-- A prime poll of the fault summary alone, which may be missing. -/
def summaryReading (value : Option ℚ) : Reading :=
  ⟨fun name => if name = "fault_summary" then value else none, 0, fun _ => none⟩

def primeEnv (now : ℚ) : AtsPollEnv := ⟨now, now, .prime, fun _ => .initial 1500⟩

/-- An input fault that is seen, then seen cleared. -/
theorem seen_fault_clears_on_sight :
    ∀ d env reading ref faults d', Takes step (start inputFaultMap none .empty)
      [.poll (primeEnv 1) (summaryReading (some 1)) .atsPoller [],
        .poll (primeEnv 2) (summaryReading (some 0)) .atsPoller []] d
      (.poll env reading ref faults) d' → d.ClearsOnSight reading d' := by
  refine (faults_clear_on_sight_iff_reported inputFaultMap none .empty _).1
    fun d env reading ref faults d' ht => ?_
  obtain ⟨pre, post, he, -, -⟩ := ht
  have hmem : Label.poll env reading ref faults ∈
      [.poll (primeEnv 1) (summaryReading (some 1)) .atsPoller [],
        .poll (primeEnv 2) (summaryReading (some 0)) .atsPoller []] := by
    rw [he]
    simp
  simp only [List.mem_cons, Label.poll.injEq, List.not_mem_nil, or_false] at hmem
  intro hmissing
  rcases hmem with ⟨-, rfl, -, -⟩ | ⟨-, rfl, -, -⟩ <;> cases hmissing

/-- An input fault that is seen, then withdrawn by a poll without the fault summary. -/
theorem missing_summary_withdraws_fault :
    ¬∀ d env reading ref faults d', Takes step (start inputFaultMap none .empty)
      ([.poll (primeEnv 1) (summaryReading (some 1)) .atsPoller []] ++
        [.poll (primeEnv 2) (summaryReading none) .atsPoller []]) d
      (.poll env reading ref faults) d' → d.ClearsOnSight reading d' := by
  intro h
  obtain ⟨d, d', ht, hd⟩ := takes_of_lastStep step (start inputFaultMap none .empty)
    [.poll (primeEnv 1) (summaryReading (some 1)) .atsPoller []]
    (.poll (primeEnv 2) (summaryReading none) .atsPoller [])
    (fun d _ d' => "ATS_PI_INPUT_FAULT" ∈ d.ats.snap.faultCodes ∧
      "ATS_PI_INPUT_FAULT" ∉ d'.ats.snap.faultCodes) (by decide +kernel)
  obtain ⟨hold, hleft⟩ := of_decide_eq_true hd
  obtain ⟨raw, hraw, -⟩ := (h _ _ _ _ _ _ ht).1 "ATS_PI_INPUT_FAULT" ⟨hold, Or.inl hleft⟩
  cases hraw

/-! ### A fault behind a database error -/

section Errors

variable (d : AtsDesk) (env : AtsPollEnv) (reading : Reading) (ref : CommsRef)

/-- The snapshot has the position, the availability of the utility and the faults that the reading
decodes to. -/
def Shows (snap : AtsSnapshot) : Prop :=
  snap.position = (d.ats.nextSnapshot env reading ref).position ∧
    snap.normalAvailable = (d.ats.nextSnapshot env reading ref).normalAvailable ∧
    snap.faultCodes = (d.ats.nextSnapshot env reading ref).faultCodes

instance (snap : AtsSnapshot) : Decidable (d.Shows env reading ref snap) :=
  inferInstanceAs (Decidable (_ ∧ _))

/-- The reading carries a fault under which its position cannot be trusted. -/
def CarriesPositionFault : Prop :=
  (d.ats.nextSnapshot env reading ref).faultCodes ∩ positionFaults ≠ ∅

instance : Decidable (d.CarriesPositionFault env reading ref) :=
  inferInstanceAs (Decidable (_ ≠ _))

/-- After a poll that carries a position fault the companion is not authoritative and the snapshot
is the decoded one exactly when no unguarded database call raised, or the snapshot showed it
already. -/
theorem position_fault_seen_iff (faults : List Bool)
    (hfault : d.CarriesPositionFault env reading ref) :
    ((∀ heap, (d.onPoll env reading ref faults).ats.isAuthoritative heap = false) ∧
        d.Shows env reading ref (d.onPoll env reading ref faults).ats.snap) ↔
      d.Spared env reading ref faults ∨ d.Shows env reading ref d.ats.snap := by
  have hwithheld : ∀ ats : AtsService, d.Shows env reading ref ats.snap →
      ∀ heap, ats.isAuthoritative heap = false := by
    intro ats hshows heap
    have hne : ats.snap.faultCodes ∩ positionFaults ≠ ∅ := by
      rw [hshows.2.2]
      exact hfault
    simp [AtsService.isAuthoritative, hne]
  by_cases hs : d.Spared env reading ref faults
  · have hshows : d.Shows env reading ref (d.onPoll env reading ref faults).ats.snap := by
      rw [onPoll_snap_of_spared hs]
      exact ⟨rfl, rfl, rfl⟩
    exact iff_of_true ⟨hwithheld _ hshows, hshows⟩ (Or.inl hs)
  · have hsnap := (onPoll_snap_of_not_spared hs).1
    rw [hsnap, or_iff_right hs]
    refine ⟨And.right, fun hshows => ⟨hwithheld _ ?_, hshows⟩⟩
    rw [hsnap]
    exact hshows

end Errors

/-- The event log fails, and the input fault is seen all the same. -/
theorem log_error_fault_seen :
    (start inputFaultMap none .empty).CarriesPositionFault (primeEnv 1) (summaryReading (some 1))
        .atsPoller ∧
      (start inputFaultMap none .empty).Shows (primeEnv 1) (summaryReading (some 1)) .atsPoller
        ((start inputFaultMap none .empty).onPoll (primeEnv 1) (summaryReading (some 1)) .atsPoller
          [false, true]).ats.snap := by
  have hfault : (start inputFaultMap none .empty).CarriesPositionFault (primeEnv 1)
      (summaryReading (some 1)) .atsPoller := by decide +kernel
  exact ⟨hfault, ((position_fault_seen_iff _ _ _ _ _ hfault).mpr (Or.inl (by decide +kernel))).2⟩

/-- A base poll of a companion that speaks version 1 and reports the utility position. -/
def identityReading : Reading :=
  ⟨fun name => if name = "icd_version_major" then some 1 else if name = "position" then some 0
    else if name = "fault_summary" then some 0 else none, 0, fun _ => none⟩

def trustedDesk : AtsDesk :=
  (start inputFaultMap none .empty).onPoll { primeEnv 1 with tier := .base } identityReading
    .atsPoller []

/-- The alarm row of a new input fault cannot be written: the companion stays authoritative. -/
theorem alarm_error_keeps_authority :
    ¬∀ (d : AtsDesk) env reading ref faults, d.CarriesPositionFault env reading ref →
      (∀ heap, (d.onPoll env reading ref faults).ats.isAuthoritative heap = false) ∧
        d.Shows env reading ref (d.onPoll env reading ref faults).ats.snap := by
  intro h
  have hlost := (h trustedDesk (primeEnv 2) (summaryReading (some 1)) .atsPoller [true]
    (by decide +kernel)).1 fun _ => .initial 1500
  exact absurd hlost (by decide +kernel)

end AtsDesk

end GenWatch

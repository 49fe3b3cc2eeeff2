import GenWatch.Ats.Authority
import GenWatch.Polling.Sampled

/-! # Clock skew

The companion's wall clock is read in a batch of a base poll, decoded when the last batch
has returned and kept until the next base poll, but every callback compares it with the
present time. So the check measures the age of the value as well as the skew, and the alarm
means skew only as long as no value that agreed with our clock when it was read has aged
out of the threshold.
-/

namespace GenWatch

open Handler ServiceM Transition

namespace AtsService

/-- What an update can make of the skew flag: nothing, or what the check of its wall clock says. -/
def SkewChecked (wallclock : Option ℚ) (now : ℚ) (c c' : Ctx AtsService) : Prop :=
  c'.self.timeSkewAlarmActive = c.self.timeSkewAlarmActive ∨
    ∃ w ∈ wallclock, c'.self.timeSkewAlarmActive = decide (timeSkewThresholdS < |w - now|)

section Flag

variable {wallclock : Option ℚ} {now : ℚ}

instance : Std.Refl (SkewChecked wallclock now) := ⟨fun _ => Or.inl rfl⟩

instance : IsTrans (Ctx AtsService) (SkewChecked wallclock now) where
  trans _ _ _ h h' := by
    rcases h' with heq | hchecked
    · rcases h with heq' | ⟨w, hw, hflag⟩
      · exact Or.inl (heq.trans heq')
      · exact Or.inr ⟨w, hw, heq.trans hflag⟩
    · exact Or.inr hchecked

theorem skewChecked_emitEvent (e : Event) (severity : Severity) (type : EventType)
    (message : Message) (info : Option String) (time : ℚ) :
    Relates (SkewChecked wallclock now) (emitEvent e severity type message info time) := by
  intro c
  obtain ⟨db, faults, hr, -, -⟩ := emitEvent_run e severity type message info time c
  rw [hr]
  exact Or.inl rfl

theorem skewChecked_dbCall {α : Type} (op : Database → α × Database) :
    Relates (SkewChecked wallclock now) (dbCall op : ServiceM AtsService α) :=
  relates_dbCall (fun _ _ => Or.inl rfl) fun _ _ => Or.inl rfl

theorem skewChecked_checkTimeSkew :
    Relates (SkewChecked wallclock now) (checkTimeSkew wallclock now) := by
  unfold checkTimeSkew
  split
  · exact Relates.pure _
  rename_i w
  refine Relates.bind relates_getSelf fun ats => Relates.ite (fun h => ?_) fun _ =>
    Relates.ite (fun h => ?_) fun _ => Relates.pure _
  · refine Relates.bind (Relates.modify fun c => Or.inr ⟨w, rfl, ?_⟩) fun _ =>
      Relates.bind (skewChecked_dbCall _) fun _ => Relates.pure _
    exact (decide_eq_true h.1).symm
  · refine Relates.bind (Relates.modify fun c => Or.inr ⟨w, rfl, ?_⟩) fun _ =>
      Relates.bind (skewChecked_dbCall _) fun _ => Relates.pure _
    exact (decide_eq_false (not_lt.mpr h.1)).symm

theorem skewChecked_checkSource (normal : Bool) (prev new : Option Bool) (time : ℚ) :
    Relates (SkewChecked wallclock now) (checkSource normal prev new time) := by
  unfold checkSource
  split
  · exact Relates.ite (fun _ => skewChecked_emitEvent _ _ _ _ _ _) fun _ => Relates.pure _
  · exact Relates.pure _

theorem skewChecked_checkCmdEdge (mono time : ℚ) (command : Action) (was isNow : Bool) :
    Relates (SkewChecked wallclock now) (checkCmdEdge mono time command was isNow) :=
  Relates.bind relates_getSelf fun _ =>
    Relates.ite (fun _ => skewChecked_emitEvent _ _ _ _ _ _) fun _ => Relates.pure _

theorem skewChecked_checkReboot (uptimeS : ℤ) (time : ℚ) :
    Relates (SkewChecked wallclock now) (checkReboot uptimeS time) := by
  refine Relates.bind relates_getSelf fun _ => Relates.bind ?_ fun _ => ?_
  · exact Relates.ite (fun _ => skewChecked_emitEvent _ _ _ _ _ _) fun _ => Relates.pure _
  · exact Relates.modify fun _ => Or.inl rfl

theorem skewChecked_checkIcdVersion (major minor : ℤ) (time : ℚ) :
    Relates (SkewChecked wallclock now) (checkIcdVersion major minor time) := by
  refine Relates.bind relates_getSelf fun _ => Relates.ite (fun _ => ?_) fun _ => Relates.pure _
  refine Relates.bind ?_ fun _ => Relates.modify fun _ => Or.inl rfl
  unfold validateIcdVersion
  split
  · exact skewChecked_emitEvent _ _ _ _ _ _
  · exact Relates.pure _

theorem skewChecked_announceChanges (ats : AtsService) (env : AtsPollEnv) (v : Values)
    (new : AtsSnapshot) :
    Relates (SkewChecked (epochOrNone (v "ats_pi_wallclock")) env.now)
      (announceChanges ats env v new) := by
  refine Relates.bind (Relates.ite (fun _ => Relates.ite (fun _ => Relates.pure _) fun _ =>
    skewChecked_emitEvent _ _ _ _ _ _) fun _ => Relates.pure _) fun _ => ?_
  refine Relates.bind (skewChecked_checkSource _ _ _ _) fun _ => ?_
  refine Relates.bind (skewChecked_checkSource _ _ _ _) fun _ => ?_
  refine Relates.bind (Relates.ite (fun _ => skewChecked_emitEvent _ _ _ _ _ _) fun _ =>
    Relates.pure _) fun _ => ?_
  refine Relates.bind (Relates.forM fun _ _ => Relates.bind (skewChecked_dbCall _) fun _ =>
    skewChecked_emitEvent _ _ _ _ _ _) fun _ => ?_
  refine Relates.bind (Relates.forM fun _ _ => Relates.bind (skewChecked_dbCall _) fun _ =>
    skewChecked_emitEvent _ _ _ _ _ _) fun _ => ?_
  refine Relates.bind (Relates.ite (fun _ => Relates.pure _) fun _ =>
    Relates.bind (skewChecked_checkCmdEdge _ _ _ _ _) fun _ =>
      skewChecked_checkCmdEdge _ _ _ _ _) fun _ => ?_
  exact Relates.bind (skewChecked_checkReboot _ _) fun _ => skewChecked_checkTimeSkew

end Flag

theorem skewChecked_update (env : AtsPollEnv) (reading : Reading) (comms : CommsRef) :
    Relates (SkewChecked (epochOrNone (reading.values "ats_pi_wallclock")) env.now)
      (update env reading comms) := by
  refine Relates.bind relates_getSelf fun ats => ?_
  refine Relates.bind (skewChecked_announceChanges _ _ _ _) fun _ => ?_
  refine Relates.bind (Relates.ite (fun _ => Relates.bind (skewChecked_dbCall _) fun _ =>
    Relates.modify fun _ => Or.inl rfl) fun _ => Relates.pure _) fun _ => ?_
  refine Relates.bind (skewChecked_checkIcdVersion _ _ _) fun _ => ?_
  exact Relates.modify fun _ => Or.inl rfl

theorem mem_epochOrNone {v : Option ℚ} {w : ℚ} (h : w ∈ epochOrNone v) :
    ∃ q, v = some q ∧ 0 < truncInt q ∧ w = truncInt q := by
  obtain ⟨q, hq, h⟩ := Option.bind_eq_some_iff.mp h
  split at h
  · exact ⟨q, hq, ‹_›, (Option.some.inj h).symm⟩
  · cases h

end AtsService

namespace AtsDesk

variable {d : AtsDesk} {env : AtsPollEnv} {reading : Reading} {ref : CommsRef} {faults : List Bool}

/-- The alarm is raised: its flag is set right before its row is written. -/
def RaisesTimeSkew (d d' : AtsDesk) : Prop :=
  d.ats.timeSkewAlarmActive = false ∧ d'.ats.timeSkewAlarmActive = true

instance (d d' : AtsDesk) : Decidable (d.RaisesTimeSkew d') := inferInstanceAs (Decidable (_ ∧ _))

/-- The alarm is raised on a wall clock in the reading, by more than the threshold. -/
theorem raisesTimeSkew_spec (h : d.RaisesTimeSkew (d.onPoll env reading ref faults)) :
    ∃ v, reading.values "ats_pi_wallclock" = some v ∧ 0 < truncInt v ∧
      timeSkewThresholdS < |truncInt v - env.now| := by
  obtain ⟨hoff, hon⟩ := h
  rw [(onPoll_final d env reading ref faults).1] at hon
  rcases AtsService.skewChecked_update env reading ref ⟨d.ats, d.db, [], faults⟩ with
    hsame | ⟨w, hw, hflag⟩
  · rw [hsame] at hon
    exact absurd (hoff.symm.trans hon) Bool.false_ne_true
  · obtain ⟨v, hv, hpos, rfl⟩ := AtsService.mem_epochOrNone hw
    rw [hflag] at hon
    exact ⟨v, hv, hpos, of_decide_eq_true hon⟩

theorem raisesTimeSkew_of_spared (hs : d.Spared env reading ref faults) {v : ℚ}
    (hoff : d.ats.timeSkewAlarmActive = false)
    (hv : reading.values "ats_pi_wallclock" = some v) (hpos : 0 < truncInt v)
    (hskew : timeSkewThresholdS < |truncInt v - env.now|) :
    d.RaisesTimeSkew (d.onPoll env reading ref faults) := by
  obtain ⟨c', hr, -, hflag⟩ :=
    (AtsService.update_run env reading ref ⟨d.ats, d.db, [], faults⟩).1 hs
  have hepoch : AtsService.epochOrNone (reading.values "ats_pi_wallclock") =
      some (truncInt v : ℚ) := by
    simp [AtsService.epochOrNone, hv, hpos]
  refine ⟨hoff, ?_⟩
  rw [onPoll, hr]
  rw [hepoch] at hflag
  simp only [AtsService.noteTimeSkew, hskew, hoff, Bool.false_eq_true, not_false_eq_true,
    and_self, if_true] at hflag
  exact hflag

end AtsDesk

/-- A moment, with our wall clock at it, which may have been set. -/
structure Instant where
  mono : ℚ
  wall : ℚ
  deriving DecidableEq

/-- A companion whose register shows the whole seconds of its clock at every moment. -/
structure Companion (reg : RegisterDef) where
  clock : Instant → ℚ
  words : Instant → List ℤ
  length : ∀ t, (words t).length = reg.words
  shows : ∀ t, (decodeValue reg (words t)).map truncInt = some ⌊clock t⌋

/-- Each word of the sample is what the register showed when it was read. -/
def Companion.Gave {reg : RegisterDef} (C : Companion reg) (x : RegisterSample Instant) : Prop :=
  ∀ (i : ℕ) (t : Instant), x.moments[i]? = some t → x.words[i]? = (C.words t)[i]?

/-- Whatever companion gave the sample, its clock differed from ours by more than the threshold at
a moment at which it was read, up to the truncation to whole seconds. -/
def SkewedAtRead (reg : RegisterDef) (x : RegisterSample Instant) : Prop :=
  ∀ C : Companion reg, C.Gave x → ∃ t ∈ x.moments, timeSkewThresholdS - 1 < |C.clock t - t.wall|

/-- A register value that some clock close to ours could show. -/
def Near (v now : ℚ) : Prop :=
  now - timeSkewThresholdS < truncInt v ∧ truncInt v ≤ now + (timeSkewThresholdS - 1)

instance (v now : ℚ) : Decidable (Near v now) := inferInstanceAs (Decidable (_ ∧ _))

/-- At each moment at which words of the sample were read, they are words of a value that some
clock close to ours could show. -/
def CouldAgree (reg : RegisterDef) (x : RegisterSample Instant) : Prop :=
  ∀ t ∈ x.moments, ∃ words v, words.length = reg.words ∧ decodeValue reg words = some v ∧
    Near v t.wall ∧ ∀ i : ℕ, x.moments[i]? = some t → x.words[i]? = words[i]?

theorem near_iff (v now : ℚ) :
    Near v now ↔ ∃ clock : ℚ, ⌊clock⌋ = truncInt v ∧ |clock - now| ≤ timeSkewThresholdS - 1 := by
  have hthreshold : timeSkewThresholdS = 5 := rfl
  unfold Near
  rw [hthreshold]
  constructor
  · rintro ⟨hlow, hhigh⟩
    have hmax : max (truncInt v : ℚ) (now - 4) ≤ now + 4 := max_le (by linarith) (by linarith)
    refine ⟨max (truncInt v : ℚ) (now - 4), ?_, abs_le.mpr ⟨?_, by linarith⟩⟩
    · rw [Int.floor_eq_iff]
      exact ⟨le_max_left _ _, max_lt (by linarith) (by linarith)⟩
    · linarith [le_max_right (truncInt v : ℚ) (now - 4)]
  · rintro ⟨clock, hclock, hclose⟩
    obtain ⟨hle, hlt⟩ := Int.floor_eq_iff.mp hclock
    obtain ⟨hlow, hhigh⟩ := abs_le.mp hclose
    constructor
    · linarith
    · linarith

section Companions

variable {reg : RegisterDef} {x : RegisterSample Instant}

theorem Companion.near (C : Companion reg) {t : Instant}
    (h : |C.clock t - t.wall| ≤ timeSkewThresholdS - 1) :
    ∃ v, decodeValue reg (C.words t) = some v ∧ Near v t.wall := by
  obtain ⟨v, hv, hshown⟩ := Option.map_eq_some_iff.mp (C.shows t)
  exact ⟨v, hv, (near_iff v t.wall).mpr ⟨C.clock t, hshown.symm, h⟩⟩

theorem exists_companion (h : CouldAgree reg x) :
    ∃ C : Companion reg, C.Gave x ∧
      ∀ t ∈ x.moments, |C.clock t - t.wall| ≤ timeSkewThresholdS - 1 := by
  have hchoice : ∀ t : Instant, ∃ words clock, words.length = reg.words ∧
      (decodeValue reg words).map truncInt = some ⌊(clock : ℚ)⌋ ∧
      (t ∈ x.moments → |clock - t.wall| ≤ timeSkewThresholdS - 1 ∧
        ∀ i : ℕ, x.moments[i]? = some t → x.words[i]? = words[i]?) := by
    intro t
    by_cases ht : t ∈ x.moments
    · obtain ⟨words, v, hlength, hv, hnear, hwords⟩ := h t ht
      obtain ⟨clock, hclock, hclose⟩ := (near_iff v t.wall).mp hnear
      exact ⟨words, clock, hlength, by rw [hv, hclock]; rfl, fun _ => ⟨hclose, hwords⟩⟩
    · have hlength : (List.replicate reg.words (0 : ℤ)).length = reg.words := List.length_replicate
      obtain ⟨v, hv⟩ := Option.isSome_iff_exists.mp (decodeValue_isSome hlength.ge)
      exact ⟨_, truncInt v, hlength, by rw [hv, Int.floor_intCast]; rfl, fun hin => absurd hin ht⟩
  choose words clock hlength hshows hgave using hchoice
  refine ⟨⟨clock, words, hlength, hshows⟩, fun i t hi => ?_, fun t ht => (hgave t ht).1⟩
  exact (hgave t (List.mem_of_getElem? hi)).2 i hi

theorem skewedAtRead_iff : SkewedAtRead reg x ↔ ¬CouldAgree reg x := by
  constructor
  · intro h hagree
    obtain ⟨C, hgave, hclose⟩ := exists_companion hagree
    obtain ⟨t, ht, hfar⟩ := h C hgave
    exact absurd hfar (not_lt.mpr (hclose t ht))
  · intro h C hgave
    by_contra hclose
    refine h fun t ht => ?_
    have hnear : |C.clock t - t.wall| ≤ timeSkewThresholdS - 1 :=
      not_lt.mp fun hfar => hclose ⟨t, ht, hfar⟩
    obtain ⟨v, hv, hnear⟩ := C.near hnear
    exact ⟨C.words t, v, C.length t, hv, hnear, fun i hi => hgave i t hi⟩

/-- A register that was read in one piece could agree if its value could. -/
theorem couldAgree_iff_near (hx : x.Of reg) {t : Instant} (ht : ∀ t' ∈ x.moments, t' = t) :
    CouldAgree reg x ↔ Near x.value t.wall := by
  have hmem : t ∈ x.moments := by
    obtain ⟨t', ht'⟩ := List.exists_mem_of_ne_nil _ hx.moments_ne_nil
    obtain rfl := ht t' ht'
    exact ht'
  have hall : ∀ i < reg.words, x.moments[i]? = some t := by
    intro i hi
    rw [← hx.moments] at hi
    rw [List.getElem?_eq_getElem hi, ht _ (List.getElem_mem hi)]
  constructor
  · intro h
    obtain ⟨words, v, hlength, hv, hnear, hwords⟩ := h t hmem
    have hsame : x.words = words := by
      apply List.ext_getElem?
      intro i
      by_cases hi : i < reg.words
      · exact hwords i (hall i hi)
      · rw [List.getElem?_eq_none (by rw [hx.words]; omega),
          List.getElem?_eq_none (by rw [hlength]; omega)]
    obtain rfl : x.value = v := Option.some.inj (hx.decoded.symm.trans (hsame ▸ hv))
    exact hnear
  · intro hnear t' ht'
    obtain rfl := ht t' ht'
    exact ⟨x.words, x.value, hx.words, hx.decoded, hnear, fun _ _ => rfl⟩

end Companions

namespace AtsLink

/-- The companion's poller with its service, and with the moments at which words were read. -/
abbrev Timed := Sampled Instant AtsDesk

/-- The moment at which the slave answered goes with every step. -/
abbrev TimedLabel := Label × Instant

namespace Timed

def start (m : RegisterMap) (expectedUnitId : Option ℤ) (db : Database) (now mono : ℚ) : Timed :=
  Sampled.start m now mono (.start m expectedUnitId db)

def step : Timed → TimedLabel → Option Timed := Sampled.step onPoll onOther

/-- A run takes a step that enters the callback. -/
def Enters (s₀ : Timed) (ls : List TimedLabel) (s : Timed) (cb : Callback) (faults : List Bool)
    (s' : Timed) : Prop :=
  ∃ l t, Takes step s₀ ls s (.loop l faults, t) s' ∧ s.link.callback l = some cb

theorem Enters.spec {m : RegisterMap} (hm : m.Accepted) {expectedUnitId : Option ℤ}
    {db : Database} {now mono : ℚ} {ls : List TimedLabel} {s s' : Timed} {cb : Callback}
    {faults : List Bool}
    (h : Enters (start m expectedUnitId db now mono) ls s cb faults s') :
    s'.Sound m ∧ At s'.link cb ∧
      s'.link.consumer = onPoll s.link.consumer (health s'.link) cb faults := by
  obtain ⟨l, t, ht, hcb⟩ := h
  have hsound : s.Sound m := ht.reachable.invariant (Sampled.sound_start m now mono _)
    fun _ _ _ hI hs => hI.step hm hs
  obtain ⟨hconsumer, hreading, hmono, -⟩ :=
    Polled.step_callback (Sampled.step_link ht.step_eq) hcb
  exact ⟨hsound.step hm ht.step_eq, ⟨hreading, hmono⟩, hconsumer⟩

/-- The companion's clock differed from ours when the register last decoded was read. -/
def Skewed (m : RegisterMap) (s : Timed) : Prop :=
  ∃ reg ∈ m.registers, reg.name = "ats_pi_wallclock" ∧
    ∃ x ∈ lastSample reg s.samples, SkewedAtRead reg x

/-- While the alarm is off, a wall clock in the reading that could agree with ours when it was read
is still within the threshold of it. -/
def StillCurrent (m : RegisterMap) (s' : Timed) (d : AtsDesk) (cb : Callback) : Prop :=
  d.ats.timeSkewAlarmActive = false →
    ∀ reg ∈ m.registers, reg.name = "ats_pi_wallclock" → ∀ x ∈ lastSample reg s'.samples,
      cb.reading.values "ats_pi_wallclock" = some x.value → 0 < truncInt x.value →
      CouldAgree reg x → |truncInt x.value - cb.now| ≤ timeSkewThresholdS

/-- Whenever the callback is entered, the sample of the wall clock comes from one companion whose
clock was ours when it was read. -/
def ReadsOurClock (m : RegisterMap) (s₀ : Timed) (ls : List TimedLabel) : Prop :=
  ∀ reg ∈ m.registers, reg.name = "ats_pi_wallclock" → ∃ C : Companion reg,
    ∀ s cb faults s', Enters s₀ ls s cb faults s' → ∀ x ∈ lastSample reg s'.samples,
      C.Gave x ∧ ∀ t ∈ x.moments, C.clock t = t.wall

section Skew

variable {m : RegisterMap} {d : AtsDesk} {cb : Callback} {faults : List Bool} {s : Timed}
  {comms : CommsHealth}

theorem skewed_of_stillCurrent (hs : s.Sound m) (hat : At s.link cb) (h : StillCurrent m s d cb)
    (hraises : d.RaisesTimeSkew (onPoll d comms cb faults)) : Skewed m s := by
  obtain ⟨v, hv, hpos, hskew⟩ := AtsDesk.raisesTimeSkew_spec hraises
  have hreading := hv
  rw [hat.reading] at hreading
  obtain ⟨reg, hreg, hname, c, hread, -⟩ := hs.timely.read hreading
  obtain ⟨x, hx, rfl, -⟩ := hs.sample hread
  refine ⟨reg, hreg, hname, x, hx, skewedAtRead_iff.mpr fun hagree => ?_⟩
  have hclose := h hraises.1 reg hreg hname x hx hv hpos hagree
  exact absurd hskew (not_lt.mpr hclose)

theorem stillCurrent_of_skewed (hm : m.Accepted)
    (hspared : d.Spared (env comms cb) cb.reading .atsPoller faults)
    (h : d.RaisesTimeSkew (onPoll d comms cb faults) → Skewed m s) : StillCurrent m s d cb := by
  intro hoff reg hreg hname x hx hv hpos hagree
  by_contra hfar
  obtain ⟨reg', hreg', hname', x', hx', hskewed⟩ :=
    h (AtsDesk.raisesTimeSkew_of_spared hspared hoff hv hpos (not_le.mp hfar))
  obtain rfl := List.inj_on_of_nodup_map hm.nodup hreg' hreg (hname'.trans hname.symm)
  obtain rfl : x' = x := Option.some.inj (hx'.symm.trans hx)
  exact skewedAtRead_iff.mp hskewed hagree

end Skew

end Timed

/-- In every run in which no wall clock that could agree with ours when it was read is kept beyond
the threshold, the alarm means skew when it was read, whatever database calls raise, and it is never
raised on a companion whose clock is ours; among the runs in which no unguarded call raises, the
alarm means skew in no other run. -/
theorem time_skew_iff_still_current (m : RegisterMap) (hm : m.Accepted)
    (expectedUnitId : Option ℤ) (db : Database) (now mono : ℚ) (ls : List TimedLabel) :
    ((∀ s cb faults s', Timed.Enters (Timed.start m expectedUnitId db now mono) ls s cb faults s' →
        Timed.StillCurrent m s' s.link.consumer cb) →
      (∀ s cb faults s',
        Timed.Enters (Timed.start m expectedUnitId db now mono) ls s cb faults s' →
        s.link.consumer.RaisesTimeSkew s'.link.consumer → Timed.Skewed m s') ∧
      (Timed.ReadsOurClock m (Timed.start m expectedUnitId db now mono) ls →
        ∀ s cb faults s',
          Timed.Enters (Timed.start m expectedUnitId db now mono) ls s cb faults s' →
          ¬s.link.consumer.RaisesTimeSkew s'.link.consumer)) ∧
    ((∀ s cb faults s', Timed.Enters (Timed.start m expectedUnitId db now mono) ls s cb faults s' →
        s.link.consumer.Spared (env (health s'.link) cb) cb.reading .atsPoller faults ∧
        (s.link.consumer.RaisesTimeSkew s'.link.consumer → Timed.Skewed m s')) →
      ∀ s cb faults s', Timed.Enters (Timed.start m expectedUnitId db now mono) ls s cb faults s' →
        Timed.StillCurrent m s' s.link.consumer cb) := by
  constructor
  · intro h
    have hmeans : ∀ s cb faults s',
        Timed.Enters (Timed.start m expectedUnitId db now mono) ls s cb faults s' →
          s.link.consumer.RaisesTimeSkew s'.link.consumer → Timed.Skewed m s' := by
      intro s cb faults s' henters hraises
      obtain ⟨hsound, hat, hconsumer⟩ := henters.spec hm
      rw [hconsumer] at hraises
      exact Timed.skewed_of_stillCurrent hsound hat (h _ _ _ _ henters) hraises
    refine ⟨hmeans, fun hours s cb faults s' henters hraises => ?_⟩
    obtain ⟨reg, hreg, hname, x, hx, hskewed⟩ := hmeans s cb faults s' henters hraises
    obtain ⟨C, hC⟩ := hours reg hreg hname
    obtain ⟨hgave, hexact⟩ := hC s cb faults s' henters x hx
    obtain ⟨t, ht, hfar⟩ := hskewed C hgave
    rw [hexact t ht, sub_self, abs_zero] at hfar
    exact absurd hfar (by decide +kernel)
  · intro h s cb faults s' henters
    obtain ⟨-, -, hconsumer⟩ := henters.spec hm
    obtain ⟨hspared, hmeans⟩ := h _ _ _ _ henters
    rw [hconsumer] at hmeans
    exact Timed.stillCurrent_of_skewed hm hspared hmeans

theorem Timed.calls_of_lastStep (s₀ : Timed) (ls : List TimedLabel) (l : PollLoops.Label)
    (faults : List Bool) (t : Instant) (test : Timed → Timed → Bool)
    (h : lastStep step s₀ ls (.loop l faults, t)
      (fun s _ s' => (s.link.callback l).isSome && test s s') = true) :
    ∃ s cb s', Takes step s₀ (ls ++ [(.loop l faults, t)]) s (.loop l faults, t) s' ∧
      s.link.callback l = some cb ∧ test s s' = true := by
  obtain ⟨s, s', ht, htest⟩ := takes_of_lastStep step s₀ ls _ _ h
  obtain ⟨hcalled, htest⟩ := Bool.and_eq_true_iff.mp htest
  obtain ⟨cb, hcb⟩ := Option.isSome_iff_exists.mp hcalled
  exact ⟨s, cb, s', ht, hcb, htest⟩

/-- A companion with its position and its wall clock, at the default cadences. -/
def wallclockMap : RegisterMap :=
  { RegisterMap.bare with
    registers := [.plain "position" 0,
      { RegisterDef.plain "ats_pi_wallclock" 22 with type := .u32, tier := .base }] }

def stepsAt (now : ℚ) (ls : List PollLoops.Label) : List TimedLabel :=
  ls.map fun l => (.loop l [], ⟨now, now⟩)

def clockPoll (clock : ℤ) (now : ℚ) : List TimedLabel :=
  stepsAt now [.begin .base, .returned .base ⟨some [0, clock], 0⟩ now now, .callbackDone .base]

def primePoll (now : ℚ) : List TimedLabel :=
  stepsAt now [.begin .prime, .returned .prime ⟨some [0], 0⟩ now now, .callbackDone .prime]

/-- The last wall clock was read in one piece, with a value that passes the test. -/
def lastClock (s : Timed) (test : Instant → ℚ → Bool) : Bool :=
  decide (∀ reg ∈ wallclockMap.registers, reg.name = "ats_pi_wallclock" →
    ∀ x ∈ lastSample reg s.samples, ∃ t ∈ x.moments.head?,
      (∀ t' ∈ x.moments, t' = t) ∧ test t x.value = true)

theorem couldAgree_iff_of_lastClock {s : Timed} (hs : s.Sound wallclockMap)
    {test : Instant → ℚ → Bool} (h : lastClock s test = true) {reg : RegisterDef}
    (hreg : reg ∈ wallclockMap.registers) (hname : reg.name = "ats_pi_wallclock")
    {x : RegisterSample Instant} (hx : x ∈ lastSample reg s.samples) :
    ∃ t, test t x.value = true ∧ (CouldAgree reg x ↔ Near x.value t.wall) := by
  obtain ⟨t, -, hwhole, htest⟩ := of_decide_eq_true h reg hreg hname x hx
  exact ⟨t, htest, couldAgree_iff_near (lastSample_spec hs.lengths hx).1 hwhole⟩

/-- A clock that is a hundred seconds behind raises the alarm, and was so when it was read. -/
theorem slow_clock_means_skew :
    ∃ s cb faults s', Timed.Enters (Timed.start wallclockMap none .empty 1000 1000)
      (clockPoll 900 1000) s cb faults s' ∧
      s.link.consumer.RaisesTimeSkew s'.link.consumer ∧ Timed.Skewed wallclockMap s' := by
  have hm : wallclockMap.Accepted := by decide +kernel
  obtain ⟨s, cb, s', ht, hcb, hraises⟩ := Timed.calls_of_lastStep
    (Timed.start wallclockMap none .empty 1000 1000) (stepsAt 1000 [.begin .base])
    (.returned .base ⟨some [0, 900], 0⟩ 1000 1000) [] ⟨1000, 1000⟩
    (fun s s' => decide (s.link.consumer.RaisesTimeSkew s'.link.consumer)) (by decide +kernel)
  have hraises := of_decide_eq_true hraises
  have henters : Timed.Enters (Timed.start wallclockMap none .empty 1000 1000)
      (clockPoll 900 1000) s cb [] s' :=
    ⟨_, _, ht.append_right (stepsAt 1000 [.callbackDone .base]), hcb⟩
  refine ⟨s, cb, [], s', henters, hraises, ?_⟩
  refine ((time_skew_iff_still_current wallclockMap hm none .empty 1000 1000 _).1 ?_).1
    _ _ _ _ henters hraises
  intro s cb faults s' henters' _ reg hreg hname x hx _ _ hagree
  obtain ⟨hsound, -⟩ := henters'.spec hm
  obtain ⟨l, t, ht, -⟩ := henters'
  have hbehind := ht.test_of_everyStep
    (fun _ _ s' => lastClock s' fun t v => decide ¬Near v t.wall) (by decide +kernel)
  obtain ⟨t, hfar, hiff⟩ := couldAgree_iff_of_lastClock hsound hbehind hreg hname hx
  exact absurd (hiff.mp hagree) (of_decide_eq_true hfar)

/-- An exact clock is read, and prime polls go on at their cadence. -/
def agingClock : List TimedLabel :=
  clockPoll 1000 1000 ++ primePoll (2003 / 2) ++ primePoll 1003 ++ primePoll (2009 / 2) ++
    stepsAt 1006 [.begin .prime]

/-- The companion's clock is exact, and the alarm is raised six seconds after it was read. -/
theorem aged_wallclock_raises_skew :
    ¬∀ s cb faults s', Timed.Enters (Timed.start wallclockMap none .empty 1000 1000)
      (agingClock ++ stepsAt 1006 [.returned .prime ⟨some [0], 0⟩ 1006 1006]) s cb faults s' →
      s.link.consumer.RaisesTimeSkew s'.link.consumer → Timed.Skewed wallclockMap s' := by
  intro h
  obtain ⟨s, cb, s', ht, hcb, htest⟩ := Timed.calls_of_lastStep
    (Timed.start wallclockMap none .empty 1000 1000) agingClock
    (.returned .prime ⟨some [0], 0⟩ 1006 1006) [] ⟨1006, 1006⟩
    (fun s s' => decide (s.link.consumer.RaisesTimeSkew s'.link.consumer) &&
      lastClock s' fun t v => decide (Near v t.wall)) (by decide +kernel)
  obtain ⟨hraises, hclock⟩ := Bool.and_eq_true_iff.mp htest
  have henters : Timed.Enters (Timed.start wallclockMap none .empty 1000 1000)
      (agingClock ++ stepsAt 1006 [.returned .prime ⟨some [0], 0⟩ 1006 1006]) s cb [] s' :=
    ⟨_, _, ht, hcb⟩
  obtain ⟨hsound, -⟩ := henters.spec (by decide +kernel)
  obtain ⟨reg, hreg, hname, x, hx, hskewed⟩ := h s cb [] s' henters (of_decide_eq_true hraises)
  obtain ⟨t, hnear, hiff⟩ := couldAgree_iff_of_lastClock hsound hclock hreg hname hx
  exact skewedAtRead_iff.mp hskewed (hiff.mpr (of_decide_eq_true hnear))

end AtsLink

end GenWatch

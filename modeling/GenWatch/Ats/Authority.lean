import GenWatch.Ats.Faults
import GenWatch.Polling.Consumer

/-! # Authority and the age of the position

The companion's poller drives its service. A value that the poller has dropped leaves the
last decoded position in the snapshot and the fault summary at zero, and neither closes
the gate: the companion stays authoritative on an old position exactly when the gate is
open to a poll that has not read both registers lately.
-/

namespace GenWatch

open Transition

/-- The health records as the companion sees them: its poller's own, and the one of a fresh
snapshot, which nothing changes. -/
def companionHeap (health : CommsHealth) : CommsHeap :=
  Function.update (fun _ => .initial 1500) .atsPoller health

/-- The companion's poller with its service. -/
abbrev AtsLink := Polled AtsDesk

namespace AtsLink

def env (health : CommsHealth) (cb : Callback) : AtsPollEnv :=
  ⟨cb.now, cb.mono, cb.tier, companionHeap health⟩

def onPoll (d : AtsDesk) (health : CommsHealth) (cb : Callback) (faults : List Bool) : AtsDesk :=
  d.onPoll (env health cb) cb.reading .atsPoller faults

/-- What else happens to the service: a command is written, or the tables change. -/
inductive Other where
  | noteCommandWrite (command : Action) (assert : Bool) (mono : ℚ)
  | elsewhere (db : Database)

def onOther (d : AtsDesk) : Other → AtsDesk
  | .noteCommandWrite command assert mono =>
    { d with ats := d.ats.noteCommandWrite command assert mono, published := [] }
  | .elsewhere db => { d with db := db, published := [] }

abbrev Label := Polled.Label (List Bool) Other

def start (m : RegisterMap) (expectedUnitId : Option ℤ) (db : Database) (now mono : ℚ) : AtsLink :=
  Polled.start m now mono (.start m expectedUnitId db)

def step : AtsLink → Label → Option AtsLink := Polled.step onPoll onOther

theorem onPoll_regmap (d : AtsDesk) (health : CommsHealth) (cb : Callback) (faults : List Bool) :
    (onPoll d health cb faults).ats.regmap = d.ats.regmap :=
  AtsDesk.onPoll_regmap

structure Sound (m : RegisterMap) (s : AtsLink) : Prop extends Polled.Timely m s where
  regmap : s.consumer.ats.regmap = m

theorem sound_start (m : RegisterMap) (expectedUnitId : Option ℤ) (db : Database) (now mono : ℚ) :
    Sound m (start m expectedUnitId db now mono) :=
  ⟨Polled.timely_start m now mono _, rfl⟩

theorem Sound.step {m : RegisterMap} {s s' : AtsLink} {k : Label} (hm : m.Accepted)
    (h : Sound m s) (hs : step s k = some s') : Sound m s' := by
  refine ⟨h.toTimely.step hm hs, ?_⟩
  refine Polled.step_consumer (I := fun d => d.ats.regmap = m) ?_ ?_ h.regmap hs
  · intro d health cb faults hd
    rw [onPoll_regmap, hd]
  · intro d k hd
    cases k with
    | noteCommandWrite command assert mono => exact hd
    | elsewhere db => exact hd

def authorityRegisters : List String := ["position", "fault_summary"]

/-- The reading has a value that was decoded within the prime threshold. -/
def FreshIn (m : RegisterMap) (cb : Callback) (name : String) : Prop :=
  (cb.reading.values name).isSome ∧
    ∃ age ∈ cb.reading.valueAges name, cb.mono - age < m.staleThresholdS .prime

def decodePosition (v : ℚ) : LoadSource :=
  AtsService.positionByValue (Int.land (truncInt v) 0xFFFF)

/-- If the companion is authoritative after a callback, position and fault summary are fresh in its
reading, and the snapshot has that position. -/
def AuthorityFresh (m : RegisterMap) (health : CommsHealth) (cb : Callback) (d' : AtsDesk) : Prop :=
  d'.ats.isAuthoritative (companionHeap health) = true →
    (∀ name ∈ authorityRegisters, FreshIn m cb name) ∧
      ∃ v ∈ cb.reading.values "position", d'.ats.snap.position = decodePosition v

/-- The polls completed so far have read a fast register of this name within the threshold. -/
def ReadLately (m : RegisterMap) (done : List Completion) (mono : ℚ) (name : String) : Prop :=
  ∃ reg ∈ m.tier .prime, reg.name = name ∧
    ∃ r ∈ lastRead reg done, mono - r.2.mono < m.staleThresholdS .prime

/-- The polls completed so far have last read this position. -/
def LastPosition (m : RegisterMap) (done : List Completion) (position : LoadSource) : Prop :=
  ∃ reg ∈ m.tier .prime, reg.name = "position" ∧
    ∃ r ∈ lastRead reg done, position = decodePosition r.1

/-- The gate is open to a reading: the link is healthy, a base poll has completed, the version and
the identity are the expected ones, and a fault summary, if there is one, shows no position
fault. -/
structure GateOpen (d : AtsDesk) (health : CommsHealth) (cb : Callback) : Prop where
  healthy : health.state = .healthy
  base : d.ats.snap.basePollCompleted = true ∨ cb.tier = .base
  version : AtsService.intOr (cb.reading.values "icd_version_major") d.ats.snap.icdVersion.1 =
    expectedIcdMajor
  unit : ∀ unitId ∈ d.ats.expectedUnitId,
    AtsService.intOr (cb.reading.values "ats_pi_unit_id") d.ats.snap.atsPiUnitId = unitId
  faults : AtsService.decodeFaultBits (AtsService.intOr (cb.reading.values "fault_summary") 0)
    d.ats.regmap ∩ positionFaults = ∅

/-- A callback that finds the gate open comes shortly after both registers have been read; where an
unguarded database call raises, it finds a closed gate or the position already in place. -/
structure Backed (m : RegisterMap) (done : List Completion) (d : AtsDesk) (health : CommsHealth)
    (cb : Callback) (faults : List Bool) : Prop where
  completed : d.Spared (env health cb) cb.reading .atsPoller faults → GateOpen d health cb →
    ∀ name ∈ authorityRegisters, ReadLately m done cb.mono name
  cutShort : ¬d.Spared (env health cb) cb.reading .atsPoller faults →
    d.ats.isAuthoritative (companionHeap health) = true →
    (∀ name ∈ authorityRegisters, ReadLately m done cb.mono name) ∧
      LastPosition m done d.ats.snap.position

section Callback

variable {m : RegisterMap} {d : AtsDesk} {health : CommsHealth} {cb : Callback}
  {faults : List Bool} {s : AtsLink}

/-- A callback that completes leaves the companion authoritative if the gate is open to its
reading. -/
theorem isAuthoritative_of_spared (h : d.Spared (env health cb) cb.reading .atsPoller faults) :
    (onPoll d health cb faults).ats.isAuthoritative (companionHeap health) = true ↔
      GateOpen d health cb := by
  simp only [AtsService.isAuthoritative, onPoll, AtsDesk.onPoll_snap_of_spared h,
    AtsDesk.onPoll_expectedUnitId, decide_eq_true_eq]
  constructor
  · rintro ⟨hhealthy, hbase, hversion, hunit, hfaults⟩
    refine ⟨?_, ?_, hversion, hunit, hfaults⟩
    · simpa [AtsService.nextSnapshot, companionHeap] using hhealthy
    · simpa [AtsService.nextSnapshot, env] using hbase
  · rintro ⟨hhealthy, hbase, hversion, hunit, hfaults⟩
    refine ⟨?_, ?_, hversion, hunit, hfaults⟩
    · simpa [AtsService.nextSnapshot, companionHeap] using hhealthy
    · simpa [AtsService.nextSnapshot, env] using hbase

theorem isAuthoritative_of_not_spared
    (h : ¬d.Spared (env health cb) cb.reading .atsPoller faults) :
    (onPoll d health cb faults).ats.isAuthoritative (companionHeap health) =
      d.ats.isAuthoritative (companionHeap health) := by
  simp only [AtsService.isAuthoritative, onPoll, (AtsDesk.onPoll_snap_of_not_spared h).1,
    AtsDesk.onPoll_expectedUnitId]

theorem position_of_spared (h : d.Spared (env health cb) cb.reading .atsPoller faults) {v : ℚ}
    (hv : cb.reading.values "position" = some v) :
    (onPoll d health cb faults).ats.snap.position = decodePosition v := by
  simp only [onPoll, AtsDesk.onPoll_snap_of_spared h, AtsService.nextSnapshot, AtsService.u16, hv]
  rfl

/-- The callback is entered with the reading and at the time of the poller. -/
structure At (s : AtsLink) (cb : Callback) : Prop where
  reading : cb.reading = s.journal.loops.poller.reading
  mono : cb.mono = s.clock

theorem entry_of_readLately (hs : Sound m s) (hat : At s cb) {name : String}
    (h : ReadLately m s.journal.done cb.mono name) :
    ∃ reg ∈ m.tier .prime, reg.name = name ∧ ∃ r, lastRead reg s.journal.done = some r ∧
      cb.reading.entry name = (some r.1, some r.2.mono) ∧
      cb.mono - r.2.mono < m.staleThresholdS .prime := by
  obtain ⟨reg, hreg, rfl, ⟨v, c⟩, hread, hfresh⟩ := h
  obtain ⟨hin, htier⟩ := List.mem_filter.mp hreg
  have htier : reg.tier = .prime := of_decide_eq_true htier
  refine ⟨reg, hreg, rfl, (v, c), hread, ?_, hfresh⟩
  rw [hat.reading]
  rw [hat.mono, ← htier] at hfresh
  exact hs.present hin hread hfresh

theorem freshIn_of_readLately (hs : Sound m s) (hat : At s cb) {name : String}
    (h : ReadLately m s.journal.done cb.mono name) : FreshIn m cb name := by
  obtain ⟨reg, -, -, r, -, hentry, hfresh⟩ := entry_of_readLately hs hat h
  obtain ⟨hvalue, hage⟩ := Prod.mk.inj hentry
  exact ⟨by rw [hvalue]; rfl, r.2.mono, hage, hfresh⟩

/-- Where the map has no slow register of the name, a fresh value has been read lately. -/
theorem readLately_of_freshIn (hs : Sound m s) (hat : At s cb) {name : String}
    (hprime : ∀ reg ∈ m.registers, reg.name = name → reg.tier = .prime) (h : FreshIn m cb name) :
    ReadLately m s.journal.done cb.mono name := by
  obtain ⟨hsome, age, hage, hfresh⟩ := h
  obtain ⟨v, hv⟩ := Option.isSome_iff_exists.mp hsome
  rw [hat.reading] at hv hage
  obtain ⟨reg, hreg, hname, c, hread, hages⟩ := hs.read hv
  obtain rfl : c.mono = age := Option.some.inj (hages.symm.trans hage)
  exact ⟨reg, List.mem_filter.mpr ⟨hreg, decide_eq_true (hprime reg hreg hname)⟩, hname,
    (v, c), hread, hfresh⟩

theorem lastPosition_iff (hm : m.Accepted) (hs : Sound m s) (hat : At s cb)
    (h : ReadLately m s.journal.done cb.mono "position") (position : LoadSource) :
    LastPosition m s.journal.done position ↔
      ∃ v ∈ cb.reading.values "position", position = decodePosition v := by
  obtain ⟨reg, hreg, hname, r, hread, hentry, -⟩ := entry_of_readLately hs hat h
  have hvalue : cb.reading.values "position" = some r.1 := (Prod.mk.inj hentry).1
  constructor
  · rintro ⟨reg', hreg', hname', r', hread', rfl⟩
    obtain rfl : reg' = reg := List.inj_on_of_nodup_map hm.nodup (List.mem_filter.mp hreg').1
      (List.mem_filter.mp hreg).1 (hname'.trans hname.symm)
    obtain rfl : r' = r := Option.some.inj (hread'.symm.trans hread)
    exact ⟨r'.1, hvalue, rfl⟩
  · rintro ⟨v, hv, rfl⟩
    obtain rfl : v = r.1 := Option.some.inj (hv.symm.trans hvalue)
    exact ⟨reg, hreg, hname, r, hread, rfl⟩

theorem authorityFresh_of_backed (hm : m.Accepted) (hs : Sound m s) (hat : At s cb)
    (h : Backed m s.journal.done d health cb faults) :
    AuthorityFresh m health cb (onPoll d health cb faults) := by
  intro hauth
  by_cases hspared : d.Spared (env health cb) cb.reading .atsPoller faults
  · have hlately := h.completed hspared ((isAuthoritative_of_spared hspared).mp hauth)
    have hfresh : ∀ name ∈ authorityRegisters, FreshIn m cb name := fun name hname =>
      freshIn_of_readLately hs hat (hlately name hname)
    obtain ⟨v, hv⟩ := Option.isSome_iff_exists.mp (hfresh "position" (by decide)).1
    exact ⟨hfresh, v, hv, position_of_spared hspared hv⟩
  · rw [isAuthoritative_of_not_spared hspared] at hauth
    obtain ⟨hlately, hposition⟩ := h.cutShort hspared hauth
    refine ⟨fun name hname => freshIn_of_readLately hs hat (hlately name hname), ?_⟩
    rw [onPoll, (AtsDesk.onPoll_snap_of_not_spared hspared).1]
    exact (lastPosition_iff hm hs hat (hlately "position" (by decide)) _).mp hposition

theorem backed_of_authorityFresh (hm : m.Accepted) (hs : Sound m s) (hat : At s cb)
    (hprime : ∀ reg ∈ m.registers, reg.name ∈ authorityRegisters → reg.tier = .prime)
    (h : AuthorityFresh m health cb (onPoll d health cb faults)) :
    Backed m s.journal.done d health cb faults := by
  have hlately : (∀ name ∈ authorityRegisters, FreshIn m cb name) →
      ∀ name ∈ authorityRegisters, ReadLately m s.journal.done cb.mono name := by
    intro hfresh name hname
    refine readLately_of_freshIn hs hat (fun reg hreg he => ?_) (hfresh name hname)
    exact hprime reg hreg (by rw [he]; exact hname)
  constructor
  · intro hspared hopen
    exact hlately (h ((isAuthoritative_of_spared hspared).mpr hopen)).1
  · intro hspared hauth
    obtain ⟨hfresh, hposition⟩ := h ((isAuthoritative_of_not_spared hspared).trans hauth)
    refine ⟨hlately hfresh, ?_⟩
    rw [onPoll, (AtsDesk.onPoll_snap_of_not_spared hspared).1] at hposition
    exact (lastPosition_iff hm hs hat (hlately hfresh "position" (by decide)) _).mpr hposition

end Callback

/-- A run takes a step that enters the callback. -/
def Enters (s₀ : AtsLink) (ls : List Label) (s : AtsLink) (cb : Callback) (faults : List Bool)
    (s' : AtsLink) : Prop :=
  ∃ l, Takes step s₀ ls s (.loop l faults) s' ∧ s.callback l = some cb

/-- The link's record when a callback has been served. -/
def health (s : AtsLink) : CommsHealth := s.journal.loops.poller.link.health

theorem Enters.spec {m : RegisterMap} (hm : m.Accepted) {expectedUnitId : Option ℤ}
    {db : Database} {now mono : ℚ} {ls : List Label} {s s' : AtsLink} {cb : Callback}
    {faults : List Bool}
    (h : Enters (start m expectedUnitId db now mono) ls s cb faults s') :
    Sound m s' ∧ At s' cb ∧ s'.consumer = onPoll s.consumer (health s') cb faults := by
  obtain ⟨l, ht, hcb⟩ := h
  have hsound : Sound m s := ht.reachable.invariant (sound_start m expectedUnitId db now mono)
    fun _ _ _ hI hs => hI.step hm hs
  obtain ⟨hconsumer, hreading, hmono, -⟩ := Polled.step_callback ht.step_eq hcb
  exact ⟨hsound.step hm ht.step_eq, ⟨hreading, hmono⟩, hconsumer⟩

theorem calls_of_lastStep (s₀ : AtsLink) (ls : List Label) (l : PollLoops.Label)
    (faults : List Bool) (test : AtsLink → AtsLink → Bool)
    (h : lastStep step s₀ ls (.loop l faults)
      (fun s _ s' => (s.callback l).isSome && test s s') = true) :
    ∃ s cb s', Takes step s₀ (ls ++ [.loop l faults]) s (.loop l faults) s' ∧
      s.callback l = some cb ∧ test s s' = true := by
  obtain ⟨s, s', ht, htest⟩ := takes_of_lastStep step s₀ ls _ _ h
  obtain ⟨hcalled, htest⟩ := Bool.and_eq_true_iff.mp htest
  obtain ⟨cb, hcb⟩ := Option.isSome_iff_exists.mp hcalled
  exact ⟨s, cb, s', ht, hcb, htest⟩

/-- In every run in which both registers have been read lately whenever the gate is open, the
companion is authoritative on a fresh position only, whatever can be read and whatever database
calls raise; where the map has both registers in the fast tier, no other run is of that kind. -/
theorem authority_fresh_iff_backed (m : RegisterMap) (hm : m.Accepted) (expectedUnitId : Option ℤ)
    (db : Database) (now mono : ℚ) (ls : List Label) :
    ((∀ s cb faults s', Enters (start m expectedUnitId db now mono) ls s cb faults s' →
        Backed m s'.journal.done s.consumer (health s') cb faults) →
      ∀ s cb faults s', Enters (start m expectedUnitId db now mono) ls s cb faults s' →
        AuthorityFresh m (health s') cb s'.consumer) ∧
    ((∀ reg ∈ m.registers, reg.name ∈ authorityRegisters → reg.tier = .prime) →
      (∀ s cb faults s', Enters (start m expectedUnitId db now mono) ls s cb faults s' →
        AuthorityFresh m (health s') cb s'.consumer) →
      ∀ s cb faults s', Enters (start m expectedUnitId db now mono) ls s cb faults s' →
        Backed m s'.journal.done s.consumer (health s') cb faults) := by
  constructor
  · intro h s cb faults s' henters
    obtain ⟨hsound, hat, hconsumer⟩ := henters.spec hm
    rw [hconsumer]
    exact authorityFresh_of_backed hm hsound hat (h _ _ _ _ henters)
  · intro hprime h s cb faults s' henters
    obtain ⟨hsound, hat, hconsumer⟩ := henters.spec hm
    have hfresh := h _ _ _ _ henters
    rw [hconsumer] at hfresh
    exact backed_of_authorityFresh hm hsound hat hprime hfresh

instance (m : RegisterMap) (done : List Completion) (mono : ℚ) (name : String) :
    Decidable (ReadLately m done mono name) :=
  inferInstanceAs (Decidable (∃ reg ∈ m.tier .prime, _))

/-- A companion with its position, its fault summary and its version. -/
def authorityMap : RegisterMap :=
  { RegisterMap.bare with
    registers := [.plain "position" 0, .plain "fault_summary" 1,
      { RegisterDef.plain "icd_version_major" 48 with tier := .base }] }

def firstPolls : List PollLoops.Label :=
  [.begin .prime, .returned .prime ⟨some [0, 0], 0⟩ 1 1, .callbackDone .prime,
    .begin .base, .returned .base ⟨some [1], 0⟩ 2 2, .callbackDone .base]

/-- Both registers are read by the first prime poll, so that the base poll makes the companion
authoritative on fresh values. -/
theorem first_polls_authority_fresh :
    ∃ s cb faults s', Enters (start authorityMap none .empty 0 0)
      (firstPolls.map fun l => .loop l []) s cb faults s' ∧
      s'.consumer.ats.isAuthoritative (companionHeap (health s')) = true ∧
      (∀ name ∈ authorityRegisters, FreshIn authorityMap cb name) ∧
      ∃ v ∈ cb.reading.values "position", s'.consumer.ats.snap.position = decodePosition v := by
  have hm : authorityMap.Accepted := by decide +kernel
  obtain ⟨s, cb, s', ht, hcb, hauth⟩ := calls_of_lastStep (start authorityMap none .empty 0 0)
    ((firstPolls.take 4).map fun l => .loop l []) (.returned .base ⟨some [1], 0⟩ 2 2) []
    (fun _ s' => s'.consumer.ats.isAuthoritative (companionHeap (health s'))) (by decide +kernel)
  have henters : Enters (start authorityMap none .empty 0 0) (firstPolls.map fun l => .loop l [])
      s cb [] s' := ⟨_, ht.append_right [.loop (.callbackDone .base) []], hcb⟩
  refine ⟨s, cb, [], s', henters, hauth, ?_⟩
  refine (authority_fresh_iff_backed authorityMap hm none .empty 0 0 _).1 ?_ _ _ _ _ henters hauth
  clear hauth henters hcb ht
  intro s cb faults s' henters
  obtain ⟨-, hat, -⟩ := henters.spec hm
  obtain ⟨l, ht, hcb⟩ := henters
  obtain rfl : faults = [] := by
    obtain ⟨pre, post, he, -, -⟩ := ht
    have hmem : Polled.Label.loop l faults ∈ firstPolls.map fun l => (.loop l [] : Label) := by
      rw [he]
      simp
    obtain ⟨l', -, hl⟩ := List.mem_map.mp hmem
    cases hl
    rfl
  have hlately := ht.test_of_everyStep (fun _ _ s' => s'.journal.done.isEmpty ||
    decide (∀ name ∈ authorityRegisters, ReadLately authorityMap s'.journal.done s'.clock name))
    (by decide +kernel)
  obtain ⟨-, -, -, poll, hdone⟩ := Polled.step_callback ht.step_eq hcb
  rw [hdone, List.isEmpty_cons, Bool.false_or, ← hdone, ← hat.mono] at hlately
  exact ⟨fun _ _ => of_decide_eq_true hlately, fun h => absurd AtsDesk.spared_nil h⟩

/-- A later prime poll reads the fault summary word by word and not the position. -/
def blindPoll : List PollLoops.Label :=
  [.begin .prime, .returned .prime ⟨none, 0⟩ 6 6, .returned .prime ⟨none, 0⟩ 6 6]

/-- The poller has dropped the position, and the companion is authoritative all the same. -/
theorem dropped_position_keeps_authority :
    ¬∀ s cb faults s', Enters (start authorityMap none .empty 0 0)
      ((firstPolls ++ blindPoll).map (fun l => .loop l []) ++
        [.loop (.returned .prime ⟨some [0], 0⟩ 6 6) []]) s cb faults s' →
      AuthorityFresh authorityMap (health s') cb s'.consumer := by
  intro h
  obtain ⟨s, cb, s', ht, hcb, htest⟩ := calls_of_lastStep (start authorityMap none .empty 0 0)
    ((firstPolls ++ blindPoll).map fun l => .loop l []) (.returned .prime ⟨some [0], 0⟩ 6 6) []
    (fun _ s' => s'.consumer.ats.isAuthoritative (companionHeap (health s')) &&
      (s'.journal.loops.poller.reading.values "position").isNone) (by decide +kernel)
  simp only [Bool.and_eq_true, Option.isNone_iff_eq_none] at htest
  obtain ⟨hauth, hnone⟩ := htest
  obtain ⟨-, v, hv, -⟩ := h s cb [] s' ⟨_, ht, hcb⟩ hauth
  obtain ⟨-, hreading, -, -⟩ := Polled.step_callback ht.step_eq hcb
  rw [hreading, hnone] at hv
  cases hv

end AtsLink

end GenWatch

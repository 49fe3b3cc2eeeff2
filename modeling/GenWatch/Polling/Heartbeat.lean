import GenWatch.Prelude.Transition
import GenWatch.Polling.Editions

/-! # The heartbeat of the service

The service pings systemd's watchdog as long as a prime poll has decoded all registers of
the engine-state rules within the last few seconds. Whether it has is read off the ages
of the reading: an age is the clock of the poll that decoded the value last, and both tiers
write to the same reading. Since the clock never stands still, an age that is the clock of
the poll itself was written by that poll.
-/

namespace GenWatch

open Transition

/-- Why the ping is withheld: "no prime poll completed" within the grace since the service start, or
"prime poll silent" for longer than allowed. -/
inductive WithholdReason where
  | noPrimePoll (coldStartGraceS : ℚ)
  | primeSilent (silence staleAfterS : ℚ)
  deriving DecidableEq

def watchdogColdStartGraceS : ℚ := 300

def shouldPingWatchdog (monoLastPrimeGood : Option ℚ)
    (serviceStartMono nowMono staleAfterS coldStartGraceS : ℚ) : Bool × Option WithholdReason :=
  match monoLastPrimeGood with
  | none =>
    if nowMono - serviceStartMono ≤ coldStartGraceS then (true, none)
    else (false, some (.noPrimePoll coldStartGraceS))
  | some last =>
    let silence := nowMono - last
    if silence ≤ staleAfterS then (true, none) else (false, some (.primeSilent silence staleAfterS))

/-- How often the watchdog loop looks, from half of systemd's WatchdogSec. -/
def watchdogTick (interval : ℚ) : ℚ := max 1 (interval / 2)

/-- The silence that the watchdog loop allows, by the map that the service was started with. -/
def watchdogStaleAfter (interval : ℚ) (m : RegisterMap) : ℚ :=
  max (watchdogTick interval * 2) (m.primePollMs / 1000 * 6)

namespace Reading

variable {r : Reading} {regs : List RegisterDef} {results : List BatchResult} {mono : ℚ}

def AgesBy (t : ℚ) (r : Reading) : Prop := ∀ name, ∀ age ∈ r.valueAges name, age ≤ t

theorem stamp_ages (name : String) (reg : RegisterDef) :
    (stamp results mono r reg).valueAges name =
      if name = reg.name ∧ (readRegister results reg).isSome then some mono
      else r.valueAges name := by
  unfold stamp
  split
  · rename_i v hread
    simp [hread, Function.update_apply]
  · rename_i hread
    simp [hread]

theorem evict_ages (threshold : ℚ) (name : String) (reg : RegisterDef) :
    (evict threshold mono r reg).valueAges name =
      if name = reg.name ∧ ∃ age ∈ r.valueAges name, threshold ≤ mono - age then none
      else r.valueAges name := by
  unfold evict
  by_cases hname : name = reg.name
  · subst hname
    cases hage : r.valueAges reg.name with
    | none => simp [hage]
    | some age => by_cases hold : threshold ≤ mono - age <;> simp [hage, hold]
  · cases r.valueAges reg.name with
    | none => simp [hname]
    | some age => by_cases hold : threshold ≤ mono - age <;> simp [hname, hold]

/-- After the decodes, the age of a name is the clock of the poll if a register of that name was
decoded, or if it was so before. -/
theorem stamps_age_iff (name : String) :
    (regs.foldl (stamp results mono) r).valueAges name = some mono ↔
      (∃ reg ∈ regs, reg.name = name ∧ (readRegister results reg).isSome) ∨
        r.valueAges name = some mono := by
  induction regs generalizing r with
  | nil => simp
  | cons reg regs ih =>
    rw [List.foldl_cons, ih, stamp_ages]
    by_cases h : name = reg.name ∧ (readRegister results reg).isSome
    · simp [h]
    · have hnot : ¬(reg.name = name ∧ (readRegister results reg).isSome) := by
        rintro ⟨rfl, hread⟩
        exact h ⟨rfl, hread⟩
      simp only [if_neg h, List.mem_cons, exists_eq_or_imp, hnot, false_or]

theorem evicts_age_iff {threshold : ℚ} (hpos : 0 < threshold) (name : String) :
    (regs.foldl (evict threshold mono) r).valueAges name = some mono ↔
      r.valueAges name = some mono := by
  induction regs generalizing r with
  | nil => rfl
  | cons reg regs ih =>
    rw [List.foldl_cons, ih, evict_ages]
    by_cases h : name = reg.name ∧ ∃ age ∈ r.valueAges name, threshold ≤ mono - age
    · obtain ⟨-, age, hage, hold⟩ := id h
      rw [if_pos h, Option.mem_def.mp hage]
      have hne : age ≠ mono := by
        rintro rfl
        rw [sub_self] at hold
        exact absurd hold (not_le.mpr hpos)
      simp [hne]
    · rw [if_neg h]

theorem AgesBy.stamp (h : r.AgesBy mono) (reg : RegisterDef) :
    (r.stamp results mono reg).AgesBy mono := by
  intro name age hage
  rw [stamp_ages] at hage
  split at hage
  · exact (Option.some.inj hage).ge
  · exact h name age hage

theorem AgesBy.evict {t : ℚ} (h : r.AgesBy t) (threshold : ℚ) (reg : RegisterDef) :
    (r.evict threshold mono reg).AgesBy t := by
  intro name age hage
  rw [evict_ages] at hage
  split at hage
  · cases hage
  · exact h name age hage

theorem AgesBy.foldl {t : ℚ} {f : Reading → RegisterDef → Reading}
    (hf : ∀ r reg, r.AgesBy t → (f r reg).AgesBy t) (h : r.AgesBy t) :
    (regs.foldl f r).AgesBy t := by
  induction regs generalizing r with
  | nil => exact h
  | cons reg regs ih => exact ih (hf r reg h)

theorem AgesBy.weaken {t t' : ℚ} (h : r.AgesBy t) (ht : t ≤ t') : r.AgesBy t' :=
  fun name age hage => (h name age hage).trans ht

end Reading

/-- The map has engine-state rules, and its tiers are polled at positive intervals. -/
def RegisterMap.Watchable (m : RegisterMap) : Prop :=
  m.engineStateBits ≠ [] ∧ ∀ tier, 0 < m.pollMs tier

/-- Every register of the engine-state rules of the captured map was decoded by the poll. -/
def Completion.StateDecoded (c : Completion) : Prop :=
  ∀ rule ∈ c.poll.regmap.engineStateBits, (c.decoded rule.register).isSome

instance (c : Completion) : Decidable c.StateDecoded := inferInstanceAs (Decidable (∀ _ ∈ _, _))

section Fresh

variable {c : Completion} {current : Reading} {t : ℚ}

theorem RegisterMap.Watchable.threshold_pos (h : c.poll.regmap.Watchable) : 0 < c.threshold := by
  have hpos : (0 : ℚ) < c.poll.regmap.pollMs c.poll.tier := by exact_mod_cast h.2 c.poll.tier
  unfold Completion.threshold RegisterMap.staleThresholdS tierStaleMultiplier
  positivity

theorem Completion.decoded_isSome_iff (name : String) :
    (c.decoded name).isSome ↔ ∃ reg ∈ c.poll.regmap.tier c.poll.tier,
      reg.name = name ∧ (readRegister c.poll.results reg).isSome := by
  simp [Completion.decoded]

theorem Completion.age_iff_decoded (hm : c.poll.regmap.Watchable) (hages : current.AgesBy t)
    (ht : t < c.mono) (name : String) :
    (c.poll.reading current c.now c.mono).valueAges name = some c.mono ↔
      (c.decoded name).isSome := by
  have hold : current.valueAges name ≠ some c.mono := fun hage =>
    absurd (hages name c.mono hage) (not_le.mpr ht)
  rw [c.decoded_isSome_iff]
  refine (Reading.evicts_age_iff hm.threshold_pos name).trans ?_
  rw [Reading.stamps_age_iff]
  simp [hold]

theorem Completion.stateFresh_iff (hm : c.poll.regmap.Watchable) (hages : current.AgesBy t)
    (ht : t < c.mono) :
    c.poll.stateFresh (c.poll.reading current c.now c.mono) c.mono = true ↔ c.StateDecoded := by
  rw [Poll.stateFresh, if_neg hm.1, List.all_eq_true]
  refine forall₂_congr fun rule _ => ?_
  rw [decide_eq_true_iff]
  exact c.age_iff_decoded hm hages ht rule.register

theorem Completion.agesBy_reading (hages : current.AgesBy t) (ht : t < c.mono) :
    (c.poll.reading current c.now c.mono).AgesBy c.mono := by
  have hstamp : ∀ (r : Reading) reg, r.AgesBy c.mono →
      (r.stamp c.poll.results c.mono reg).AgesBy c.mono := fun r reg hr => hr.stamp reg
  exact Reading.AgesBy.foldl (fun r reg hr => hr.evict c.threshold reg)
    (Reading.AgesBy.foldl hstamp (hages.weaken ht.le))

end Fresh

namespace PollerHealth

variable (p : PollerHealth)

theorem record_lastPrimeGood (ok : Bool) (elapsedMs now mono : ℚ) :
    (p.record ok elapsedMs now mono).health.lastPrimeGoodMonotonic =
      p.health.lastPrimeGoodMonotonic := by
  simp only [record]
  split <;> rfl

theorem watchdog_lastPrimeGood (primePollMs : ℤ) (mono : ℚ) :
    (p.watchdog primePollMs mono).health.lastPrimeGoodMonotonic =
      p.health.lastPrimeGoodMonotonic := by
  unfold watchdog
  split
  · rfl
  · split <;> rfl

end PollerHealth

namespace PollLoops

variable (s : PollLoops)

def lastPrimeGood : Option ℚ := s.poller.link.health.lastPrimeGoodMonotonic

/-- The heartbeat at the end of a poll, by a clock that is read once more. -/
def primeGood (mono : ℚ) : PollLoops :=
  { s with poller := { s.poller with link := s.poller.link.primeGood mono } }

/-- The current map and those of the polls under way. -/
def AllMaps (P : RegisterMap → Prop) : Prop :=
  P s.poller.regmap ∧ ∀ tier poll, s.task tier = .reading poll → P poll.regmap

/-- A swap brings in a map of this kind. -/
def Label.SwapsTo (P : RegisterMap → Prop) : Label → Prop
  | .applyRegmap m => P m
  | _ => True

variable {s} {s' : PollLoops} {l : Label} {cb : Option Callback} {P : RegisterMap → Prop}

theorem recordSample_lastPrimeGood (p : Poller) (sample : Option (Bool × ℚ)) (now mono : ℚ) :
    (p.recordSample sample now mono).link.health.lastPrimeGoodMonotonic =
      p.link.health.lastPrimeGoodMonotonic := by
  unfold Poller.recordSample
  split
  · exact p.link.record_lastPrimeGood _ _ _ _
  · rfl

theorem step_lastPrimeGood (h : s.step l = some (s', cb)) :
    s'.lastPrimeGood = s.lastPrimeGood ∨ ∃ c, s.completed l = some c ∧ c.poll.tier = .prime ∧
      c.poll.stateFresh s'.poller.reading c.mono = true := by
  cases l with
  | begin tier =>
    obtain ⟨-, -, ⟨-, rfl⟩ | ⟨-, rfl⟩⟩ := step_begin h
    · exact Or.inl rfl
    · exact Or.inl rfl
  | returned tier r now mono =>
    obtain ⟨poll, htask, hreturned⟩ := step_returned h
    by_cases hdone : (poll.returned r).1.pending = []
    · rw [returned_last s tier now mono hdone] at hreturned
      obtain ⟨rfl, -⟩ := Prod.mk.inj hreturned
      have hcompleted : s.completed (.returned tier r now mono) =
          some ⟨(poll.returned r).1, now, mono⟩ := by
        simp [completed, htask, hdone]
      by_cases hfresh : (poll.returned r).1.tier = .prime ∧ (poll.returned r).1.stateFresh
          ((poll.returned r).1.reading s.poller.reading now mono) mono = true
      · refine Or.inr ⟨_, hcompleted, hfresh.1, ?_⟩
        simpa [Poller.finish] using hfresh.2
      · left
        simp only [lastPrimeGood, Poller.finish, Poller.recordSample_reading, if_neg hfresh]
        exact recordSample_lastPrimeGood _ _ _ _
    · rw [returned_more s tier now mono hdone] at hreturned
      obtain ⟨rfl, -⟩ := Prod.mk.inj hreturned
      exact Or.inl (recordSample_lastPrimeGood _ _ _ _)
  | callbackDone tier =>
    obtain ⟨-, -, rfl⟩ := step_callbackDone h
    exact Or.inl rfl
  | wake mono =>
    obtain ⟨-, rfl⟩ := step_wake h
    exact Or.inl (s.poller.link.watchdog_lastPrimeGood _ _)
  | applyRegmap m =>
    obtain ⟨-, rfl⟩ := step_applyRegmap h
    exact Or.inl rfl

theorem AllMaps.step (h : s.AllMaps P) (hl : l.SwapsTo P) (hs : s.step l = some (s', cb)) :
    s'.AllMaps P := by
  constructor
  · cases l with
    | applyRegmap m =>
      obtain ⟨-, rfl⟩ := step_applyRegmap hs
      exact hl
    | _ => exact (poller_of_step hs rfl).1 ▸ h.1
  · intro tier poll hpoll
    rcases reading_of_step hs hpoll with
      ⟨-, htask⟩ | ⟨-, -, rfl⟩ | ⟨r, _, _, poll', -, htask, rfl, -⟩
    · exact h.2 tier poll htask
    · exact h.1
    · exact (poll'.returned_same r).2 ▸ h.2 tier poll' htask

theorem AllMaps.completed {c : Completion} (h : s.AllMaps P) (hc : s.completed l = some c) :
    P c.poll.regmap ∧ l.mono? = some c.mono := by
  cases l with
  | returned tier r now mono =>
    simp only [PollLoops.completed] at hc
    split at hc
    · rename_i poll htask
      split at hc
      · cases hc
        exact ⟨(poll.returned_same r).2 ▸ h.2 tier poll htask, rfl⟩
      · cases hc
    · cases hc
  | _ => cases hc

end PollLoops

/-- The loops with the clock as it was read last, and what the watchdog loop was started with. -/
structure Heart where
  loops : PollLoops
  clock : ℚ
  serviceStart : ℚ
  staleAfter : ℚ

namespace Heart

/-- A step of the loops, with the clock at its end, or a tick of the watchdog loop. -/
inductive Label where
  | loop (l : PollLoops.Label) (beat : ℚ)
  | tick (mono : ℚ)

/-- The service is started on a map, with WatchdogSec at twice the interval. -/
def start (m : RegisterMap) (interval now serviceStart : ℚ) : Heart :=
  ⟨.init m now, serviceStart, serviceStart, watchdogStaleAfter interval m⟩

variable (s : Heart)

def lastPrimeGood : Option ℚ := s.loops.lastPrimeGood

def completed : Label → Option Completion
  | .loop l _ => s.loops.completed l
  | .tick _ => none

/-- The step to `loops` completes a prime poll that finds the state fresh. -/
def beats (loops : PollLoops) (l : PollLoops.Label) : Bool :=
  (s.loops.completed l).any fun c =>
    c.poll.tier = .prime ∧ c.poll.stateFresh loops.poller.reading c.mono

/-- A step of the loops; a clock that it reads has moved on, and moves on once more before the
heartbeat is stamped. -/
def step : Label → Option Heart
  | .loop l beat =>
    if ∀ mono ∈ l.mono?, s.clock < mono ∧ mono < beat then
      (s.loops.step l).map fun r =>
        { s with
          loops := if s.beats r.1 l then r.1.primeGood beat else r.1
          clock := if l.mono?.isSome then beat else s.clock }
    else none
  | .tick mono => if s.clock < mono then some { s with clock := mono } else none

/-- What the watchdog loop decides at a tick. -/
def verdict (mono : ℚ) : Bool × Option WithholdReason :=
  shouldPingWatchdog s.lastPrimeGood s.serviceStart mono s.staleAfter watchdogColdStartGraceS

/-- The heartbeat moves to a later time. -/
def Advances (s s' : Heart) : Prop :=
  ∃ t, s'.lastPrimeGood = some t ∧ ∀ last ∈ s.lastPrimeGood, last < t

/-- A swap brings in a map that can be watched. -/
def Label.Swaps : Label → Prop
  | .loop l _ => l.SwapsTo RegisterMap.Watchable
  | .tick _ => True

/-- The step completes a prime poll that has decoded all registers of the engine-state rules. -/
def Alive (l : Label) : Prop :=
  ∃ c, s.completed l = some c ∧ c.poll.tier = .prime ∧ c.StateDecoded

/-- What holds between two steps: nothing was decoded later than the clock was read last. -/
structure Steady (s : Heart) : Prop where
  maps : s.loops.AllMaps RegisterMap.Watchable
  ages : s.loops.poller.reading.AgesBy s.clock
  last : ∀ t ∈ s.lastPrimeGood, t ≤ s.clock

theorem steady_start {m : RegisterMap} (hm : m.Watchable) (interval now serviceStart : ℚ) :
    (start m interval now serviceStart).Steady where
  maps := ⟨hm, fun _ _ hpoll => by cases hpoll⟩
  ages _ _ hage := by cases hage
  last _ ht := by cases ht

section Steps

variable {s} {s' : Heart} {l : Label}

theorem step_loop {l : PollLoops.Label} {beat : ℚ} (h : s.step (.loop l beat) = some s') :
    ∃ loops cb, s.loops.step l = some (loops, cb) ∧
      (∀ mono ∈ l.mono?, s.clock < mono ∧ mono < beat) ∧
      s' = { s with
        loops := if s.beats loops l then loops.primeGood beat else loops
        clock := if l.mono?.isSome then beat else s.clock } := by
  simp only [step] at h
  split at h
  · obtain ⟨⟨loops, cb⟩, hstep, rfl⟩ := Option.map_eq_some_iff.mp h
    exact ⟨loops, cb, hstep, ‹_›, rfl⟩
  · cases h

theorem step_tick {mono : ℚ} (h : s.step (.tick mono) = some s') :
    s.clock < mono ∧ s' = { s with clock := mono } := by
  simp only [step] at h
  split at h
  · cases h
    exact ⟨‹_›, rfl⟩
  · cases h

/-- A prime poll finds the state fresh if it has decoded it itself. -/
theorem Steady.beats_iff (h : s.Steady) {l : PollLoops.Label} {beat : ℚ} {loops : PollLoops}
    {cb : Option Callback} (hclock : ∀ mono ∈ l.mono?, s.clock < mono ∧ mono < beat)
    (hs : s.loops.step l = some (loops, cb)) :
    s.beats loops l = true ↔ s.Alive (.loop l beat) := by
  unfold beats Alive completed
  rcases PollLoops.step_completed hs with
    ⟨tier, r, now, mono, poll, rfl, -, hc, hreading, -⟩ | ⟨hc, -, -⟩
  · have hfresh := Completion.stateFresh_iff (h.maps.completed hc).1 h.ages (hclock mono rfl).1
    simp only [hc, hreading, Option.any_some, decide_eq_true_iff, hfresh, Option.some.injEq,
      exists_eq_left']
  · simp [hc]

theorem Steady.ages_of_step (h : s.Steady) {l : PollLoops.Label} {beat : ℚ} {loops : PollLoops}
    {cb : Option Callback} (hclock : ∀ mono ∈ l.mono?, s.clock < mono ∧ mono < beat)
    (hs : s.loops.step l = some (loops, cb)) :
    loops.poller.reading.AgesBy (if l.mono?.isSome then beat else s.clock) := by
  rcases PollLoops.step_completed hs with
    ⟨tier, r, now, mono, poll, rfl, -, hc, hreading, -⟩ | ⟨-, hreading, -⟩
  · have hages := Completion.agesBy_reading (c := ⟨(poll.returned r).1, now, mono⟩) h.ages
      (hclock mono rfl).1
    rw [hreading]
    exact hages.weaken (hclock mono rfl).2.le
  · rw [hreading]
    refine h.ages.weaken ?_
    cases hmono : l.mono? with
    | none => exact le_rfl
    | some mono => exact ((hclock mono hmono).1.trans (hclock mono hmono).2).le

theorem Steady.heartbeat (h : s.Steady) (hs : s.step l = some s') :
    s.clock ≤ s'.clock ∧
      (s.Alive l ∧ s.clock < s'.clock ∧ s'.lastPrimeGood = some s'.clock ∨
        ¬s.Alive l ∧ s'.lastPrimeGood = s.lastPrimeGood) := by
  cases l with
  | tick mono =>
    obtain ⟨hclock, rfl⟩ := step_tick hs
    refine ⟨hclock.le, Or.inr ⟨?_, rfl⟩⟩
    rintro ⟨c, hc, -⟩
    cases hc
  | loop l beat =>
    obtain ⟨loops, cb, hstep, hclock, rfl⟩ := step_loop hs
    have hbeats := h.beats_iff hclock hstep
    have hle : s.clock ≤ if l.mono?.isSome then beat else s.clock := by
      cases hmono : l.mono? with
      | none => exact le_rfl
      | some mono => exact ((hclock mono hmono).1.trans (hclock mono hmono).2).le
    refine ⟨hle, ?_⟩
    by_cases halive : s.Alive (.loop l beat)
    · left
      obtain ⟨c, hc, -⟩ := id halive
      have hmono := (h.maps.completed hc).2
      refine ⟨halive, ?_, ?_⟩
      · simpa [hmono] using (hclock c.mono hmono).1.trans (hclock c.mono hmono).2
      · simp [lastPrimeGood, hbeats.mpr halive, hmono, PollLoops.lastPrimeGood,
          PollLoops.primeGood, PollerHealth.primeGood]
    · refine Or.inr ⟨halive, ?_⟩
      have hnot : s.beats loops l = false := by
        simpa using mt hbeats.mp halive
      simp only [lastPrimeGood, hnot, Bool.false_eq_true, if_false]
      rcases PollLoops.step_lastPrimeGood hstep with hsame | ⟨c, hc, hprime, hfresh⟩
      · exact hsame
      · simp [beats, hc, hprime, hfresh] at hnot

theorem Steady.step (h : s.Steady) (hl : l.Swaps) (hs : s.step l = some s') : s'.Steady := by
  obtain ⟨hle, hheartbeat⟩ := h.heartbeat hs
  have hlast : ∀ t ∈ s'.lastPrimeGood, t ≤ s'.clock := by
    intro t ht
    rcases hheartbeat with ⟨-, -, hnow⟩ | ⟨-, hsame⟩
    · exact (Option.some.inj (hnow.symm.trans ht)).ge
    · exact (h.last t (hsame ▸ ht)).trans hle
  cases l with
  | tick mono =>
    obtain ⟨hclock, rfl⟩ := step_tick hs
    exact ⟨h.maps, h.ages.weaken hclock.le, hlast⟩
  | loop l beat =>
    obtain ⟨loops, cb, hstep, hclock, rfl⟩ := step_loop hs
    have hmaps := h.maps.step hl hstep
    have hreading : (if s.beats loops l then loops.primeGood beat else loops).poller.reading =
        loops.poller.reading := by
      split <;> rfl
    refine ⟨?_, hreading ▸ h.ages_of_step hclock hstep, hlast⟩
    dsimp only
    split
    · exact hmaps
    · exact hmaps

theorem step_config (hs : s.step l = some s') :
    s'.serviceStart = s.serviceStart ∧ s'.staleAfter = s.staleAfter := by
  cases l with
  | tick mono =>
    obtain ⟨-, rfl⟩ := step_tick hs
    exact ⟨rfl, rfl⟩
  | loop l beat =>
    obtain ⟨_, _, -, -, rfl⟩ := step_loop hs
    exact ⟨rfl, rfl⟩

theorem Steady.quiet (h : s.Steady) {T : ℚ} (hs : s.step l = some s')
    (hmiss : T < s'.clock → ¬s.Alive l) (hquiet : ∀ t ∈ s.lastPrimeGood, t ≤ T) :
    ∀ t ∈ s'.lastPrimeGood, t ≤ T := by
  intro t ht
  rcases (h.heartbeat hs).2 with ⟨halive, -, hnow⟩ | ⟨-, hsame⟩
  · obtain rfl := Option.some.inj (hnow.symm.trans ht)
    exact not_lt.mp fun hlate => hmiss hlate halive
  · exact hquiet t (hsame ▸ ht)

theorem verdict_refused {T mono : ℚ} (hquiet : ∀ t ∈ s.lastPrimeGood, t ≤ T)
    (hmono : max (T + s.staleAfter) (s.serviceStart + watchdogColdStartGraceS) < mono) :
    (s.verdict mono).1 = false := by
  obtain ⟨hstale, hgrace⟩ := max_lt_iff.mp hmono
  unfold verdict shouldPingWatchdog
  cases hlast : s.lastPrimeGood with
  | none =>
    have hlong : ¬mono - s.serviceStart ≤ watchdogColdStartGraceS := by linarith
    simp [hlong]
  | some last =>
    have hle := hquiet last hlast
    have hlong : ¬mono - last ≤ s.staleAfter := by linarith
    simp [hlong]

end Steps

section Run

variable {m : RegisterMap} {interval now serviceStart : ℚ} {ls : List Label}

theorem steady_of_takes (hm : m.Watchable) (hls : ∀ l ∈ ls, l.Swaps) {s s' : Heart} {l : Label}
    (h : Takes step (start m interval now serviceStart) ls s l s') : s.Steady := by
  obtain ⟨pre, post, rfl, hrun, -⟩ := h
  refine run_invariant (fun s l s' hl hI hs => hI.step (hls l ?_) hs) (steady_start hm _ _ _) hrun
  exact List.mem_append_left _ hl

theorem config_of_takes {s s' : Heart} {l : Label}
    (h : Takes step (start m interval now serviceStart) ls s l s') :
    s.serviceStart = serviceStart ∧ s.staleAfter = watchdogStaleAfter interval m := by
  refine h.reachable.invariant (I := fun s => s.serviceStart = serviceStart ∧
    s.staleAfter = watchdogStaleAfter interval m) ⟨rfl, rfl⟩ fun s l s' hI hs => ?_
  obtain ⟨hstart, hstale⟩ := step_config hs
  exact ⟨hstart.trans hI.1, hstale.trans hI.2⟩

end Run

/-- On maps with engine-state rules and positive intervals, a step moves the heartbeat if and only
if it completes a prime poll whose reads decode every register of the rules of its map. So if every
prime poll that ends after `T` fails to decode one of them, all ticks are refused that come later
than `T` by the allowed silence and later than the service start by the grace. -/
theorem heartbeat_means_live_state (m : RegisterMap) (hm : m.Watchable)
    (interval now serviceStart : ℚ) (ls : List Label) (hls : ∀ l ∈ ls, l.Swaps) :
    (∀ s l s', Takes step (start m interval now serviceStart) ls s l s' →
      (Advances s s' ↔ ∃ c, s.completed l = some c ∧ c.poll.tier = .prime ∧
        ∀ rule ∈ c.poll.regmap.engineStateBits, (c.decoded rule.register).isSome) ∧
      (¬Advances s s' → s'.lastPrimeGood = s.lastPrimeGood)) ∧
    ∀ T, (∀ s l s', Takes step (start m interval now serviceStart) ls s l s' → T < s'.clock →
        ∀ c ∈ s.completed l, c.poll.tier = .prime →
          ∃ rule ∈ c.poll.regmap.engineStateBits, c.decoded rule.register = none) →
      ∀ s mono s', Takes step (start m interval now serviceStart) ls s (.tick mono) s' →
        max (T + watchdogStaleAfter interval m) (serviceStart + watchdogColdStartGraceS) < mono →
        (s.verdict mono).1 = false := by
  constructor
  · intro s l s' htakes
    have hsteady := steady_of_takes hm hls htakes
    change (Advances s s' ↔ s.Alive l) ∧ _
    rcases (hsteady.heartbeat htakes.step_eq).2 with ⟨halive, hlt, hnow⟩ | ⟨hnot, hsame⟩
    · have hadvances : Advances s s' :=
        ⟨s'.clock, hnow, fun last hlast => (hsteady.last last hlast).trans_lt hlt⟩
      exact ⟨iff_of_true hadvances halive, fun hno => absurd hadvances hno⟩
    · refine ⟨iff_of_false ?_ hnot, fun _ => hsame⟩
      rintro ⟨t, ht, hlater⟩
      exact lt_irrefl t (hlater t (hsame ▸ ht))
  · intro T hmiss s mono s' htakes hmono
    obtain ⟨hstart, hstale⟩ := config_of_takes htakes
    rw [← hstart, ← hstale] at hmono
    refine verdict_refused ?_ hmono
    have hI : s.Steady ∧ ∀ t ∈ s.lastPrimeGood, t ≤ T := by
      refine htakes.invariant (I := fun s => s.Steady ∧ ∀ t ∈ s.lastPrimeGood, t ≤ T)
        (C := fun s l s' => l.Swaps ∧ (T < s'.clock → ¬s.Alive l)) ?_
        ⟨steady_start hm _ _ _, by simp [start, lastPrimeGood, PollLoops.lastPrimeGood,
          PollLoops.init, Poller.init, Poller.ofMap, PollerHealth.initial, CommsHealth.initial]⟩ ?_
      · intro s l s' htakes
        refine ⟨?_, ?_⟩
        · obtain ⟨pre, post, rfl, -⟩ := htakes
          exact hls l (by simp)
        · rintro hlate ⟨c, hc, hprime, hdecoded⟩
          obtain ⟨rule, hrule, hnone⟩ := hmiss s l s' htakes hlate c hc hprime
          exact absurd (hdecoded rule hrule) (by simp [hnone])
      · rintro s l s' ⟨hsteady, hquiet⟩ ⟨hl, hmiss⟩ hs
        exact ⟨hsteady.step hl hs, hsteady.quiet hs hmiss hquiet⟩
    exact hI.2

def statusAndFar : RegisterMap :=
  { RegisterMap.bare with
    engineStateBits := [⟨.running, "status", 1⟩]
    registers := [.plain "status" 0, .plain "far" 90] }

/-- A prime poll that reads both, one that reads only the far register, and a tick. -/
def statusLost : List Label :=
  [.loop (.begin .prime) 0, .loop (.returned .prime ⟨some [1], 0⟩ 1 1) 2,
    .loop (.returned .prime ⟨some [7], 0⟩ 3 3) 4, .loop (.callbackDone .prime) 0,
    .loop (.begin .prime) 0, .loop (.returned .prime ⟨none, 0⟩ 5 5) 6,
    .loop (.returned .prime ⟨none, 0⟩ 7 7) 8, .loop (.returned .prime ⟨some [7], 0⟩ 9 9) 10]

/-- A status word that is lost while another register is read stops the pings. -/
theorem lost_status_stops_pings :
    ∃ s s', Takes step (start statusAndFar 10 0 0) (statusLost ++ [.tick 301]) s (.tick 301) s' ∧
      s.lastPrimeGood = some 4 ∧ (s.verdict 301).1 = false := by
  obtain ⟨s, s', htakes, hlast⟩ := takes_of_lastStep step (start statusAndFar 10 0 0) statusLost
    (.tick 301) (fun s _ _ => s.lastPrimeGood = some 4) (by decide +kernel)
  refine ⟨s, s', htakes, of_decide_eq_true hlast, ?_⟩
  have hm : statusAndFar.Watchable := ⟨by decide, fun tier => by cases tier <;> decide⟩
  have hls : ∀ l ∈ statusLost ++ [.tick 301], l.Swaps := by
    simp [statusLost, Label.Swaps, PollLoops.Label.SwapsTo]
  refine (heartbeat_means_live_state statusAndFar hm 10 0 0 _ hls).2 4 (fun s l s' ht => ?_) s 301
    s' htakes (by decide +kernel)
  exact of_decide_eq_true (ht.test_of_everyStep (fun s l s' => 4 < s'.clock →
    ∀ c ∈ s.completed l, c.poll.tier = .prime →
      ∃ rule ∈ c.poll.regmap.engineStateBits, c.decoded rule.register = none) (by decide +kernel))

end Heart

end GenWatch

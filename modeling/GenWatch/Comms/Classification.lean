import GenWatch.Prelude.Transition
import GenWatch.Prelude.Queue
import GenWatch.Modbus.CommsHealth

/-! # What the comms state means

The poller computes its comms state from counters, two bounded queues and a rounded
percentage, and the watchdog writes the same counters. Here the state is compared with
a reading of the unbounded history: every sample and every firing of the watchdog since
the poller was created, newest first.
-/

namespace GenWatch

open Transition Window

/-- An entry of a link's history: a sample with the state it left, or a firing of the watchdog. -/
inductive Mark where
  | sample (ok : Bool) (mono : ℚ) (state : CommsState)
  | fired (mono : ℚ)
  deriving DecidableEq

namespace Mark

def mono : Mark → ℚ
  | sample _ mono _ => mono
  | fired mono => mono

def state : Mark → CommsState
  | sample _ _ state => state
  | fired _ => .lost

def sample? : Mark → Option Bool
  | sample ok _ _ => some ok
  | fired _ => none

def isGood (m : Mark) : Bool := m.sample? = some true

def isFired (m : Mark) : Bool := m.sample? = none

end Mark

namespace History

/-- The state the newest entry left; a fresh poller is healthy. -/
def stateAfter : List Mark → CommsState
  | [] => .healthy
  | m :: _ => m.state

/-- The times at which the link went from another state to `lost`. -/
def lostEntries : List Mark → List ℚ
  | [] => []
  | m :: log =>
    if m.state = .lost ∧ stateAfter log ≠ .lost then m.mono :: lostEntries log else lostEntries log

variable (log : List Mark)

def samples : List Bool := log.filterMap Mark.sample?

/-- The consecutive failed samples that the history ends with. -/
def failedRun : ℕ := ((samples log).takeWhile (!·)).length

def firedSinceGood : Bool := (log.takeWhile fun m => !m.isGood).any Mark.isFired

/-- The successes since the last failure or firing. -/
def goodStreak : ℕ := (log.takeWhile Mark.isGood).length

/-- At least nineteen in twenty of the newest sixty samples succeeded. -/
def WindowGood (samples : List Bool) : Prop :=
  19 * (samples.take 60).length ≤ 20 * (samples.take 60).countP id

instance (samples : List Bool) : Decidable (WindowGood samples) :=
  inferInstanceAs (Decidable (_ ≤ _))

/-- The entries into `lost` no further back than the flap window. -/
def recentEntries (mono : ℚ) : ℕ := (lostEntries log).countP fun t => mono - t ≤ flapWindowS

/-- The state of a link whose history ends with a sample taken at `mono`. -/
def verdict (ok : Bool) (mono : ℚ) : CommsState :=
  if ok = false ∧ (3 ≤ failedRun log ∨ firedSinceGood log) then .lost
  else if ok = true ∧ (WindowGood (samples log) ∨
      healthyRecoveryStreak ≤ goodStreak log ∧ recentEntries log mono < flapMaxEpisodes) then
    .healthy
  else .degraded

end History

open History

/-- What happens to a link: a sample, a wake-up of the watchdog, the heartbeat of a prime poll. -/
inductive Probe where
  | record (ok : Bool) (elapsedMs now mono : ℚ)
  | wake (primePollMs : ℤ) (mono : ℚ)
  | primeGood (mono : ℚ)

def Probe.mono : Probe → ℚ
  | record _ _ _ mono => mono
  | wake _ mono => mono
  | primeGood mono => mono

/-- A poller's link with the monotonic clock and its whole history. -/
structure LinkHistory where
  link : PollerHealth
  clock : ℚ
  log : List Mark

namespace LinkHistory

def start (rateMs : ℤ) (mono : ℚ) : LinkHistory := ⟨.initial rateMs, mono, []⟩

def probed (w : LinkHistory) : Probe → PollerHealth
  | .record ok elapsedMs now mono => w.link.record ok elapsedMs now mono
  | .wake primePollMs mono => w.link.watchdog primePollMs mono
  | .primeGood mono => w.link.primeGood mono

/-- The history after a probe: a wake-up of the watchdog leaves an entry when it fires. -/
def logged (w : LinkHistory) : Probe → List Mark
  | .record ok elapsedMs now mono =>
    .sample ok mono (w.link.record ok elapsedMs now mono).health.state :: w.log
  | .wake primePollMs mono =>
    if (w.link.watchdog primePollMs mono).health.state = w.link.health.state then w.log
    else .fired mono :: w.log
  | .primeGood _ => w.log

/-- One probe, not before the previous one. -/
def step (w : LinkHistory) (l : Probe) : Option LinkHistory :=
  if l.mono < w.clock then none else some ⟨w.probed l, l.mono, w.logged l⟩

end LinkHistory

/-! ### The rounded percentage -/

theorem le_roundTenth {q : ℚ} {n : ℤ} (h : (n : ℚ) ≤ 10 * q) : (n : ℚ) / 10 ≤ roundTenth q := by
  have hfloor : n ≤ ⌊10 * q⌋ := Int.le_floor.mpr h
  simp only [roundTenth]
  gcongr
  split_ifs <;> omega

theorem roundTenth_le {q : ℚ} {n : ℤ} (h : 10 * q < n + 1 / 2) : roundTenth q ≤ (n : ℚ) / 10 := by
  have hfloor : ⌊10 * q⌋ < n + 1 := by
    rw [Int.floor_lt]
    push_cast
    linarith
  simp only [roundTenth]
  gcongr
  rcases Int.lt_or_eq_of_le (Int.lt_add_one_iff.mp hfloor) with hlt | heq
  · split_ifs <;> omega
  · have hd : 10 * q - (⌊10 * q⌋ : ℚ) < 1 / 2 := by
      rw [heq]
      linarith
    rw [if_pos hd, heq]

theorem roundTenth_lt_iff {n len : ℕ} (hpos : 0 < len) (hlen : len ≤ 60) :
    roundTenth (100 * n / len) < 95 ↔ 20 * n < 19 * len := by
  have hpos' : (0 : ℚ) < len := by exact_mod_cast hpos
  constructor
  · intro h
    by_contra hn
    have hn' : (19 * len : ℚ) ≤ 20 * n := by exact_mod_cast Nat.le_of_not_lt hn
    have hq : ((950 : ℤ) : ℚ) ≤ 10 * (100 * n / len) := by
      rw [mul_div_assoc', le_div_iff₀ hpos']
      push_cast
      linarith
    have := le_roundTenth hq
    push_cast at this
    linarith
  · intro h
    have hn : (20 * n + 1 : ℚ) ≤ 19 * len := by exact_mod_cast h
    have hlen' : (len : ℚ) ≤ 60 := by exact_mod_cast hlen
    have hq : 10 * (100 * n / len : ℚ) < ((949 : ℤ) : ℚ) + 1 / 2 := by
      rw [mul_div_assoc', div_lt_iff₀ hpos']
      push_cast
      linarith
    have := roundTenth_le hq
    push_cast at this
    linarith

/-! ### One sample -/

namespace PollerHealth

variable (p : PollerHealth) (ok : Bool) (elapsedMs now mono : ℚ)

theorem record_state : (p.record ok elapsedMs now mono).health.state =
    (p.recordSample ok elapsedMs now).classify mono := by
  simp only [record]
  split
  · rename_i h
    exact h.symm
  · rfl

theorem record_results : (p.record ok elapsedMs now mono).results =
    pushBounded 60 p.results ok := by
  simp only [record]
  split <;> rfl

theorem record_successes : (p.record ok elapsedMs now mono).health.consecutiveSuccesses =
    if ok then p.health.consecutiveSuccesses + 1 else 0 := by
  simp only [record]
  split <;> rfl

theorem record_failures : (p.record ok elapsedMs now mono).health.consecutiveFailures =
    if ok then 0 else p.health.consecutiveFailures + 1 := by
  simp only [record]
  split <;> rfl

theorem record_episodes : (p.record ok elapsedMs now mono).lostEpisodes =
    if (p.record ok elapsedMs now mono).health.state = .lost ∧ p.health.state ≠ .lost then
      pushBounded 32 p.lostEpisodes mono
    else p.lostEpisodes := by
  have hold : (p.recordSample ok elapsedMs now).health.state = p.health.state := rfl
  have hsame : (p.recordSample ok elapsedMs now).lostEpisodes = p.lostEpisodes := rfl
  rw [record_state]
  simp only [record, hold, hsame]
  by_cases h : (p.recordSample ok elapsedMs now).classify mono = p.health.state
  · have hnot : ¬(p.health.state = .lost ∧ p.health.state ≠ .lost) := fun h => h.2 h.1
    rw [if_pos h, h, if_neg hnot, hsame]
  · by_cases hl : (p.recordSample ok elapsedMs now).classify mono = .lost
    · have hnew : p.health.state ≠ .lost := fun h' => h (hl.trans h'.symm)
      simp [hl, hnew, hnew.symm]
    · simp [h, hl]

theorem watchdog_cases (primePollMs : ℤ) :
    (p.health.state ≠ .lost ∧ p.watchdog primePollMs mono =
      { p with
        lostEpisodes := pushBounded 32 p.lostEpisodes mono
        health := { p.health with
          consecutiveSuccesses := 0
          consecutiveFailures := max p.health.consecutiveFailures 3
          state := .lost } }) ∨
      p.watchdog primePollMs mono = p := by
  unfold watchdog
  split
  · exact Or.inr rfl
  · split
    · rename_i h
      exact Or.inl ⟨h.2, rfl⟩
    · exact Or.inr rfl

end PollerHealth

/-! ### The counters as readings of the history -/

/-- The queues and counters of the poller, read off the history. -/
structure LinkHistory.Counted (w : LinkHistory) : Prop where
  results : w.link.results = ((samples w.log).take 60).reverse
  state : w.link.health.state = stateAfter w.log
  episodes : w.link.lostEpisodes = ((lostEntries w.log).take 32).reverse
  ordered : (lostEntries w.log).Pairwise fun a b => b ≤ a
  past : ∀ t ∈ lostEntries w.log, t ≤ w.clock
  successes : w.link.health.consecutiveSuccesses = goodStreak w.log
  failures : if firedSinceGood w.log then 3 ≤ w.link.health.consecutiveFailures
    else w.link.health.consecutiveFailures = failedRun w.log

theorem pushBounded_window {α : Type} (n : ℕ) (x : α) (xs : List α) :
    pushBounded n (xs.take n).reverse x = ((x :: xs).take n).reverse :=
  drop_reverse_take n x xs

namespace History

variable (log : List Mark) (ok : Bool) (mono : ℚ) (state : CommsState)

@[simp] theorem samples_sample : samples (.sample ok mono state :: log) = ok :: samples log := rfl

@[simp] theorem goodStreak_sample : goodStreak (.sample ok mono state :: log) =
    if ok then goodStreak log + 1 else 0 := by
  cases ok <;> rfl

@[simp] theorem failedRun_sample : failedRun (.sample ok mono state :: log) =
    if ok then 0 else failedRun log + 1 := by
  cases ok <;> rfl

@[simp] theorem firedSinceGood_sample : firedSinceGood (.sample ok mono state :: log) =
    (!ok && firedSinceGood log) := by
  cases ok <;> rfl

@[simp] theorem firedSinceGood_fired : firedSinceGood (.fired mono :: log) = true := rfl

theorem lostEntries_sample : lostEntries (.sample ok mono state :: log) =
    if state = .lost ∧ stateAfter log ≠ .lost then mono :: lostEntries log
    else lostEntries log := rfl

theorem lostEntries_fired : lostEntries (.fired mono :: log) =
    if stateAfter log ≠ .lost then mono :: lostEntries log else lostEntries log := by
  simp [lostEntries, Mark.state, Mark.mono]

theorem lostEntries_cons {log : List Mark} {clock : ℚ} (m : Mark)
    (hordered : (lostEntries log).Pairwise fun a b => b ≤ a)
    (hpast : ∀ t ∈ lostEntries log, t ≤ clock) (hm : clock ≤ m.mono) :
    ((lostEntries (m :: log)).Pairwise fun a b => b ≤ a) ∧
      ∀ t ∈ lostEntries (m :: log), t ≤ m.mono := by
  have hpast' : ∀ t ∈ lostEntries log, t ≤ m.mono := fun t ht => (hpast t ht).trans hm
  rw [lostEntries]
  split
  · refine ⟨List.pairwise_cons.mpr ⟨hpast', hordered⟩, ?_⟩
    simpa using hpast'
  · exact ⟨hordered, hpast'⟩

end History

namespace LinkHistory

variable {w w' : LinkHistory}

theorem counted_start (rateMs : ℤ) (mono : ℚ) : (start rateMs mono).Counted where
  results := rfl
  state := rfl
  episodes := rfl
  ordered := List.Pairwise.nil
  past := by simp [start, lostEntries]
  successes := rfl
  failures := by simp [start, firedSinceGood, failedRun, samples, PollerHealth.initial,
    CommsHealth.initial]

theorem step_eq_some {l : Probe} (h : w.step l = some w') :
    w.clock ≤ l.mono ∧ w' = ⟨w.probed l, l.mono, w.logged l⟩ := by
  unfold step at h
  split at h
  · cases h
  · rename_i hclock
    exact ⟨not_lt.mp hclock, (Option.some.inj h).symm⟩

theorem Counted.record (hc : w.Counted) (ok : Bool) (elapsedMs now mono : ℚ)
    (hclock : w.clock ≤ mono) :
    Counted ⟨w.probed (.record ok elapsedMs now mono), mono,
      w.logged (.record ok elapsedMs now mono)⟩ := by
  have hentries := lostEntries_cons
    (.sample ok mono (w.link.record ok elapsedMs now mono).health.state) hc.ordered hc.past hclock
  refine ⟨?_, rfl, ?_, hentries.1, hentries.2, ?_, ?_⟩
  · simp only [probed, logged, PollerHealth.record_results, hc.results, samples_sample]
    exact pushBounded_window 60 ok (samples w.log)
  · simp only [probed, logged, lostEntries_sample]
    rw [PollerHealth.record_episodes, hc.episodes, hc.state]
    split_ifs
    · exact pushBounded_window 32 mono (lostEntries w.log)
    · rfl
  · simp only [probed, logged, PollerHealth.record_successes, hc.successes, goodStreak_sample]
  · have hf := hc.failures
    simp only [probed, logged, PollerHealth.record_failures, firedSinceGood_sample,
      failedRun_sample]
    cases ok with
    | true => simp
    | false =>
      cases hfired : firedSinceGood w.log with
      | true =>
        rw [hfired] at hf
        simp only [if_true] at hf
        simp only [Bool.not_false, Bool.true_and, Bool.false_eq_true, if_true, if_false]
        omega
      | false =>
        rw [hfired] at hf
        simpa using hf

theorem Counted.wake (hc : w.Counted) (primePollMs : ℤ) (mono : ℚ) (hclock : w.clock ≤ mono) :
    Counted ⟨w.probed (.wake primePollMs mono), mono, w.logged (.wake primePollMs mono)⟩ := by
  rcases w.link.watchdog_cases mono primePollMs with ⟨hstate, hfired⟩ | hsame
  · have hentries := lostEntries_cons (.fired mono) hc.ordered hc.past hclock
    have hlog : w.logged (.wake primePollMs mono) = .fired mono :: w.log := by
      rw [logged, hfired, if_neg hstate.symm]
    rw [hlog, probed, hfired]
    refine ⟨hc.results, rfl, ?_, hentries.1, hentries.2, rfl, ?_⟩
    · have hentry : lostEntries (.fired mono :: w.log) = mono :: lostEntries w.log := by
        rw [lostEntries_fired, if_pos (hc.state ▸ hstate)]
      simp only [hentry, hc.episodes]
      exact pushBounded_window 32 mono (lostEntries w.log)
    · simp
  · have hlog : w.logged (.wake primePollMs mono) = w.log := by
      rw [logged, hsame, if_pos rfl]
    rw [hlog, probed, hsame]
    exact { hc with past := fun t ht => (hc.past t ht).trans hclock }

theorem Counted.step {l : Probe} (hc : w.Counted) (h : w.step l = some w') : w'.Counted := by
  obtain ⟨hclock, rfl⟩ := step_eq_some h
  cases l with
  | record ok elapsedMs now mono => exact hc.record ok elapsedMs now mono hclock
  | wake primePollMs mono => exact hc.wake primePollMs mono hclock
  | primeGood mono => exact { hc with past := fun t ht => (hc.past t ht).trans hclock }

/-! ### The state after a sample -/

theorem Counted.successPct_lt_iff (hc : w.Counted) (ok : Bool) (elapsedMs now : ℚ) :
    (w.link.recordSample ok elapsedMs now).health.successPct < 95 ↔
      ¬WindowGood (ok :: samples w.log) := by
  have hresults : pushBounded 60 w.link.results ok = ((ok :: samples w.log).take 60).reverse := by
    rw [hc.results]
    exact pushBounded_window 60 ok (samples w.log)
  have hpct : (w.link.recordSample ok elapsedMs now).health.successPct =
      roundTenth (100 * ((pushBounded 60 w.link.results ok).countP id : ℕ) /
        ((pushBounded 60 w.link.results ok).length : ℕ)) := rfl
  rw [hpct, hresults, List.countP_reverse, List.length_reverse, WindowGood, not_le]
  apply roundTenth_lt_iff
  · simp
  · exact List.length_take_le 60 _

theorem Counted.flaps_lt_iff (hc : w.Counted) (mono : ℚ) :
    w.link.lostEpisodes.countP (fun t => mono - t ≤ flapWindowS) < flapMaxEpisodes ↔
      recentEntries w.log mono < flapMaxEpisodes := by
  have hnewer : (lostEntries w.log).Pairwise fun a b =>
      decide (mono - b ≤ flapWindowS) = true → decide (mono - a ≤ flapWindowS) = true := by
    refine hc.ordered.imp fun hab hb => ?_
    simp only [decide_eq_true_eq] at hb ⊢
    linarith
  rw [hc.episodes, List.countP_reverse, countP_take hnewer, recentEntries, flapMaxEpisodes]
  omega

/-- A failed sample ends at `lost` or at `degraded`, by the failures since the last success. -/
theorem Counted.classify_bad (hc : w.Counted) (elapsedMs now mono : ℚ) (state : CommsState) :
    (w.link.recordSample false elapsedMs now).classify mono =
      verdict (.sample false mono state :: w.log) false mono := by
  have hf := hc.failures
  have hcf : (w.link.recordSample false elapsedMs now).health.consecutiveFailures =
      w.link.health.consecutiveFailures + 1 := rfl
  have hcs : (w.link.recordSample false elapsedMs now).health.consecutiveSuccesses = 0 := rfl
  have hlost : 3 ≤ w.link.health.consecutiveFailures + 1 ↔
      3 ≤ failedRun w.log + 1 ∨ firedSinceGood w.log = true := by
    cases hfired : firedSinceGood w.log with
    | true =>
      rw [hfired] at hf
      simp only [if_true] at hf
      simp only [or_true, iff_true]
      omega
    | false =>
      rw [hfired] at hf
      simp only [Bool.false_eq_true, if_false] at hf
      simp [hf]
  simp only [PollerHealth.classify, verdict, hcf, hcs, hlost, failedRun_sample,
    firedSinceGood_sample, healthyRecoveryStreak]
  simp

/-- A successful sample ends at `healthy` or at `degraded`, by the window and the streak. -/
theorem Counted.classify_good (hc : w.Counted) (elapsedMs now mono : ℚ) {state : CommsState}
    (hstate : state ≠ .lost) :
    (w.link.recordSample true elapsedMs now).classify mono =
      verdict (.sample true mono state :: w.log) true mono := by
  have hcf : (w.link.recordSample true elapsedMs now).health.consecutiveFailures = 0 := rfl
  have hcs : (w.link.recordSample true elapsedMs now).health.consecutiveSuccesses =
      goodStreak (.sample true mono state :: w.log) := by
    simp [PollerHealth.recordSample, hc.successes]
  have hentries : recentEntries (.sample true mono state :: w.log) mono =
      recentEntries w.log mono := by
    simp [recentEntries, lostEntries_sample, hstate]
  have hep : (w.link.recordSample true elapsedMs now).lostEpisodes = w.link.lostEpisodes := rfl
  have hpct := hc.successPct_lt_iff true elapsedMs now
  simp only [PollerHealth.classify, verdict, hcf, hcs, hep, hc.flaps_lt_iff, hentries, hpct,
    samples_sample]
  by_cases hwindow : WindowGood (true :: samples w.log) <;> simp [hwindow]

theorem good_not_lost (p : PollerHealth) (elapsedMs now mono : ℚ) :
    (p.record true elapsedMs now mono).health.state ≠ .lost := by
  have hcf : (p.recordSample true elapsedMs now).health.consecutiveFailures = 0 := rfl
  rw [PollerHealth.record_state, PollerHealth.classify]
  rw [hcf, if_neg (by decide)]
  split_ifs <;> decide

theorem Counted.verdict (hc : w.Counted) (ok : Bool) (elapsedMs now mono : ℚ) :
    (w.link.record ok elapsedMs now mono).health.state =
      History.verdict (w.logged (.record ok elapsedMs now mono)) ok mono := by
  cases ok with
  | true =>
    have hstate := good_not_lost w.link elapsedMs now mono
    exact (PollerHealth.record_state ..).trans (hc.classify_good elapsedMs now mono hstate)
  | false => exact (PollerHealth.record_state ..).trans (hc.classify_bad elapsedMs now mono _)

/-- In every run of samples and wake-ups of the watchdog at non-decreasing times from a fresh
poller, the state after a sample is the verdict on the whole history. -/
theorem record_state_eq_verdict (rateMs : ℤ) (t₀ : ℚ) (ls : List Probe) :
    ∀ w ok elapsedMs now mono w',
      Takes step (start rateMs t₀) ls w (.record ok elapsedMs now mono) w' →
        w'.link.health.state = History.verdict w'.log ok mono := by
  intro w ok elapsedMs now mono w' h
  have hc : w.Counted :=
    h.reachable.invariant (counted_start rateMs t₀) fun _ _ _ hc hs => hc.step hs
  obtain ⟨-, rfl⟩ := step_eq_some h.step_eq
  exact hc.verdict ok elapsedMs now mono

/-- One failed sample after a firing of the watchdog: the link is lost. -/
theorem failure_after_firing_lost :
    ∃ w w', Takes step (start 1500 0) ([.primeGood 1, .wake 1500 6] ++ [.record false 0 7 7]) w
        (.record false 0 7 7) w' ∧
      w'.link.health.state = .lost ∧ w'.link.health.state = History.verdict w'.log false 7 := by
  obtain ⟨w, w', ht, hw⟩ := takes_of_lastStep step (start 1500 0) [.primeGood 1, .wake 1500 6]
    (.record false 0 7 7) (fun _ _ w' => decide (w'.link.health.state = .lost)) (by decide +kernel)
  exact ⟨w, w', ht, of_decide_eq_true hw,
    record_state_eq_verdict 1500 0 _ w false 0 7 7 w' ht⟩

end LinkHistory

end GenWatch

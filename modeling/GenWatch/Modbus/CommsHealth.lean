import Mathlib.Data.Rat.Floor
import Mathlib.Data.List.Sort
import GenWatch.Modbus.Registers

/-! # Comms health

The poller records one sample for each batch of reads and classifies the link
from the run of recent samples. The watchdog declares the link lost when no prime
poll has completed for three prime cadences. Both mutate one health record, which
the poller hands to every callback.
-/

namespace GenWatch

/-- The two links: to the generator's controller and to the transfer-switch companion. -/
inductive Link where
  | h100
  | ats
  deriving DecidableEq, Repr

inductive CommsState where
  | healthy
  | degraded
  | lost
  deriving DecidableEq, Repr

structure CommsHealth where
  state : CommsState
  successPct : ℚ
  lastGoodAt : Option ℚ
  lastAttemptAt : Option ℚ
  rateMs : ℤ
  p95LatencyMs : ℚ
  consecutiveFailures : ℕ
  consecutiveSuccesses : ℕ
  lastPrimeGoodMonotonic : Option ℚ
  deriving DecidableEq

def CommsHealth.initial (rateMs : ℤ) : CommsHealth where
  state := .healthy
  successPct := 100
  lastGoodAt := none
  lastAttemptAt := none
  rateMs := rateMs
  p95LatencyMs := 0
  consecutiveFailures := 0
  consecutiveSuccesses := 0
  lastPrimeGoodMonotonic := none

def healthyRecoveryStreak : ℕ := 5

def flapWindowS : ℚ := 120

def flapMaxEpisodes : ℕ := 2

def pushBounded {α : Type} (cap : ℕ) (l : List α) (x : α) : List α :=
  (l ++ [x]).drop (l.length + 1 - cap)

/-- Round to one decimal, ties to even. -/
def roundTenth (q : ℚ) : ℚ :=
  let f := ⌊10 * q⌋
  let d := 10 * q - f
  (if d < 1 / 2 then f else if 1 / 2 < d then f + 1 else if f % 2 = 0 then f else f + 1 : ℤ) / 10

/-- The health record of a poller with the sample windows it is computed from. -/
structure PollerHealth where
  health : CommsHealth
  results : List Bool
  latencies : List ℚ
  lostEpisodes : List ℚ

namespace PollerHealth

def initial (rateMs : ℤ) : PollerHealth := ⟨.initial rateMs, [], [], []⟩

variable (p : PollerHealth)

/-- Nearest-rank 95th percentile of the latency window, or its maximum while it is short. -/
def p95 (latencies : List ℚ) : ℚ :=
  let ordered := latencies.mergeSort
  if ordered.length < 5 then roundTenth (ordered.getLastD 0)
  else roundTenth (ordered.getD (19 * (ordered.length - 1) / 20) 0)

def classify (mono : ℚ) : CommsState :=
  let h := p.health
  let recentFlaps := p.lostEpisodes.countP fun t => mono - t ≤ flapWindowS
  if 3 ≤ h.consecutiveFailures then .lost
  else if healthyRecoveryStreak ≤ h.consecutiveSuccesses ∧ recentFlaps < flapMaxEpisodes then
    .healthy
  else if h.successPct < 95 ∨ 1 ≤ h.consecutiveFailures then .degraded
  else .healthy

/-- The counters and windows after one sample, before the link is classified again. -/
def recordSample (ok : Bool) (elapsedMs now : ℚ) : PollerHealth :=
  let results := pushBounded 60 p.results ok
  let latencies := if elapsedMs ≠ 0 then pushBounded 60 p.latencies elapsedMs else p.latencies
  { p with
    results := results
    latencies := latencies
    health := { p.health with
      lastAttemptAt := some now
      lastGoodAt := if ok then some now else p.health.lastGoodAt
      consecutiveFailures := if ok then 0 else p.health.consecutiveFailures + 1
      consecutiveSuccesses := if ok then p.health.consecutiveSuccesses + 1 else 0
      successPct := roundTenth (100 * results.countP id / results.length)
      p95LatencyMs := if latencies = [] then p.health.p95LatencyMs else p95 latencies } }

def record (ok : Bool) (elapsedMs now mono : ℚ) : PollerHealth :=
  let q := p.recordSample ok elapsedMs now
  let newState := q.classify mono
  if newState = q.health.state then q
  else { q with
    lostEpisodes := if newState = .lost then pushBounded 32 q.lostEpisodes mono else q.lostEpisodes
    health := { q.health with state := newState } }

/-- One wake-up of the watchdog: too long a silence declares the link lost. -/
def watchdog (primePollMs : ℤ) (mono : ℚ) : PollerHealth :=
  match p.health.lastPrimeGoodMonotonic with
  | none => p
  | some last =>
    if (primePollMs * 3 : ℚ) / 1000 < mono - last ∧ p.health.state ≠ .lost then
      { p with
        lostEpisodes := pushBounded 32 p.lostEpisodes mono
        health := { p.health with
          consecutiveSuccesses := 0
          consecutiveFailures := max p.health.consecutiveFailures 3
          state := .lost } }
    else p

/-- The heartbeat of a prime poll whose state registers were all decoded. -/
def primeGood (mono : ℚ) : PollerHealth :=
  { p with health := { p.health with lastPrimeGoodMonotonic := some mono } }

end PollerHealth

/-- The health records that exist once `main` has wired the services: the default one inside each
fresh snapshot, and the one each poller mutates. -/
inductive CommsRef where
  | snapshotDefault
  | atsSnapshotDefault
  | poller
  | atsPoller
  deriving DecidableEq, Repr

abbrev CommsHeap := CommsRef → CommsHealth

end GenWatch

import GenWatch.Services.AtsFrame
import GenWatch.Alarms.Pipeline

/-! # The monitoring side

Two pollers and the services they call back, wired as at service start. Each
poller mutates its own health record and passes that record, not a copy of it, to
every callback. A callback whose update raises publishes nothing, and keeps what
the update had done so far.
-/

namespace GenWatch

/-- The pollers' health, the map the generator's poller uses, and the services they call back. -/
structure Monitor where
  poller : PollerHealth
  atsPoller : PollerHealth
  pollerRegmap : RegisterMap
  stateMachine : StateMachine
  ats : Option AtsService
  db : Database

/-- What happens on the monitoring side between two suspension points. -/
inductive Input where
  /-- a batch of reads is recorded -/
  | record (link : Link) (ok : Bool) (elapsedMs now mono : ℚ)
  /-- the watchdog wakes up -/
  | watchdog (link : Link) (mono : ℚ)
  /-- a prime poll decoded every engine-state register -/
  | primeGood (link : Link) (mono : ℚ)
  /-- the generator's poller calls back -/
  | poll (now : ℚ) (reading : Reading)
  /-- the companion's poller calls back -/
  | atsPoll (now mono : ℚ) (tier : RegTier) (reading : Reading)

def Input.callback : Input → Option Link
  | .poll _ _ => some .h100
  | .atsPoll _ _ _ _ => some .ats
  | _ => none

namespace Monitor

/-- Everything as at service start, over an existing database. -/
def init (m : RegisterMap) (ats : Option (RegisterMap × Option ℤ)) (db : Database) (now : ℚ) :
    Monitor where
  poller := .initial m.primePollMs
  atsPoller := .initial ((ats.map fun a => a.1.primePollMs).getD 1500)
  pollerRegmap := m
  stateMachine := .init m now
  ats := ats.map fun a => .init a.1 a.2
  db := db

variable (mon : Monitor)

def heap : CommsHeap
  | .snapshotDefault => .initial 1500
  | .atsSnapshotDefault => .initial 1500
  | .poller => mon.poller.health
  | .atsPoller => mon.atsPoller.health

def atsView : Option AtsView := mon.ats.map fun ats => ats.view mon.heap

/-- What a finished update leaves behind, and what is published. -/
def publish {S : Type} (store : S → Database → Monitor) :
    EStateM.Result DbError (Ctx S) Unit → Monitor × List Event
  | .ok _ c => (store c.self c.db, c.emitted)
  | .error _ c => (store c.self c.db, [])

def onPoll (faults : List Bool) (now : ℚ) (reading : Reading) : Monitor × List Event :=
  publish (fun sm db => { mon with stateMachine := sm, db := db })
    ((StateMachine.update ⟨now, mon.atsView, mon.heap⟩ reading .poller).run
      ⟨mon.stateMachine, mon.db, [], faults⟩)

def onAtsPoll (ats : AtsService) (faults : List Bool) (now mono : ℚ) (tier : RegTier)
    (reading : Reading) : Monitor × List Event :=
  publish (fun ats db => { mon with ats := some ats, db := db })
    ((AtsService.update ⟨now, mono, tier, mon.heap⟩ reading .atsPoller).run
      ⟨ats, mon.db, [], faults⟩)

def onHealth (link : Link) (f : RegisterMap → PollerHealth → PollerHealth) : Option Monitor :=
  match link with
  | .h100 => some { mon with poller := f mon.pollerRegmap mon.poller }
  | .ats => mon.ats.map fun ats => { mon with atsPoller := f ats.regmap mon.atsPoller }

/-- One input; those of the companion's link need a companion. -/
def step (faults : List Bool) : Input → Option (Monitor × List Event)
  | .record link ok elapsedMs now mono =>
    (mon.onHealth link fun _ p => p.record ok elapsedMs now mono).map (·, [])
  | .watchdog link mono =>
    (mon.onHealth link fun m p => p.watchdog m.primePollMs mono).map (·, [])
  | .primeGood link mono => (mon.onHealth link fun _ p => p.primeGood mono).map (·, [])
  | .poll now reading => some (mon.onPoll faults now reading)
  | .atsPoll now mono tier reading =>
    mon.ats.map fun ats => mon.onAtsPoll ats faults now mono tier reading

/-- Swap the register map of the poller and of the state machine. -/
def applyRegmap (m : RegisterMap) : Monitor :=
  { mon with
    poller := { mon.poller with health := { mon.poller.health with rateMs := m.primePollMs } }
    pollerRegmap := m
    stateMachine := mon.stateMachine.applyRegmap m }

variable {mon} {mon' : Monitor} {es : List Event}

theorem onHealth_services {link : Link} {f : RegisterMap → PollerHealth → PollerHealth}
    (h : mon.onHealth link f = some mon') :
    mon'.stateMachine = mon.stateMachine ∧ mon'.ats = mon.ats ∧ mon'.db = mon.db := by
  cases link with
  | h100 =>
    obtain rfl := Option.some.inj h
    exact ⟨rfl, rfl, rfl⟩
  | ats =>
    obtain ⟨ats, -, rfl⟩ := Option.map_eq_some_iff.mp h
    exact ⟨rfl, rfl, rfl⟩

/-- What an input does: it calls back over one of the links, or changes health alone. -/
theorem step_cases {faults : List Bool} {i : Input} (h : mon.step faults i = some (mon', es)) :
    (∃ now reading, i = .poll now reading ∧ mon.onPoll faults now reading = (mon', es)) ∨
    (∃ now mono tier reading ats, i = .atsPoll now mono tier reading ∧ mon.ats = some ats ∧
      mon.onAtsPoll ats faults now mono tier reading = (mon', es)) ∨
    (i.callback = none ∧ mon'.stateMachine = mon.stateMachine ∧ mon'.ats = mon.ats ∧
      mon'.db = mon.db ∧ es = []) := by
  have health : ∀ {link f}, (mon.onHealth link f).map (·, []) = some (mon', es) →
      mon'.stateMachine = mon.stateMachine ∧ mon'.ats = mon.ats ∧ mon'.db = mon.db ∧ es = [] := by
    intro link f h
    obtain ⟨mon₁, h₁, h₂⟩ := Option.map_eq_some_iff.mp h
    obtain ⟨rfl, rfl⟩ := Prod.mk.inj h₂
    obtain ⟨hs, ha, hd⟩ := onHealth_services h₁
    exact ⟨hs, ha, hd, rfl⟩
  cases i with
  | record link ok elapsedMs now mono => exact Or.inr (Or.inr ⟨rfl, health h⟩)
  | watchdog link mono => exact Or.inr (Or.inr ⟨rfl, health h⟩)
  | primeGood link mono => exact Or.inr (Or.inr ⟨rfl, health h⟩)
  | poll now reading => exact Or.inl ⟨now, reading, rfl, Option.some.inj h⟩
  | atsPoll now mono tier reading =>
    obtain ⟨ats, ha, he⟩ := Option.map_eq_some_iff.mp h
    exact Or.inr (Or.inl ⟨now, mono, tier, reading, ats, rfl, ha, he⟩)

theorem publish_fst {S : Type} (store : S → Database → Monitor)
    (res : EStateM.Result DbError (Ctx S) Unit) :
    (publish store res).1 = store (Handler.finalState res).self (Handler.finalState res).db := by
  cases res <;> rfl

variable (mon)

/-- A callback without database errors publishes the events of a completed update. -/
theorem onPoll_updated (hd : mon.stateMachine.NumericDerived) (now : ℚ)
    (reading : Reading) :
    ∃ c', StateMachine.Updated ⟨now, mon.atsView, mon.heap⟩ reading .poller
        ⟨mon.stateMachine, mon.db, [], []⟩ c' ∧
      mon.onPoll [] now reading =
        ({ mon with stateMachine := c'.self, db := c'.db }, c'.emitted) := by
  obtain ⟨u, c', h, -⟩ := StateMachine.total_update ⟨now, mon.atsView, mon.heap⟩ reading .poller
    ⟨mon.stateMachine, mon.db, [], []⟩ rfl
  refine ⟨c', StateMachine.update_updated hd h, ?_⟩
  rw [Monitor.onPoll, h]
  rfl

theorem onAtsPoll_updated {ats : AtsService} (hf : ats.FaultsOwn) (now mono : ℚ)
    (tier : RegTier) (reading : Reading) :
    ∃ c', AtsService.Updated ⟨now, mono, tier, mon.heap⟩ reading .atsPoller
        ⟨ats, mon.db, [], []⟩ c' ∧
      mon.onAtsPoll ats [] now mono tier reading =
        ({ mon with ats := some c'.self, db := c'.db }, c'.emitted) := by
  obtain ⟨u, c', h, -⟩ := AtsService.total_update ⟨now, mono, tier, mon.heap⟩ reading .atsPoller
    ⟨ats, mon.db, [], []⟩ rfl
  refine ⟨c', AtsService.update_updated hf h, ?_⟩
  rw [Monitor.onAtsPoll, h]
  rfl

end Monitor

section Example

def runningMap : RegisterMap :=
  { RegisterMap.bare with
    registers := [.plain "engine"]
    engineStateBits := [⟨.running, "engine", 1⟩] }

def deliveringReading (output : ℚ) : Reading :=
  ⟨fun name => if name = "engine" then some 1
    else if name ∈ ["avg_current", "total_kw"] then some output else none, 0, fun _ => none⟩

/-- A reading of a companion of the expected version, whose position may be missing. -/
def companionReading (position : Option ℚ) : Reading :=
  ⟨fun name => if name = "icd_version_major" then some 1
    else if name = "position" then position else none, 0, fun _ => none⟩

end Example

end GenWatch

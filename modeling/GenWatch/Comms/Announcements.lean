import GenWatch.Prelude.Transition
import GenWatch.Services.Monitor

/-! # Announcing comms transitions

A callback announces the difference between the health record in the snapshot and
the one it is handed. From the first callback on these are one and the same
record, so that only a difference from the initial state is ever announced.
-/

namespace GenWatch

open ServiceM Transition

def Monitor.linkState (mon : Monitor) : Link → CommsState
  | .h100 => mon.poller.health.state
  | .ats => mon.atsPoller.health.state

/-- The monitoring side, with the state each link had at its previous callback and the events
published by the last input. -/
structure Wiring where
  mon : Monitor
  seen : Link → Option CommsState
  published : List Event

namespace Wiring

def start (m : RegisterMap) (ats : Option (RegisterMap × Option ℤ)) (db : Database) (now : ℚ) :
    Wiring :=
  ⟨.init m ats db now, fun _ => none, []⟩

/-- What the callback of an input sees. -/
def nextSeen (w : Wiring) (i : Input) : Link → Option CommsState :=
  match i.callback with
  | some link => Function.update w.seen link (some (w.mon.linkState link))
  | none => w.seen

def step (w : Wiring) (i : Input) : Option Wiring :=
  (w.mon.step [] i).map fun r => ⟨r.1, w.nextSeen i, r.2⟩

/-- The comms events of an input are exactly the change of its link since the previous callback. -/
def Announced (w : Wiring) (i : Input) (w' : Wiring) : Prop :=
  w'.published.filterMap Event.commsChange =
    match i.callback with
    | some link => commsDiff link ((w.seen link).getD .healthy) (w.mon.linkState link)
    | none => []

instance (w : Wiring) (i : Input) (w' : Wiring) : Decidable (w.Announced i w') :=
  inferInstanceAs (Decidable (_ = _))

/-- A callback after the first one finds its link in the state of the previous callback. -/
def Settled (w : Wiring) (i : Input) : Prop :=
  ∀ link ∈ i.callback, ∀ state ∈ w.seen link, w.mon.linkState link = state

/-- The snapshots refer to their default health record until the first callback, and to the
poller's own record from then on. -/
structure Aliased (w : Wiring) : Prop where
  numeric : w.mon.stateMachine.NumericDerived
  faults : ∀ ats ∈ w.mon.ats, ats.FaultsOwn
  comms : w.mon.stateMachine.snap.comms =
    if (w.seen .h100).isSome then .poller else .snapshotDefault
  atsComms : ∀ ats ∈ w.mon.ats, ats.snap.comms =
    if (w.seen .ats).isSome then .atsPoller else .atsSnapshotDefault

theorem aliased_start (m : RegisterMap) (ats : Option (RegisterMap × Option ℤ)) (db : Database)
    (now : ℚ) : (start m ats db now).Aliased where
  numeric := StateMachine.numericDerived_init m now
  faults := by
    cases ats <;> simp [start, Monitor.init, AtsService.faultsOwn_init]
  comms := rfl
  atsComms := by
    cases ats <;> simp [start, Monitor.init, AtsService.init, AtsSnapshot.initial]

section Step

variable {w w' : Wiring} {i : Input}

theorem step_eq_some (h : w.step i = some w') :
    w.mon.step [] i = some (w'.mon, w'.published) ∧ w'.seen = w.nextSeen i := by
  obtain ⟨r, hr, rfl⟩ := Option.map_eq_some_iff.mp h
  exact ⟨hr, rfl⟩

theorem Aliased.step (ha : w.Aliased) (h : w.step i = some w') : w'.Aliased := by
  obtain ⟨hs, hseen⟩ := step_eq_some h
  obtain ⟨mon, seen, es⟩ := w'
  obtain rfl : seen = w.nextSeen i := hseen
  rcases Monitor.step_cases hs with ⟨now, reading, rfl, hp⟩ |
    ⟨now, mono, tier, reading, ats, rfl, hats, hp⟩ | ⟨hi, hsm, hats, -, -⟩
  · obtain ⟨c', hu, he⟩ := w.mon.onPoll_updated ha.numeric now reading
    obtain ⟨rfl, -⟩ := Prod.mk.inj (hp.symm.trans he)
    refine ⟨hu.numeric, ha.faults, ?_, ha.atsComms⟩
    simpa [nextSeen, Input.callback] using hu.comms
  · obtain ⟨c', hu, he⟩ := w.mon.onAtsPoll_updated (ha.faults ats hats) now mono tier
      reading
    obtain ⟨rfl, -⟩ := Prod.mk.inj (hp.symm.trans he)
    refine ⟨ha.numeric, by simpa using hu.faultsOwn, ha.comms, ?_⟩
    simp [nextSeen, Input.callback, hu.snap, AtsService.nextSnapshot]
  · have hsame : w.nextSeen i = w.seen := by rw [nextSeen, hi]
    rw [hsame]
    exact ⟨hsm ▸ ha.numeric, hats ▸ ha.faults, hsm ▸ ha.comms, hats ▸ ha.atsComms⟩

/-- What a callback compares is the previous state before the first callback, and one state with
itself from then on. -/
theorem commsDiff_aliased (link : Link) (seen : Option CommsState) (state : CommsState) :
    commsDiff link (if seen.isSome then state else .healthy) state =
        commsDiff link (seen.getD .healthy) state ↔
      ∀ old ∈ seen, state = old := by
  cases seen with
  | none => simp
  | some old =>
    by_cases h : state = old <;> simp [commsDiff, h]

theorem announced_iff_settled (ha : w.Aliased) (h : w.step i = some w') :
    w.Announced i w' ↔ w.Settled i := by
  obtain ⟨hs, -⟩ := step_eq_some h
  rcases Monitor.step_cases hs with ⟨now, reading, rfl, hp⟩ |
    ⟨now, mono, tier, reading, ats, rfl, hats, hp⟩ | ⟨hi, -, -, -, hes⟩
  · obtain ⟨c', hu, he⟩ := w.mon.onPoll_updated ha.numeric now reading
    obtain ⟨-, hes⟩ := Prod.mk.inj (hp.symm.trans he)
    obtain ⟨new, hnew, hdiff, -, -⟩ := hu.emits
    have hold : (w.mon.heap w.mon.stateMachine.snap.comms).state =
        if (w.seen .h100).isSome then w.mon.linkState .h100 else .healthy := by
      rw [ha.comms]
      split <;> rfl
    have hpub : w'.published.filterMap Event.commsChange = commsDiff .h100
        (if (w.seen .h100).isSome then w.mon.linkState .h100 else .healthy)
        (w.mon.linkState .h100) := by
      rw [hes, hnew, List.nil_append, hdiff, ← hold]
      rfl
    simp only [Announced, hpub, Input.callback, Settled, Option.mem_some_iff, forall_eq']
    exact commsDiff_aliased _ _ _
  · obtain ⟨c', hu, he⟩ := w.mon.onAtsPoll_updated (ha.faults ats hats) now mono tier
      reading
    obtain ⟨-, hes⟩ := Prod.mk.inj (hp.symm.trans he)
    obtain ⟨new, hnew, -, hdiff⟩ := hu.emits
    have hold : (w.mon.heap ats.snap.comms).state =
        if (w.seen .ats).isSome then w.mon.linkState .ats else .healthy := by
      rw [ha.atsComms ats hats]
      split <;> rfl
    have hpub : w'.published.filterMap Event.commsChange = commsDiff .ats
        (if (w.seen .ats).isSome then w.mon.linkState .ats else .healthy)
        (w.mon.linkState .ats) := by
      rw [hes, hnew, List.nil_append, hdiff, ← hold]
      rfl
    simp only [Announced, hpub, Input.callback, Settled, Option.mem_some_iff, forall_eq']
    exact commsDiff_aliased _ _ _
  · simp [Announced, Settled, hi, hes]

end Step

/-- Every comms transition of a run is announced exactly when no link changes its state between two
callbacks: only a state that differs from the initial one at the first callback is announced. -/
theorem comms_announced_iff_settled (m : RegisterMap) (ats : Option (RegisterMap × Option ℤ))
    (db : Database) (now : ℚ) (ls : List Input) :
    (∀ w i w', Takes step (start m ats db now) ls w i w' → w.Announced i w') ↔
      ∀ w i w', Takes step (start m ats db now) ls w i w' → w.Settled i := by
  refine forall₃_congr fun w i w' => forall_congr' fun h => ?_
  exact announced_iff_settled (h.reachable.invariant (aliased_start m ats db now)
    fun _ _ _ => Aliased.step) h.step_eq

/-- A link that fails three times between two callbacks: it is lost, and no event says so. -/
theorem lost_link_unannounced :
    ¬∀ w i w', Takes step (start oneAlarmMap none .empty 0)
      ([.poll 1 .empty, .record .h100 false 0 2 2, .record .h100 false 0 3 3,
        .record .h100 false 0 4 4] ++ [.poll 5 .empty]) w i w' → w.Announced i w' := by
  intro h
  obtain ⟨w, w', ht, hw⟩ := takes_of_lastStep step (start oneAlarmMap none .empty 0)
    [.poll 1 .empty, .record .h100 false 0 2 2, .record .h100 false 0 3 3,
      .record .h100 false 0 4 4] (.poll 5 .empty)
    (fun w i w' => !decide (w.Announced i w')) (by decide +kernel)
  simp only [Bool.not_eq_true', decide_eq_false_iff_not] at hw
  exact hw (h _ _ _ ht)

end Wiring

end GenWatch

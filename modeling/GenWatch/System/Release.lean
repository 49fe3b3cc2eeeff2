import GenWatch.Ats.Faults
import GenWatch.System.AtsGate

/-! # Backing a held command out

A held command is released through a control of its own. The release passes neither
the authority nor the fault gate, whatever the companion reports, so once it is let
into its lock over a link that is not lost, only its token can stop it. The
companion's register map is never swapped, hence a release that has to wait for the
control lock still waits with the control the map has under the release name.
-/

namespace GenWatch

open Transition

/-- The request backs out a held command. -/
structure AtsRequest.Releases (q : AtsRequest) (spec : AtsCommandSpec) : Prop where
  spec_eq : atsCommandSpecs q.command = some spec
  maintained : spec.kind = .maintained
  assert : q.assert = false

namespace AtsControlService

variable {ats : AtsService} {heap : CommsHeap} {spec : AtsCommandSpec} {q : AtsRequest}
  {ctl : ControlDef}

theorem releaseControl_ne_assertControl {command : Action}
    (h : atsCommandSpecs command = some spec) : spec.releaseControl ≠ some spec.assertControl := by
  cases command <;> cases h <;> decide

theorem controlName_of_releases (hq : q.Releases spec) :
    controlName spec q = spec.releaseControl := by
  simp [controlName, hq.maintained, hq.assert]

theorem control_of_gate (h : gate ats heap spec q = .ok ctl) :
    (controlName spec q).bind ats.regmap.controls.find? = some ctl := by
  unfold gate at h
  split at h
  · cases h
  split at h
  · cases h
  dsimp only at h
  split at h
  · cases h
  · rename_i ctl' hctl
    cases h
    exact hctl

theorem gate_of_releases (hq : q.Releases spec) (hlink : (heap ats.snap.comms).state ≠ .lost)
    (hctl : spec.releaseControl.bind ats.regmap.controls.find? = some ctl) :
    gate ats heap spec q = .ok ctl := by
  have hassert : isAssert spec q = false := by simp [isAssert, hq.maintained, hq.assert]
  have hname := controlName_of_releases hq
  unfold gate
  rw [if_neg hlink]
  simp [hassert, hname, hctl]

end AtsControlService

namespace World

variable {w v : World} {l : Label} {i : ℕ} {at_ : Clock} {fresh : String} {t : Task}
  {r : World × List Obs} {q : AtsRequest}

def atsRegmap (w : World) : Option RegisterMap := w.mon.ats.map (·.regmap)

def atsComms (w : World) : Option CommsState :=
  w.mon.ats.map fun ats => (w.mon.heap ats.snap.comms).state

/-- The transfer-switch command that is let into its critical section, and its coroutine. -/
def entersAts? (w : World) : Label → Option (ℕ × AtsRequest)
  | .atsExecute q _ => if w.atsLock.open? then some (w.next, q) else none
  | .wakeAts i _ =>
    match w.tasks i with
    | .atsQueued q => some (i, q)
    | _ => none
  | _ => none

theorem clock_of_entersAts (h : w.entersAts? l = some (i, q)) : ∃ at_, l.clock = some at_ := by
  cases l with
  | atsExecute _ at_ | wakeAts _ at_ => exact ⟨at_, rfl⟩
  | execute _ _ | ack _ _ | issue _ _ _ _ | reload _ _ _ | wake _ _ _ | returned _ _ _
  | input _ _ => cases h

section Tasks

/-- A step of the coroutine `i` moves no other one and keeps the companion's map; a command that
waits for the control lock afterwards has passed its gates. -/
structure Advances (w : World) (i : ℕ) (u : World) : Prop where
  tasks : ∃ t, u.tasks = Function.update w.tasks i t ∧
    ∀ q ctl, t = .atsToken q ctl → AtsPassed w q ctl
  regmap : u.atsRegmap = w.atsRegmap

theorem Advances.of_task (hb : Begins w l v i at_) {u : World} (htasks : u.tasks = Function.update
    v.tasks i t) (hats : u.atsRegmap = v.atsRegmap)
    (ht : ∀ q ctl, t = .atsToken q ctl → AtsPassed w q ctl) : Advances w i u := by
  refine ⟨⟨t, by rw [htasks, hb.tasks], ht⟩, hats.trans ?_⟩
  rw [atsRegmap, hb.ats]
  rfl

theorem Advances.of_locked (hb : Begins w l v i at_) (h : v.locked i at_ fresh t = some r) :
    Advances w i r.1 := by
  have hsec := locked_section h
  obtain ⟨t', hwait, htasks, -⟩ := hsec.tasks
  obtain ⟨db, hmon⟩ := hsec.mon
  refine .of_task hb htasks (by simp [atsRegmap, hmon]) ?_
  rintro q ctl rfl
  cases hwait

theorem Advances.of_acquire (hb : Begins w l v i at_)
    (ht : ∀ q ctl, t = .atsToken q ctl → AtsPassed w q ctl)
    (h : v.acquire i at_ fresh t = some r) : Advances w i r.1 := by
  unfold acquire at h
  split at h
  · have hu := hb.unmoved
    have hb' : Begins w l { v with lock := v.lock.take i } i at_ :=
      ⟨⟨hu.heap, hu.snap, hu.machine⟩, hb.ats, hb.control, hb.tasks, hb.coroutine, hb.clock,
        hb.from_, hb.mono, hb.runs⟩
    exact .of_locked hb' h
  · obtain rfl := Option.some.inj h
    exact .of_task hb rfl rfl ht

theorem Advances.of_done (hb : Begins w l v i at_) {u : World}
    (htasks : u.tasks = Function.update v.tasks i .done) (hmon : u.atsRegmap = v.atsRegmap) :
    Advances w i u :=
  .of_task hb htasks hmon (by rintro _ _ ⟨⟩)

theorem Advances.of_atsLocked {ats : AtsService} {spec : AtsCommandSpec}
    (hb : Begins w l v i at_) (hl : l.reloads = false) (hats : v.mon.ats = some ats)
    (hspec : atsCommandSpecs q.command = some spec)
    (h : v.atsLocked i at_ ats q spec = some r) : Advances w i r.1 := by
  unfold atsLocked at h
  split at h
  · obtain rfl := Option.some.inj h
    exact .of_done hb rfl rfl
  · rename_i ctl hgate
    refine .of_acquire hb ?_ h
    rintro _ _ ⟨⟩
    exact ⟨ats, spec, hb.ats ▸ hats, hspec, hb.unmoved.heap hl ▸ hgate⟩

theorem Advances.of_atsExecute {ats : AtsService} (hb : Begins w l v i at_)
    (hl : l.reloads = false) (hats : v.mon.ats = some ats)
    (h : v.atsExecute i at_ ats q = some r) : Advances w i r.1 := by
  unfold atsExecute at h
  split at h
  · obtain rfl := Option.some.inj h
    exact .of_done hb rfl rfl
  rename_i spec hspec
  split at h
  · unfold acquireAts at h
    split at h
    · exact .of_atsLocked (hb.withAtsLock (v.atsLock.take i)) hl hats hspec h
    · obtain rfl := Option.some.inj h
      exact .of_task hb rfl rfl (by rintro _ _ ⟨⟩)
  · obtain rfl := Option.some.inj h
    exact .of_done hb rfl rfl

theorem atsRegmap_returned (req : Request) (ctl : ControlDef) (error : Option String) :
    (w.returned i at_ req ctl error).1.atsRegmap = w.atsRegmap := by
  unfold returned
  cases req with
  | execute _ | ack _ => rfl
  | atsExecute q =>
    cases error with
    | some _ => rfl
    | none =>
      change (w.mon.ats.map _).map _ = w.mon.ats.map _
      rw [Option.map_map]
      rfl

theorem Advances.of_execute {req : ControlRequest} (hb : Begins w l v i at_)
    (h : v.execute i at_ req = some r) : Advances w i r.1 := by
  unfold execute at h
  split at h
  · obtain rfl := Option.some.inj h
    exact .of_done hb rfl rfl
  split at h
  · obtain rfl := Option.some.inj h
    exact .of_done hb rfl rfl
  · exact .of_acquire hb (by rintro _ _ ⟨⟩) h

theorem Advances.of_ack {req : AckRequest} (hb : Begins w l v i at_)
    (h : v.ack i at_ req = some r) : Advances w i r.1 := by
  unfold ack at h
  split at h
  · split at h
    · obtain rfl := Option.some.inj h
      exact .of_done hb rfl rfl
    · exact .of_acquire hb (by rintro _ _ ⟨⟩) h
  · obtain rfl := Option.some.inj h
    exact .of_done hb rfl rfl

theorem Advances.of_returned {req : Request} {ctl : ControlDef} {error : Option String}
    (h : w.tick at_ = some v) : Advances w i (v.returned i at_ req ctl error).1 := by
  obtain ⟨-, rfl⟩ := tick_eq_some.mp h
  refine ⟨⟨.done, ?_, by rintro _ _ ⟨⟩⟩, atsRegmap_returned req ctl error⟩
  unfold returned
  cases req with
  | execute _ | ack _ => rfl
  | atsExecute _ => cases error <;> rfl

/-- A step of a coroutine moves that one alone. -/
theorem advances_of_step (h : w.step l = some r) (hi : l.coroutine w.next = some i) :
    Advances w i r.1 := by
  cases l with
  | execute req at_ =>
    cases hi
    obtain ⟨v, hv, h⟩ := Option.bind_eq_some_iff.mp h
    exact .of_execute (begins_spawn (l := .execute req at_) rfl rfl hv) h
  | atsExecute req at_ =>
    cases hi
    obtain ⟨v, hv, h⟩ := Option.bind_eq_some_iff.mp h
    obtain ⟨ats, hats, h⟩ := Option.bind_eq_some_iff.mp h
    exact .of_atsExecute (begins_spawn (l := .atsExecute req at_) rfl rfl hv) rfl hats h
  | ack req at_ =>
    cases hi
    obtain ⟨v, hv, h⟩ := Option.bind_eq_some_iff.mp h
    exact .of_ack (begins_spawn (l := .ack req at_) rfl rfl hv) h
  | issue operator verb fresh at_ =>
    cases hi
    obtain ⟨v, hv, h⟩ := Option.bind_eq_some_iff.mp h
    exact .of_acquire (begins_spawn (l := .issue operator verb fresh at_) rfl rfl hv)
      (by rintro _ _ ⟨⟩) h
  | reload m operator at_ =>
    cases hi
    obtain ⟨v, hv, h⟩ := Option.bind_eq_some_iff.mp h
    have hb : Begins w (.reload m operator at_) _ w.next at_ := begins_reload hv
    exact .of_acquire hb (by rintro _ _ ⟨⟩) h
  | wake j fresh at_ =>
    obtain rfl := Option.some.inj hi
    obtain ⟨v, hv, h⟩ := Option.bind_eq_some_iff.mp h
    obtain ⟨lock, -, h⟩ := Option.bind_eq_some_iff.mp h
    obtain ⟨-, rfl⟩ := tick_eq_some.mp hv
    have hb := begins_tick (l := .wake j fresh at_) rfl rfl hv (waiting_of_locked h)
    exact .of_locked (hb.withLock lock) h
  | wakeAts j at_ =>
    obtain rfl := Option.some.inj hi
    obtain ⟨v, hv, h⟩ := Option.bind_eq_some_iff.mp h
    obtain ⟨lock, -, h⟩ := Option.bind_eq_some_iff.mp h
    obtain ⟨ats, hats, h⟩ := Option.bind_eq_some_iff.mp h
    split at h
    · rename_i req hreq
      obtain ⟨spec, hspec, h⟩ := Option.bind_eq_some_iff.mp h
      have hwait : (w.tasks j).waiting = true := by
        obtain ⟨-, rfl⟩ := tick_eq_some.mp hv
        exact congrArg Task.waiting hreq
      have hb := begins_tick (l := .wakeAts j at_) rfl rfl hv hwait
      exact .of_atsLocked (hb.withAtsLock lock) rfl hats hspec h
    · cases h
  | returned j error at_ =>
    obtain rfl := Option.some.inj hi
    obtain ⟨v, hv, h⟩ := Option.bind_eq_some_iff.mp h
    split at h
    · obtain rfl := Option.some.inj h
      exact .of_returned hv
    · cases h
  | input j faults => cases hi

theorem atsRegmap_of_step (h : w.step l = some r) : r.1.atsRegmap = w.atsRegmap := by
  cases hi : l.coroutine w.next with
  | some i => exact (advances_of_step h hi).regmap
  | none =>
    cases l with
    | input j faults =>
      obtain ⟨⟨mon, es⟩, hmon, rfl⟩ := Option.map_eq_some_iff.mp h
      rcases Monitor.step_cases hmon with ⟨now, reading, -, hpoll⟩ |
        ⟨now, mono, tier, reading, ats, -, hats, hpoll⟩ | ⟨-, -, hats, -⟩
      · rw [Monitor.onPoll, ← Prod.eta (Monitor.publish _ _), Monitor.publish_fst] at hpoll
        cases hpoll
        rfl
      · rw [Monitor.onAtsPoll, ← Prod.eta (Monitor.publish _ _), Monitor.publish_fst] at hpoll
        cases hpoll
        have hkeep := (AtsService.around_update ⟨now, mono, tier, w.mon.heap⟩ reading .atsPoller
          ⟨ats, w.mon.db, [], faults⟩).regmap
        rw [atsRegmap, atsRegmap, hats]
        exact congrArg some hkeep
      · exact congrArg (Option.map _) hats
    | execute _ _ | atsExecute _ _ | ack _ _ | issue _ _ _ _ | reload _ _ _ | wake _ _ _
    | wakeAts _ _ | returned _ _ _ => cases hi

end Tasks

section Release

variable {spec : AtsCommandSpec} {ctl : ControlDef} {m : RegisterMap}

/-- What a release comes to that is let into its critical section: the control lock is free and
its token decides, or it waits. -/
structure Presses (v : World) (i : ℕ) (at_ : Clock) (q : AtsRequest) (ctl : ControlDef)
    (r : World × List Obs) : Prop where
  spends : v.lock.open? = true → v.spendable q.token q.operator q.command at_ = true →
    .write i (.atsExecute q) (.ofControl ctl) ∈ r.2
  waits : v.lock.open? = false → r.1.tasks i = .atsToken q ctl

theorem presses_of_acquire (h : v.acquire i at_ "" (.atsToken q ctl) = some r) :
    Presses v i at_ q ctl r := by
  unfold acquire at h
  split at h
  · rename_i hopen
    obtain rfl := Option.some.inj h
    refine ⟨fun _ hspend => write_mem_atsTokenLocked hspend, fun hclosed => ?_⟩
    rw [hopen] at hclosed
    cases hclosed
  · rename_i hclosed
    obtain rfl := Option.some.inj h
    exact ⟨fun hopen => absurd hopen hclosed, fun _ => by simp [setTask]⟩

theorem presses_of_atsLocked {ats : AtsService} (h : v.atsLocked i at_ ats q spec = some r)
    (hq : q.Releases spec) (hlink : (v.mon.heap ats.snap.comms).state ≠ .lost)
    (hctl : spec.releaseControl.bind ats.regmap.controls.find? = some ctl) :
    Presses v i at_ q ctl r := by
  rw [atsLocked, AtsControlService.gate_of_releases hq hlink hctl] at h
  exact presses_of_acquire h

/-- A release that is let into its critical section is not refused there. -/
theorem presses_of_enters (h : w.step l = some r) (hi : w.entersAts? l = some (i, q))
    (hclock : l.clock = some at_) (hq : q.Releases spec)
    (hrole : roleSatisfies q.role spec.role = true) (hm : w.atsRegmap = some m)
    (hctl : spec.releaseControl.bind m.controls.find? = some ctl)
    (hlink : w.atsComms ≠ some .lost) : Presses w i at_ q ctl r := by
  obtain ⟨ats, hats, rfl⟩ := Option.map_eq_some_iff.mp hm
  have hup : (w.mon.heap ats.snap.comms).state ≠ .lost := by
    simpa [atsComms, hats] using hlink
  cases l with
  | atsExecute q' at_' =>
    obtain rfl := Option.some.inj hclock
    simp only [entersAts?, Option.ite_none_right_eq_some, Option.some.injEq, Prod.mk.injEq] at hi
    obtain ⟨hopen, rfl, rfl⟩ := hi
    obtain ⟨v, hv, h⟩ := Option.bind_eq_some_iff.mp h
    obtain ⟨-, rfl⟩ := spawn_eq_some.mp hv
    simp only [hats, Option.bind_some, atsExecute, hq.spec_eq, hrole, if_true, acquireAts,
      hopen] at h
    obtain ⟨hspends, hwaits⟩ := presses_of_atsLocked h hq hup hctl
    exact ⟨hspends, hwaits⟩
  | wakeAts j at_' =>
    obtain rfl := Option.some.inj hclock
    obtain ⟨v, hv, h⟩ := Option.bind_eq_some_iff.mp h
    obtain ⟨-, rfl⟩ := tick_eq_some.mp hv
    obtain ⟨lock, -, h⟩ := Option.bind_eq_some_iff.mp h
    obtain ⟨ats', hats', h⟩ := Option.bind_eq_some_iff.mp h
    obtain rfl := Option.some.inj (hats.symm.trans hats')
    simp only [entersAts?] at hi
    split at hi
    · rename_i q' htask
      obtain ⟨rfl, rfl⟩ := Prod.mk.inj (Option.some.inj hi)
      simp only [htask, hq.spec_eq, Option.bind_some] at h
      obtain ⟨hspends, hwaits⟩ := presses_of_atsLocked h hq hup hctl
      exact ⟨hspends, hwaits⟩
    · cases hi
  | execute _ _ | ack _ _ | issue _ _ _ _ | reload _ _ _ | wake _ _ _ | returned _ _ _
  | input _ _ => cases hi

theorem tasks_of_step_waiting (h : w.step l = some r) (hnew : w.tasks w.next = .done)
    (hi : (w.tasks i).waiting = true) :
    r.1.tasks i = w.tasks i ∨ (∃ fresh at_, l = .wake i fresh at_) ∨ ∃ at_, l = .wakeAts i at_ := by
  have hborn : i ≠ w.next := by
    rintro rfl
    rw [hnew] at hi
    cases hi
  have hother : ∀ {j}, l.coroutine w.next = some j → i ≠ j → r.1.tasks i = w.tasks i := by
    intro j hj hne
    obtain ⟨t, htasks, -⟩ := (advances_of_step h hj).tasks
    rw [htasks, Function.update_of_ne hne]
  cases l with
  | execute _ _ | atsExecute _ _ | ack _ _ | issue _ _ _ _ | reload _ _ _ =>
    exact Or.inl (hother rfl hborn)
  | wake j fresh at_ =>
    by_cases hj : i = j
    · exact Or.inr (Or.inl ⟨fresh, at_, by rw [hj]⟩)
    · exact Or.inl (hother rfl hj)
  | wakeAts j at_ =>
    by_cases hj : i = j
    · exact Or.inr (Or.inr ⟨at_, by rw [hj]⟩)
    · exact Or.inl (hother rfl hj)
  | returned j error at_ =>
    refine Or.inl (hother rfl ?_)
    rintro rfl
    obtain ⟨v, hv, h⟩ := Option.bind_eq_some_iff.mp h
    obtain ⟨-, rfl⟩ := tick_eq_some.mp hv
    split at h
    · rename_i req ctl htask
      rw [show w.tasks i = .writing req ctl from htask] at hi
      cases hi
    · cases h
  | input j faults =>
    obtain ⟨mon, -, rfl⟩ := Option.map_eq_some_iff.mp h
    exact Or.inl rfl

theorem atsQueued_of_step (h : w.step l = some r) (hnew : w.tasks w.next = .done)
    (hi : w.tasks i = .atsQueued q) :
    w.entersAts? l = some (i, q) ∨ r.1.tasks i = .atsQueued q := by
  rcases tasks_of_step_waiting h hnew (by rw [hi]; rfl) with hsame | ⟨fresh, at_, rfl⟩ | ⟨at_, rfl⟩
  · exact Or.inr (hsame.trans hi)
  · obtain ⟨v, hv, h⟩ := Option.bind_eq_some_iff.mp h
    obtain ⟨-, rfl⟩ := tick_eq_some.mp hv
    obtain ⟨lock, -, h⟩ := Option.bind_eq_some_iff.mp h
    simp only [hi, locked] at h
    cases h
  · exact Or.inl (by simp [entersAts?, hi])

theorem atsToken_of_step (h : w.step l = some r) (hnew : w.tasks w.next = .done)
    (hi : w.tasks i = .atsToken q ctl) :
    r.1.tasks i = .atsToken q ctl ∨ ∃ fresh at_, l = .wake i fresh at_ := by
  rcases tasks_of_step_waiting h hnew (by rw [hi]; rfl) with hsame | hwake | ⟨at_, rfl⟩
  · exact Or.inl (hsame.trans hi)
  · exact Or.inr hwake
  · obtain ⟨v, hv, h⟩ := Option.bind_eq_some_iff.mp h
    obtain ⟨-, rfl⟩ := tick_eq_some.mp hv
    obtain ⟨lock, -, h⟩ := Option.bind_eq_some_iff.mp h
    obtain ⟨ats, -, h⟩ := Option.bind_eq_some_iff.mp h
    simp only [hi] at h
    cases h

theorem arrives_of_step (h : w.step (.atsExecute q at_) = some r) (hq : q.Releases spec)
    (hrole : roleSatisfies q.role spec.role = true) :
    w.entersAts? (.atsExecute q at_) = some (w.next, q) ∨ r.1.tasks w.next = .atsQueued q := by
  cases hopen : w.atsLock.open? with
  | true => exact Or.inl (by simp [entersAts?, hopen])
  | false =>
    obtain ⟨v, hv, h⟩ := Option.bind_eq_some_iff.mp h
    obtain ⟨-, rfl⟩ := spawn_eq_some.mp hv
    obtain ⟨ats, -, h⟩ := Option.bind_eq_some_iff.mp h
    simp only [atsExecute, hq.spec_eq, hrole, if_true, acquireAts, hopen, Bool.false_eq_true,
      if_false, Option.some.injEq] at h
    subst h
    exact Or.inr (by simp [setTask])

/-- Every command that waits for the control lock waits with the control the companion's map has
under its name. -/
structure Bound (m : RegisterMap) (w : World) : Prop where
  regmap : w.atsRegmap = some m
  waiting : ∀ i q ctl, w.tasks i = .atsToken q ctl → ∃ spec,
    atsCommandSpecs q.command = some spec ∧
    (AtsControlService.controlName spec q).bind m.controls.find? = some ctl

theorem AtsPassed.control (h : AtsPassed w q ctl) (hm : w.atsRegmap = some m) :
    ∃ spec, atsCommandSpecs q.command = some spec ∧
      (AtsControlService.controlName spec q).bind m.controls.find? = some ctl := by
  obtain ⟨ats, spec, hats, hspec, hgate⟩ := h
  obtain rfl : ats.regmap = m := by simpa [atsRegmap, hats] using hm
  exact ⟨spec, hspec, AtsControlService.control_of_gate hgate⟩

theorem Bound.step (hb : Bound m w) (h : w.step l = some r) : Bound m r.1 := by
  refine ⟨(atsRegmap_of_step h).trans hb.regmap, fun i q ctl htask => ?_⟩
  cases hl : l.coroutine w.next with
  | none =>
    cases l with
    | input j faults =>
      obtain ⟨mon, -, rfl⟩ := Option.map_eq_some_iff.mp h
      exact hb.waiting i q ctl htask
    | execute _ _ | atsExecute _ _ | ack _ _ | issue _ _ _ _ | reload _ _ _ | wake _ _ _
    | wakeAts _ _ | returned _ _ _ => cases hl
  | some j =>
    obtain ⟨t, htasks, hpassed⟩ := (advances_of_step h hl).tasks
    rw [htasks] at htask
    by_cases hij : i = j
    · rw [hij, Function.update_self] at htask
      exact (hpassed q ctl htask).control hb.regmap
    · rw [Function.update_of_ne hij] at htask
      exact hb.waiting i q ctl htask

theorem control_of_releases (hq : q.Releases spec) {ctl' : ControlDef}
    (hctl : spec.releaseControl.bind m.controls.find? = some ctl)
    (h : ∃ spec, atsCommandSpecs q.command = some spec ∧
      (AtsControlService.controlName spec q).bind m.controls.find? = some ctl') : ctl' = ctl := by
  obtain ⟨spec', hspec, hctl'⟩ := h
  obtain rfl := Option.some.inj (hq.spec_eq.symm.trans hspec)
  rw [AtsControlService.controlName_of_releases hq, hctl] at hctl'
  exact (Option.some.inj hctl').symm

theorem Bound.call_eq (hb : Bound m w) (hq : q.Releases spec)
    (hctl : spec.releaseControl.bind m.controls.find? = some ctl) (h : w.step l = some r)
    {call : WriteCall} (hw : .write i (.atsExecute q) call ∈ r.2) : call = .ofControl ctl := by
  obtain ⟨v, at_, t, ctl', ct, c, he, -, hp, -, rfl, -⟩ := (step_outcome h).writes_of_mem hw
  cases hp with
  | atsExecute =>
    have heq : ctl' = ctl := by
      rcases he.origin with ⟨fresh, rfl, htask⟩ | ⟨-, hseeks⟩
      · exact control_of_releases hq hctl (hb.waiting i q ctl' htask.symm)
      · exact control_of_releases hq hctl ((hseeks.passed q ctl' rfl).control hb.regmap)
    rw [heq]

end Release

end World

namespace Service

/-- What a step does for the release `q`, whose control is `ctl`: nothing turns it away but a lost
link, where it is let into its critical section, and its token. -/
structure BacksOut (s : Service) (l : Label) (s' : Service) (q : AtsRequest) (ctl : ControlDef) :
    Prop where
  arrives : ∀ at_, l = .atsExecute q at_ →
    s.world.entersAts? l = some (s.world.next, q) ∨ s'.world.tasks s.world.next = .atsQueued q
  queued : ∀ i, s.world.tasks i = .atsQueued q →
    s.world.entersAts? l = some (i, q) ∨ s'.world.tasks i = .atsQueued q
  /-- with the control lock free, its token decides at once -/
  enters : ∀ i at_, s.world.entersAts? l = some (i, q) → l.clock = some at_ →
    s.world.atsComms ≠ some .lost → s.world.lock.open? = true →
    s.world.spendable q.token q.operator q.command at_ = true →
    s.Shows l (.write i (.atsExecute q) (.ofControl ctl))
  /-- otherwise it waits for the control lock -/
  waits : ∀ i, s.world.entersAts? l = some (i, q) → s.world.atsComms ≠ some .lost →
    s.world.lock.open? = false → s'.world.tasks i = .atsToken q ctl
  waiting : ∀ i ctl', s.world.tasks i = .atsToken q ctl' → ctl' = ctl ∧
    (s'.world.tasks i = .atsToken q ctl ∨ ∃ fresh at_, l = .wake i fresh at_)
  /-- after the wait its token decides -/
  resumes : ∀ i fresh at_, l = .wake i fresh at_ → s.world.tasks i = .atsToken q ctl →
    s.world.spendable q.token q.operator q.command at_ = true →
    s.Shows l (.write i (.atsExecute q) (.ofControl ctl))
  writes : ∀ i call, s.Shows l (.write i (.atsExecute q) call) → call = .ofControl ctl

variable (m : RegisterMap) (db : Database) (now mono : ℚ) (ls : List Label)

/-- In every run a release gets through to the client with the words of the release control, which
is not the assert control. -/
theorem release_always_possible (atsMap : RegisterMap) (unit : Option ℤ) {q : AtsRequest}
    {spec : AtsCommandSpec} {ctl : ControlDef} (hq : q.Releases spec)
    (hrole : roleSatisfies q.role spec.role = true)
    (hctl : spec.releaseControl.bind atsMap.controls.find? = some ctl) :
    (∀ s l s', Takes step (start m (some (atsMap, unit)) db now mono) ls s l s' →
      s.BacksOut l s' q ctl) ∧ ctl.name ≠ spec.assertControl := by
  refine ⟨fun s l s' ht => ?_, ?_⟩
  · obtain ⟨pre, post, -, hrun, hstep⟩ := ht
    have hnew := ((orderly_of_run hrun).unborn _ le_rfl).1
    have hbound : s.world.Bound atsMap := by
      refine run_invariant (I := fun s => s.world.Bound atsMap) (fun s l s' _ hs hstep => ?_)
        ⟨rfl, fun i q ctl htask => by cases htask⟩ hrun
      obtain ⟨r, hr, rfl⟩ := step_eq_some.mp hstep
      exact hs.step hr
    obtain ⟨r, hr, rfl⟩ := step_eq_some.mp hstep
    refine ⟨?_, fun i hi => World.atsQueued_of_step hr hnew hi, ?_, ?_, ?_, ?_, ?_⟩
    · rintro at_ rfl
      exact World.arrives_of_step hr hq hrole
    · intro i at_ hi hclock hlink hopen hspend
      exact ⟨r, hr, (World.presses_of_enters hr hi hclock hq hrole hbound.regmap hctl hlink).spends
        hopen hspend⟩
    · intro i hi hlink hopen
      obtain ⟨at_, hclock⟩ := World.clock_of_entersAts hi
      exact (World.presses_of_enters hr hi hclock hq hrole hbound.regmap hctl hlink).waits hopen
    · intro i ctl' hi
      obtain rfl := World.control_of_releases hq hctl (hbound.waiting i q ctl' hi)
      exact ⟨rfl, World.atsToken_of_step hr hnew hi⟩
    · rintro i fresh at_ rfl hi hspend
      exact ⟨r, hr, World.write_of_wake hr hi hspend⟩
    · rintro i call ⟨r', hr', hw⟩
      exact hbound.call_eq hq hctl hr' hw
  · obtain ⟨name, hname, hfind⟩ := Option.bind_eq_some_iff.mp hctl
    obtain ⟨-, rfl⟩ := Table.find?_eq_some.mp hfind
    intro heq
    exact AtsControlService.releaseControl_ne_assertControl hq.spec_eq (by rw [hname, heq])

section Example

def inhibitMap : RegisterMap :=
  { companionMap with
    controls := ⟨[⟨"ats_inhibit_assert", 0x0101, 6, 1, []⟩,
      ⟨"ats_inhibit_release", 0x0101, 6, 0, []⟩], by decide⟩ }

def inhibitRelease : AtsRequest := ⟨.inhibit, "T2", "bob", .operator, false, false⟩

/-- A release from a faulted companion waits behind a start, whose write returns. -/
def releaseBehindStart : List Label :=
  [.input (.poll 1 (siteReading 1 1)) [], .input (.atsPoll 1 1 .base (companionReading 1 1)) [],
    .issue "ann" (some .start) "T1" (clockAt 2), .issue "bob" (some .inhibit) "T2" (clockAt 2),
    .execute ⟨.start, "T1", "ann", .operator⟩ (clockAt 2), .atsExecute inhibitRelease (clockAt 2),
    .returned 2 none (clockAt 4)]

theorem faulted_companion_released :
    ∃ s s' ats, Takes step (start siteMap (some (inhibitMap, none)) .empty 0 0)
        (releaseBehindStart ++ [.wake 3 "" (clockAt 4)]) s (.wake 3 "" (clockAt 4)) s' ∧
      s.world.mon.ats = some ats ∧ ats.isAuthoritative s.world.mon.heap = false ∧
      s.Shows (.wake 3 "" (clockAt 4)) (.write 3 (.atsExecute inhibitRelease)
        (.single 0x0101 0)) := by
  obtain ⟨s, s', ht, htest⟩ := takes_of_lastStep step
    (start siteMap (some (inhibitMap, none)) .empty 0 0) releaseBehindStart
    (.wake 3 "" (clockAt 4)) (fun s l _ => s.world.resumed? l = some inhibitRelease &&
      s.world.mon.ats.any fun ats => ats.isAuthoritative s.world.mon.heap = false)
    (by decide +kernel)
  rw [Bool.and_eq_true, decide_eq_true_iff, Option.any_eq_true] at htest
  obtain ⟨hresumed, ats, hats, hauth⟩ := htest
  obtain ⟨i, fresh, at_, ctl, hl, htask, hspend⟩ := World.resumed?_eq_some.mp hresumed
  obtain ⟨rfl, rfl, rfl⟩ := Label.wake.inj hl
  have hq : inhibitRelease.Releases ⟨.maintained, "ats_inhibit_assert",
      some "ats_inhibit_release", .operator, "inhibit transfer"⟩ := ⟨rfl, rfl, rfl⟩
  have hctl : (some "ats_inhibit_release").bind inhibitMap.controls.find? =
      some ⟨"ats_inhibit_release", 0x0101, 6, 0, []⟩ := by decide
  have hback := (release_always_possible siteMap .empty 0 0 _ inhibitMap none hq rfl hctl).1
    s _ s' ht
  obtain ⟨rfl, -⟩ := hback.waiting 3 ctl htask
  exact ⟨s, s', ats, ht, hats, of_decide_eq_true hauth,
    hback.resumes 3 "" (clockAt 4) rfl htask hspend⟩

end Example

end Service

end GenWatch

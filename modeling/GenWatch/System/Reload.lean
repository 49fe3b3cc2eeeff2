import GenWatch.Polling.Editions
import GenWatch.System.Derived

/-! # Commands after a hot reload

A reload swaps the map of the poller and of the state machine in one step, for the lock of
the poller is never held across an await, and then waits for the control lock to swap the
map of the commands. Polls under way go on with the map they captured. The freshness gate
looks at the age of what stands under a name, not at the definition it was decoded by, so
a command may be let through on what the old map has read.
-/

namespace GenWatch

open Handler ServiceM Transition

namespace StateMachine

/-- What every part of an update keeps, but for the last. -/
def KeepsReading (c c' : Ctx StateMachine) : Prop :=
  c'.self.regmap = c.self.regmap ∧ c'.self.snap.lastReading = c.self.snap.lastReading

instance : Std.Refl KeepsReading := ⟨fun _ => ⟨rfl, rfl⟩⟩

instance : IsTrans (Ctx StateMachine) KeepsReading :=
  ⟨fun _ _ _ h h' => ⟨h'.1.trans h.1, h'.2.trans h.2⟩⟩

theorem keepsReading_rules : RoutineRules KeepsReading where
  calls _ := relates_dbCall (fun _ _ => ⟨rfl, rfl⟩) fun _ _ => ⟨rfl, rfl⟩
  emits _ _ := Relates.modify fun _ => ⟨rfl, rfl⟩
  moves _ hf := Relates.modify fun c => ⟨(hf c.self).1, (hf c.self).2.2.2.1⟩

theorem keepsReading_updateLoadSource (env : PollEnv) (reading : Reading) :
    Relates KeepsReading (updateLoadSource env reading) :=
  relates_updateLoadSource (fun _ _ => Relates.modify fun _ => ⟨rfl, rfl⟩)
    (fun _ _ _ => Relates.modify fun _ => ⟨rfl, rfl⟩)
    (fun _ _ _ _ _ => keepsReading_rules.calls _) env reading

/-- The handler keeps the map, and stores the reading exactly when it completes. -/
def Stores (reading : Reading) {α : Type} (x : ServiceM StateMachine α) : Prop :=
  ∀ c, (finalState (x.run c)).self.regmap = c.self.regmap ∧
    (finalState (x.run c)).self.snap.lastReading =
      if completed (x.run c) then reading else c.self.snap.lastReading

theorem Stores.bind {reading : Reading} {α β : Type} {x : ServiceM StateMachine α}
    {g : α → ServiceM StateMachine β} (hx : Relates KeepsReading x)
    (hg : ∀ a, Stores reading (g a)) : Stores reading (x >>= g) := by
  intro c
  have hc := hx c
  rw [EStateM.run_bind]
  cases h : x.run c with
  | ok a c₁ =>
    rw [h] at hc
    have hkept : c₁.self.snap.lastReading = c.self.snap.lastReading := hc.2
    obtain ⟨hmap, hreading⟩ := hg a c₁
    rw [hkept] at hreading
    exact ⟨hmap.trans hc.1, hreading⟩
  | error e c₁ =>
    rw [h] at hc
    exact hc

/-- An update keeps the map, and its reading becomes the snapshot's exactly when it completes. -/
theorem stores_update (env : PollEnv) (reading : Reading) (comms : CommsRef) :
    Stores reading (update env reading comms) := by
  have rules := keepsReading_rules
  refine Stores.bind relates_getSelf fun sm => ?_
  refine Stores.bind (rules.relates_updateEngineState _ _ _) fun _ => ?_
  refine Stores.bind (rules.alarmRules.relates_updateAlarms _ _ _ fun _ _ => ⟨rfl, rfl⟩) fun _ => ?_
  refine Stores.bind (rules.alarmRules.relates_updateNumeric _ _ _) fun _ => ?_
  refine Stores.bind (rules.relates_updateComms _ _) fun _ => ?_
  refine Stores.bind (rules.relates_updatePanelMode _ _) fun _ => ?_
  refine Stores.bind (keepsReading_updateLoadSource _ _) fun _ => ?_
  refine Stores.bind (rules.relates_checkLoadsourceDisagreement _ _) fun _ => ?_
  exact fun c => ⟨rfl, rfl⟩

end StateMachine

namespace Monitor

variable (mon : Monitor) (faults : List Bool) (now : ℚ) (reading : Reading)

/-- No database error cuts the update of the callback short. -/
def completes : Bool :=
  Handler.completed ((StateMachine.update ⟨now, mon.atsView, mon.heap⟩ reading .poller).run
    ⟨mon.stateMachine, mon.db, [], faults⟩)

theorem onPoll_stores :
    (mon.onPoll faults now reading).1.stateMachine.regmap = mon.stateMachine.regmap ∧
    (mon.onPoll faults now reading).1.stateMachine.snap.lastReading =
      if mon.completes faults now reading then reading else mon.stateMachine.snap.lastReading := by
  rw [onPoll, publish_fst]
  exact StateMachine.stores_update _ _ _ _

end Monitor

/-- The map that a coroutine waits to bring to the commands. -/
def Task.map : Task → Option RegisterMap
  | .reloadQueued m _ => some m
  | _ => none

theorem Task.map_of_not_waiting {t : Task} (h : t.waiting = false) : t.map = none := by
  cases t <;> first | rfl | cases h

namespace World

section Maps

variable {w v : World} {l : Label} {i : ℕ} {at_ : Clock} {fresh : String} {t : Task}
  {r : World × List Obs}

theorem regmap_of_consume {token operator : String} {verb : Option Action} {c : ControlCtx}
    {res : EStateM.Result ControlError ControlCtx ConfirmToken}
    (h : (ControlService.consumeTokenLocked token operator verb at_).run v.ctx = res)
    (hc : Handler.finalState res = c) : c.self.regmap = v.control.regmap := by
  obtain ⟨db, ⟨-, hr⟩ | ⟨ct, d, -, -, hr⟩ | ⟨ct, -, -, hr⟩⟩ :=
    ControlService.consumeTokenLocked_cases token operator verb at_ v.ctx
  all_goals
    rw [hr] at h
    subst h hc
    rfl

theorem Section.regmap (h : Section v i at_ t r) (ht : t.map = none) :
    r.1.control.regmap = v.control.regmap := by
  cases h with
  | writes hrun _ hl _ | acks hrun _ hl _ =>
    rw [hl.control]
    exact regmap_of_consume hrun rfl
  | refused hrun hl _ =>
    rw [hl.control]
    exact regmap_of_consume hrun rfl
  | issued hrun _ hl _ =>
    obtain ⟨db, hrun'⟩ := ControlService.issueToken_run _ _ _ at_ v.ctx
    rw [hrun'] at hrun
    cases hrun
    rw [hl.control]
    rfl
  | denied _ _ _ hl _ => rw [hl.control]
  | reloaded htask _ _ =>
    rw [htask] at ht
    cases ht

theorem locked_regmap (h : v.locked i at_ fresh t = some r) :
    r.1.control.regmap = t.map.getD v.control.regmap := by
  cases hmap : t.map with
  | none => exact (locked_section h).regmap hmap
  | some m =>
    cases t with
    | reloadQueued m' operator =>
      cases hmap
      cases h
      rfl
    | _ => cases hmap

/-- No coroutine has begun to wait with a map. -/
def NoneQueued (v : World) (r : World × List Obs) : Prop :=
  ∀ i m operator, r.1.tasks i = .reloadQueued m operator → v.tasks i = .reloadQueued m operator

theorem noneQueued_update {u : World} {os : List Obs}
    (htasks : u.tasks = Function.update v.tasks i t) (ht : t.map = none) :
    NoneQueued v (u, os) := by
  dsimp only [NoneQueued]
  rw [htasks]
  refine (Function.forall_update_iff v.tasks fun j t => ∀ m operator,
    t = .reloadQueued m operator → v.tasks j = .reloadQueued m operator).mpr ⟨?_, ?_⟩
  · rintro m operator rfl
    cases ht
  · exact fun _ _ _ _ hj => hj

theorem noneQueued_locked (h : v.locked i at_ fresh t = some r) : NoneQueued v r := by
  obtain ⟨t', hwait, htasks, -⟩ := (locked_section h).tasks
  exact noneQueued_update htasks (Task.map_of_not_waiting hwait)

/-- The commands have the map they had, and no coroutine has begun to wait with another. -/
structure Plain (v : World) (r : World × List Obs) : Prop where
  regmap : r.1.control.regmap = v.control.regmap
  queued : NoneQueued v r

theorem plain_update {u : World} {os : List Obs} (hmap : u.control.regmap = v.control.regmap)
    (htasks : u.tasks = Function.update v.tasks i t) (ht : t.map = none) : Plain v (u, os) :=
  ⟨hmap, noneQueued_update htasks ht⟩

theorem plain_locked (h : v.locked i at_ fresh t = some r) (ht : t.map = none) : Plain v r :=
  ⟨by rw [locked_regmap h, ht]; rfl, noneQueued_locked h⟩

theorem Plain.congr (h : Plain v r) (hmap : v.control.regmap = w.control.regmap)
    (htasks : v.tasks = w.tasks) : Plain w r :=
  ⟨h.regmap.trans hmap, fun i m operator hi => htasks ▸ h.queued i m operator hi⟩

theorem plain_acquire (h : v.acquire i at_ fresh t = some r) (ht : t.map = none) : Plain v r := by
  unfold acquire at h
  split at h
  · exact (plain_locked h ht).congr rfl rfl
  · obtain rfl := Option.some.inj h
    exact plain_update rfl rfl ht

theorem plain_atsLocked {ats : AtsService} {q : AtsRequest} {spec : AtsCommandSpec}
    (h : v.atsLocked i at_ ats q spec = some r) : Plain v r := by
  unfold atsLocked at h
  split at h
  · obtain rfl := Option.some.inj h
    exact plain_update rfl rfl rfl
  · exact plain_acquire h rfl

theorem plain_execute {q : ControlRequest} (h : v.execute i at_ q = some r) : Plain v r := by
  unfold execute at h
  split at h
  · obtain rfl := Option.some.inj h
    exact plain_update rfl rfl rfl
  split at h
  · obtain rfl := Option.some.inj h
    exact plain_update rfl rfl rfl
  · exact plain_acquire h rfl

theorem plain_atsExecute {ats : AtsService} {q : AtsRequest}
    (h : v.atsExecute i at_ ats q = some r) : Plain v r := by
  unfold atsExecute at h
  split at h
  · obtain rfl := Option.some.inj h
    exact plain_update rfl rfl rfl
  split at h
  · unfold acquireAts at h
    split at h
    · exact (plain_atsLocked h).congr rfl rfl
    · obtain rfl := Option.some.inj h
      exact plain_update rfl rfl rfl
  · obtain rfl := Option.some.inj h
    exact plain_update rfl rfl rfl

theorem plain_ack {q : AckRequest} (h : v.ack i at_ q = some r) : Plain v r := by
  unfold ack at h
  split at h
  · split at h
    · obtain rfl := Option.some.inj h
      exact plain_update rfl rfl rfl
    · exact plain_acquire h rfl
  · obtain rfl := Option.some.inj h
    exact plain_update rfl rfl rfl

theorem plain_returned {req : Request} {ctl : ControlDef} {error : Option String} :
    Plain v (v.returned i at_ req ctl error) := by
  unfold returned
  cases req with
  | execute q => exact plain_update rfl rfl rfl
  | atsExecute q =>
    cases error with
    | none => exact plain_update rfl rfl rfl
    | some e => exact plain_update rfl rfl rfl
  | ack q => exact plain_update rfl rfl rfl

theorem Plain.of_spawn (h : Plain v r) (hv : w.spawn at_ = some v) : Plain w r := by
  obtain ⟨-, rfl⟩ := spawn_eq_some.mp hv
  exact h.congr rfl rfl

theorem Plain.of_tick (h : Plain v r) (hv : w.tick at_ = some v) : Plain w r := by
  obtain ⟨-, rfl⟩ := tick_eq_some.mp hv
  exact h.congr rfl rfl

theorem step_plain (h : w.step l = some r) (hl : l.reloads = false)
    (hwake : ∀ i fresh at_, l ≠ .wake i fresh at_) : Plain w r := by
  cases l with
  | execute q at_ =>
    obtain ⟨v, hv, h⟩ := Option.bind_eq_some_iff.mp h
    exact (plain_execute h).of_spawn hv
  | atsExecute q at_ =>
    obtain ⟨v, hv, h⟩ := Option.bind_eq_some_iff.mp h
    obtain ⟨ats, -, h⟩ := Option.bind_eq_some_iff.mp h
    exact (plain_atsExecute h).of_spawn hv
  | ack q at_ =>
    obtain ⟨v, hv, h⟩ := Option.bind_eq_some_iff.mp h
    exact (plain_ack h).of_spawn hv
  | issue operator verb fresh at_ =>
    obtain ⟨v, hv, h⟩ := Option.bind_eq_some_iff.mp h
    exact (plain_acquire h rfl).of_spawn hv
  | reload m operator at_ => cases hl
  | wake i fresh at_ => exact absurd rfl (hwake i fresh at_)
  | wakeAts i at_ =>
    obtain ⟨v, hv, h⟩ := Option.bind_eq_some_iff.mp h
    obtain ⟨lock, -, h⟩ := Option.bind_eq_some_iff.mp h
    obtain ⟨ats, -, h⟩ := Option.bind_eq_some_iff.mp h
    split at h
    · obtain ⟨spec, -, h⟩ := Option.bind_eq_some_iff.mp h
      have hplain : Plain v r := (plain_atsLocked h).congr rfl rfl
      exact hplain.of_tick hv
    · cases h
  | returned i error at_ =>
    obtain ⟨v, hv, h⟩ := Option.bind_eq_some_iff.mp h
    split at h
    · obtain rfl := Option.some.inj h
      exact plain_returned.of_tick hv
    · cases h
  | input i faults =>
    obtain ⟨r, -, rfl⟩ := Option.map_eq_some_iff.mp h
    exact ⟨rfl, fun _ _ _ hi => hi⟩

theorem step_wake {fresh : String} (h : w.step (.wake i fresh at_) = some r) :
    r.1.control.regmap = (w.tasks i).map.getD w.control.regmap ∧ NoneQueued w r := by
  obtain ⟨v, hv, h⟩ := Option.bind_eq_some_iff.mp h
  obtain ⟨-, rfl⟩ := tick_eq_some.mp hv
  obtain ⟨lock, -, h⟩ := Option.bind_eq_some_iff.mp h
  have hmap := locked_regmap h
  have hqueued := noneQueued_locked h
  exact ⟨hmap, hqueued⟩

theorem step_reload {m : RegisterMap} {operator : String}
    (h : w.step (.reload m operator at_) = some r) :
    (w.lock.open? = true ∧ r.1.control.regmap = m ∧ NoneQueued w r) ∨
    (w.lock.open? = false ∧ r.1.control.regmap = w.control.regmap ∧
      r.1.tasks = Function.update w.tasks w.next (.reloadQueued m operator)) := by
  obtain ⟨v, hv, h⟩ := Option.bind_eq_some_iff.mp h
  obtain ⟨-, rfl⟩ := spawn_eq_some.mp hv
  unfold reload acquire at h
  split at h
  · rename_i hopen
    have hmap := locked_regmap h
    have hqueued := noneQueued_locked h
    exact Or.inl ⟨hopen, hmap, hqueued⟩
  · rename_i hopen
    obtain rfl := Option.some.inj h
    exact Or.inr ⟨Bool.eq_false_iff.mpr hopen, rfl, rfl⟩

end Maps

/-- The poller's record and the clock are those of the loops. -/
def follow (w : World) (p : Turnover) : World :=
  { w with mono := p.clock, mon := { w.mon with poller := p.loops.poller.link } }

end World

def Input.link : Input → Link
  | .record link _ _ _ _ | .watchdog link _ | .primeGood link _ => link
  | .poll _ _ => .h100
  | .atsPoll _ _ _ _ => .ats

/-- An update that was run to its end: the edition and the map that it ran under, its reading, and
the last decodes behind that reading. -/
structure Applied where
  edition : ℕ
  regmap : RegisterMap
  reading : Reading
  origin : String → Option Decode

/-- In the reading of the update every register behind the engine state and the panel mode was
decoded at the address and by the type that the map gives it. -/
def Applied.Decodes (u : Applied) (m : RegisterMap) : Prop :=
  ∀ name ∈ ControlService.controlSources m, ∃ reg ∈ m.registers, reg.name = name ∧
    ∃ d v, u.origin name = some d ∧ d.value = some v ∧ u.reading.values name = some v ∧
      d.reg.addr = reg.addr ∧ d.reg.type = reg.type

/-- The service with the loops of its poller. `applied` are the updates that ran to their end, the
last one first, `pending` is the edition that a reload has swapped in, and `loaded` the edition of
the map that the commands use, with zero for the map of the start. -/
structure HotReload where
  world : World
  polls : Turnover
  applied : List Applied
  pending : ℕ → ℕ
  loaded : ℕ

namespace HotReload

/-- What can happen: a step of the poller's loops, or a step of the service. -/
inductive Label where
  | loop (l : PollLoops.Label) (faults : List Bool)
  | service (l : GenWatch.Label)

def start (m : RegisterMap) (ats : Option (RegisterMap × Option ℤ)) (db : Database)
    (now mono : ℚ) : HotReload :=
  ⟨.init m ats db now mono, .start m now mono, [], fun _ => 0, 0⟩

variable (s : HotReload)

/-- After a step of the loops the callback that it enters, if any, updates the state machine. -/
def onLoop (p : Turnover) (faults : List Bool) : Option Callback → HotReload × List Obs
  | none => ({ s with world := s.world.follow p, polls := p }, [])
  | some cb =>
    let w := s.world.follow p
    ({ s with
      world := { w with mon := (w.mon.onPoll faults cb.now cb.reading).1 }
      polls := p
      applied :=
        if w.mon.completes faults cb.now cb.reading then
          ⟨p.edition, w.mon.stateMachine.regmap, cb.reading, p.origin⟩ :: s.applied
        else s.applied }, [.updated])

/-- The loops after a step of the service, which swaps their map on a reload. The generator's link
has its inputs from the loops. -/
def swapped : GenWatch.Label → Option Turnover
  | .reload m _ _ => s.polls.step (.applyRegmap m)
  | .input i _ => if i.link = .h100 then none else some s.polls
  | _ => some s.polls

/-- The edition that a step of the service brings to the commands. -/
def brings : GenWatch.Label → Option ℕ
  | .reload _ _ _ => if s.world.lock.open? then some (s.polls.edition + 1) else none
  | .wake i _ _ => (s.world.tasks i).map.map fun _ => s.pending i
  | _ => none

/-- The editions that wait for the control lock. -/
def queues : GenWatch.Label → ℕ → ℕ
  | .reload _ _ _ =>
    if s.world.lock.open? then s.pending
    else Function.update s.pending s.world.next (s.polls.edition + 1)
  | _ => s.pending

def served (l : GenWatch.Label) (p : Turnover) (w : World) : HotReload :=
  let p := { p with clock := max p.clock w.mono }
  ⟨w.follow p, p, s.applied, s.queues l, (s.brings l).getD s.loaded⟩

def advance : Label → Option (HotReload × List Obs)
  | .loop l faults =>
    if l.isSwap then none else (s.polls.advance l).map fun r => s.onLoop r.1 faults r.2
  | .service l =>
    (s.swapped l).bind fun p => (s.world.step l).map fun r => (s.served l p r.1, r.2)

def step (l : Label) : Option HotReload := (s.advance l).map Prod.fst

/-- The step under the label shows the observation. -/
def Shows (l : Label) (o : Obs) : Prop := ∃ r, s.advance l = some r ∧ o ∈ r.2

instance (l : Label) (o : Obs) : Decidable (s.Shows l o) :=
  decidable_of_iff ((s.advance l).any fun r => o ∈ r.2) (by simp [Shows, Option.any_eq_true])

/-- An update since the swap has run to its end under the commands' map, over a reading in which
the registers behind the gates were decoded as that map has them. -/
def Informed : Prop :=
  ∃ u ∈ s.applied, u.edition = s.loaded ∧ u.regmap = s.world.control.regmap ∧
    u.Decodes s.world.control.regmap

/-- No other map has been swapped in since, an update has run to its end, and as of the last one
every register behind the gates was decoded last by a poll that began after the swap, or by one
whose map had it at the same address and with the same type. -/
def Renewed : Prop :=
  s.loaded = s.polls.edition ∧ ∃ u ∈ s.applied.head?, u.edition = s.polls.edition ∧
    ∀ name ∈ ControlService.controlSources s.world.control.regmap, ∀ d ∈ u.origin name,
      d.edition = s.polls.edition ∨ ∃ reg ∈ s.world.control.regmap.registers, reg.name = name ∧
        d.reg.addr = reg.addr ∧ d.reg.type = reg.type

section Applied

variable {u : Applied} {p p' : Turnover}

/-- The update was applied over the loops up to `p`. -/
structure Over (u : Applied) (p : Turnover) : Prop where
  edition : u.edition ≤ p.edition
  regmap : u.edition = p.edition → u.regmap = p.regmap
  entries : ∀ name, u.reading.entry name = (none, none) ∨ ∃ d v, u.origin name = some d ∧
    d.value = some v ∧ u.reading.entry name = (some v, some d.done.mono)
  origins : ∀ name d, u.origin name = some d → d.reg.name = name ∧ d.edition ≤ p.edition ∧
    (d.edition = p.edition → d.reg ∈ p.regmap.registers)

theorem over_now (h : p.Traced) : Over ⟨p.edition, p.regmap, p.reading, p.origin⟩ p where
  edition := le_rfl
  regmap _ := rfl
  entries := h.entries
  origins name d hd := by
    obtain ⟨hname, hle, hreg⟩ := h.origins name d hd
    exact ⟨hname, hle, fun he => (hreg he).1⟩

theorem Over.same (h : Over u p) (hmap : p'.regmap = p.regmap) (he : p'.edition = p.edition) :
    Over u p' where
  edition := he ▸ h.edition
  regmap := by
    rw [he, hmap]
    exact h.regmap
  entries := h.entries
  origins := by
    rw [he, hmap]
    exact h.origins

theorem Over.swap (h : Over u p) (he : p'.edition = p.edition + 1) : Over u p' where
  edition := by
    have hle := h.edition
    omega
  regmap heq := by
    have hle := h.edition
    omega
  entries := h.entries
  origins name d hd := by
    obtain ⟨hname, hle, -⟩ := h.origins name d hd
    exact ⟨hname, by omega, fun heq => by omega⟩

end Applied

structure Consistent (s : HotReload) : Prop where
  traced : s.polls.Traced
  machine : s.world.mon.stateMachine.regmap = s.polls.regmap
  stored : s.world.snap.lastReading = (s.applied.head?.map Applied.reading).getD .empty
  updates : ∀ u ∈ s.applied, Over u s.polls
  commands : s.loaded ≤ s.polls.edition ∧
    (s.loaded = s.polls.edition → s.world.control.regmap = s.polls.regmap)
  queued : ∀ i m operator, s.world.tasks i = .reloadQueued m operator →
    s.pending i ≤ s.polls.edition ∧ (s.pending i = s.polls.edition → m = s.polls.regmap)

theorem consistent_start {m : RegisterMap} (hm : m.Accepted)
    (ats : Option (RegisterMap × Option ℤ)) (db : Database) (now mono : ℚ) :
    (start m ats db now mono).Consistent where
  traced := Turnover.traced_start hm now mono
  machine := rfl
  stored := rfl
  updates _ h := by cases h
  commands := ⟨le_rfl, fun _ => rfl⟩
  queued _ _ _ h := by cases h

section Step

variable {s} {s' : HotReload} {r : HotReload × List Obs}

theorem Consistent.loop (h : s.Consistent) {l : PollLoops.Label} {faults : List Bool}
    {p : Turnover} {cb : Option Callback} (hl : l.isSwap = false)
    (hp : s.polls.advance l = some (p, cb)) : (s.onLoop p faults cb).1.Consistent := by
  obtain ⟨hmap, he, hcb⟩ := Turnover.unswapped_of_advance hp hl
  have htraced : p.Traced := h.traced.step hp
  have hupdates : ∀ u ∈ s.applied, Over u p := fun u hu => (h.updates u hu).same hmap he
  have hcommands : s.loaded ≤ p.edition ∧ (s.loaded = p.edition →
      s.world.control.regmap = p.regmap) := by
    rw [hmap, he]
    exact h.commands
  have hqueued : ∀ i m operator, s.world.tasks i = .reloadQueued m operator →
      s.pending i ≤ p.edition ∧ (s.pending i = p.edition → m = p.regmap) := by
    rw [hmap, he]
    exact h.queued
  cases cb with
  | none => exact ⟨htraced, h.machine.trans hmap.symm, h.stored, hupdates, hcommands, hqueued⟩
  | some cb =>
    obtain ⟨hregmap, hreading⟩ := (s.world.follow p).mon.onPoll_stores faults cb.now cb.reading
    have hmachine : (s.world.follow p).mon.stateMachine.regmap = p.regmap :=
      h.machine.trans hmap.symm
    refine ⟨htraced, hregmap.trans hmachine, ?_, ?_, hcommands, hqueued⟩
    · refine hreading.trans ?_
      simp only [onLoop]
      split
      · rfl
      · exact h.stored
    · intro u hu
      simp only [onLoop] at hu
      split at hu
      · rcases List.mem_cons.mp hu with rfl | hu
        · rw [hmachine, hcb cb rfl]
          exact over_now htraced
        · exact hupdates u hu
      · exact hupdates u hu

theorem machine_of_service {l : GenWatch.Label} {w : World × List Obs} (hl : l.reloads = false)
    (hp : (s.swapped l).isSome) (hw : s.world.step l = some w) :
    w.1.mon.stateMachine = s.world.mon.stateMachine := by
  cases l with
  | input i faults =>
    obtain ⟨⟨mon, es⟩, hstep, rfl⟩ := Option.map_eq_some_iff.mp hw
    rcases Monitor.step_cases hstep with ⟨now, reading, rfl, -⟩ |
      ⟨now, mono, tier, reading, ats, rfl, -, hats⟩ | ⟨-, hmachine, -⟩
    · cases hp
    · obtain rfl : mon = _ := congrArg Prod.fst hats.symm
      rw [Monitor.onAtsPoll, Monitor.publish_fst]
    · exact hmachine
  | reload m operator at_ => cases hl
  | execute | atsExecute | ack | issue | wake | wakeAts | returned =>
    exact (World.step_outcome hw).machine rfl rfl

section Service

variable {l : GenWatch.Label} {p : Turnover} {w : World × List Obs} (h : s.Consistent)

include h

theorem Consistent.reload {m : RegisterMap} {operator : String} {at_ : Clock}
    (hp : s.polls.step (.applyRegmap m) = some p)
    (hw : s.world.step (.reload m operator at_) = some w) :
    (s.served (.reload m operator at_) p w.1).Consistent := by
  obtain ⟨hmap, he⟩ := Turnover.swapped_of_step hp
  obtain ⟨cb, hadvance⟩ := Turnover.step_eq_some hp
  have hmachine := World.step_reload_machine hw
  refine ⟨(h.traced.step hadvance).withClock (le_max_left _ _), ?_, ?_, ?_, ?_, ?_⟩
  · exact (congrArg StateMachine.regmap hmachine).trans hmap.symm
  · exact (congrArg (fun sm => sm.snap.lastReading) hmachine).trans h.stored
  · exact fun u hu => ((h.updates u hu).swap he).same rfl rfl
  · obtain ⟨hle, -⟩ := h.commands
    have hnext : s.loaded ≤ p.edition ∧ s.loaded ≠ p.edition := by omega
    rcases World.step_reload hw with ⟨hopen, hcontrol, -⟩ | ⟨hopen, -, -⟩
    · simp only [served, brings, hopen, if_true, Option.getD_some]
      exact ⟨he.ge, fun _ => hcontrol.trans hmap.symm⟩
    · simp only [served, brings, hopen, Bool.false_eq_true, if_false, Option.getD_none]
      exact ⟨hnext.1, fun heq => absurd heq hnext.2⟩
  · intro i m' operator' hi
    have old : ∀ {i m operator}, s.world.tasks i = .reloadQueued m operator →
        s.pending i ≤ p.edition ∧ (s.pending i = p.edition → m = p.regmap) := by
      intro i m operator hi
      obtain ⟨hle, -⟩ := h.queued i m operator hi
      exact ⟨by omega, fun heq => by omega⟩
    rcases World.step_reload hw with ⟨hopen, -, hqueued⟩ | ⟨hopen, -, htasks⟩
    · simp only [served, queues, hopen, if_true]
      exact old (hqueued i m' operator' hi)
    · simp only [served, queues, hopen, Bool.false_eq_true, if_false]
      have hi' : Function.update s.world.tasks s.world.next (.reloadQueued m operator) i =
          .reloadQueued m' operator' := htasks ▸ hi
      by_cases hnew : i = s.world.next
      · subst hnew
        rw [Function.update_self] at hi' ⊢
        cases hi'
        exact ⟨he.ge, fun _ => hmap.symm⟩
      · rw [Function.update_of_ne hnew] at hi' ⊢
        exact old hi'

theorem Consistent.served_same (hl : l.reloads = false) (hp : s.swapped l = some s.polls)
    (hw : s.world.step l = some w) (hqueued : World.NoneQueued s.world w)
    (hcommands : (s.brings l).getD s.loaded ≤ s.polls.edition ∧
      ((s.brings l).getD s.loaded = s.polls.edition →
        w.1.control.regmap = s.polls.regmap)) :
    (s.served l s.polls w.1).Consistent := by
  have hmachine := machine_of_service hl (by rw [hp]; rfl) hw
  have hpending : s.queues l = s.pending := by cases l <;> first | rfl | cases hl
  refine ⟨h.traced.withClock (le_max_left _ _), ?_, ?_, ?_, hcommands, ?_⟩
  · exact (congrArg StateMachine.regmap hmachine).trans h.machine
  · exact (congrArg (fun sm => sm.snap.lastReading) hmachine).trans h.stored
  · exact fun u hu => (h.updates u hu).same rfl rfl
  · intro i m operator hi
    rw [served, hpending]
    exact h.queued i m operator (hqueued i m operator hi)

theorem Consistent.wake {i : ℕ} {fresh : String} {at_ : Clock}
    (hw : s.world.step (.wake i fresh at_) = some w) :
    (s.served (.wake i fresh at_) s.polls w.1).Consistent := by
  obtain ⟨hcontrol, hqueued⟩ := World.step_wake hw
  refine h.served_same rfl rfl hw hqueued ?_
  rw [hcontrol, brings]
  cases htask : s.world.tasks i with
  | reloadQueued m operator => exact h.queued i m operator htask
  | _ => exact h.commands

theorem Consistent.service (hp : s.swapped l = some p) (hw : s.world.step l = some w) :
    (s.served l p w.1).Consistent := by
  have plain : l.reloads = false → (∀ i fresh at_, l ≠ .wake i fresh at_) → p = s.polls →
      s.brings l = none → (s.served l p w.1).Consistent := by
    rintro hl hwake rfl hbrings
    have hplain := World.step_plain hw hl hwake
    refine h.served_same hl hp hw hplain.queued ?_
    rw [hbrings, hplain.regmap]
    exact h.commands
  cases l with
  | reload m operator at_ => exact h.reload hp hw
  | wake i fresh at_ =>
    obtain rfl := Option.some.inj hp
    exact h.wake hw
  | input i faults =>
    simp only [swapped] at hp
    split at hp
    · cases hp
    · exact plain rfl (by rintro _ _ _ ⟨⟩) (Option.some.inj hp).symm rfl
  | execute | atsExecute | ack | issue | wakeAts | returned =>
    exact plain rfl (by rintro _ _ _ ⟨⟩) (Option.some.inj hp).symm rfl

end Service

theorem Consistent.step (h : s.Consistent) {l : Label} (hs : s.step l = some s') :
    s'.Consistent := by
  obtain ⟨r, hr, rfl⟩ := Option.map_eq_some_iff.mp hs
  cases l with
  | loop l faults =>
    simp only [advance] at hr
    split at hr
    · cases hr
    · rename_i hl
      obtain ⟨⟨p, cb⟩, hp, rfl⟩ := Option.map_eq_some_iff.mp hr
      exact h.loop (Bool.eq_false_iff.mpr hl) hp
  | service l =>
    obtain ⟨p, hp, hr⟩ := Option.bind_eq_some_iff.mp hr
    obtain ⟨w, hw, rfl⟩ := Option.map_eq_some_iff.mp hr
    exact h.service hp hw

end Step

instance : Decidable s.Renewed := inferInstanceAs (Decidable (_ ∧ _))

section Run

variable {s}

theorem gated_of_shows {l : Label} {i : ℕ} {q : ControlRequest} {call : WriteCall}
    (h : s.Shows l (.write i (.execute q) call)) :
    ∃ at_, Service.Gated s.world at_ q.verb call := by
  obtain ⟨r, hr, hmem⟩ := h
  cases l with
  | loop l faults =>
    simp only [advance] at hr
    split at hr
    · cases hr
    · obtain ⟨⟨p, cb⟩, -, rfl⟩ := Option.map_eq_some_iff.mp hr
      cases cb <;> simp [onLoop] at hmem
  | service l =>
    obtain ⟨p, -, hr⟩ := Option.bind_eq_some_iff.mp hr
    obtain ⟨w, hw, rfl⟩ := Option.map_eq_some_iff.mp hr
    have hshows : Service.Shows ⟨s.world, []⟩ l (.write i (.execute q) call) := ⟨w, hw, hmem⟩
    obtain ⟨at_, -, hgated⟩ := Service.gated_of_shows hshows
    exact ⟨at_, hgated⟩

/-- A command that is let through acts on the reading of the last update that ran to its end. -/
theorem Consistent.fresh (h : s.Consistent) {u : Applied} (hu : u ∈ s.applied.head?) {at_ : Clock}
    {verb : Action} {call : WriteCall} (hg : Service.Gated s.world at_ verb call) {name : String}
    (hname : name ∈ ControlService.controlSources s.world.control.regmap) :
    ∃ d v, u.origin name = some d ∧ d.value = some v ∧ u.reading.values name = some v := by
  obtain ⟨ts, hts, -⟩ := hg.fresh name (ControlService.mem_controlSources.mp hname)
  rw [h.stored, Option.mem_def.mp hu] at hts
  rcases (h.updates u (List.mem_of_mem_head? hu)).entries name with hnone | ⟨d, v, hd, hv, hentry⟩
  · rw [Option.map_some, Option.getD_some, (Prod.mk.inj hnone).2] at hts
    cases hts
  · exact ⟨d, v, hd, hv, (Prod.mk.inj hentry).1⟩

/-- In every interleaving of reloads, polls, updates and requests, a command that writes when no
other map has been swapped in since that of the commands, when an update has run to its end since,
and when as of the last one every register behind its gates was decoded last by a poll begun after
the swap or under the same address and type, comes after an update under that map over a reading in
which all these registers were decoded as the map has them. -/
theorem commands_informed_of_renewed (m : RegisterMap) (hm : m.Accepted)
    (ats : Option (RegisterMap × Option ℤ)) (db : Database) (now mono : ℚ) (ls : List Label) :
    ∀ s l s' i q call, Takes step (start m ats db now mono) ls s l s' →
      s.Shows l (.write i (.execute q) call) → s.Renewed → s.Informed := by
  intro s l s' i q call ht hshows hrenewed
  have h : s.Consistent := ht.reachable.invariant (consistent_start hm ats db now mono)
    fun _ _ _ h hs => h.step hs
  obtain ⟨at_, hgated⟩ := gated_of_shows hshows
  obtain ⟨hloaded, u, hu, he, hlast⟩ := hrenewed
  have hmap : s.world.control.regmap = s.polls.regmap := h.commands.2 hloaded
  have hover := h.updates u (List.mem_of_mem_head? hu)
  refine ⟨u, List.mem_of_mem_head? hu, he.trans hloaded.symm, (hover.regmap he).trans hmap.symm,
    fun name hname => ?_⟩
  obtain ⟨d, v, hd, hvalue, hv⟩ := h.fresh hu hgated hname
  obtain ⟨hdname, -, hreg⟩ := hover.origins name d hd
  rcases hlast name hname d hd with hnew | ⟨reg, hmem, hregname, haddr, htype⟩
  · exact ⟨d.reg, hmap ▸ hreg hnew, hdname, d, v, hd, hvalue, hv, rfl, rfl⟩
  · exact ⟨reg, hmem, hregname, d, v, hd, hvalue, hv, haddr, htype⟩

/-- The site with its status word at another address. -/
def movedMap : RegisterMap :=
  { Service.siteMap with registers := [.plain "status" 10, .plain "key_switch" 1] }

/-- The engine is seen stopped, an operator takes a token for a start, and the status word is
moved. -/
def seenThenMoved : List Label :=
  [.loop (.begin .prime) [], .loop (.returned .prime ⟨some [1, 1], 0⟩ 1 1) [],
    .loop (.callbackDone .prime) [],
    .service (.issue "ann" (some .start) "T1" (Service.clockAt 2)),
    .service (.reload movedMap "ann" (Service.clockAt 2))]

/-- The prime registers are read where the new map has them. -/
def seenAgain : List Label :=
  [.loop (.begin .prime) [], .loop (.returned .prime ⟨some [1], 0⟩ 3 3) [],
    .loop (.returned .prime ⟨some [1], 0⟩ 3 3) []]

def startCommand : Label :=
  .service (.execute ⟨.start, "T1", "ann", .operator⟩ (Service.clockAt 4))

/-- A start after the next prime poll acts on the status word at its new address. -/
theorem start_after_new_poll :
    ∃ s s', Takes step (start Service.siteMap none .empty 0 0)
        (seenThenMoved ++ seenAgain ++ [startCommand]) s startCommand s' ∧
      s.Shows startCommand (.write 2 (.execute ⟨.start, "T1", "ann", .operator⟩)
        (.single 0x0130 1)) ∧ 0 < s.loaded ∧ s.Informed := by
  obtain ⟨s, s', ht, htest⟩ := takes_of_lastStep step (start Service.siteMap none .empty 0 0)
    (seenThenMoved ++ seenAgain) startCommand (fun s l _ => s.Shows l
      (.write 2 (.execute ⟨.start, "T1", "ann", .operator⟩) (.single 0x0130 1)) ∧ 0 < s.loaded ∧
      s.Renewed) (by decide +kernel)
  obtain ⟨hshows, hloaded, hrenewed⟩ := of_decide_eq_true htest
  exact ⟨s, s', ht, hshows, hloaded, commands_informed_of_renewed _ (by decide +kernel) none .empty
    0 0 _ s _ s' 2 _ _ ht hshows hrenewed⟩

/-- A start right after the reload is let through, though no update has run under the new map. -/
theorem start_before_new_poll :
    ∃ s s', Takes step (start Service.siteMap none .empty 0 0) (seenThenMoved ++ [startCommand]) s
        startCommand s' ∧
      s.Shows startCommand (.write 2 (.execute ⟨.start, "T1", "ann", .operator⟩)
        (.single 0x0130 1)) ∧ 0 < s.loaded ∧ ¬s.Informed := by
  obtain ⟨s, s', ht, htest⟩ := takes_of_lastStep step (start Service.siteMap none .empty 0 0)
    seenThenMoved startCommand (fun s l _ => s.Shows l
      (.write 2 (.execute ⟨.start, "T1", "ann", .operator⟩) (.single 0x0130 1)) ∧ 0 < s.loaded ∧
      ∀ u ∈ s.applied, u.edition ≠ s.loaded) (by decide +kernel)
  obtain ⟨hshows, hloaded, hnone⟩ := of_decide_eq_true htest
  refine ⟨s, s', ht, hshows, hloaded, ?_⟩
  rintro ⟨u, hu, he, -⟩
  exact hnone u hu he

end Run

end HotReload

end GenWatch

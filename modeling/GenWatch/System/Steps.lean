import GenWatch.System.World

/-! # The steps of the service

A step lets one coroutine into the control lock and runs it up to its next
suspension point, or it only queues, refuses or ends a coroutine, or it is an input
of the monitoring side. Everything that concerns tokens and all writes happen under
the control lock.
-/

namespace GenWatch

namespace Task

def waiting : Task → Bool
  | .done | .writing _ _ => false
  | _ => true

end Task

namespace Label

def clock : Label → Option Clock
  | .execute _ at_ | .atsExecute _ at_ | .ack _ at_ | .issue _ _ _ at_ | .reload _ _ at_
  | .wake _ _ at_ | .wakeAts _ at_ | .returned _ _ at_ => some at_
  | .input _ _ => none

def reloads : Label → Bool
  | .reload _ _ _ => true
  | _ => false

/-- The coroutine that runs, when `next` is the number of a new one. -/
def coroutine (next : ℕ) : Label → Option ℕ
  | .execute _ _ | .atsExecute _ _ | .ack _ _ | .issue _ _ _ _ | .reload _ _ _ => some next
  | .wake i _ _ | .wakeAts i _ | .returned i _ _ => some i
  | .input _ _ => none

end Label

namespace World

/-- The monitoring side is the same, but for the database and for a register map being swapped. -/
structure Unmoved (w : World) (l : Label) (v : World) : Prop where
  heap : l.reloads = false → v.mon.heap = w.mon.heap
  snap : v.snap = w.snap
  machine : l.reloads = false → v.mon.stateMachine = w.mon.stateMachine

/-- The coroutine `i` is new, or was waiting. -/
def Runs (w v : World) (i : ℕ) : Prop :=
  (i = w.next ∧ v.next = w.next + 1) ∨ ((w.tasks i).waiting = true ∧ v.next = w.next)

/-- Before a transfer-switch command goes for the control lock it has passed its gates. -/
def AtsPassed (w : World) (r : AtsRequest) (ctl : ControlDef) : Prop :=
  ∃ ats spec, w.mon.ats = some ats ∧ atsCommandSpecs r.command = some spec ∧
    AtsControlService.gate ats w.mon.heap spec r = .ok ctl

/-- A coroutine goes for the control lock at once: a command on arrival, or a transfer-switch
command that has passed its gates. -/
structure Seeks (w : World) (l : Label) (at_ : Clock) (t : Task) : Prop where
  waiting : t.waiting = true
  command : ∀ q, t = .queued q → l = .execute q at_ ∧ ControlService.mayControl q.role = true
  passed : ∀ r ctl, t = .atsToken r ctl → AtsPassed w r ctl

/-- In `v` the coroutine `i` is about to run, and nothing else has happened. -/
structure Begins (w : World) (l : Label) (v : World) (i : ℕ) (at_ : Clock) : Prop where
  unmoved : Unmoved w l v
  ats : v.mon.ats = w.mon.ats
  control : v.control = w.control
  tasks : v.tasks = w.tasks
  coroutine : l.coroutine w.next = some i
  clock : l.clock = some at_
  from_ : at_.From w.mono
  mono : v.mono = at_.expiry
  runs : Runs w v i

/-- In `v` the coroutine `i` has just entered the control lock to do what `t` says. -/
structure Enters (w : World) (l : Label) (v : World) (i : ℕ) (at_ : Clock) (t : Task) : Prop
    extends Begins w l v i at_ where
  holder : v.lock.holder = some i
  vacant : w.lock.holder = none
  origin : (∃ fresh, l = .wake i fresh at_ ∧ t = w.tasks i) ∨
    (w.lock.open? = true ∧ Seeks w l at_ t)

inductive Outcome (w : World) (l : Label) : World × List Obs → Prop where
  | enters {v : World} {i : ℕ} {at_ : Clock} {fresh : String} {t : Task} {r : World × List Obs} :
    Enters w l v i at_ t → v.locked i at_ fresh t = some r → Outcome w l r
  | denies {v : World} {i : ℕ} {e : ControlError} :
    Unmoved w l v → v.mon.ats = w.mon.ats → v.control = w.control → v.lock = w.lock →
    v.tasks = Function.update w.tasks i .done → Runs w v i → e.byToken = false →
    Outcome w l (v, [.denied i e])
  | waits {v : World} {i : ℕ} {t : Task} :
    Unmoved w l v → v.mon.ats = w.mon.ats → v.control = w.control →
    v.lock.holder = w.lock.holder → v.tasks = Function.update w.tasks i t → Runs w v i →
    t.waiting = true → Outcome w l (v, [])
  | returns {v : World} {i : ℕ} {req : Request} {ctl : ControlDef} {error : Option ControlError} :
    Unmoved w l v → v.control = w.control →
    (v.lock = w.lock ∨ ∃ r, req = .execute r ∧ v.lock = w.lock.release) →
    v.tasks = Function.update w.tasks i .done → v.next = w.next →
    w.tasks i = .writing req ctl → Outcome w l (v, [.returned i req error])
  | input {i : Input} {faults : List Bool} {r : Monitor × List Event} :
    l = .input i faults → w.mon.step faults i = some r →
    Outcome w l ({ w with mon := r.1 }, if i.callback = some .h100 then [.updated] else [])

section Inversion

variable {w v : World} {l : Label} {i : ℕ} {at_ : Clock} {fresh : String} {t : Task}
  {r : World × List Obs}

theorem tick_eq_some :
    w.tick at_ = some v ↔ at_.From w.mono ∧ { w with mono := at_.expiry } = v := by
  simp [tick]

theorem spawn_eq_some :
    w.spawn at_ = some v ↔
      at_.From w.mono ∧ { w with mono := at_.expiry, next := w.next + 1 } = v := by
  simp only [spawn, Option.map_eq_some_iff, tick_eq_some]
  constructor
  · rintro ⟨u, ⟨hfrom, rfl⟩, rfl⟩
    exact ⟨hfrom, rfl⟩
  · rintro ⟨hfrom, rfl⟩
    exact ⟨_, ⟨hfrom, rfl⟩, rfl⟩

theorem begins_spawn (hco : l.coroutine w.next = some w.next) (hclock : l.clock = some at_)
    (h : w.spawn at_ = some v) : Begins w l v w.next at_ := by
  obtain ⟨hfrom, rfl⟩ := spawn_eq_some.mp h
  exact ⟨⟨fun _ => rfl, rfl, fun _ => rfl⟩, rfl, rfl, rfl, hco, hclock, hfrom, rfl,
    Or.inl ⟨rfl, rfl⟩⟩

theorem begins_tick (hco : l.coroutine w.next = some i) (hclock : l.clock = some at_)
    (h : w.tick at_ = some v) (hi : (w.tasks i).waiting = true) : Begins w l v i at_ := by
  obtain ⟨hfrom, rfl⟩ := tick_eq_some.mp h
  exact ⟨⟨fun _ => rfl, rfl, fun _ => rfl⟩, rfl, rfl, rfl, hco, hclock, hfrom, rfl,
    Or.inr ⟨hi, rfl⟩⟩

theorem begins_reload {m : RegisterMap} {operator : String} (h : w.spawn at_ = some v) :
    Begins w (.reload m operator at_) { v with mon := v.mon.applyRegmap m } w.next at_ := by
  obtain ⟨hfrom, rfl⟩ := spawn_eq_some.mp h
  exact ⟨⟨by rintro ⟨⟩, rfl, by rintro ⟨⟩⟩, rfl, rfl, rfl, rfl, rfl, hfrom, rfl, Or.inl ⟨rfl, rfl⟩⟩

theorem lock_of_spawn (h : w.spawn at_ = some v) : v.lock = w.lock := by
  obtain ⟨-, rfl⟩ := spawn_eq_some.mp h
  rfl

theorem Begins.withLock (hb : Begins w l v i at_) (m : Mutex ℕ) :
    Begins w l { v with lock := m } i at_ :=
  ⟨⟨hb.unmoved.heap, hb.unmoved.snap, hb.unmoved.machine⟩, hb.ats, hb.control, hb.tasks,
    hb.coroutine, hb.clock, hb.from_, hb.mono, hb.runs⟩

theorem Begins.withAtsLock (hb : Begins w l v i at_) (m : Mutex ℕ) :
    Begins w l { v with atsLock := m } i at_ :=
  ⟨⟨hb.unmoved.heap, hb.unmoved.snap, hb.unmoved.machine⟩, hb.ats, hb.control, hb.tasks,
    hb.coroutine, hb.clock, hb.from_, hb.mono, hb.runs⟩

theorem Enters.not_reload {q : ControlRequest} (he : Enters w l v i at_ (.queued q)) :
    l.reloads = false := by
  rcases he.origin with ⟨fresh, rfl, -⟩ | ⟨-, hseeks⟩
  · rfl
  · obtain ⟨rfl, -⟩ := hseeks.command q rfl
    rfl

theorem Begins.outcome_denied (hb : Begins w l v i at_) (hlock : v.lock = w.lock)
    {e : ControlError} (he : e.byToken = false) (db : Database) :
    Outcome w l ((v.setDb db).setTask i .done, [.denied i e]) :=
  .denies ⟨hb.unmoved.heap, hb.unmoved.snap, hb.unmoved.machine⟩ hb.ats hb.control hlock
    (by rw [← hb.tasks]; rfl) hb.runs he

theorem Begins.outcome_acquire (hb : Begins w l v i at_) (hlock : v.lock = w.lock)
    (ht : Seeks w l at_ t) (h : v.acquire i at_ fresh t = some r) : Outcome w l r := by
  have hu := hb.unmoved
  unfold acquire at h
  split at h
  · rename_i hopen
    obtain ⟨hnone, -⟩ := Mutex.open?_iff.mp hopen
    exact .enters ⟨hb.withLock (v.lock.take i), rfl, hlock ▸ hnone, Or.inr ⟨hlock ▸ hopen, ht⟩⟩ h
  · obtain rfl := Option.some.inj h
    have hholder : v.lock.holder = w.lock.holder := congrArg Mutex.holder hlock
    exact .waits ⟨hu.heap, hu.snap, hu.machine⟩ hb.ats hb.control hholder
      (by rw [← hb.tasks]; rfl) hb.runs ht.waiting

theorem Begins.outcome_atsLocked (hb : Begins w l v i at_) (hl : l.reloads = false)
    (hlock : v.lock = w.lock) {ats : AtsService} {req : AtsRequest} {spec : AtsCommandSpec}
    (hats : v.mon.ats = some ats)
    (hspec : atsCommandSpecs req.command = some spec)
    (h : v.atsLocked i at_ ats req spec = some r) : Outcome w l r := by
  unfold atsLocked at h
  split at h
  · rename_i d hgate
    obtain rfl := Option.some.inj h
    exact (hb.withAtsLock v.atsLock.release).outcome_denied hlock
      (AtsControlService.gate_byToken hgate) _
  · rename_i ctl hgate
    refine hb.outcome_acquire hlock ⟨rfl, by rintro _ ⟨⟩, ?_⟩ h
    rintro _ _ ⟨⟩
    exact ⟨ats, spec, hb.ats ▸ hats, hspec, hb.unmoved.heap hl ▸ hgate⟩

theorem Begins.outcome_execute {req : ControlRequest} (hb : Begins w (.execute req at_) v i at_)
    (hlock : v.lock = w.lock) (h : v.execute i at_ req = some r) :
    Outcome w (.execute req at_) r := by
  unfold execute at h
  split at h
  · obtain rfl := Option.some.inj h
    exact hb.outcome_denied hlock rfl _
  rename_i hrole
  split at h
  · obtain rfl := Option.some.inj h
    exact hb.outcome_denied hlock rfl v.mon.db
  · refine hb.outcome_acquire hlock ⟨rfl, ?_, by rintro _ _ ⟨⟩⟩ h
    rintro _ ⟨⟩
    exact ⟨rfl, Bool.not_eq_false _ ▸ hrole⟩

theorem Begins.outcome_ack (hb : Begins w l v i at_) (hlock : v.lock = w.lock)
    {req : AckRequest} (h : v.ack i at_ req = some r) : Outcome w l r := by
  unfold ack at h
  split at h
  · split at h
    · obtain rfl := Option.some.inj h
      exact hb.outcome_denied hlock rfl v.mon.db
    · exact hb.outcome_acquire hlock ⟨rfl, by rintro _ ⟨⟩, by rintro _ _ ⟨⟩⟩ h
  · obtain rfl := Option.some.inj h
    exact hb.outcome_denied hlock rfl v.mon.db

theorem Begins.outcome_atsExecute (hb : Begins w l v i at_) (hl : l.reloads = false)
    (hlock : v.lock = w.lock) {ats : AtsService} {req : AtsRequest} (hats : v.mon.ats = some ats)
    (h : v.atsExecute i at_ ats req = some r) : Outcome w l r := by
  unfold atsExecute at h
  split at h
  · obtain rfl := Option.some.inj h
    exact hb.outcome_denied hlock rfl v.mon.db
  rename_i spec hspec
  split at h
  · unfold acquireAts at h
    split at h
    · exact (hb.withAtsLock (v.atsLock.take i)).outcome_atsLocked hl hlock hats hspec h
    · obtain rfl := Option.some.inj h
      have hu := hb.unmoved
      have hholder : v.lock.holder = w.lock.holder := congrArg Mutex.holder hlock
      exact .waits ⟨hu.heap, hu.snap, hu.machine⟩ hb.ats hb.control hholder
        (by rw [← hb.tasks]; rfl) hb.runs rfl
  · obtain rfl := Option.some.inj h
    exact hb.outcome_denied hlock rfl _

theorem waiting_of_locked (h : v.locked i at_ fresh t = some r) : t.waiting = true := by
  cases t <;> first | rfl | cases h

theorem outcome_returned (hu : Unmoved w l v) (hctl : v.control = w.control)
    (hlock : v.lock = w.lock) (htasks : v.tasks = w.tasks) (hnext : v.next = w.next)
    {req : Request} {ctl : ControlDef}
    (hi : w.tasks i = .writing req ctl) (error : Option String) :
    Outcome w l (v.returned i at_ req ctl error) := by
  have hdone : Function.update v.tasks i .done = Function.update w.tasks i .done := by rw [htasks]
  unfold returned
  cases req with
  | execute q =>
    exact .returns ⟨hu.heap, hu.snap, hu.machine⟩ hctl
      (Or.inr ⟨q, rfl, congrArg Mutex.release hlock⟩) hdone hnext hi
  | atsExecute q =>
    cases error with
    | none => exact .returns ⟨hu.heap, hu.snap, hu.machine⟩ hctl (Or.inl hlock) hdone hnext hi
    | some e => exact .returns ⟨hu.heap, hu.snap, hu.machine⟩ hctl (Or.inl hlock) hdone hnext hi
  | ack q => exact .returns ⟨hu.heap, hu.snap, hu.machine⟩ hctl (Or.inl hlock) hdone hnext hi

/-- What a step can do. -/
theorem step_outcome (h : w.step l = some r) : Outcome w l r := by
  cases l with
  | execute req at_ =>
    obtain ⟨v, hv, h⟩ := Option.bind_eq_some_iff.mp h
    exact (begins_spawn rfl rfl hv).outcome_execute (lock_of_spawn hv) h
  | atsExecute req at_ =>
    obtain ⟨v, hv, h⟩ := Option.bind_eq_some_iff.mp h
    obtain ⟨ats, hats, h⟩ := Option.bind_eq_some_iff.mp h
    exact (begins_spawn rfl rfl hv).outcome_atsExecute rfl (lock_of_spawn hv) hats h
  | ack req at_ =>
    obtain ⟨v, hv, h⟩ := Option.bind_eq_some_iff.mp h
    exact (begins_spawn rfl rfl hv).outcome_ack (lock_of_spawn hv) h
  | issue operator verb fresh at_ =>
    obtain ⟨v, hv, h⟩ := Option.bind_eq_some_iff.mp h
    exact (begins_spawn rfl rfl hv).outcome_acquire (lock_of_spawn hv)
      ⟨rfl, by rintro _ ⟨⟩, by rintro _ _ ⟨⟩⟩ h
  | reload m operator at_ =>
    obtain ⟨v, hv, h⟩ := Option.bind_eq_some_iff.mp h
    have hlock : v.lock = w.lock := lock_of_spawn hv
    have hseeks : Seeks w (.reload m operator at_) at_ (.reloadQueued m operator) :=
      ⟨rfl, by rintro _ ⟨⟩, by rintro _ _ ⟨⟩⟩
    exact (begins_reload hv).outcome_acquire hlock hseeks h
  | wake i fresh at_ =>
    obtain ⟨v, hv, h⟩ := Option.bind_eq_some_iff.mp h
    obtain ⟨lock, hlock, h⟩ := Option.bind_eq_some_iff.mp h
    obtain ⟨hnone, -, hheld⟩ := Mutex.wake?_eq_some.mp hlock
    obtain ⟨-, rfl⟩ := tick_eq_some.mp hv
    have hb := begins_tick (l := .wake i fresh at_) rfl rfl hv (waiting_of_locked h)
    exact .enters ⟨hb.withLock lock, hheld, hnone, Or.inl ⟨fresh, rfl, rfl⟩⟩ h
  | wakeAts i at_ =>
    obtain ⟨v, hv, h⟩ := Option.bind_eq_some_iff.mp h
    obtain ⟨lock, -, h⟩ := Option.bind_eq_some_iff.mp h
    obtain ⟨ats, hats, h⟩ := Option.bind_eq_some_iff.mp h
    have hlock : v.lock = w.lock ∧ v.tasks = w.tasks := by
      obtain ⟨-, rfl⟩ := tick_eq_some.mp hv
      exact ⟨rfl, rfl⟩
    split at h
    · rename_i req hreq
      obtain ⟨spec, hspec, h⟩ := Option.bind_eq_some_iff.mp h
      have hb := begins_tick (l := .wakeAts i at_) rfl rfl hv (by rw [← hlock.2, hreq]; rfl)
      exact (hb.withAtsLock lock).outcome_atsLocked rfl hlock.1 hats hspec h
    · cases h
  | returned i error at_ =>
    obtain ⟨v, hv, h⟩ := Option.bind_eq_some_iff.mp h
    obtain ⟨hfrom, rfl⟩ := tick_eq_some.mp hv
    split at h
    · rename_i req ctl hreq
      obtain rfl := Option.some.inj h
      exact outcome_returned (w := w) (v := { w with mono := at_.expiry })
        ⟨fun _ => rfl, rfl, fun _ => rfl⟩ rfl rfl rfl rfl hreq error
    · cases h
  | input i faults =>
    obtain ⟨r, hr, rfl⟩ := Option.map_eq_some_iff.mp h
    exact .input rfl hr

end Inversion

section Sections

/-- What every critical section leaves behind: the coroutine is at `t`. -/
structure Leaves (v : World) (i : ℕ) (control : ControlService) (t : Task) (u : World) : Prop where
  control : u.control = control
  mon : ∃ db, u.mon = { v.mon with db := db }
  tasks : u.tasks = Function.update v.tasks i t
  next : u.next = v.next
  mono : u.mono = v.mono

/-- The waiting coroutine is that of the request, whose control is the one to write. -/
inductive Pursues (v : World) (at_ : Clock) : Task → Request → ControlDef → Prop where
  | execute {r : ControlRequest} {ctl : ControlDef} {name : String} :
    verbToControl r.verb = some name →
    ControlService.gate v.control.regmap v.snap v.comms r.verb name at_.gate = .ok ctl →
    Pursues v at_ (.queued r) (.execute r) ctl
  | atsExecute {r : AtsRequest} {ctl : ControlDef} :
    Pursues v at_ (.atsToken r ctl) (.atsExecute r) ctl
  | ack {r : AckRequest} {m : RegisterMap} {ctl : ControlDef} :
    m.controls.find? "ack_alarm" = some ctl → Pursues v at_ (.ackQueued r m) (.ack r) ctl

inductive Section (v : World) (i : ℕ) (at_ : Clock) (t : Task) : World × List Obs → Prop where
  | writes {u : World} {req : Request} {ctl : ControlDef} {ct : ConfirmToken} {c : ControlCtx} :
    (ControlService.consumeTokenLocked req.token req.operator (some req.action) at_).run v.ctx =
      .ok ct c →
    Pursues v at_ t req ctl → Leaves v i c.self (.writing req ctl) u →
    u.lock = (match req with | .execute _ => v.lock | _ => v.lock.release) →
    Section v i at_ t (u, tokenObs i c ++ [.write i req (.ofControl ctl)])
  | acks {u : World} {r : AckRequest} {m : RegisterMap} {ct : ConfirmToken} {c : ControlCtx} :
    (ControlService.consumeTokenLocked r.token r.operator (some .ack) at_).run v.ctx = .ok ct c →
    t = .ackQueued r m → Leaves v i c.self .done u → u.lock = v.lock.release →
    Section v i at_ t (u, tokenObs i c)
  | refused {u : World} {req : Request} {e : ControlError} {c : ControlCtx} :
    (ControlService.consumeTokenLocked req.token req.operator (some req.action) at_).run v.ctx =
      .error e c →
    Leaves v i c.self .done u → u.lock = v.lock.release →
    Section v i at_ t (u, tokenObs i c ++ [.denied i e])
  | denied {u : World} {r : ControlRequest} {name : String} {d : Denial} :
    t = .queued r → verbToControl r.verb = some name →
    ControlService.gate v.control.regmap v.snap v.comms r.verb name at_.gate = .error d →
    Leaves v i v.control .done u → u.lock = v.lock.release →
    Section v i at_ t (u, [.denied i d.error])
  | issued {u : World} {operator fresh : String} {verb : Option Action} {ct : ConfirmToken}
    {c : ControlCtx} :
    (ControlService.issueToken operator verb fresh at_).run v.ctx = .ok ct c →
    fresh ∉ (ControlService.unexpired v.control.tokens at_.evict).keys →
    Leaves v i c.self .done u → u.lock = v.lock.release →
    Section v i at_ t (u, tokenObs i c)
  | reloaded {u : World} {m : RegisterMap} {operator : String} :
    t = .reloadQueued m operator → Leaves v i { v.control with regmap := m } .done u →
    u.lock = v.lock.release → Section v i at_ t (u, [])

variable {v : World} {i : ℕ} {at_ : Clock} {fresh : String} {t : Task} {r : World × List Obs}

theorem locked_section (h : v.locked i at_ fresh t = some r) : Section v i at_ t r := by
  cases t with
  | queued q =>
    obtain ⟨name, hname, rfl⟩ := Option.map_eq_some_iff.mp h
    unfold executeLocked
    split
    · rename_i ctl c hrun
      obtain ⟨hgate, ct, hct⟩ := ControlService.executeLocked_ok hrun
      exact @Section.writes _ _ _ _ _ (.execute q) _ _ _ hct (.execute hname hgate)
        ⟨rfl, ⟨_, rfl⟩, rfl, rfl, rfl⟩ rfl
    · rename_i e c hrun
      rcases ControlService.executeLocked_error hrun with
        ⟨d, hgate, rfl, hself, hlog⟩ | ⟨ctl, -, hct⟩
      · have hobs : tokenObs i c = [] := by rw [tokenObs, hlog]; rfl
        rw [hobs]
        exact .denied rfl hname hgate ⟨hself, ⟨_, rfl⟩, rfl, rfl, rfl⟩ rfl
      · exact @Section.refused _ _ _ _ _ (.execute q) _ _ hct ⟨rfl, ⟨_, rfl⟩, rfl, rfl, rfl⟩ rfl
  | atsToken q ctl =>
    obtain rfl := Option.some.inj h
    unfold atsTokenLocked
    split
    · rename_i ct c hct
      exact @Section.writes _ _ _ _ _ (.atsExecute q) _ _ _ hct .atsExecute
        ⟨rfl, ⟨_, rfl⟩, rfl, rfl, rfl⟩ rfl
    · rename_i e c hct
      exact @Section.refused _ _ _ _ _ (.atsExecute q) _ _ hct ⟨rfl, ⟨_, rfl⟩, rfl, rfl, rfl⟩ rfl
  | ackQueued q m =>
    obtain rfl := Option.some.inj h
    unfold ackLocked
    split
    · rename_i ct c hct
      split
      · rename_i ctl hctl
        exact @Section.writes _ _ _ _ _ (.ack q) _ _ _ hct (.ack hctl)
          ⟨rfl, ⟨_, rfl⟩, rfl, rfl, rfl⟩ rfl
      · exact .acks hct rfl ⟨rfl, ⟨_, rfl⟩, rfl, rfl, rfl⟩ rfl
    · rename_i e c hct
      exact @Section.refused _ _ _ _ _ (.ack q) _ _ hct ⟨rfl, ⟨_, rfl⟩, rfl, rfl, rfl⟩ rfl
  | issueQueued operator verb =>
    simp only [locked, issueLocked] at h
    split at h
    · cases h
    rename_i hfresh
    obtain ⟨db, hrun⟩ := ControlService.issueToken_run operator verb fresh at_ v.ctx
    rw [hrun] at h
    obtain rfl := Option.some.inj h
    rw [← ControlService.mem_keys_unexpired] at hfresh
    exact .issued hrun hfresh ⟨rfl, ⟨_, rfl⟩, rfl, rfl, rfl⟩ rfl
  | reloadQueued m operator =>
    obtain rfl := Option.some.inj h
    exact .reloaded rfl ⟨rfl, ⟨_, rfl⟩, rfl, rfl, rfl⟩ rfl
  | done => cases h
  | atsQueued q => cases h
  | writing req ctl => cases h

def spendable (v : World) (token operator : String) (action : Action) (at_ : Clock) : Bool :=
  match (ControlService.unexpired v.control.tokens at_.evict).find? token with
  | none => false
  | some ct => (ControlService.tokenDenial ct operator (some action) at_.expiry).isNone

theorem spendable_iff {token operator : String} {action : Action} :
    v.spendable token operator action at_ = true ↔
      ∃ ct c, (ControlService.consumeTokenLocked token operator (some action) at_).run v.ctx =
        .ok ct c := by
  unfold spendable
  obtain ⟨db, ⟨hf, hr⟩ | ⟨ct, d, hf, hd, hr⟩ | ⟨ct, hf, hd, hr⟩⟩ :=
    ControlService.consumeTokenLocked_cases token operator (some action) at_ v.ctx
  all_goals
    simp only [ctx] at hf
    simp [hf, hr]
  all_goals simp [hd]

theorem Begins.spendable {w : World} {l : Label} (hb : Begins w l v i at_)
    (token operator : String) (action : Action) :
    v.spendable token operator action at_ = w.spendable token operator action at_ := by
  rw [World.spendable, hb.control]
  rfl

end Sections

section Writes

variable {w : World} {l : Label} {r : World × List Obs} {i : ℕ} {req : Request} {call : WriteCall}

/-- The step lets `i` into the control lock for `t`; in `v` it consumes the token of the request
and writes its control. -/
structure Writes (w : World) (l : Label) (r : World × List Obs) (i : ℕ) (req : Request)
    (call : WriteCall) (v : World) (at_ : Clock) (t : Task) (ctl : ControlDef)
    (ct : ConfirmToken) (c : ControlCtx) : Prop where
  enters : Enters w l v i at_ t
  consumes :
    (ControlService.consumeTokenLocked req.token req.operator (some req.action) at_).run v.ctx =
      .ok ct c
  pursues : Pursues v at_ t req ctl
  leaves : Leaves v i c.self (.writing req ctl) r.1
  call_eq : call = .ofControl ctl
  obs : r.2 = tokenObs i c ++ [.write i req call]

/-- A write comes out of a critical section that has consumed the token of its request. -/
theorem Outcome.writes_of_mem (h : Outcome w l r) (hw : .write i req call ∈ r.2) :
    ∃ v at_ t ctl ct c, Writes w l r i req call v at_ t ctl ct c := by
  cases h with
  | @enters v _ at_ _ t _ he hlocked =>
    cases locked_section hlocked with
    | writes hrun hp hl _ =>
      obtain ⟨rfl, rfl, rfl⟩ : i = _ ∧ req = _ ∧ call = _ := by simpa [tokenObs] using hw
      exact ⟨v, at_, t, _, _, _, he, hrun, hp, hl, rfl, rfl⟩
    | acks _ _ _ _ | refused _ _ _ | denied _ _ _ _ _ | issued _ _ _ _ | reloaded _ _ _ =>
      simp [tokenObs] at hw
  | denies _ _ _ _ _ _ _ | waits _ _ _ _ _ _ _ | returns _ _ _ _ _ _ => simp at hw
  | input _ _ => split at hw <;> simp at hw

variable {v : World} {at_ : Clock} {t : Task} {ctl : ControlDef} {ct : ConfirmToken}
  {c : ControlCtx}

theorem Writes.spendable (h : Writes w l r i req call v at_ t ctl ct c) :
    w.spendable req.token req.operator req.action at_ = true :=
  (h.enters.spendable _ _ _).symm.trans (spendable_iff.mpr ⟨ct, c, h.consumes⟩)

end Writes

end World

end GenWatch

import GenWatch.Prelude.Transition
import GenWatch.Alarms.CrossCheck
import GenWatch.Ats.Edges
import GenWatch.Services.Monitor

/-! # Announcements of the load source

The load source follows the companion's position or the telemetry. A change of it is
announced by the update that makes it, unless the companion is authoritative, in which
case the companion's poll is trusted to have announced the same move. Whether it has
depends on what the position did since the load source last changed.
-/

namespace GenWatch

open Handler ServiceM Transition

/-- The source that a `load-source` event reports arrival at. -/
def Event.loadSourceArrival : Event → Option LoadSource
  | .loadSource _ new _ => some new
  | _ => none

/-- The position that an `ats-position` event reports arrival at. -/
def Event.positionArrival : Event → Option LoadSource
  | .atsPosition _ new _ => some new
  | _ => none

namespace StateMachine

variable {β : Type} {sel : Event → Option β}

/-- What a part keeps that announces nothing a selection of events picks. -/
structure Hushed (sel : Event → Option β) (c c' : Ctx StateMachine) : Prop where
  loadSource : c'.self.snap.loadSource = c.self.snap.loadSource
  startedAt : c'.self.snap.loadSourceStartedAt = c.self.snap.loadSourceStartedAt
  emits : c'.emitted.filterMap sel = c.emitted.filterMap sel

instance : Std.Refl (Hushed sel) := ⟨fun _ => ⟨rfl, rfl, rfl⟩⟩

instance : IsTrans (Ctx StateMachine) (Hushed sel) where
  trans _ _ _ h h' := ⟨h'.loadSource.trans h.loadSource, h'.startedAt.trans h.startedAt,
    h'.emits.trans h.emits⟩

theorem hushed_dbCall {α : Type} (op : Database → α × Database) :
    Relates (Hushed sel) (dbCall op : ServiceM StateMachine α) :=
  relates_dbCall (fun _ _ => ⟨rfl, rfl, rfl⟩) fun _ _ => ⟨rfl, rfl, rfl⟩

theorem hushed_modifySelf {f : StateMachine → StateMachine}
    (h : ∀ sm, (f sm).snap.loadSource = sm.snap.loadSource ∧
      (f sm).snap.loadSourceStartedAt = sm.snap.loadSourceStartedAt) :
    Relates (Hushed sel) (modifySelf f) :=
  Relates.modify fun c => ⟨(h c.self).1, (h c.self).2, rfl⟩

theorem hushed_emit {e : Event} (h : sel e = none) :
    Relates (Hushed sel) (emit e : ServiceM StateMachine Unit) :=
  Relates.modify fun c => ⟨rfl, rfl, by simp [h]⟩

theorem hushed_rules (hsel : ∀ e : Event, e.routine = true → sel e = none) :
    RoutineRules (Hushed sel) where
  calls := hushed_dbCall
  emits e he := hushed_emit (hsel e he)
  moves _ hf := hushed_modifySelf fun sm => ⟨(hf sm).2.2.1, (hf sm).2.2.2.2⟩

def atsAuthoritative (ats : Option AtsView) : Bool := (ats.map AtsView.authoritative).getD false

/-- The announcement of a new load source, which an authoritative companion suppresses. -/
def loadSourceEvents (ats : Option AtsView) (old new : LoadSource) (now : ℚ) : List Event :=
  if new ≠ old ∧ atsAuthoritative ats = false then [.loadSource old new now] else []

theorem loadSourceEvents_arrivals (ats : Option AtsView) (old new : LoadSource) (now : ℚ) :
    (loadSourceEvents ats old new now).filterMap Event.loadSourceArrival =
      (if new ≠ old ∧ atsAuthoritative ats = false then [new] else []) ∧
    (loadSourceEvents ats old new now).filterMap Event.positionArrival = [] := by
  rw [loadSourceEvents, apply_ite (List.filterMap _), apply_ite (List.filterMap _)]
  exact ⟨rfl, ite_self _⟩

theorem updateLoadSource_ok {env : PollEnv} {reading : Reading} {c c' : Ctx StateMachine}
    {u : Unit} (h : (updateLoadSource env reading).run c = .ok u c') :
    c'.self.snap.loadSource = deriveLoadSource env.ats reading.values c.self.snap.engineState
      c.self.snap.loadSource ∧
    (c'.self.snap.loadSource ≠ c.self.snap.loadSource →
      c'.self.snap.loadSourceStartedAt = env.now) ∧
    c'.emitted = c.emitted ++ loadSourceEvents env.ats c.self.snap.loadSource
      (deriveLoadSource env.ats reading.values c.self.snap.engineState c.self.snap.loadSource)
      env.now := by
  obtain ⟨sm, c₀, hg, h⟩ := bind_ok.mp h
  obtain ⟨rfl, rfl⟩ := getSelf_ok.mp hg
  dsimp only at h
  generalize deriveLoadSource env.ats reading.values c.self.snap.engineState
    c.self.snap.loadSource = new at h ⊢
  unfold loadSourceEvents atsAuthoritative
  by_cases hne : new ≠ c.self.snap.loadSource
  · rw [if_pos hne] at h
    obtain ⟨c₁, h₁, h⟩ := seq_ok.mp h
    obtain rfl := modifySelf_ok.mp h₁
    cases hauth : (env.ats.map AtsView.authoritative).getD false with
    | true =>
      rw [if_pos hauth] at h
      obtain ⟨-, rfl⟩ := pure_ok.mp h
      simp
    | false =>
      rw [if_neg (by simp [hauth])] at h
      obtain ⟨c₂, h₂, h⟩ := seq_ok.mp h
      obtain rfl := emit_ok.mp h₂
      rw [if_pos ⟨hne, rfl⟩]
      cases hev : loadSourceEvent c.self.snap.loadSource new with
      | none =>
        rw [hev] at h
        obtain ⟨-, rfl⟩ := pure_ok.mp h
        exact ⟨rfl, fun _ => rfl, rfl⟩
      | some entry =>
        rw [hev] at h
        obtain ⟨-, -, rfl⟩ := dbCall_ok.mp h
        exact ⟨rfl, fun _ => rfl, rfl⟩
  · rw [if_neg hne] at h
    obtain ⟨-, rfl⟩ := pure_ok.mp h
    rw [if_neg fun hn => hne hn.1, List.append_nil]
    exact ⟨(not_not.mp hne).symm, fun h => absurd rfl h, rfl⟩

def nextLoadSource (sm : StateMachine) (ats : Option AtsView) (values : Values) : LoadSource :=
  deriveLoadSource ats values (nextEngineState sm.regmap values sm.snap.engineState)
    sm.snap.loadSource

/-- A completed update derives the load source, and announces it in one part alone. -/
theorem update_loadSource {env : PollEnv} {reading : Reading} {comms : CommsRef}
    {c c' : Ctx StateMachine} {u : Unit}
    (hsel : ∀ e : Event, e.routine = true → sel e = none)
    (h : (update env reading comms).run c = .ok u c') :
    c'.self.snap.loadSource = c.self.nextLoadSource env.ats reading.values ∧
    (c'.self.snap.loadSource ≠ c.self.snap.loadSource →
      c'.self.snap.loadSourceStartedAt = env.now) ∧
    c'.emitted.filterMap sel = c.emitted.filterMap sel ++
      (loadSourceEvents env.ats c.self.snap.loadSource
        (c.self.nextLoadSource env.ats reading.values) env.now).filterMap sel := by
  obtain ⟨sm, c₀, hg, h⟩ := bind_ok.mp h
  obtain ⟨rfl, rfl⟩ := getSelf_ok.mp hg
  obtain ⟨c₁, h₁, h⟩ := seq_ok.mp h
  obtain ⟨c₂, h₂, h⟩ := seq_ok.mp h
  obtain ⟨c₃, h₃, h⟩ := seq_ok.mp h
  obtain ⟨c₄, h₄, h⟩ := seq_ok.mp h
  obtain ⟨c₅, h₅, h⟩ := seq_ok.mp h
  obtain ⟨c₆, h₆, h⟩ := seq_ok.mp h
  have rules := hushed_rules hsel
  have before : Hushed sel c c₅ := IsTrans.trans _ _ _
    ((rules.relates_updateEngineState _ _ _).ok h₁) (IsTrans.trans _ _ _
    ((rules.alarmRules.relates_updateAlarms _ _ _ fun _ _ => ⟨rfl, rfl, rfl⟩).ok h₂)
    (IsTrans.trans _ _ _ ((rules.alarmRules.relates_updateNumeric _ _ _).ok h₃)
    (IsTrans.trans _ _ _ ((rules.relates_updateComms _ _).ok h₄)
    ((rules.relates_updatePanelMode _ _).ok h₅))))
  have finish : Relates (Hushed sel) (finishUpdate reading comms) := hushed_modifySelf fun _ =>
    ⟨rfl, rfl⟩
  have after : Hushed sel c₆ c' := (Relates.bind
    (rules.relates_checkLoadsourceDisagreement reading env) fun _ => finish).ok h
  have hstate : c₅.self.snap.engineState =
      nextEngineState c.self.regmap reading.values c.self.snap.engineState := by
    rw [((steady_updatePanelMode _ _).ok h₅).engineState,
      ((steady_updateComms _ _).ok h₄).engineState,
      ((steady_updateNumeric _ _ _).ok h₃).engineState,
      ((steady_updateAlarms _ _ _).ok h₂).engineState, updateEngineState_ok h₁]
  obtain ⟨hnew, hstarted, hemit⟩ := updateLoadSource_ok h₆
  rw [before.loadSource, hstate] at hnew hemit
  rw [before.loadSource] at hstarted
  refine ⟨after.loadSource.trans hnew, ?_, ?_⟩
  · rw [after.loadSource, after.startedAt]
    exact hstarted
  rw [after.emits, hemit, List.filterMap_append, before.emits]
  rfl

end StateMachine

namespace AtsService

theorem positionEvents_arrivals (prev new : LoadSource) (now : ℚ) :
    (positionEvents prev new now).filterMap Event.positionArrival =
      if new ≠ prev ∧ ¬(prev = .unknown ∧ new = .utility) then [new] else [] := by
  rw [positionEvents, apply_ite (List.filterMap _)]
  rfl

theorem maintainedCmdEvents_arrivals (ats : AtsService) (env : AtsPollEnv)
    (prev new : AtsSnapshot) :
    (maintainedCmdEvents ats env prev new).filterMap Event.positionArrival = [] := by
  have hedge : ∀ mono now command was isNow,
      (cmdEdgeEvents ats mono now command was isNow).filterMap Event.positionArrival = [] := by
    intro mono now command was isNow
    rw [cmdEdgeEvents, apply_ite (List.filterMap _)]
    exact ite_self _
  rw [maintainedCmdEvents]
  split
  · rfl
  · rw [List.filterMap_append, hedge, hedge, List.nil_append]

theorem update_snap {env : AtsPollEnv} {reading : Reading} {ref : CommsRef}
    {c c' : Ctx AtsService} {u : Unit} (h : (update env reading ref).run c = .ok u c') :
    c'.self.snap = c.self.nextSnapshot env reading ref := by
  obtain ⟨ats, c₀, hg, h⟩ := bind_ok.mp h
  obtain ⟨rfl, rfl⟩ := getSelf_ok.mp hg
  obtain ⟨c₁, -, h⟩ := seq_ok.mp h
  obtain ⟨c₂, -, h⟩ := seq_ok.mp h
  obtain ⟨c₃, -, h⟩ := seq_ok.mp h
  obtain rfl := modifySelf_ok.mp h
  rfl

end AtsService

/-- The monitoring side with the events of the last input; and, since the load source last
changed, the arrivals that `ats-position` events reported and the moves of the position. -/
structure LoadSourceWatch where
  mon : Monitor
  published : List Event
  announced : List LoadSource
  moves : List (LoadSource × LoadSource)

namespace LoadSourceWatch

open StateMachine

/-- The move of the companion's position between two states. -/
def positionMoves (mon mon' : Monitor) : List (LoadSource × LoadSource) :=
  match mon.ats, mon'.ats with
  | some ats, some ats' =>
    if ats'.snap.position ≠ ats.snap.position then [(ats.snap.position, ats'.snap.position)] else []
  | _, _ => []

def step (w : LoadSourceWatch) (i : Input) : Option LoadSourceWatch :=
  (w.mon.step [] i).map fun r =>
    if r.1.stateMachine.snap.loadSource ≠ w.mon.stateMachine.snap.loadSource then
      ⟨r.1, r.2, [], []⟩
    else
      ⟨r.1, r.2, w.announced ++ r.2.filterMap Event.positionArrival,
        w.moves ++ positionMoves w.mon r.1⟩

def start (m : RegisterMap) (ats : Option (RegisterMap × Option ℤ)) (db : Database) (now : ℚ) :
    LoadSourceWatch :=
  ⟨.init m ats db now, [], [], []⟩

def loadSource (w : LoadSourceWatch) : LoadSource := w.mon.stateMachine.snap.loadSource

/-- The first move to the utility, at boot. -/
def Boot (old new : LoadSource) : Prop := old = .unknown ∧ new = .utility

instance (old new : LoadSource) : Decidable (Boot old new) := inferInstanceAs (Decidable (_ ∧ _))

/-- How often the position moved to a source since the load source last changed, apart from the
first move to the utility. -/
def moved (w : LoadSourceWatch) (new : LoadSource) : ℕ :=
  w.moves.countP fun mv => mv.2 = new ∧ ¬Boot mv.1 mv.2

/-- A change of the load source other than the one at boot is reported by exactly one event: by
the update that makes it, or by the companion since the load source last changed. -/
def AnnouncedOnce (w w' : LoadSourceWatch) : Prop :=
  w'.loadSource ≠ w.loadSource → ¬Boot w.loadSource w'.loadSource →
    (w'.published.filterMap Event.loadSourceArrival).count w'.loadSource +
      w.announced.count w'.loadSource = 1

/-- If an update is about to change the load source, the position has moved to the new one exactly
once since the last change under an authoritative companion, and not at all otherwise. -/
def Matched (w : LoadSourceWatch) (reading : Reading) : Prop :=
  let new := w.mon.stateMachine.nextLoadSource w.mon.atsView reading.values
  new ≠ w.loadSource → ¬Boot w.loadSource new →
    w.moved new = if atsAuthoritative w.mon.atsView then 1 else 0

instance (w : LoadSourceWatch) (reading : Reading) : Decidable (w.Matched reading) :=
  inferInstanceAs (Decidable (_ → _ → _ = _))

/-- The companion reports every move of its position but the first one to the utility. -/
def Tracks (w : LoadSourceWatch) : Prop := ∀ new, w.announced.count new = w.moved new

section Steps

variable {w w' : LoadSourceWatch} {i : Input}

theorem poll_cases {t : ℚ} {reading : Reading} (h : step w (.poll t reading) = some w') :
    w'.loadSource = w.mon.stateMachine.nextLoadSource w.mon.atsView reading.values ∧
    w'.published.filterMap Event.loadSourceArrival =
      (if w'.loadSource ≠ w.loadSource ∧ atsAuthoritative w.mon.atsView = false then
        [w'.loadSource] else []) ∧
    (w'.loadSource = w.loadSource → w'.announced = w.announced ∧ w'.moves = w.moves) ∧
    (w'.loadSource ≠ w.loadSource → w'.announced = [] ∧ w'.moves = []) := by
  obtain ⟨u, c', hok, -⟩ := total_update ⟨t, w.mon.atsView, w.mon.heap⟩ reading .poller
    ⟨w.mon.stateMachine, w.mon.db, [], []⟩ rfl
  have hmon : w.mon.step [] (.poll t reading) =
      some ({ w.mon with stateMachine := c'.self, db := c'.db }, c'.emitted) := by
    rw [Monitor.step, Monitor.onPoll, hok]
    rfl
  have hroutine : ∀ e : Event, e.routine = true →
      e.loadSourceArrival = none ∧ e.positionArrival = none := by
    intro e he
    cases e <;> first | exact ⟨rfl, rfl⟩ | cases he
  obtain ⟨hnew, -, hload⟩ := update_loadSource (fun e he => (hroutine e he).1) hok
  obtain ⟨-, -, hpos⟩ := update_loadSource (fun e he => (hroutine e he).2) hok
  have harrivals := loadSourceEvents_arrivals w.mon.atsView w.loadSource
    (w.mon.stateMachine.nextLoadSource w.mon.atsView reading.values) t
  have hquiet : c'.emitted.filterMap Event.positionArrival = [] := hpos.trans harrivals.2
  have harrival : c'.emitted.filterMap Event.loadSourceArrival =
      if c'.self.snap.loadSource ≠ w.loadSource ∧ atsAuthoritative w.mon.atsView = false then
        [c'.self.snap.loadSource] else [] := by
    rw [hnew]
    exact hload.trans harrivals.1
  have hmoves : positionMoves w.mon { w.mon with stateMachine := c'.self, db := c'.db } = [] := by
    unfold positionMoves
    cases w.mon.ats <;> simp
  obtain ⟨r, hr, rfl⟩ := Option.map_eq_some_iff.mp h
  rw [hmon] at hr
  obtain rfl := Option.some.inj hr
  by_cases hne : c'.self.snap.loadSource ≠ w.mon.stateMachine.snap.loadSource
  · rw [if_pos hne]
    exact ⟨hnew, harrival, fun heq => absurd heq hne, fun _ => ⟨rfl, rfl⟩⟩
  · rw [if_neg hne, hquiet, hmoves, List.append_nil, List.append_nil]
    exact ⟨hnew, harrival, fun _ => ⟨rfl, rfl⟩, fun h => absurd h hne⟩

theorem atsPoll_cases {t mono : ℚ} {tier : RegTier} {reading : Reading}
    (h : step w (.atsPoll t mono tier reading) = some w') :
    ∃ old new, w'.announced = w.announced ++ (if new ≠ old ∧ ¬Boot old new then [new] else []) ∧
      w'.moves = w.moves ++ if new ≠ old then [(old, new)] else [] := by
  obtain ⟨r, hr, rfl⟩ := Option.map_eq_some_iff.mp h
  obtain ⟨svc, hsvc, rfl⟩ := Option.map_eq_some_iff.mp hr
  obtain ⟨u, c', hok, -⟩ := AtsService.total_update ⟨t, mono, tier, w.mon.heap⟩ reading .atsPoller
    ⟨svc, w.mon.db, [], []⟩ rfl
  have hmon : w.mon.onAtsPoll svc [] t mono tier reading =
      ({ w.mon with ats := some c'.self, db := c'.db }, c'.emitted) := by
    rw [Monitor.onAtsPoll, hok]
    rfl
  have hquiet : ∀ e : Event, e.switching = false → e.positionArrival = none := by
    intro e he
    cases e <;> first | rfl | cases he
  have hemit := AtsService.update_emits hquiet hok
  rw [List.filterMap_append, AtsService.positionEvents_arrivals,
    AtsService.maintainedCmdEvents_arrivals, List.append_nil, ← AtsService.update_snap hok] at hemit
  refine ⟨svc.snap.position, c'.self.snap.position, ?_, ?_⟩
  · rw [hmon, if_neg (not_not.mpr rfl)]
    exact congrArg (w.announced ++ ·) hemit
  · rw [hmon, if_neg (not_not.mpr rfl)]
    simp only [positionMoves, hsvc]

theorem health_cases (hcb : i.callback = none) (h : step w i = some w') :
    w'.announced = w.announced ∧ w'.moves = w.moves := by
  obtain ⟨⟨mon', es⟩, hr, rfl⟩ := Option.map_eq_some_iff.mp h
  obtain ⟨t, reading, rfl, -⟩ | ⟨t, mono, tier, reading, svc, rfl, -, -⟩ |
    ⟨-, hsm, hats, -, hes⟩ := Monitor.step_cases hr
  · cases hcb
  · cases hcb
  · have hmoves : positionMoves w.mon mon' = [] := by
      unfold positionMoves
      rw [hats]
      cases w.mon.ats <;> simp
    rw [if_neg (by simp [hsm]), hmoves, hes]
    exact ⟨List.append_nil _, List.append_nil _⟩

theorem Tracks.step (ht : w.Tracks) (h : LoadSourceWatch.step w i = some w') : w'.Tracks := by
  intro b
  have hb := ht b
  unfold moved at hb ⊢
  cases i with
  | poll t reading =>
    obtain ⟨-, -, hsame, hchanged⟩ := poll_cases h
    by_cases hne : w'.loadSource = w.loadSource
    · rw [(hsame hne).1, (hsame hne).2]
      exact hb
    · rw [(hchanged hne).1, (hchanged hne).2]
      rfl
  | atsPoll t mono tier reading =>
    obtain ⟨old, new, ha, hm⟩ := atsPoll_cases h
    rw [ha, hm, List.count_append, List.countP_append, hb]
    congr 1
    by_cases hne : new ≠ old
    · by_cases hboot : Boot old new
      · simp [hne, hboot]
      · simp [hne, hboot, List.count_singleton, List.countP_singleton]
    · simp [not_not.mp hne]
  | _ =>
    obtain ⟨ha, hm⟩ := health_cases rfl h
    rw [ha, hm]
    exact hb

end Steps

/-- In every run without exceptions, a change of the load source other than the one at boot is
reported by exactly one event exactly when the companion's position has moved to the new source
once since the last change if the companion is authoritative, and never otherwise. -/
theorem load_source_announced_once_iff_matched (m : RegisterMap)
    (ats : Option (RegisterMap × Option ℤ)) (db : Database) (now : ℚ) :
    ∀ ls w t reading w', Takes step (start m ats db now) ls w (.poll t reading) w' →
      (w.AnnouncedOnce w' ↔ w.Matched reading) := by
  intro ls w t reading w' h
  have htracks : w.Tracks :=
    h.reachable.invariant (fun _ => rfl) fun _ _ _ ht hstep => ht.step hstep
  obtain ⟨hnew, harrival, -, -⟩ := poll_cases h.step_eq
  unfold AnnouncedOnce Matched
  rw [← hnew]
  refine forall_congr' fun hne => forall_congr' fun _ => ?_
  rw [harrival, htracks]
  cases hauth : atsAuthoritative w.mon.atsView with
  | true => simp
  | false => simp [hne]

/-- An authoritative companion sees the transfer to the generator, then the generator's poller. -/
def transferSeen : List Input :=
  [.record .ats true 10 0 0, .atsPoll 1 1 .base (companionReading (some 0)),
    .poll 2 (deliveringReading 0), .atsPoll 3 3 .prime (companionReading (some 1))]

theorem transfer_announced_by_companion :
    ∃ w w', Takes step (start runningMap (some (.bare, none)) .empty 0)
        (transferSeen ++ [.poll 4 (deliveringReading 20)]) w (.poll 4 (deliveringReading 20)) w' ∧
      w.loadSource = .utility ∧ w'.loadSource = .generator ∧ w.AnnouncedOnce w' := by
  obtain ⟨w, w', ht, htest⟩ := takes_of_lastStep step
    (start runningMap (some (.bare, none)) .empty 0) transferSeen (.poll 4 (deliveringReading 20))
    (fun w _ w' => w.loadSource = .utility ∧ w'.loadSource = .generator ∧
      w.Matched (deliveringReading 20)) (by decide +kernel)
  obtain ⟨hold, hnew, hmatched⟩ := of_decide_eq_true htest
  exact ⟨w, w', ht, hold, hnew,
    (load_source_announced_once_iff_matched _ _ _ _ _ _ _ _ _ ht).mpr hmatched⟩

/-- The companion is authoritative and does not know its position. -/
def positionUnknown : List Input :=
  [.record .ats true 10 0 0, .atsPoll 1 1 .base (companionReading none),
    .poll 2 (deliveringReading 0)]

/-- The load source then follows the telemetry to the generator, and nothing reports it. -/
theorem inferred_transfer_unannounced :
    ∃ w w', Takes step (start runningMap (some (.bare, none)) .empty 0)
        (positionUnknown ++ [.poll 3 (deliveringReading 20)]) w
        (.poll 3 (deliveringReading 20)) w' ∧
      w.loadSource = .utility ∧ w'.loadSource = .generator ∧ w.announced = [] ∧
      w'.published = [] ∧ ¬w.AnnouncedOnce w' := by
  obtain ⟨w, w', ht, htest⟩ := takes_of_lastStep step
    (start runningMap (some (.bare, none)) .empty 0) positionUnknown
    (.poll 3 (deliveringReading 20))
    (fun w _ w' => w.loadSource = .utility ∧ w'.loadSource = .generator ∧ w.announced = [] ∧
      w'.published = []) (by decide +kernel)
  obtain ⟨hold, hnew, hannounced, hpublished⟩ := of_decide_eq_true htest
  refine ⟨w, w', ht, hold, hnew, hannounced, hpublished, fun honce => ?_⟩
  have hcount := honce (by rw [hold, hnew]; decide) (by rw [hold, hnew]; decide)
  rw [hannounced, hpublished] at hcount
  simp at hcount

end LoadSourceWatch

end GenWatch

import Mathlib.Data.List.Chain
import GenWatch.Services.AfterState
import GenWatch.History.Starts

/-! # Transfers to the generator

The controller does not say when the load was on the generator, so the log is asked when the
engine entered the running state: how often in the last thirty days, and when last. The log
forgets such rows when they are older than it keeps events.
-/

namespace GenWatch

open Handler ServiceM Transition

/-- The text of a change of state says that the engine runs, or seems to. -/
def readsRunning (old new : EngineState) : Bool :=
  Sql.likeInfix "→ running" (transitionText old new)

/-- `type = 'TRANSITION' AND message LIKE '%→ running%'`; rows of the type have no other text. -/
def EventRow.isTransfer (e : EventRow) : Bool :=
  match e.type, e.message with
  | .transition, .engineState old new => readsRunning old new
  | _, _ => false

theorem isTransfer_stateRow (old new : EngineState) (now : ℚ) :
    (StateMachine.stateRow old new now).isTransfer = readsRunning old new := rfl

namespace Database

variable (db : Database)

def transferTimes : List ℚ := (db.events.filter EventRow.isTransfer).map EventRow.ts

/-- `count_transfers_since` -/
def countTransfersSince (since : ℚ) : ℕ := db.transferTimes.countP fun t => since ≤ t

/-- The moment of `last_transfer_to_gen`: the first in descending order. -/
def lastTransferTs : Option ℚ := db.transferTimes.max?

theorem transferTimes_eq :
    db.transferTimes =
      ((StateMachine.stateRows db).filter EventRow.isTransfer).map EventRow.ts := by
  have hrow : ∀ e : EventRow, (e.isTransfer && decide (e.type = .transition)) = e.isTransfer := by
    rintro ⟨ts, severity, type, message, info⟩
    cases type <;> simp [EventRow.isTransfer]
  rw [transferTimes, StateMachine.stateRows, List.filter_filter]
  simp only [hrow]

end Database

/-- One of the states that the controller's map can name without adding to them. -/
def EngineState.Named : EngineState → Prop
  | .other _ => False
  | _ => True

theorem readsRunning_eq {old new : EngineState} (ho : old.Named) (hn : new.Named) :
    readsRunning old new = decide (new = .running) := by
  cases old <;> cases new <;> first | exact ho.elim | exact hn.elim | decide +kernel

/-- The rules of the map name none but the states of the service. -/
def RegisterMap.NamesStates (m : RegisterMap) : Prop := ∀ b ∈ m.engineStateBits, b.state.Named

theorem named_nextEngineState {m : RegisterMap} (hm : m.NamesStates) (values : Values)
    {old : EngineState} (ho : old.Named) :
    (StateMachine.nextEngineState m values old).Named := by
  have hderived : (m.deriveEngineState values).Named := by
    unfold RegisterMap.deriveEngineState
    split
    · rename_i b hb
      exact hm b (List.mem_of_find?_eq_some hb)
    · trivial
  unfold StateMachine.nextEngineState
  dsimp only
  split
  · exact ho
  · exact hderived

namespace TransferLog

/-- The state machine and the database, with the moments at which the engine has started to run and
the moment up to which the log has been pruned. -/
structure State where
  sm : StateMachine
  db : Database
  clock : ℚ
  entered : List ℚ
  cutoff : Option ℚ

/-- The service right after start, over a new database. -/
def start (m : RegisterMap) (now : ℚ) : State := ⟨.init m now, .empty, now, [], none⟩

/-- Updates and retention ticks, at times that do not go back. -/
def step (cfg : RetentionConfig) (s : State) : StartLog.Label → Option State
  | .update env reading comms =>
    if s.clock ≤ env.now then
      match (StateMachine.update env reading comms).run ⟨s.sm, s.db, [], []⟩ with
      | .ok _ c => some
        { s with
          sm := c.self
          db := c.db
          clock := env.now
          entered := s.entered ++
            if s.sm.snap.engineState ≠ .running ∧ c.self.snap.engineState = .running then [env.now]
            else [] }
      | .error _ _ => none
    else none
  | .tick now =>
    if s.clock ≤ now then
      some
        { s with
          db := RetentionService.tick cfg now s.db
          clock := now
          cutoff := if 0 < cfg.eventsDays then some (RetentionService.daysBack now cfg.eventsDays)
            else s.cutoff }
    else none

variable (s : State)

/-- The log has not been pruned beyond the moment. -/
def State.Kept (t : ℚ) : Prop := ∀ c ∈ s.cutoff, c ≤ t

instance : DecidablePred s.Kept := fun _ => inferInstanceAs (Decidable (∀ _ ∈ _, _))

variable {s} {m : RegisterMap} {cfg : RetentionConfig} {l : StartLog.Label} {s' : State}

/-- The log has every start to run but those that it has pruned. -/
structure Remembers (m : RegisterMap) (cfg : RetentionConfig) (s : State) : Prop where
  regmap : s.sm.regmap = m
  named : s.sm.snap.engineState.Named
  routine : ∀ e ∈ StateMachine.stateRows s.db, e.severity = .ok
  rows : s.db.transferTimes = s.entered.filter s.Kept
  sorted : s.entered.Pairwise (· ≤ ·)
  past : ∀ t ∈ s.entered, t ≤ s.clock
  pruned : ∀ c ∈ s.cutoff, 0 < cfg.eventsDays ∧ c ≤ RetentionService.daysBack s.clock cfg.eventsDays

theorem remembers_start (m : RegisterMap) (cfg : RetentionConfig) (now : ℚ) :
    Remembers m cfg (start m now) where
  regmap := rfl
  named := trivial
  routine _ he := by cases he
  rows := rfl
  sorted := List.Pairwise.nil
  past _ ht := by cases ht
  pruned _ hc := by cases hc

theorem daysBack_le {now now' : ℚ} (h : now ≤ now') (days : ℤ) :
    RetentionService.daysBack now days ≤ RetentionService.daysBack now' days :=
  sub_le_sub_right h _

theorem daysBack_le_self {days : ℤ} (h : 0 ≤ days) (now : ℚ) :
    RetentionService.daysBack now days ≤ now := by
  have hdays : (0 : ℚ) ≤ days := Int.cast_nonneg h
  unfold RetentionService.daysBack
  linarith

theorem Remembers.kept (h : Remembers m cfg s) {t : ℚ} (ht : s.clock ≤ t) : s.Kept t := by
  intro c hc
  obtain ⟨hdays, hle⟩ := h.pruned c hc
  exact hle.trans ((daysBack_le_self hdays.le _).trans ht)

theorem transferTimes_stateRow {old new : EngineState} (hold : old.Named) (hnew : new.Named)
    (now : ℚ) :
    (List.filter EventRow.isTransfer
      (if new ≠ old then [StateMachine.stateRow old new now] else [])).map EventRow.ts =
      if old ≠ .running ∧ new = .running then [now] else [] := by
  have hreads := readsRunning_eq hold hnew
  by_cases hne : new = old
  · rw [if_neg (not_not.mpr hne), if_neg (by rw [hne]; tauto)]
    rfl
  rw [if_pos hne, List.filter_singleton, isTransfer_stateRow, hreads]
  by_cases hrunning : new = .running
  · rw [if_pos ⟨fun he => hne (hrunning.trans he.symm), hrunning⟩, decide_eq_true hrunning]
    rfl
  · rw [if_neg fun hand => hrunning hand.2, decide_eq_false hrunning]
    rfl

/-- Starts to run at the present moment go behind the others, and are kept. -/
theorem Remembers.entered_append (h : Remembers m cfg s) {now : ℚ} (hclock : s.clock ≤ now)
    {ts : List ℚ} (hts : ∀ t ∈ ts, t = now) :
    (s.entered ++ ts).Pairwise (· ≤ ·) ∧ (∀ t ∈ s.entered ++ ts, t ≤ now) ∧
      (s.entered ++ ts).filter s.Kept = s.entered.filter s.Kept ++ ts := by
  refine ⟨List.pairwise_append.mpr ⟨h.sorted, ?_, fun t ht t' ht' => ?_⟩, fun t ht => ?_, ?_⟩
  · apply List.pairwise_of_forall_mem_list
    intro t ht t' ht'
    rw [hts t ht, hts t' ht']
  · rw [hts t' ht']
    exact (h.past t ht).trans hclock
  · rcases List.mem_append.mp ht with ht | ht
    · exact (h.past t ht).trans hclock
    · exact (hts t ht).le
  · rw [List.filter_append]
    congr 1
    apply List.filter_eq_self.mpr
    intro t ht
    rw [hts t ht]
    exact decide_eq_true (h.kept hclock)

theorem Remembers.update (h : Remembers m cfg s) (hm : m.NamesStates) {env : PollEnv}
    {reading : Reading} {comms : CommsRef}
    (hs : step cfg s (.update env reading comms) = some s') : Remembers m cfg s' := by
  simp only [step] at hs
  split at hs
  swap
  · cases hs
  rename_i hclock
  split at hs
  swap
  · cases hs
  rename_i u c hrun
  obtain rfl := Option.some.inj hs
  obtain ⟨hmap, hstate, -, hrows, -⟩ := StateMachine.update_told hrun
  dsimp only at hmap hstate hrows
  rw [h.regmap] at hstate hrows
  have hnamed := named_nextEngineState hm reading.values h.named
  rw [← hstate] at hrows hnamed
  have hkept : ∀ t ∈ (if s.sm.snap.engineState ≠ .running ∧ c.self.snap.engineState = .running then
      [env.now] else []), t = env.now := by
    intro t ht
    split at ht
    · exact List.mem_singleton.mp ht
    · cases ht
  obtain ⟨hsorted, hpast, hfilter⟩ := h.entered_append hclock hkept
  constructor
  · exact hmap.trans h.regmap
  · exact hnamed
  · intro e he
    rw [hrows] at he
    rcases List.mem_append.mp he with he | he
    · exact h.routine e he
    · split at he
      · obtain rfl := List.mem_singleton.mp he
        rfl
      · cases he
  · have hold := h.rows
    rw [Database.transferTimes_eq] at hold ⊢
    rw [hrows, List.filter_append, List.map_append, hold, transferTimes_stateRow h.named hnamed]
    exact hfilter.symm
  · exact hsorted
  · exact hpast
  · intro cut hc
    obtain ⟨hdays, hle⟩ := h.pruned cut hc
    exact ⟨hdays, hle.trans (daysBack_le hclock _)⟩

theorem transferTimes_tick (h : ∀ e ∈ StateMachine.stateRows s.db, e.severity = .ok) (now : ℚ) :
    (RetentionService.tick cfg now s.db).transferTimes =
      if 0 < cfg.eventsDays then s.db.transferTimes.filter fun t =>
        RetentionService.daysBack now cfg.eventsDays ≤ t
      else s.db.transferTimes := by
  unfold Database.transferTimes
  rw [StartLog.events_tick]
  split
  · rw [List.filter_map, List.filter_filter, List.filter_filter]
    congr 1
    apply List.filter_congr
    intro e he
    by_cases htype : e.type = .transition
    · have hok : e.severity = .ok := h e (List.mem_filter.mpr ⟨he, decide_eq_true htype⟩)
      simp [EventRow.prunable, hok, Bool.and_comm, ← not_lt]
    · have hno : e.isTransfer = false := by
        obtain ⟨ts, severity, type, message, info⟩ := e
        cases type <;> first | exact absurd rfl htype | rfl
      simp [hno]
  · rfl

theorem Remembers.tick (h : Remembers m cfg s) {now : ℚ}
    (hs : step cfg s (.tick now) = some s') : Remembers m cfg s' := by
  simp only [step] at hs
  split at hs
  swap
  · cases hs
  rename_i hclock
  obtain rfl := Option.some.inj hs
  constructor
  · exact h.regmap
  · exact h.named
  · intro e he
    refine h.routine e ?_
    obtain ⟨he, htype⟩ := List.mem_filter.mp he
    rw [StartLog.events_tick] at he
    split at he
    · exact List.mem_filter.mpr ⟨List.mem_of_mem_filter he, htype⟩
    · exact List.mem_filter.mpr ⟨he, htype⟩
  · show (RetentionService.tick cfg now s.db).transferTimes = _
    rw [transferTimes_tick h.routine, h.rows]
    by_cases hdays : 0 < cfg.eventsDays
    · rw [if_pos hdays, List.filter_filter]
      apply List.filter_congr
      intro t ht
      have hcut : s.Kept t ∧ RetentionService.daysBack now cfg.eventsDays ≤ t ↔
          RetentionService.daysBack now cfg.eventsDays ≤ t := by
        refine and_iff_right_of_imp fun hle c hc => ?_
        exact (h.pruned c hc).2.trans ((daysBack_le hclock _).trans hle)
      simpa [State.Kept, hdays, and_comm] using hcut
    · rw [if_neg hdays]
      apply List.filter_congr
      intro t ht
      simp [State.Kept, hdays]
  · exact h.sorted
  · intro t ht
    exact (h.past t ht).trans hclock
  · intro c hc
    by_cases hdays : 0 < cfg.eventsDays
    · rw [if_pos hdays] at hc
      obtain rfl := Option.some.inj hc
      exact ⟨hdays, le_rfl⟩
    · exact absurd (h.pruned c (by simpa [hdays] using hc)).1 hdays

theorem Remembers.step (h : Remembers m cfg s) (hm : m.NamesStates)
    (hs : step cfg s l = some s') : Remembers m cfg s' := by
  cases l with
  | update env reading comms => exact h.update hm hs
  | tick now => exact h.tick hs

/-- The greatest of the moments that are kept is the last one, if that is kept. -/
theorem max_filter_kept {ts : List ℚ} (hsorted : ts.Pairwise (· ≤ ·)) :
    (ts.filter s.Kept).max? = ts.getLast?.filter s.Kept := by
  rcases List.eq_nil_or_concat ts with rfl | ⟨ts, t, rfl⟩
  · rfl
  rw [List.concat_eq_append] at hsorted ⊢
  have hle : ∀ t' ∈ ts, t' ≤ t := fun t' ht' =>
    (List.pairwise_append.mp hsorted).2.2 t' ht' t (List.mem_singleton_self t)
  rw [List.getLast?_concat, List.filter_append]
  by_cases hkept : s.Kept t
  · rw [List.filter_singleton, decide_eq_true hkept, Option.filter_some, decide_eq_true hkept]
    apply List.max?_eq_some_iff.mpr
    constructor
    · exact List.mem_append_right _ (List.mem_singleton_self t)
    · intro t' ht'
      rcases List.mem_append.mp ht' with ht' | ht'
      · exact hle t' (List.mem_of_mem_filter ht')
      · exact (List.mem_singleton.mp ht').le
  · have hnone : ts.filter s.Kept = [] := by
      apply List.filter_eq_nil_iff.mpr
      intro t' ht' hk
      exact hkept fun c hc => (of_decide_eq_true hk c hc).trans (hle t' ht')
    rw [hnone, List.filter_singleton, decide_eq_false hkept, Option.filter_some,
      decide_eq_false hkept]
    rfl

/-- In every run of updates and retention ticks at times that do not go back, over a map that names
no states of its own: the transfers counted since a moment are the times at which the engine
started to run since then and not before the log was pruned; the last transfer is the last such
time, if the log still has it; and with events kept for thirty days or for ever, the count of the
last thirty days is that of the engine. -/
theorem transfers_remembered (m : RegisterMap) (hm : m.NamesStates) (cfg : RetentionConfig)
    (t₀ : ℚ) (ls : List StartLog.Label) (s : State)
    (hr : run (step cfg) (start m t₀) ls = some s) :
    (∀ since, s.db.countTransfersSince since =
      s.entered.countP fun t => since ≤ t ∧ s.Kept t) ∧
    s.db.lastTransferTs = s.entered.getLast?.filter s.Kept ∧
    (cfg.eventsDays ≤ 0 ∨ 30 ≤ cfg.eventsDays → ∀ now, s.clock ≤ now →
      s.db.countTransfersSince (now - 30 * 86400) =
        s.entered.countP fun t => now - 30 * 86400 ≤ t) := by
  have h : Remembers m cfg s := run_invariant (fun _ _ _ _ hI hs => hI.step hm hs)
    (remembers_start m cfg t₀) hr
  have hcount : ∀ since, s.db.countTransfersSince since =
      s.entered.countP fun t => since ≤ t ∧ s.Kept t := by
    intro since
    rw [Database.countTransfersSince, h.rows, List.countP_filter]
    simp only [Bool.decide_and]
  refine ⟨hcount, ?_, ?_⟩
  · rw [Database.lastTransferTs, h.rows]
    exact max_filter_kept h.sorted
  · intro hdays now hnow
    rw [hcount]
    apply List.countP_congr
    intro t ht
    simp only [decide_eq_true_eq]
    refine and_iff_left_of_imp fun hsince c hc => ?_
    obtain ⟨hpos, hle⟩ := h.pruned c hc
    have hthirty : (30 : ℚ) ≤ cfg.eventsDays := by
      have hint : 30 ≤ cfg.eventsDays := by omega
      exact_mod_cast hint
    have hcut : c ≤ now - 30 * 86400 := by
      unfold RetentionService.daysBack at hle
      linarith
    exact hcut.trans hsince

def runMap : RegisterMap :=
  { RegisterMap.bare with
    registers := [.plain "status"]
    engineStateBits := [⟨.running, "status", 1⟩, ⟨.stopped, "status", 2⟩] }

def finds (status now : ℚ) : StartLog.Label :=
  .update ⟨now, none, fun _ => .initial 1500⟩
    ⟨fun name => if name = "status" then some status else none, now, fun _ => none⟩ .poller

/-- The engine runs twice, twenty days apart; both are counted, and after another twenty days one
of them is. -/
theorem two_transfers_remembered :
    ∃ s s', run (step .default) (start runMap 0)
        [finds 1 10, finds 2 20, finds 1 (20 * 86400), .tick (20 * 86400 + 1)] = some s ∧
      s.db.countTransfersSince (20 * 86400 + 1 - 30 * 86400) = 2 ∧
      run (step .default) s [.tick (40 * 86400)] = some s' ∧
      s'.db.countTransfersSince (40 * 86400 - 30 * 86400) = 1 ∧
      s'.db.lastTransferTs = some (20 * 86400) := by
  have hm : runMap.NamesStates := by
    intro b hb
    rcases List.mem_cons.mp hb with rfl | hb
    · trivial
    · rcases List.mem_cons.mp hb with rfl | hb
      · trivial
      · cases hb
  obtain ⟨s, hs, hseen⟩ := (Option.any_eq_true _ _).mp (by decide +kernel :
    (run (step .default) (start runMap 0) [finds 1 10, finds 2 20, finds 1 (20 * 86400),
      .tick (20 * 86400 + 1)]).any (fun s =>
        s.entered = [10, 20 * 86400] ∧ s.clock = 20 * 86400 + 1 ∧
        (run (step .default) s [.tick (40 * 86400)]).any fun s' =>
          s'.entered = [10, 20 * 86400] ∧ s'.clock = 40 * 86400 ∧
            s'.cutoff = some (10 * 86400)) = true)
  obtain ⟨hentered, hclock, hnext⟩ := of_decide_eq_true hseen
  obtain ⟨s', hs', hlater⟩ := (Option.any_eq_true _ _).mp hnext
  obtain ⟨hentered', hclock', hcutoff'⟩ := of_decide_eq_true hlater
  have h := transfers_remembered runMap hm .default 0 _ s hs
  have hall : run (step .default) (start runMap 0) ([finds 1 10, finds 2 20,
      finds 1 (20 * 86400), .tick (20 * 86400 + 1)] ++ [.tick (40 * 86400)]) = some s' := by
    rw [run_append, hs]
    exact hs'
  have h' := transfers_remembered runMap hm .default 0 _ s' hall
  refine ⟨s, s', hs, ?_, hs', ?_, ?_⟩
  · rw [h.2.2 (Or.inr (by decide)) _ hclock.le, hentered]
    decide +kernel
  · rw [h'.2.2 (Or.inr (by decide)) _ hclock'.le, hentered']
    decide +kernel
  · rw [h'.2.1, hentered']
    have hkept : s'.Kept (20 * 86400) := by
      intro c hc
      obtain rfl := Option.some.inj (hcutoff'.symm.trans hc)
      norm_num
    rw [List.getLast?_cons_cons, List.getLast?_singleton, Option.filter_some,
      decide_eq_true hkept]
    rfl

end TransferLog

end GenWatch

import GenWatch.Ats.Edges
import GenWatch.Ats.Faults

/-! # Own writes and read-back edges

The write log keeps one time for each command and direction and never spends it. An
edge is taken for the echo of the last write in its direction, even after a write the
other way or after that write has already been echoed. One write excuses one edge
exactly when no edge comes inside the window of a write that is so spent.
-/

namespace GenWatch

open Handler ServiceM Transition

/-- The command and direction of an announced edge. -/
def Event.cmdExternal : Event → Option (Action × Bool)
  | .atsCommandExternal command active _ => some (command, active)
  | _ => none

/-- Own writes, and edges seen on the read-back with whether nothing was announced. -/
inductive CmdEntry where
  | wrote (command : Action) (assert : Bool) (at_ : ℚ)
  | edge (command : Action) (value : Bool) (at_ : ℚ) (silent : Bool)
  deriving DecidableEq

namespace CmdEntry

def at_ : CmdEntry → ℚ
  | wrote _ _ w => w
  | edge _ _ m _ => m

def writeOf (command : Action) (value : Bool) : CmdEntry → Option ℚ
  | wrote c b w => if c = command ∧ b = value then some w else none
  | edge _ _ _ _ => none

theorem writeOf_eq_some {command : Action} {value : Bool} {w : ℚ} {e : CmdEntry} :
    e.writeOf command value = some w ↔ e = wrote command value w := by
  cases e with
  | wrote c b w' =>
    simp only [writeOf, Option.ite_none_right_eq_some, Option.some.injEq, wrote.injEq, and_assoc]
  | edge c b m silent => simp [writeOf]

end CmdEntry

/-- The last write of a command in a direction, in a history with its newest entry first. -/
def lastWrite (history : List CmdEntry) (command : Action) (value : Bool) : Option ℚ :=
  history.findSome? fun e => e.writeOf command value

theorem lastWrite_eq_some_iff {history : List CmdEntry} {command : Action} {value : Bool} {w : ℚ} :
    lastWrite history command value = some w ↔
      ∃ recent older, history = recent ++ .wrote command value w :: older ∧
        ∀ w', .wrote command value w' ∉ recent := by
  simp only [lastWrite, List.findSome?_eq_some_iff, CmdEntry.writeOf_eq_some]
  constructor
  · rintro ⟨recent, e, older, rfl, rfl, hnone⟩
    refine ⟨recent, older, rfl, fun w' hmem => ?_⟩
    simpa [CmdEntry.writeOf] using hnone _ hmem
  · rintro ⟨recent, older, rfl, hnone⟩
    refine ⟨recent, _, older, rfl, rfl, fun e he => ?_⟩
    cases hw : e.writeOf command value with
    | none => rfl
    | some w' => exact absurd (CmdEntry.writeOf_eq_some.mp hw ▸ he) (hnone w')

/-- The companion's service with the history of its own writes and edges, on the monotonic
clock. -/
structure CommandDesk where
  desk : AtsDesk
  clock : ℚ
  history : List CmdEntry

namespace CommandDesk

def maintained : List Action := [.inhibit, .forceTransfer]

def readBack (snap : AtsSnapshot) : Action → Bool
  | .inhibit => snap.cmdInhibitActive
  | .forceTransfer => snap.cmdForceTransferActive
  | _ => false

/-- The commands whose read-back changes from one snapshot to the next, after the first poll. -/
def edges (prev new : AtsSnapshot) : List Action :=
  if prev.lastReadingTs = 0 then []
  else maintained.filter fun c => readBack prev c ≠ readBack new c

/-- How often an edge of the command in this direction was announced. -/
def announced (d : AtsDesk) (command : Action) (value : Bool) : ℕ :=
  (d.published.filterMap Event.cmdExternal).count (command, value)

def seen (d d' : AtsDesk) (mono : ℚ) : List CmdEntry :=
  (edges d.ats.snap d'.ats.snap).map fun c => .edge c (readBack d'.ats.snap c) mono
    (announced d' c (readBack d'.ats.snap c) = 0)

/-- The monotonic clock does not run backwards. -/
def step (s : CommandDesk) : AtsDesk.Label → Option CommandDesk
  | .poll env reading ref faults =>
    if s.clock ≤ env.mono then
      let d := s.desk.onPoll env reading ref faults
      some ⟨d, env.mono, seen s.desk d env.mono ++ s.history⟩
    else none
  | .noteCommandWrite command assert mono =>
    if s.clock ≤ mono then
      some ⟨{ s.desk with
        ats := s.desk.ats.noteCommandWrite command assert mono, published := [] }, mono,
        .wrote command assert mono :: s.history⟩
    else none
  | .elsewhere db => some { s with desk := { s.desk with db := db, published := [] } }

def start (m : RegisterMap) (expectedUnitId : Option ℤ) (db : Database) : CommandDesk :=
  ⟨.start m expectedUnitId db, 0, []⟩

/-- Some own write in this direction, inside the window, is the last one for the command and has
excused no edge yet. -/
def Excusable (history : List CmdEntry) (command : Action) (value : Bool) (mono : ℚ) : Prop :=
  ∃ recent w older, history = recent ++ .wrote command value w :: older ∧
    mono - w ≤ cmdEchoWindowS ∧ (∀ value' w', .wrote command value' w' ∉ recent) ∧
    ∀ m, .edge command value m true ∉ recent

/-- An edge that is not announced is excusable, and any other is announced once. -/
def Accounts (s : CommandDesk) (mono : ℚ) (s' : CommandDesk) : Prop :=
  ∀ c ∈ edges s.desk.ats.snap s'.desk.ats.snap,
    (announced s'.desk c (readBack s'.desk.ats.snap c) = 0 ∧
      Excusable s.history c (readBack s'.desk.ats.snap c) mono) ∨
    announced s'.desk c (readBack s'.desk.ats.snap c) = 1

/-- At an edge inside the window of the last own write in its direction, that write was followed
neither by another write for the command nor by another edge in that direction. -/
def Unspent (s : CommandDesk) (mono : ℚ) (s' : CommandDesk) : Prop :=
  ∀ c ∈ edges s.desk.ats.snap s'.desk.ats.snap, ∀ recent w older,
    s.history = recent ++ .wrote c (readBack s'.desk.ats.snap c) w :: older →
    (∀ w', .wrote c (readBack s'.desk.ats.snap c) w' ∉ recent) → mono - w ≤ cmdEchoWindowS →
    (∀ value' w', .wrote c value' w' ∉ recent) ∧
      ∀ m silent, .edge c (readBack s'.desk.ats.snap c) m silent ∉ recent

section Poll

variable {d : AtsDesk} {env : AtsPollEnv} {reading : Reading} {ref : CommsRef} {faults : List Bool}

theorem mem_edges {prev new : AtsSnapshot} {c : Action} :
    c ∈ edges prev new ↔
      prev.lastReadingTs ≠ 0 ∧ c ∈ maintained ∧ readBack prev c ≠ readBack new c := by
  unfold edges
  split
  · rename_i h
    simp [h]
  · rename_i h
    simp [h]

theorem spared_of_mem_edges {c : Action}
    (h : c ∈ edges d.ats.snap (d.onPoll env reading ref faults).ats.snap) :
    d.Spared env reading ref faults := by
  by_contra hs
  rw [(AtsDesk.onPoll_snap_of_not_spared hs).1, mem_edges] at h
  exact h.2.2 rfl

theorem onPoll_cmdWriteMonotonic :
    (d.onPoll env reading ref faults).ats.cmdWriteMonotonic = d.ats.cmdWriteMonotonic := by
  rw [(AtsDesk.onPoll_final d env reading ref faults).1]
  exact AtsService.update_cmdWriteMonotonic env reading ref ⟨d.ats, d.db, [], faults⟩

theorem published_onPoll (h : d.Spared env reading ref faults) :
    (d.onPoll env reading ref faults).published.filterMap Event.cmdExternal =
      (AtsService.maintainedCmdEvents d.ats env d.ats.snap
        (d.onPoll env reading ref faults).ats.snap).filterMap Event.cmdExternal := by
  rw [AtsDesk.onPoll_snap_of_spared h]
  obtain ⟨c', hr, -⟩ := (AtsService.update_run env reading ref ⟨d.ats, d.db, [], faults⟩).1 h
  have hposition : ∀ prev new now,
      (AtsService.positionEvents prev new now).filterMap Event.cmdExternal = [] := by
    intro prev new now
    unfold AtsService.positionEvents
    split <;> rfl
  have hsel : ∀ e : Event, e.switching = false → e.cmdExternal = none := by
    intro e he
    cases e <;> first | rfl | cases he
  have hemits := AtsService.update_emits hsel hr
  rw [AtsDesk.onPoll, hr]
  rw [List.filterMap_append, hposition, List.nil_append] at hemits
  exact hemits

theorem count_cmdEdgeEvents {ats : AtsService} {mono now : ℚ} {command : Action}
    {was isNow : Bool} (h : was ≠ isNow) :
    ((AtsService.cmdEdgeEvents ats mono now command was isNow).filterMap Event.cmdExternal).count
        (command, isNow) =
      if AtsService.isEcho mono (ats.cmdWriteMonotonic (command, isNow)) then 0 else 1 := by
  unfold AtsService.cmdEdgeEvents
  cases AtsService.isEcho mono (ats.cmdWriteMonotonic (command, isNow)) with
  | true => simp
  | false => simp [h, Event.cmdExternal]

theorem count_cmdEdgeEvents_of_ne {ats : AtsService} {mono now : ℚ} {command other : Action}
    {was isNow value : Bool} (h : other ≠ command) :
    ((AtsService.cmdEdgeEvents ats mono now command was isNow).filterMap Event.cmdExternal).count
      (other, value) = 0 := by
  rw [List.count_eq_zero]
  unfold AtsService.cmdEdgeEvents
  split
  · simp [Event.cmdExternal, h]
  · simp

theorem announced_onPoll {c : Action}
    (h : c ∈ edges d.ats.snap (d.onPoll env reading ref faults).ats.snap) :
    announced (d.onPoll env reading ref faults) c
        (readBack (d.onPoll env reading ref faults).ats.snap c) =
      if AtsService.isEcho env.mono (d.ats.cmdWriteMonotonic
        (c, readBack (d.onPoll env reading ref faults).ats.snap c)) then 0 else 1 := by
  have hpub := published_onPoll (spared_of_mem_edges h)
  generalize (d.onPoll env reading ref faults).ats.snap = new at h hpub
  obtain ⟨hfirst, hc, hedge⟩ := mem_edges.mp h
  unfold announced
  rw [hpub, AtsService.maintainedCmdEvents, if_neg hfirst, List.filterMap_append,
    List.count_append]
  simp only [maintained, List.mem_cons, List.not_mem_nil, or_false] at hc
  rcases hc with rfl | rfl
  · rw [count_cmdEdgeEvents_of_ne (by decide : Action.inhibit ≠ .forceTransfer), Nat.add_zero]
    exact count_cmdEdgeEvents hedge
  · rw [count_cmdEdgeEvents_of_ne (by decide : Action.forceTransfer ≠ .inhibit), Nat.zero_add]
    exact count_cmdEdgeEvents hedge

end Poll

section History

variable {s s' : CommandDesk} {l : AtsDesk.Label}

/-- What the history says of the service's log, and of itself. -/
structure Sound (s : CommandDesk) : Prop where
  logged : ∀ c b, s.desk.ats.cmdWriteMonotonic (c, b) = lastWrite s.history c b
  past : ∀ e ∈ s.history, e.at_ ≤ s.clock
  echoes : ∀ recent c b m silent older, s.history = recent ++ .edge c b m silent :: older →
    silent = AtsService.isEcho m (lastWrite older c b)

theorem sound_start (m : RegisterMap) (expectedUnitId : Option ℤ) (db : Database) :
    Sound (start m expectedUnitId db) :=
  ⟨fun _ _ => rfl, by simp [start], by simp [start]⟩

theorem lastWrite_append {recent older : List CmdEntry} {c : Action} {b : Bool}
    (h : ∀ w, .wrote c b w ∉ recent) : lastWrite (recent ++ older) c b = lastWrite older c b := by
  unfold lastWrite
  have hnone : (recent.findSome? fun e => e.writeOf c b) = none := by
    rw [List.findSome?_eq_none_iff]
    intro e he
    cases hw : e.writeOf c b with
    | none => rfl
    | some w => exact absurd (CmdEntry.writeOf_eq_some.mp hw ▸ he) (h w)
  rw [List.findSome?_append, hnone, Option.none_or]

theorem lastWrite_cons_wrote (c : Action) (b : Bool) (w : ℚ) (older : List CmdEntry) :
    lastWrite (.wrote c b w :: older) c b = some w :=
  lastWrite_eq_some_iff.mpr ⟨[], older, rfl, by simp⟩

theorem wrote_not_mem_seen (d d' : AtsDesk) (mono : ℚ) (c : Action) (b : Bool) (w : ℚ) :
    .wrote c b w ∉ seen d d' mono := by
  simp [seen]

theorem Sound.poll {env : AtsPollEnv} {reading : Reading} {ref : CommsRef} {faults : List Bool}
    (hs : s.Sound) (h : step s (.poll env reading ref faults) = some s') : s'.Sound := by
  obtain ⟨hclock, rfl⟩ := Option.ite_none_right_eq_some.mp h |>.imp_right Option.some.inj
  refine ⟨fun c b => ?_, fun e he => ?_, fun recent c b m silent older he => ?_⟩
  · rw [onPoll_cmdWriteMonotonic, hs.logged]
    exact (lastWrite_append (wrote_not_mem_seen _ _ _ c b)).symm
  · rcases List.mem_append.mp he with he | he
    · obtain ⟨c, -, rfl⟩ := List.mem_map.mp he
      exact le_rfl
    · exact (hs.past e he).trans hclock
  · rcases append_eq_append_cons he with ⟨mid, hseen, rfl⟩ | ⟨mid, hhistory, rfl⟩
    · have hmem :
          .edge c b m silent ∈ seen s.desk (s.desk.onPoll env reading ref faults) env.mono :=
        hseen ▸ List.mem_append_right _ List.mem_cons_self
      obtain ⟨c', hc', hentry⟩ := List.mem_map.mp hmem
      obtain ⟨rfl, rfl, rfl, rfl⟩ := CmdEntry.edge.inj hentry
      have hmid : ∀ w, .wrote c' (readBack (s.desk.onPoll env reading ref faults).ats.snap c') w ∉
          mid := fun w hw => wrote_not_mem_seen _ _ _ _ _ w
        (hseen ▸ List.mem_append_right _ (List.mem_cons_of_mem _ hw))
      rw [lastWrite_append hmid, ← hs.logged, announced_onPoll hc']
      cases AtsService.isEcho env.mono (s.desk.ats.cmdWriteMonotonic
        (c', readBack (s.desk.onPoll env reading ref faults).ats.snap c')) <;> rfl
    · exact hs.echoes mid c b m silent older hhistory

theorem Sound.step (hs : s.Sound) (h : step s l = some s') : s'.Sound := by
  cases l with
  | poll env reading ref faults => exact hs.poll h
  | noteCommandWrite command assert mono =>
    obtain ⟨hclock, rfl⟩ := Option.ite_none_right_eq_some.mp h |>.imp_right Option.some.inj
    refine ⟨fun c b => ?_, fun e he => ?_, fun recent c b m silent older he => ?_⟩
    · by_cases hcb : (c, b) = (command, assert)
      · obtain ⟨rfl, rfl⟩ := Prod.mk.inj hcb
        rw [lastWrite_cons_wrote]
        exact Function.update_self _ _ _
      · have hne : ∀ w, .wrote c b w ∉ [CmdEntry.wrote command assert mono] := by
          intro w hw
          obtain ⟨rfl, rfl, -⟩ := CmdEntry.wrote.inj (List.mem_singleton.mp hw)
          exact hcb rfl
        have hold : lastWrite ([.wrote command assert mono] ++ s.history) c b =
            s.desk.ats.cmdWriteMonotonic (c, b) := by
          rw [lastWrite_append hne, hs.logged]
        exact (Function.update_of_ne hcb _ _).trans hold.symm
    · rcases List.mem_cons.mp he with rfl | he
      · exact le_rfl
      · exact (hs.past e he).trans hclock
    · rcases List.cons_eq_append_iff.mp he with ⟨-, hmid⟩ | ⟨recent', -, hold⟩
      · cases hmid
      · exact hs.echoes _ c b m silent older hold
  | elsewhere db =>
    obtain rfl := Option.some.inj h
    exact ⟨hs.logged, hs.past, hs.echoes⟩

theorem isEcho_some {mono w : ℚ} :
    AtsService.isEcho mono (some w) = true ↔ mono - w ≤ cmdEchoWindowS := by
  simp [AtsService.isEcho]

/-- The last write in a direction is where any split of the history at such a write without a
later one has it. -/
theorem recent_unique {history recent recent' older older' : List CmdEntry} {c : Action} {b : Bool}
    {w w' : ℚ} (h : history = recent ++ .wrote c b w :: older)
    (h' : history = recent' ++ .wrote c b w' :: older') (hnone : ∀ x, .wrote c b x ∉ recent)
    (hnone' : ∀ x, .wrote c b x ∉ recent') : recent = recent' := by
  rw [h] at h'
  rcases append_eq_append_cons h' with ⟨mid, rfl, -⟩ | ⟨mid, hmid, rfl⟩
  · exact absurd (List.mem_append_right _ List.mem_cons_self) (hnone w')
  · rcases mid with _ | ⟨e, mid⟩
    · rw [List.append_nil]
    · obtain ⟨rfl, -⟩ := List.cons.inj hmid
      exact absurd (List.mem_append_right _ List.mem_cons_self) (hnone' w)

/-- Since a write that is still inside the window, every edge in its direction was silent. -/
theorem Sound.silent_of_mem (hs : s.Sound) {recent older : List CmdEntry} {c : Action} {b : Bool}
    {w m mono : ℚ} {silent : Bool} (h : s.history = recent ++ .wrote c b w :: older)
    (hnone : ∀ x, .wrote c b x ∉ recent) (hclock : s.clock ≤ mono)
    (hwin : mono - w ≤ cmdEchoWindowS) (he : .edge c b m silent ∈ recent) : silent = true := by
  obtain ⟨newer, between, rfl⟩ := List.append_of_mem he
  have hecho := hs.echoes newer c b m silent (between ++ .wrote c b w :: older) (by simp [h])
  have hbetween : ∀ x, .wrote c b x ∉ between := fun x hx =>
    hnone x (List.mem_append_right _ (List.mem_cons_of_mem _ hx))
  have hpast : m ≤ s.clock :=
    hs.past (.edge c b m silent) (by rw [h]; exact List.mem_append_left _ he)
  rw [lastWrite_append hbetween, lastWrite_cons_wrote] at hecho
  rw [hecho, isEcho_some]
  linarith

/-- At every poll, each own write excuses at most one edge exactly when no edge comes inside the
window of a write that was followed by another write or by another edge. -/
theorem own_write_excuses_one_edge_iff {m : RegisterMap} {expectedUnitId : Option ℤ}
    {db : Database} {ls : List AtsDesk.Label} {env : AtsPollEnv} {reading : Reading}
    {ref : CommsRef} {faults : List Bool}
    (h : Takes step (start m expectedUnitId db) ls s (.poll env reading ref faults) s') :
    s.Accounts env.mono s' ↔ s.Unspent env.mono s' := by
  have hs : s.Sound := h.reachable.invariant (sound_start m expectedUnitId db)
    fun _ _ _ hs hstep => hs.step hstep
  obtain ⟨hclock, rfl⟩ :=
    Option.ite_none_right_eq_some.mp h.step_eq |>.imp_right Option.some.inj
  constructor
  · intro hacc c hc recent w older hhistory hnone hwin
    have hlast : lastWrite s.history c _ = some w :=
      lastWrite_eq_some_iff.mpr ⟨recent, older, hhistory, hnone⟩
    have hecho : announced (s.desk.onPoll env reading ref faults) c
        (readBack (s.desk.onPoll env reading ref faults).ats.snap c) = 0 := by
      rw [announced_onPoll hc, hs.logged, hlast, if_pos (isEcho_some.mpr hwin)]
    rcases hacc c hc with ⟨-, recent', w', older', hhistory', -, hwrites, hedges⟩ | hone
    · obtain rfl := recent_unique hhistory hhistory' hnone fun x => hwrites _ x
      refine ⟨hwrites, fun x silent hx => ?_⟩
      obtain rfl := hs.silent_of_mem hhistory hnone hclock hwin hx
      exact hedges x hx
    · rw [hecho] at hone
      cases hone
  · intro hunspent c hc
    by_cases hecho : AtsService.isEcho env.mono (s.desk.ats.cmdWriteMonotonic
        (c, readBack (s.desk.onPoll env reading ref faults).ats.snap c)) = true
    · left
      refine ⟨by rw [announced_onPoll hc, if_pos hecho], ?_⟩
      rw [hs.logged] at hecho
      cases hlast : lastWrite s.history c
          (readBack (s.desk.onPoll env reading ref faults).ats.snap c) with
      | none =>
        rw [hlast] at hecho
        cases hecho
      | some w =>
        rw [hlast, isEcho_some] at hecho
        obtain ⟨recent, older, hhistory, hnone⟩ := lastWrite_eq_some_iff.mp hlast
        obtain ⟨hwrites, hedges⟩ := hunspent c hc recent w older hhistory hnone hecho
        exact ⟨recent, w, older, hhistory, hecho, hwrites, fun x => hedges x true⟩
    · right
      rw [announced_onPoll hc, if_neg hecho]

end History

section AutoRelease

/-- A prime poll of the read-back of the inhibit command alone. -/
def inhibitReading (active : Bool) : Reading :=
  ⟨fun name => if name = "cmd_inhibit_active" then some (if active then 1 else 0) else none, 0,
    fun _ => none⟩

def inhibitPoll (mono : ℚ) (active : Bool) : AtsDesk.Label :=
  .poll (AtsDesk.primeEnv mono) (inhibitReading active) .atsPoller []

/-- The last own write for a command, in whatever direction. -/
def lastCommand (history : List CmdEntry) (command : Action) : Option CmdEntry :=
  history.find? fun e => (e.writeOf command true).isSome || (e.writeOf command false).isSome

theorem Excusable.lastCommand {history : List CmdEntry} {c : Action} {b : Bool} {mono : ℚ}
    (h : Excusable history c b mono) : ∃ w, lastCommand history c = some (.wrote c b w) := by
  obtain ⟨recent, w, older, rfl, -, hwrites, -⟩ := h
  refine ⟨w, List.find?_eq_some_iff_append.mpr ⟨?_, recent, older, rfl, fun e he => ?_⟩⟩
  · cases b <;> simp [CmdEntry.writeOf]
  · cases e with
    | wrote c' b' w' =>
      have hne : c' ≠ c := by
        rintro rfl
        exact hwrites b' w' he
      simp [CmdEntry.writeOf, hne]
    | edge c' b' m silent => simp [CmdEntry.writeOf]

/-- An operator asserts the inhibit and the companion shows it. -/
theorem echoed_assert_accounted :
    ∃ s s', Takes step (start .bare none .empty)
        ([inhibitPoll 1 false, .noteCommandWrite .inhibit true 2] ++ [inhibitPoll 3 true]) s
        (inhibitPoll 3 true) s' ∧
      .inhibit ∈ edges s.desk.ats.snap s'.desk.ats.snap ∧ s.Accounts 3 s' := by
  obtain ⟨s, s', ht, htest⟩ := takes_of_lastStep step (start .bare none .empty)
    [inhibitPoll 1 false, .noteCommandWrite .inhibit true 2] (inhibitPoll 3 true)
    (fun s _ s' => .inhibit ∈ edges s.desk.ats.snap s'.desk.ats.snap ∧
      s.history = [.wrote .inhibit true 2]) (by decide +kernel)
  obtain ⟨hedge, hhistory⟩ := of_decide_eq_true htest
  refine ⟨s, s', ht, hedge, (own_write_excuses_one_edge_iff ht).mpr ?_⟩
  intro c hc recent w older hsplit hnone hwin
  rw [hhistory] at hsplit
  rcases recent with _ | ⟨e, recent⟩
  · simp
  · simp at hsplit

/-- Release, assert, and the companion's own release inside the window of ours: the edge is not
announced, although the last write asserted the command. -/
theorem auto_release_unannounced :
    ∃ s s', Takes step (start .bare none .empty)
        ([inhibitPoll 1 true, .noteCommandWrite .inhibit false 2, inhibitPoll 3 false,
          .noteCommandWrite .inhibit true 4, inhibitPoll 5 true] ++ [inhibitPoll 7 false]) s
        (inhibitPoll 7 false) s' ∧ ¬s.Accounts 7 s' := by
  obtain ⟨s, s', ht, htest⟩ := takes_of_lastStep step (start .bare none .empty)
    [inhibitPoll 1 true, .noteCommandWrite .inhibit false 2, inhibitPoll 3 false,
      .noteCommandWrite .inhibit true 4, inhibitPoll 5 true] (inhibitPoll 7 false)
    (fun s _ s' => .inhibit ∈ edges s.desk.ats.snap s'.desk.ats.snap ∧
      readBack s'.desk.ats.snap .inhibit = false ∧ announced s'.desk .inhibit false = 0 ∧
      lastCommand s.history .inhibit = some (.wrote .inhibit true 4)) (by decide +kernel)
  obtain ⟨hedge, hback, hsilent, hlast⟩ := of_decide_eq_true htest
  refine ⟨s, s', ht, fun hacc => ?_⟩
  have hcase := hacc .inhibit hedge
  rw [hback] at hcase
  rcases hcase with ⟨-, hexcuse⟩ | hone
  · obtain ⟨w, hw⟩ := hexcuse.lastCommand
    rw [hlast] at hw
    cases hw
  · rw [hsilent] at hone
    cases hone

end AutoRelease

end CommandDesk

end GenWatch

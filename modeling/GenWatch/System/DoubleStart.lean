import GenWatch.System.Gate

/-! # Two starts in a row

The control lock is held across a command's write, so start writes do not overlap.
The gate of the second start reads the snapshot, and only the next poll moves that:
a start that gets the lock after another has succeeded and before the next update
still finds the engine stopped. Where every such start is refused for another reason,
two start writes always have an update between them.
-/

namespace GenWatch

open Transition

namespace World

variable {w : World} {l : Label} {r : World × List Obs}

/-- A command that is being written holds the control lock. -/
def Exclusive (w : World) : Prop :=
  ∀ i q ctl, w.tasks i = .writing (.execute q) ctl → w.lock.holder = some i

/-- A critical section starts with no command being written, and leaves at most its own. -/
theorem Section.exclusive {v : World} {i : ℕ} {at_ : Clock} {t : Task}
    (h : Section v i at_ t r) (hi : v.lock.holder = some i)
    (hnone : ∀ j q ctl, v.tasks j ≠ .writing (.execute q) ctl) : Exclusive r.1 := by
  have hdone : ∀ {u : World} {control : ControlService}, Leaves v i control .done u →
      Exclusive u := by
    intro u control hl j q ctl hj
    rw [hl.tasks, Function.update_apply] at hj
    split at hj
    · cases hj
    · exact absurd hj (hnone j q ctl)
  cases h with
  | writes hrun hp hl hlock =>
    intro j q ctl hj
    rw [hl.tasks, Function.update_apply] at hj
    split at hj
    · rename_i hji
      cases hj
      rw [hlock, hi, hji]
    · exact absurd hj (hnone j q ctl)
  | acks _ _ hl _ | refused _ hl _ | denied _ _ _ hl _ | issued _ _ hl _ | reloaded _ hl _ =>
    exact hdone hl

theorem Outcome.exclusive (h : Outcome w l r) (hw : Exclusive w) : Exclusive r.1 := by
  cases h with
  | enters he hlocked =>
    refine (locked_section hlocked).exclusive he.holder fun j q ctl hj => ?_
    have hheld := hw j q ctl (he.tasks ▸ hj)
    rw [he.vacant] at hheld
    cases hheld
  | denies _ _ _ hlock htasks _ _ =>
    intro j q ctl hj
    rw [htasks, Function.update_apply] at hj
    split at hj
    · cases hj
    · rw [hlock]
      exact hw j q ctl hj
  | waits _ _ _ hholder htasks _ ht =>
    intro j q ctl hj
    rw [htasks, Function.update_apply] at hj
    split at hj
    · rw [hj] at ht
      cases ht
    · rw [hholder]
      exact hw j q ctl hj
  | returns _ _ hlock htasks _ hi =>
    intro j q ctl hj
    rw [htasks, Function.update_apply] at hj
    split at hj
    · cases hj
    rename_i hji
    have hheld := hw j q ctl hj
    rcases hlock with hlock | ⟨q', rfl, -⟩
    · rw [hlock]
      exact hheld
    · exact absurd (Option.some.inj (hheld.symm.trans (hw _ q' _ hi))) hji
  | input _ _ => exact hw

theorem Outcome.countP_isWrite_le (h : Outcome w l r) : r.2.countP Obs.isWrite ≤ 1 := by
  have htoken : ∀ i c, (tokenObs i c).countP Obs.isWrite = 0 := by
    simp [tokenObs, List.countP_eq_zero, Obs.isWrite]
  cases h with
  | enters _ hlocked =>
    cases locked_section hlocked with
    | writes _ _ _ _ | acks _ _ _ _ | refused _ _ _ | denied _ _ _ _ _ | issued _ _ _ _
    | reloaded _ _ _ => simp [htoken, List.countP_cons, Obs.isWrite]
  | denies _ _ _ _ _ _ _ | waits _ _ _ _ _ _ _ | returns _ _ _ _ _ _ =>
    simp [Obs.isWrite]
  | input _ _ => split <;> simp [Obs.isWrite]

/-- The command that gets the control lock in this step: on arrival, or resumed. -/
def granted? (w : World) : Label → Option ControlRequest
  | .execute q _ => if ControlService.mayControl q.role ∧ w.lock.open? then some q else none
  | .wake i _ _ =>
    match w.tasks i with
    | .queued q => some q
    | _ => none
  | _ => none

/-- The gates pass the command, and its token can be spent. -/
def Admits (w : World) (q : ControlRequest) (at_ : Clock) : Bool :=
  (match verbToControl q.verb with
    | none => false
    | some name =>
      (ControlService.gate w.control.regmap w.snap w.comms q.verb name at_.gate).isOk) &&
  w.spendable q.token q.operator q.verb at_

theorem Outcome.of_command_write (h : Outcome w l r) {i : ℕ} {q : ControlRequest}
    {call : WriteCall} (hw : .write i (.execute q) call ∈ r.2) :
    ∃ at_, l.clock = some at_ ∧ w.lock.holder = none ∧ w.granted? l = some q ∧
      w.Admits q at_ = true := by
  obtain ⟨v, at_, t, ctl, ct, c, hwrites⟩ := h.writes_of_mem hw
  have hspend : w.spendable q.token q.operator q.verb at_ = true := hwrites.spendable
  obtain ⟨he, -, hp, -, -, -⟩ := hwrites
  obtain ⟨hname, hgate⟩ | _ := hp
  simp only [he.control, he.unmoved.snap, comms, he.unmoved.heap he.not_reload] at hgate
  refine ⟨at_, he.clock, he.vacant, ?_, ?_⟩
  · rcases he.origin with ⟨fresh, rfl, htask⟩ | ⟨hopen, hseeks⟩
    · simp [granted?, ← htask]
    · obtain ⟨rfl, hrole⟩ := hseeks.command q rfl
      simp [granted?, hrole, hopen]
  · simp [Admits, hname, comms, hgate, hspend, Except.isOk, Except.toBool]

end World

namespace Service

variable {s s' : Service} {l : Label}

/-- A write that was made has returned, or is under way. -/
def Tracked (s : Service) : Prop :=
  ∀ before i req call after, s.trace = before ++ .write i req call :: after →
    (∃ ctl, s.world.tasks i = .writing req ctl) ∨ ∃ e, .returned i req e ∈ after

theorem Orderly.under_way (hs : Orderly s) {r : World × List Obs}
    (ho : World.Outcome s.world l r) {i : ℕ} {req : Request} {ctl : ControlDef}
    (hi : s.world.tasks i = .writing req ctl) :
    r.1.tasks i = .writing req ctl ∨ ∃ e, .returned i req e ∈ r.2 := by
  rcases ho.moves with ⟨j, t', hruns, htasks, -, -⟩ | ⟨j, req', ctl', e, hj, htasks, -, hobs⟩ |
    ⟨htasks, -, -⟩
  · have hji : i ≠ j := by
      rintro rfl
      rcases hruns with ⟨rfl, -⟩ | ⟨hwait, -⟩
      · rw [(hs.unborn _ le_rfl).1] at hi
        cases hi
      · rw [hi] at hwait
        cases hwait
    rw [htasks, Function.update_of_ne hji]
    exact Or.inl hi
  · by_cases hji : i = j
    · subst hji
      obtain ⟨rfl, -⟩ := Task.writing.inj (hi.symm.trans hj)
      exact Or.inr ⟨e, by simp [hobs]⟩
    · rw [htasks, Function.update_of_ne hji]
      exact Or.inl hi
  · rw [htasks]
    exact Or.inl hi

theorem Tracked.step (hs : Tracked s) (hord : Orderly s) (h : s.step l = some s') : Tracked s' := by
  obtain ⟨r, hr, rfl⟩ := step_eq_some.mp h
  have ho := World.step_outcome hr
  intro before i req call after htrace
  rcases append_eq_append_cons htrace with ⟨mid, hold, rfl⟩ | ⟨mid, hnew, -⟩
  · rcases hs before i req call mid hold with ⟨ctl, hi⟩ | ⟨e, he⟩
    · rcases hord.under_way ho hi with hi | ⟨e, he⟩
      · exact Or.inl ⟨ctl, hi⟩
      · exact Or.inr ⟨e, List.mem_append_right _ he⟩
    · exact Or.inr ⟨e, List.mem_append_left _ he⟩
  · have hw : .write i req call ∈ r.2 := by simp [hnew]
    exact Or.inl (ho.writing_of_write hw)

theorem tracked_start (m : RegisterMap) (ats : Option (RegisterMap × Option ℤ)) (db : Database)
    (now mono : ℚ) : Tracked (start m ats db now mono) :=
  fun before i req call after h => by simp [start] at h

/-- A start succeeds, or an update runs. -/
def notePending (pending : Bool) : Obs → Bool
  | .updated => false
  | .returned _ (.execute q) none => pending || q.verb = .start
  | _ => pending

/-- A start has succeeded, and no update has run since. -/
def startPending (trace : List Obs) : Bool := trace.foldl notePending false

/-- Of two start writes the first has failed before the second is made, or it has succeeded and an
update has run since. -/
def StartsApart (trace : List Obs) : Prop :=
  ∀ l₁ i q call l₂ j q' call' l₃,
    trace = l₁ ++ .write i (.execute q) call :: l₂ ++ .write j (.execute q') call' :: l₃ →
    q.verb = .start → q'.verb = .start →
    (∃ e, .returned i (.execute q) (some e) ∈ l₂) ∨
      ∃ m₁ m₂, l₂ = m₁ ++ .returned i (.execute q) none :: m₂ ∧ .updated ∈ m₂

theorem foldl_notePending {l : List Obs} (hl : .updated ∉ l) : l.foldl notePending true = true := by
  induction l with
  | nil => rfl
  | cons o l ih =>
    rw [List.mem_cons, not_or] at hl
    have hstay : notePending true o = true := by
      unfold notePending
      split
      · exact absurd rfl hl.1
      · rfl
      · rfl
    rw [List.foldl_cons, hstay]
    exact ih hl.2

theorem startPending_of_returned {l₁ l₂ : List Obs} {i : ℕ} {q : ControlRequest}
    (hq : q.verb = .start) (hl : .updated ∉ l₂) :
    startPending (l₁ ++ .returned i (.execute q) none :: l₂) = true := by
  have hnote : ∀ b, notePending b (.returned i (.execute q) none) = true := by
    simp [notePending, hq]
  rw [startPending, List.foldl_append, List.foldl_cons, hnote]
  exact foldl_notePending hl

theorem startsApart_step (hs : StartsApart s.trace) (htr : Tracked s) (hex : s.world.Exclusive)
    (h : s.step l = some s')
    (hheld : ∀ q at_, l.clock = some at_ → s.world.granted? l = some q → q.verb = .start →
      startPending s.trace = true → s.world.Admits q at_ = false) :
    StartsApart s'.trace := by
  obtain ⟨r, hr, rfl⟩ := step_eq_some.mp h
  have ho := World.step_outcome hr
  intro l₁ i q call l₂ j q' call' l₃ htrace hq hq'
  rcases append_eq_append_cons htrace with ⟨mid, hold, -⟩ | ⟨mid, hnew, hbefore⟩
  · exact hs l₁ i q call l₂ j q' call' mid hold hq hq'
  have hw : .write j (.execute q') call' ∈ r.2 := by simp [hnew]
  rcases append_eq_append_cons hbefore.symm with ⟨mid', hold, rfl⟩ | ⟨mid', rfl, -⟩
  · obtain ⟨at_, hclock, hvacant, hgrant, hadmit⟩ := ho.of_command_write hw
    obtain ⟨e, he⟩ : ∃ e, .returned i (.execute q) e ∈ mid' := by
      refine (htr l₁ i _ call mid' hold).resolve_left ?_
      rintro ⟨ctl, hctl⟩
      rw [hex i q ctl hctl] at hvacant
      cases hvacant
    cases e with
    | some e => exact Or.inl ⟨e, List.mem_append_left _ he⟩
    | none =>
      right
      obtain ⟨m₁, m₂, rfl⟩ := List.append_of_mem he
      refine ⟨m₁, m₂ ++ mid, by simp, ?_⟩
      by_contra hnone
      rw [List.mem_append, not_or] at hnone
      have hpending : startPending s.trace = true := by
        rw [hold, ← List.cons_append, ← List.append_assoc]
        exact startPending_of_returned hq hnone.1
      rw [hheld q' at_ hclock hgrant hq' hpending] at hadmit
      cases hadmit
  · have hone := ho.countP_isWrite_le
    rw [hnew] at hone
    simp only [List.countP_append, List.countP_cons, Obs.isWrite, if_true] at hone
    omega

section Run

variable {m : RegisterMap} {ats : Option (RegisterMap × Option ℤ)} {db : Database} {now mono : ℚ}
  {ls : List Label}

/-- What holds along every run: the lock covers the writes of commands, and writes are tracked. -/
theorem serial_of_run (h : run step (start m ats db now mono) ls = some s) :
    Orderly s ∧ Tracked s ∧ s.world.Exclusive := by
  refine run_invariant (I := fun s => Orderly s ∧ Tracked s ∧ s.world.Exclusive)
    (fun t l t' _ ht hstep => ?_) ⟨orderly_start m ats db now mono,
      tracked_start m ats db now mono, by rintro i q ctl ⟨⟩⟩ h
  refine ⟨ht.1.step hstep, ht.2.1.step ht.1 hstep, ?_⟩
  obtain ⟨r, hr, rfl⟩ := step_eq_some.mp hstep
  exact (World.step_outcome hr).exclusive ht.2.2

/-- Where no start that would be admitted gets the lock between a start that succeeded and the next
update, start writes are apart. -/
theorem starts_apart_of_held_back (h : run step (start m ats db now mono) ls = some s)
    (hheld : ∀ t l t' q at_, Takes step (start m ats db now mono) ls t l t' →
      l.clock = some at_ → t.world.granted? l = some q → q.verb = .start →
      startPending t.trace = true → t.world.Admits q at_ = false) :
    StartsApart s.trace := by
  induction ls using List.reverseRecOn generalizing s with
  | nil =>
    obtain rfl := Option.some.inj h
    intro l₁ i q call l₂ j q' call' l₃ htrace
    simp [start] at htrace
  | append_singleton ls l ih =>
    obtain ⟨t, ht, hstep⟩ := run_snoc_iff.mp h
    obtain ⟨-, htr, hex⟩ := serial_of_run ht
    have hbefore : StartsApart t.trace :=
      ih ht fun a k a' q at_ hak => hheld a k a' q at_ (takes_snoc_iff.mpr (Or.inl hak))
    exact startsApart_step hbefore htr hex hstep fun q at_ =>
      hheld t l s q at_ (takes_snoc_iff.mpr (Or.inr ⟨rfl, ht, hstep⟩))

/-- Two operators hold a token each; the second queues behind the first. -/
def twoStarts : List Label :=
  [.input (.poll 1 (siteReading 1 1)) [], .issue "ann" (some .start) "T1" (clockAt 2),
    .issue "bob" (some .start) "T2" (clockAt 2),
    .execute ⟨.start, "T1", "ann", .operator⟩ (clockAt 3),
    .execute ⟨.start, "T2", "bob", .operator⟩ (clockAt 3), .returned 2 none (clockAt 4)]

/-- A start that would be admitted over a pending one gets the lock in this step. -/
def overtakes (s : Service) (l : Label) : Bool :=
  (s.world.granted? l).any fun q => l.clock.any fun at_ =>
    q.verb = .start && startPending s.trace && s.world.Admits q at_

/-- The engine is seen running before the second start gets the lock, which is then refused. -/
theorem second_start_refused :
    ∃ s, run step (start siteMap none .empty 0 0)
        (twoStarts ++ [.input (.poll 4 (siteReading 2 4)) [], .wake 3 "" (clockAt 4)]) = some s ∧
      .denied 3 (.invalidState .start .running) ∈ s.trace ∧ StartsApart s.trace := by
  have heval : (run step (start siteMap none .empty 0 0)
      (twoStarts ++ [.input (.poll 4 (siteReading 2 4)) [], .wake 3 "" (clockAt 4)])).any
      (fun s => .denied 3 (.invalidState .start .running) ∈ s.trace) = true := by
    decide +kernel
  obtain ⟨s, hs, hd⟩ := (Option.any_eq_true _ _).mp heval
  refine ⟨s, hs, of_decide_eq_true hd, starts_apart_of_held_back hs ?_⟩
  intro t l t' q at_ ht hclock hgrant hq hpending
  have htest := ht.test_of_everyStep (fun t l _ => !t.overtakes l) (by decide +kernel)
  simpa [overtakes, hclock, hgrant, hq, hpending] using htest

/-- With no update in between, both starts are written over the same snapshot. -/
theorem second_start_written :
    ∃ s, run step (start siteMap none .empty 0 0) (twoStarts ++ [.wake 3 "" (clockAt 4)]) = some s ∧
      ¬ StartsApart s.trace := by
  have heval : (run step (start siteMap none .empty 0 0)
      (twoStarts ++ [.wake 3 "" (clockAt 4)])).any (fun s =>
      s.trace.drop 4 = [.write 2 (.execute ⟨.start, "T1", "ann", .operator⟩) (.single 0x0130 1),
        .returned 2 (.execute ⟨.start, "T1", "ann", .operator⟩) none,
        .token 3 (.consumed ⟨"T2", "bob", 2, 32, 32, some .start⟩ 4),
        .write 3 (.execute ⟨.start, "T2", "bob", .operator⟩) (.single 0x0130 1)]) = true := by
    decide +kernel
  obtain ⟨s, hs, htest⟩ := (Option.any_eq_true _ _).mp heval
  refine ⟨s, hs, fun hapart => ?_⟩
  have htrace := List.take_append_drop 4 s.trace
  rw [of_decide_eq_true htest] at htrace
  have hbetween := hapart (s.trace.take 4) 2 ⟨.start, "T1", "ann", .operator⟩ (.single 0x0130 1)
    [.returned 2 (.execute ⟨.start, "T1", "ann", .operator⟩) none,
      .token 3 (.consumed ⟨"T2", "bob", 2, 32, 32, some .start⟩ 4)]
    3 ⟨.start, "T2", "bob", .operator⟩ (.single 0x0130 1) [] (by simpa using htrace.symm) rfl rfl
  rcases hbetween with ⟨e, he⟩ | ⟨m₁, m₂, heq, hu⟩
  · simp at he
  · have hmem : Obs.updated ∈
        m₁ ++ .returned 2 (.execute ⟨.start, "T1", "ann", .operator⟩) none :: m₂ := by
      simp [hu]
    rw [← heq] at hmem
    simp at hmem

end Run

end Service

end GenWatch

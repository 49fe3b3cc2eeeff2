import GenWatch.System.Gate

/-! # Transfer-switch commands that wait for the control lock

A transfer-switch command checks its gates under its own lock and then waits for the
generator's control lock to consume its token. While another command holds that lock
across a slow write, polls of the companion go on, and nothing is checked again after
the wait. A command that does not have to wait is written over the state it was
checked in.
-/

namespace GenWatch

open Transition

def AtsRequest.asserts (r : AtsRequest) : Bool :=
  (atsCommandSpecs r.command).any (AtsControlService.isAssert · r)

structure AssertGate (ats : AtsService) (heap : CommsHeap) (r : AtsRequest) : Prop where
  authoritative : ats.isAuthoritative heap = true
  faults : ats.snap.faultCodes ∩ assertBlockingFaults = ∅
  transfer : r.command = .forceTransfer → r.override = true ∨ ats.snap.normalAvailable ≠ some true

theorem assertGate_iff {ats : AtsService} {heap : CommsHeap} {r : AtsRequest} :
    AssertGate ats heap r ↔ AtsControlService.assertDenial ats heap r = none := by
  unfold AtsControlService.assertDenial
  constructor
  · rintro ⟨hauth, hfaults, htransfer⟩
    have hoverride : ¬(r.command = .forceTransfer ∧ r.override = false ∧
        ats.snap.normalAvailable = some true) := by
      rintro ⟨hcommand, hno, havailable⟩
      rcases htransfer hcommand with hyes | haway
      · rw [hno] at hyes
        cases hyes
      · exact haway havailable
    simp [hauth, hfaults, hoverride]
  · intro h
    split at h
    · cases h
    rename_i hauth
    dsimp only at h
    split at h
    · cases h
    rename_i hfaults
    split at h
    · cases h
    rename_i hoverride
    refine ⟨Bool.not_eq_false _ ▸ hauth, not_not.mp hfaults, fun hcommand => ?_⟩
    cases hyes : r.override with
    | true => exact Or.inl rfl
    | false => exact Or.inr fun havailable => hoverride ⟨hcommand, hyes, havailable⟩

namespace World

variable {w : World} {l : Label} {r : World × List Obs}

/-- The gate of an assert is open. -/
def AssertOpen (w : World) (q : AtsRequest) : Prop :=
  ∃ ats, w.mon.ats = some ats ∧ AssertGate ats w.mon.heap q

/-- The transfer-switch command that gets the control lock after it had to wait for it, where its
token can still be spent. -/
def resumed? (w : World) : Label → Option AtsRequest
  | .wake i _ at_ =>
    match w.tasks i with
    | .atsToken q _ => if w.spendable q.token q.operator q.command at_ then some q else none
    | _ => none
  | _ => none

theorem AtsPassed.assertOpen {q : AtsRequest} {ctl : ControlDef} (h : AtsPassed w q ctl)
    (hq : q.asserts = true) : w.AssertOpen q := by
  obtain ⟨ats, spec, hats, hspec, hgate⟩ := h
  have hassert : AtsControlService.isAssert spec q = true := by
    simpa [AtsRequest.asserts, hspec] using hq
  refine ⟨ats, hats, assertGate_iff.mpr ?_⟩
  unfold AtsControlService.gate at hgate
  split at hgate
  · cases hgate
  split at hgate
  · cases hgate
  rename_i hnone
  simpa [hassert] using hnone

theorem Outcome.of_ats_write (h : Outcome w l r) {i : ℕ} {q : AtsRequest} {call : WriteCall}
    (hw : .write i (.atsExecute q) call ∈ r.2) :
    w.resumed? l = some q ∨ ∃ ctl, AtsPassed w q ctl := by
  obtain ⟨v, at_, t, ctl, ct, c, hwrites⟩ := h.writes_of_mem hw
  have hspend : w.spendable q.token q.operator q.command at_ = true := hwrites.spendable
  obtain ⟨he, -, hp, -, -, -⟩ := hwrites
  cases hp with
  | atsExecute =>
    rcases he.origin with ⟨fresh, rfl, htask⟩ | ⟨-, hseeks⟩
    · left
      simp [resumed?, ← htask, hspend]
    · exact Or.inr ⟨ctl, hseeks.passed q ctl rfl⟩

theorem write_mem_atsTokenLocked {v : World} {i : ℕ} {at_ : Clock} {q : AtsRequest}
    {ctl : ControlDef} (h : v.spendable q.token q.operator q.command at_ = true) :
    .write i (.atsExecute q) (.ofControl ctl) ∈ (v.atsTokenLocked i at_ q ctl).2 := by
  obtain ⟨ct, c, hrun⟩ := spendable_iff.mp h
  simp [atsTokenLocked, hrun]

theorem write_of_wake {i : ℕ} {fresh : String} {at_ : Clock} {q : AtsRequest} {ctl : ControlDef}
    (h : w.step (.wake i fresh at_) = some r) (htask : w.tasks i = .atsToken q ctl)
    (hspend : w.spendable q.token q.operator q.command at_ = true) :
    .write i (.atsExecute q) (.ofControl ctl) ∈ r.2 := by
  obtain ⟨v, hv, h⟩ := Option.bind_eq_some_iff.mp h
  obtain ⟨-, rfl⟩ := tick_eq_some.mp hv
  obtain ⟨lock, -, h⟩ := Option.bind_eq_some_iff.mp h
  simp only [htask, locked, Option.some.injEq] at h
  subst h
  exact write_mem_atsTokenLocked hspend

theorem resumed?_eq_some {q : AtsRequest} :
    w.resumed? l = some q ↔ ∃ i fresh at_ ctl, l = .wake i fresh at_ ∧
      w.tasks i = .atsToken q ctl ∧ w.spendable q.token q.operator q.command at_ = true := by
  constructor
  · intro hq
    unfold resumed? at hq
    split at hq
    · rename_i i fresh at_
      split at hq
      · rename_i q' ctl htask
        split at hq
        · rename_i hspend
          obtain rfl := Option.some.inj hq
          exact ⟨i, fresh, at_, ctl, rfl, htask, hspend⟩
        · cases hq
      · cases hq
    · cases hq
  · rintro ⟨i, fresh, at_, ctl, rfl, htask, hspend⟩
    simp [resumed?, htask, hspend]

/-- A command that is resumed writes. -/
theorem write_of_resumed {q : AtsRequest} (hq : w.resumed? l = some q) (h : w.step l = some r) :
    ∃ i call, .write i (.atsExecute q) call ∈ r.2 := by
  obtain ⟨i, fresh, at_, ctl, rfl, htask, hspend⟩ := resumed?_eq_some.mp hq
  exact ⟨i, .ofControl ctl, write_of_wake h htask hspend⟩

end World

namespace Service

variable (m : RegisterMap) (ats : Option (RegisterMap × Option ℤ)) (db : Database) (now mono : ℚ)
  (ls : List Label)

/-- Every assert is written with its gate open exactly if the gate is open for every assert that is
resumed after it had to wait for the control lock. -/
theorem asserts_open_iff_open_on_resume :
    (∀ s l s' i q call, Takes step (start m ats db now mono) ls s l s' →
      s.Shows l (.write i (.atsExecute q) call) → q.asserts = true → s.world.AssertOpen q) ↔
    ∀ s l s' q, Takes step (start m ats db now mono) ls s l s' →
      s.world.resumed? l = some q → q.asserts = true → s.world.AssertOpen q := by
  constructor
  · intro h s l s' q ht hq hasserts
    obtain ⟨r, hr, -⟩ := step_eq_some.mp ht.step_eq
    obtain ⟨i, call, hw⟩ := World.write_of_resumed hq hr
    exact h s l s' i q call ht ⟨r, hr, hw⟩ hasserts
  · rintro h s l s' i q call ht ⟨r, hr, hw⟩ hasserts
    rcases (World.step_outcome hr).of_ats_write hw with hq | ⟨ctl, hpassed⟩
    · exact h s l s' q ht hq hasserts
    · exact hpassed.assertOpen hasserts

section Example

def companionMap : RegisterMap :=
  { RegisterMap.bare with
    registers := [.plain "icd_version_major", .plain "fault_summary" 1]
    alarmBits := [⟨"fault_summary", 1, "ATS_PI_INPUT_FAULT", "Input fault", .warn, [], 1⟩]
    controls := ⟨[⟨"ats_test", 0x0100, 6, 1, []⟩], by decide⟩ }

def companionReading (faults mono : ℚ) : Reading :=
  let values : Values := fun name =>
    [("icd_version_major", 1), ("fault_summary", faults)].lookup name
  ⟨values, mono, fun name => (values name).map fun _ => mono⟩

/-- The companion is trusted; a start is being written, and a test waits behind it. -/
def testBehindStart : List Label :=
  [.input (.poll 1 (siteReading 1 1)) [], .input (.atsPoll 1 1 .base (companionReading 0 1)) [],
    .issue "ann" (some .start) "T1" (clockAt 2), .issue "bob" (some .test) "T2" (clockAt 2),
    .execute ⟨.start, "T1", "ann", .operator⟩ (clockAt 2),
    .atsExecute ⟨.test, "T2", "bob", .operator, true, false⟩ (clockAt 2)]

/-- The companion reports a fault while the test waits; the test is written all the same. -/
theorem faulted_companion_tested :
    ¬∀ s l s' i q call, Takes step (start siteMap (some (companionMap, none)) .empty 0 0)
      (testBehindStart ++ [.input (.atsPoll 3 3 .prime (companionReading 1 3)) [],
        .returned 2 none (clockAt 4)] ++ [.wake 3 "" (clockAt 4)]) s l s' →
      s.Shows l (.write i (.atsExecute q) call) → q.asserts = true → s.world.AssertOpen q := by
  obtain ⟨s, s', ht, htest⟩ := takes_of_lastStep step
    (start siteMap (some (companionMap, none)) .empty 0 0)
    (testBehindStart ++ [.input (.atsPoll 3 3 .prime (companionReading 1 3)) [],
      .returned 2 none (clockAt 4)]) (.wake 3 "" (clockAt 4))
    (fun s l _ => s.Shows l (.write 3 (.atsExecute ⟨.test, "T2", "bob", .operator, true, false⟩)
      (.single 0x0100 1)) && s.world.mon.ats.any fun ats => !ats.isAuthoritative s.world.mon.heap)
    (by decide +kernel)
  rw [Bool.and_eq_true, decide_eq_true_iff, Option.any_eq_true] at htest
  obtain ⟨hshows, ats, hats, hauth⟩ := htest
  intro h
  obtain ⟨ats', hats', hgate⟩ := h s _ s' 3 _ _ ht hshows rfl
  obtain rfl := Option.some.inj (hats.symm.trans hats')
  simp [hgate.authoritative] at hauth

end Example

end Service

end GenWatch

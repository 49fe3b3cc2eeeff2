import Mathlib.Data.List.Infix
import GenWatch.Alarms.Evidence
import GenWatch.System.Gate

/-! # Derived and remembered engine states

An update keeps the last known engine state when the status words match no rule.
After a completed update, and until the register map is swapped, the snapshot's engine
state is the one its reading derives, unless that reading derives none. So a command
acts on a derived state exactly when the words of the last reading match a rule.
-/

namespace GenWatch

open Transition

namespace StateMachine

/-- The engine state that the last reading derives under the map of the state machine. -/
def readingState (sm : StateMachine) : EngineState :=
  sm.regmap.deriveEngineState sm.snap.lastReading.values

/-- The snapshot's engine state is the derived one, where there is one. -/
def FollowsReading (sm : StateMachine) : Prop :=
  sm.readingState ≠ .unknown → sm.snap.engineState = sm.readingState

theorem followsReading_init (m : RegisterMap) (now : ℚ) : FollowsReading (.init m now) := by
  have hnone : m.engineStateBits.find? (fun r => Reading.empty.values.allSet r.register r.mask) =
      none := by
    rw [List.find?_eq_none]
    rintro rule - ⟨⟩
  have hunknown : m.deriveEngineState Reading.empty.values = .unknown := by
    rw [RegisterMap.deriveEngineState, hnone]
  exact fun hknown => absurd hunknown hknown

theorem Updated.followsReading {env : PollEnv} {reading : Reading} {ref : CommsRef}
    {c c' : Ctx StateMachine} (hu : Updated env reading ref c c') : c'.self.FollowsReading := by
  unfold FollowsReading readingState
  intro hknown
  rw [hu.regmap, hu.lastReading] at hknown ⊢
  rw [hu.engineState, nextEngineState]
  simp [hknown]

end StateMachine

/-- A swapped map and an update cut short leave the engine state behind the reading; a completed
update brings it up again. -/
def Label.settles (settled : Bool) : Label → Bool
  | .reload _ _ _ => false
  | .input (.poll _ _) faults => faults.isEmpty
  | _ => settled

/-- The last update was not cut short by the database, and no map has been swapped since. -/
def settled (ls : List Label) : Bool := ls.foldl Label.settles true

theorem settled_snoc (ls : List Label) (l : Label) :
    settled (ls ++ [l]) = l.settles (settled ls) := by
  simp [settled]

namespace World

variable {w : World} {l : Label} {r : World × List Obs}

/-- The engine state that the last reading derives under the map the commands use. -/
def derivedState (w : World) : EngineState :=
  w.control.regmap.deriveEngineState w.snap.lastReading.values

theorem Outcome.machine (h : Outcome w l r) (hclock : l.clock.isSome) (hl : l.reloads = false) :
    r.1.mon.stateMachine = w.mon.stateMachine := by
  cases h with
  | enters he hlocked =>
    obtain ⟨db, hmon⟩ := (locked_section hlocked).mon
    rw [hmon]
    exact he.unmoved.machine hl
  | denies hu _ _ _ _ _ _ | waits hu _ _ _ _ _ _ | returns hu _ _ _ _ _ => exact hu.machine hl
  | input heq _ =>
    rw [heq] at hclock
    cases hclock

theorem step_reload_machine {m : RegisterMap} {operator : String} {at_ : Clock}
    (h : w.step (.reload m operator at_) = some r) :
    r.1.mon.stateMachine = w.mon.stateMachine.applyRegmap m := by
  obtain ⟨v, hv, h⟩ := Option.bind_eq_some_iff.mp h
  obtain ⟨-, rfl⟩ := spawn_eq_some.mp hv
  unfold reload acquire at h
  split at h
  · obtain ⟨db, hmon⟩ := (locked_section h).mon
    rw [hmon]
    rfl
  · obtain rfl := Option.some.inj h
    rfl

end World

namespace Service

variable {s s' : Service} {l : Label}

/-- After the labels `ls` the engine state follows the reading, when they leave it settled. -/
structure Derives (ls : List Label) (sm : StateMachine) : Prop where
  numeric : sm.NumericDerived
  follows : settled ls = true → sm.FollowsReading

section Step

variable {ls : List Label} {sm sm' : StateMachine}

theorem Derives.unchanged (h : Derives ls sm) (hl : ∀ b, l.settles b = b) (hsm : sm' = sm) :
    Derives (ls ++ [l]) sm' := by
  subst hsm
  refine ⟨h.numeric, fun hset => h.follows ?_⟩
  rwa [settled_snoc, hl] at hset

theorem Derives.reload (h : Derives ls sm) (m : RegisterMap) (operator : String) (at_ : Clock) :
    Derives (ls ++ [.reload m operator at_]) (sm.applyRegmap m) := by
  refine ⟨h.numeric, fun hset => ?_⟩
  rw [settled_snoc] at hset
  cases hset

theorem Derives.poll {mon : Monitor} (h : Derives ls mon.stateMachine) (now : ℚ)
    (reading : Reading) (faults : List Bool) :
    Derives (ls ++ [.input (.poll now reading) faults])
      (mon.onPoll faults now reading).1.stateMachine := by
  refine ⟨?_, fun hset => ?_⟩
  · rw [Monitor.onPoll, Monitor.publish_fst]
    exact (StateMachine.update_retains _ reading .poller _ h.numeric).1
  · obtain rfl : faults = [] := by simpa [settled_snoc, Label.settles] using hset
    obtain ⟨c', hu, hpoll⟩ := mon.onPoll_updated h.numeric now reading
    rw [hpoll]
    exact hu.followsReading

theorem Derives.step (h : Derives ls s.world.mon.stateMachine) (hs : s.step l = some s') :
    Derives (ls ++ [l]) s'.world.mon.stateMachine := by
  obtain ⟨r, hr, rfl⟩ := step_eq_some.mp hs
  have ho := World.step_outcome hr
  cases l with
  | reload m operator at_ =>
    rw [World.step_reload_machine hr]
    exact h.reload m operator at_
  | input i faults =>
    obtain ⟨⟨mon, es⟩, hstep, rfl⟩ := Option.map_eq_some_iff.mp hr
    rcases Monitor.step_cases hstep with ⟨now, reading, rfl, hpoll⟩ |
      ⟨now, mono, tier, reading, ats, rfl, -, hats⟩ | ⟨hi, hmachine, -⟩
    · obtain rfl : mon = _ := congrArg Prod.fst hpoll.symm
      exact h.poll now reading faults
    · refine h.unchanged (fun _ => rfl) ?_
      obtain rfl : mon = _ := congrArg Prod.fst hats.symm
      rw [Monitor.onAtsPoll, Monitor.publish_fst]
    · refine h.unchanged ?_ hmachine
      cases i <;> first | exact fun _ => rfl | cases hi
  | execute | atsExecute | ack | issue | wake | wakeAts | returned =>
    exact h.unchanged (fun _ => rfl) (ho.machine rfl rfl)

end Step

section Run

variable {m : RegisterMap} {ats : Option (RegisterMap × Option ℤ)} {db : Database} {now mono : ℚ}
  {ls : List Label}

theorem derives_of_run (h : run step (start m ats db now mono) ls = some s) :
    Derives ls s.world.mon.stateMachine := by
  induction ls using List.reverseRecOn generalizing s with
  | nil =>
    obtain rfl := Option.some.inj h
    exact ⟨StateMachine.numericDerived_init m now, fun _ => StateMachine.followsReading_init m now⟩
  | append_singleton ls l ih =>
    obtain ⟨t, ht, hstep⟩ := run_snoc_iff.mp h
    exact (ih ht).step hstep

/-- The run `ls` writes the command `q` from the state `s`, which the labels `pre` lead to. -/
def Commands (s₀ : Service) (ls pre : List Label) (s : Service) (q : ControlRequest) : Prop :=
  ∃ l post i call, ls = pre ++ l :: post ∧ run step s₀ pre = some s ∧
    s.Shows l (.write i (.execute q) call)

theorem unknown_not_mem_allowed (verb : Action) : .unknown ∉ allowed verb := by
  cases verb <;> simp [allowed]

theorem Commands.derivedState_mem {pre : List Label} {q : ControlRequest}
    (h : Commands (start m ats db now mono) ls pre s q) (hset : settled pre = true)
    (hmap : s.world.control.regmap.engineStateBits =
      s.world.mon.stateMachine.regmap.engineStateBits)
    (hknown : s.world.derivedState ≠ .unknown) : s.world.derivedState ∈ allowed q.verb := by
  obtain ⟨l, post, i, call, -, hrun, hshows⟩ := h
  obtain ⟨at_, -, hgated⟩ := gated_of_shows hshows
  have hderived : s.world.derivedState = s.world.mon.stateMachine.readingState := by
    rw [World.derivedState, RegisterMap.deriveEngineState, hmap]
    rfl
  have hfollows := (derives_of_run hrun).follows hset (hderived ▸ hknown)
  rw [hderived, ← hfollows]
  exact hgated.state

/-- Where every command is written over a completed update under the map in force, all of them act
on a derived state exactly if the words of every such update match a rule. -/
theorem commands_derived_iff_matched (m : RegisterMap) (ats : Option (RegisterMap × Option ℤ))
    (db : Database) (now mono : ℚ) (ls : List Label)
    (hset : ∀ pre s q, Commands (start m ats db now mono) ls pre s q →
      settled pre = true ∧ s.world.control.regmap.engineStateBits =
        s.world.mon.stateMachine.regmap.engineStateBits) :
    (∀ pre s q, Commands (start m ats db now mono) ls pre s q →
      s.world.derivedState ∈ allowed q.verb) ↔
    ∀ pre s q, Commands (start m ats db now mono) ls pre s q →
      s.world.derivedState ≠ .unknown := by
  constructor
  · intro h pre s q hc heq
    exact unknown_not_mem_allowed q.verb (heq ▸ h pre s q hc)
  · intro h pre s q hc
    obtain ⟨hsettled, hmap⟩ := hset pre s q hc
    exact hc.derivedState_mem hsettled hmap (h pre s q hc)

section Evaluation

variable {s₀ : Service} {pre : List Label} {q : ControlRequest}

theorem commands_of_lastStep (s₀ : Service) (ls : List Label) (l : Label) (i : ℕ)
    (q : ControlRequest) (call : WriteCall) (test : Service → Bool)
    (h : lastStep step s₀ ls l (fun s l _ => s.Shows l (.write i (.execute q) call) && test s) =
      true) : ∃ s, Commands s₀ (ls ++ [l]) ls s q ∧ test s = true := by
  unfold lastStep at h
  split at h
  · cases h
  rename_i s hrun
  split at h
  · cases h
  rw [Bool.and_eq_true, decide_eq_true_iff] at h
  exact ⟨s, ⟨l, [], i, call, rfl, hrun, h.1⟩, h.2⟩

theorem Commands.test_of_everyStep (hc : Commands s₀ ls pre s q) (test : Service → Bool)
    (he : everyStep step s₀ ls (fun s l _ =>
      (s.world.step l).all fun r => !r.2.any Obs.isWrite || test s) = true) : test s = true := by
  obtain ⟨l, post, i, call, rfl, hrun, r, hr, hmem⟩ := hc
  have ht : Takes step s₀ (pre ++ l :: post) s l ⟨r.1, s.trace ++ r.2⟩ :=
    ⟨pre, post, rfl, hrun, step_eq_some.mpr ⟨r, hr, rfl⟩⟩
  have htest := ht.test_of_everyStep _ he
  have hany : r.2.any Obs.isWrite = true := List.any_eq_true.mpr ⟨_, hmem, rfl⟩
  simpa [hr, hany] using htest

theorem Commands.pre_mem_inits (hc : Commands s₀ ls pre s q) : pre ∈ ls.inits := by
  obtain ⟨l, post, -, -, rfl, -, -⟩ := hc
  exact (List.mem_inits _ _).mpr (List.prefix_append _ _)

end Evaluation

/-- The engine is seen stopped, and an operator takes a token for a start. -/
def stoppedThenToken : List Label :=
  [.input (.poll 1 (siteReading 1 1)) [], .issue "ann" (some .start) "T1" (clockAt 2)]

/-- A start over a reading that says the engine is stopped acts on that reading. -/
theorem start_on_matched_reading :
    ∃ s, Commands (start siteMap none .empty 0 0)
        (stoppedThenToken ++ [.execute ⟨.start, "T1", "ann", .operator⟩ (clockAt 3)])
        stoppedThenToken s ⟨.start, "T1", "ann", .operator⟩ ∧
      s.world.derivedState ∈ allowed .start := by
  obtain ⟨s, hc, -⟩ := commands_of_lastStep (start siteMap none .empty 0 0) stoppedThenToken
    (.execute ⟨.start, "T1", "ann", .operator⟩ (clockAt 3)) 1 ⟨.start, "T1", "ann", .operator⟩
    (.single 0x0130 1) (fun _ => true) (by decide +kernel)
  refine ⟨s, hc, (commands_derived_iff_matched siteMap none .empty 0 0 _ ?_).mpr ?_ _ s _ hc⟩
  · intro pre s q hc
    have hall : ∀ pre ∈ (stoppedThenToken ++
        [Label.execute ⟨.start, "T1", "ann", .operator⟩ (clockAt 3)]).inits,
        settled pre = true := by
      decide
    refine ⟨hall pre hc.pre_mem_inits, of_decide_eq_true ?_⟩
    exact hc.test_of_everyStep (fun s => s.world.control.regmap.engineStateBits =
      s.world.mon.stateMachine.regmap.engineStateBits) (by decide +kernel)
  · intro pre s q hc
    exact of_decide_eq_true (hc.test_of_everyStep (fun s => s.world.derivedState ≠ .unknown)
      (by decide +kernel))

/-- The next reading is fresh and matches no rule; the start is written all the same. -/
theorem unmatched_reading_starts :
    ¬∀ pre s q, Commands (start siteMap none .empty 0 0)
      (stoppedThenToken ++ [.input (.poll 3 (siteReading 4 3)) []] ++
        [.execute ⟨.start, "T1", "ann", .operator⟩ (clockAt 3)]) pre s q →
      s.world.derivedState ∈ allowed q.verb := by
  obtain ⟨s, hc, hs⟩ := commands_of_lastStep (start siteMap none .empty 0 0)
    (stoppedThenToken ++ [.input (.poll 3 (siteReading 4 3)) []])
    (.execute ⟨.start, "T1", "ann", .operator⟩ (clockAt 3)) 1 ⟨.start, "T1", "ann", .operator⟩
    (.single 0x0130 1) (fun s => s.world.derivedState ∉ allowed .start) (by decide +kernel)
  exact fun h => of_decide_eq_true hs (h _ s _ hc)

end Run

end Service

end GenWatch

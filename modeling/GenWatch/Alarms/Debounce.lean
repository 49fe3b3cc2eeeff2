import GenWatch.Prelude.Queue
import GenWatch.Alarms.Evidence
import GenWatch.Alarms.CrossCheck
import GenWatch.Polling.Consumer

/-! # What the debounce of an alarm bit counts

The counter of a code advances at every callback, by the number of its rules that the
reading shows set, whichever tier was polled and whether or not the value is new. So it
counts prime polls of a rule's bit only as long as the callbacks are those of prime
polls that decode the rule's register, and no other rule of the code is set.
-/

namespace GenWatch

open Handler ServiceM Transition

namespace StateMachine

def KeepsCounts (c c' : Ctx StateMachine) : Prop :=
  c'.self.regmap = c.self.regmap ∧ c'.self.alarmPollCounts = c.self.alarmPollCounts

instance : Std.Refl KeepsCounts := ⟨fun _ => ⟨rfl, rfl⟩⟩

instance : IsTrans (Ctx StateMachine) KeepsCounts :=
  ⟨fun _ _ _ h h' => ⟨h'.1.trans h.1, h'.2.trans h.2⟩⟩

theorem keepsCounts_dbCall {α : Type} (op : Database → α × Database) :
    Relates KeepsCounts (dbCall op : ServiceM StateMachine α) :=
  relates_dbCall (fun _ _ => ⟨rfl, rfl⟩) fun _ _ => ⟨rfl, rfl⟩

theorem keepsCounts_emit (e : Event) : Relates KeepsCounts (emit e) :=
  Relates.modify fun _ => ⟨rfl, rfl⟩

theorem keepsCounts_modifySelf {f : StateMachine → StateMachine}
    (h : ∀ sm, (f sm).regmap = sm.regmap ∧ (f sm).alarmPollCounts = sm.alarmPollCounts) :
    Relates KeepsCounts (modifySelf f) :=
  Relates.modify fun c => h c.self

theorem keepsCounts_rules : RoutineRules KeepsCounts where
  calls := keepsCounts_dbCall
  emits e _ := keepsCounts_emit e
  moves _ hf := keepsCounts_modifySelf fun sm => ⟨(hf sm).1, (hf sm).2.1⟩

theorem keepsCounts_updateLoadSource (env : PollEnv) (reading : Reading) :
    Relates KeepsCounts (updateLoadSource env reading) :=
  relates_updateLoadSource (fun _ _ => keepsCounts_modifySelf fun _ => ⟨rfl, rfl⟩)
    (fun _ _ _ => keepsCounts_emit _) (fun _ _ _ _ _ => keepsCounts_dbCall _) env reading

theorem keepsCounts_afterAlarms (m : RegisterMap) (reading : Reading) (env : PollEnv)
    (comms : CommsRef) :
    Relates KeepsCounts (do
      updateNumeric m reading env.now
      updateComms env comms
      updatePanelMode m reading
      updateLoadSource env reading
      checkLoadsourceDisagreement env reading
      finishUpdate reading comms) := by
  have rules := keepsCounts_rules
  refine Relates.bind (rules.alarmRules.relates_updateNumeric _ _ _) fun _ => ?_
  refine Relates.bind (rules.relates_updateComms _ _) fun _ => ?_
  refine Relates.bind (rules.relates_updatePanelMode _ _) fun _ => ?_
  refine Relates.bind (keepsCounts_updateLoadSource _ _) fun _ => ?_
  refine Relates.bind (rules.relates_checkLoadsourceDisagreement _ _) fun _ => ?_
  exact keepsCounts_modifySelf fun _ => ⟨rfl, rfl⟩

/-- The update gets to its alarm bits: it logs no new engine state, or that log write succeeds. -/
def Counts (sm : StateMachine) (values : Values) (faults : List Bool) : Prop :=
  nextEngineState sm.regmap values sm.snap.engineState = sm.snap.engineState ∨
    faults.head? ≠ some true

instance (sm : StateMachine) (values : Values) (faults : List Bool) :
    Decidable (sm.Counts values faults) :=
  inferInstanceAs (Decidable (_ ∨ _))

theorem completed_updateEngineState_iff (reading : Reading) (now : ℚ) (c : Ctx StateMachine) :
    completed ((updateEngineState c.self.regmap reading now).run c) = true ↔
      c.self.Counts reading.values c.faults := by
  obtain ⟨sm, db, emitted, faults⟩ := c
  rw [updateEngineState, bind_run (getSelf_ok.mpr ⟨rfl, rfl⟩), Counts]
  dsimp only
  by_cases hsame : nextEngineState sm.regmap reading.values sm.snap.engineState =
      sm.snap.engineState
  · rw [if_neg (not_not.mpr hsame)]
    exact iff_of_true rfl (Or.inl hsame)
  · rw [if_pos hsame, or_iff_right hsame]
    rcases faults with _ | ⟨_ | _, rest⟩
    · exact iff_of_true rfl (by simp)
    · exact iff_of_true rfl (by simp)
    · exact iff_of_false Bool.false_ne_true (by simp)

/-- The counters after a whole update, completed or not. -/
theorem update_counts (env : PollEnv) (reading : Reading) (comms : CommsRef)
    (c : Ctx StateMachine) :
    (finalState ((update env reading comms).run c)).self.regmap = c.self.regmap ∧
    (finalState ((update env reading comms).run c)).self.alarmPollCounts =
      if c.self.Counts reading.values c.faults then countPolls c.self.alarmPollCounts
        ((c.self.regmap.deriveActiveAlarms reading.values).map AlarmBit.code)
      else c.self.alarmPollCounts := by
  have hcompleted := completed_updateEngineState_iff reading env.now c
  have k₁ := keepsCounts_rules.relates_updateEngineState c.self.regmap reading env.now c
  rw [update, bind_run (getSelf_ok.mpr ⟨rfl, rfl⟩)]
  dsimp only
  cases h₁ : (updateEngineState c.self.regmap reading env.now).run c with
  | error e c₁ =>
    rw [h₁] at hcompleted k₁
    rw [bind_error h₁, if_neg (mt hcompleted.mpr (by simp [completed]))]
    exact k₁
  | ok u c₁ =>
    rw [h₁] at hcompleted k₁
    obtain ⟨hmap, hcounts⟩ : c₁.self.regmap = c.self.regmap ∧
      c₁.self.alarmPollCounts = c.self.alarmPollCounts := k₁
    rw [bind_run h₁, if_pos (hcompleted.mp rfl), ← hmap, ← hcounts]
    have k₂ := keepsCounts_rules.alarmRules.after_count c₁.self.regmap reading env.now c₁
    cases h₂ : (updateAlarms c₁.self.regmap reading env.now).run c₁ with
    | error e c₂ =>
      rw [h₂] at k₂
      rw [bind_error h₂]
      exact k₂
    | ok u c₂ =>
      rw [h₂] at k₂
      rw [bind_run h₂]
      have k₃ := keepsCounts_afterAlarms c₁.self.regmap reading env comms c₂
      exact ⟨k₃.1.trans k₂.1, k₃.2.trans k₂.2⟩

theorem countPolls_eq (counts : String → ℕ) (codes : List String) (code : String) :
    countPolls counts codes code = if code ∈ codes then counts code + codes.count code else 0 := by
  have hfold : ∀ counts : String → ℕ,
      codes.foldl (fun k c => Function.update k c (k c + 1)) counts code =
        counts code + codes.count code := by
    induction codes with
    | nil => simp
    | cons c codes ih =>
      intro counts
      rw [List.foldl_cons, ih, List.count_cons]
      by_cases hc : c = code
      · subst hc
        simp [add_comm, add_left_comm]
      · simp [hc, Function.update_of_ne (Ne.symm hc)]
  simp only [countPolls, hfold]

end StateMachine

namespace AlarmDesk

/-- A callback of the generator's poller, with what the update reads of the companion and which of
its database calls raise. -/
def onPoll (d : AlarmDesk) (health : CommsHealth) (cb : Callback)
    (input : Option AtsView × List Bool) : AlarmDesk :=
  d.update ⟨cb.now, input.1, Function.update (fun _ => .initial 1500) .poller health⟩ cb.reading
    .poller input.2

def onElsewhere (d : AlarmDesk) (db : Database) : AlarmDesk := { d with db := db, published := [] }

end AlarmDesk

/-- A callback as the debounce sees it: the poll it belongs to, the values of the reading, and
whether the update got to count. -/
structure Counted where
  done : Completion
  values : Values
  counts : Bool

/-- The generator's poller with its state machine, and the callbacks so far, newest first. -/
structure DebounceWatch where
  link : Polled AlarmDesk
  log : List Counted

namespace DebounceWatch

open StateMachine

abbrev Label := Polled.Label (Option AtsView × List Bool) Database

def start (m : RegisterMap) (now mono : ℚ) (db : Database) : DebounceWatch :=
  ⟨.start m now mono (.start m db now), []⟩

def sm (w : DebounceWatch) : StateMachine := w.link.consumer.sm

def served (w : DebounceWatch) : Label → List Counted
  | .loop l input =>
    match w.link.callback l, w.link.journal.loops.completed l with
    | some cb, some c => [⟨c, cb.reading.values, w.sm.Counts cb.reading.values input.2⟩]
    | _, _ => []
  | .other _ => []

def step (w : DebounceWatch) (k : Label) : Option DebounceWatch :=
  (Polled.step AlarmDesk.onPoll AlarmDesk.onElsewhere w.link k).map fun link =>
    ⟨link, w.served k ++ w.log⟩

/-- The update raises the alarm of a rule: the rule is set, debounced and not silenced, and its
code was not displayed. -/
def Raises (w : DebounceWatch) (e : Counted) (ab : AlarmBit) : Prop :=
  e.counts = true ∧ ab.code ∉ w.sm.snap.activeAlarms ∧
    ab ∈ effectiveAlarms (countPolls w.sm.alarmPollCounts
        ((w.sm.regmap.deriveActiveAlarms e.values).map AlarmBit.code))
      (nextEngineState w.sm.regmap e.values w.sm.snap.engineState)
      (w.sm.regmap.deriveActiveAlarms e.values)

instance (w : DebounceWatch) (e : Counted) (ab : AlarmBit) : Decidable (w.Raises e ab) :=
  inferInstanceAs (Decidable (_ ∧ _))

/-- A prime poll decoded the register of the rule with its bit set. -/
def FreshSet (m : RegisterMap) (ab : AlarmBit) (c : Completion) : Prop :=
  ∃ reg ∈ m.tier .prime, reg.name = ab.register ∧
    ∃ v ∈ readRegister c.poll.results reg, Int.land (truncInt v) ab.mask ≠ 0

/-- Each of the last polls of the prime tier, as many as the rule asks for, decoded the register
of the rule with its bit set. -/
def SeenByPolls (m : RegisterMap) (ab : AlarmBit) (done : List Completion) : Prop :=
  let primes := done.filter fun c => c.poll.tier = .prime
  ab.minPollCount ≤ primes.length ∧ ∀ c ∈ primes.take ab.minPollCount, FreshSet m ab c

/-- A callback that counts for the rule alone: that of a prime poll which decoded the register of
the rule, whose update got to count and found no other rule of the code set. -/
structure CountsPoll (m : RegisterMap) (ab : AlarmBit) (e : Counted) : Prop where
  counts : e.counts = true
  prime : e.done.poll.tier = .prime
  fresh : ∃ reg ∈ m.tier .prime, reg.name = ab.register ∧
    (readRegister e.done.poll.results reg).isSome
  sole : ((m.deriveActiveAlarms e.values).filter fun rule => rule.code = ab.code).Sublist [ab]

theorem countsPoll_iff {m : RegisterMap} {ab : AlarmBit} {e : Counted} :
    CountsPoll m ab e ↔ e.counts = true ∧ e.done.poll.tier = .prime ∧
      (∃ reg ∈ m.tier .prime, reg.name = ab.register ∧
        (readRegister e.done.poll.results reg).isSome) ∧
      ((m.deriveActiveAlarms e.values).filter fun rule => rule.code = ab.code).Sublist [ab] :=
  ⟨fun h => ⟨h.counts, h.prime, h.fresh, h.sole⟩, fun ⟨hc, hp, hf, hs⟩ => ⟨hc, hp, hf, hs⟩⟩

instance (m : RegisterMap) (ab : AlarmBit) (e : Counted) : Decidable (CountsPoll m ab e) :=
  decidable_of_iff' _ countsPoll_iff

structure Sound (m : RegisterMap) (w : DebounceWatch) : Prop where
  timely : w.link.Timely m
  numeric : w.sm.NumericDerived
  regmap : w.sm.regmap = m
  done : w.log.map Counted.done = w.link.journal.done
  fresh : ∀ e ∈ w.log, ∀ reg ∈ m.registers, e.done.poll.tier = reg.tier →
    ∀ v ∈ readRegister e.done.poll.results reg, ∀ v' ∈ e.values reg.name, v' = v
  counted : ∀ ab n, (∀ e ∈ w.log.take n, CountsPoll m ab e) → n ≤ w.sm.alarmPollCounts ab.code →
    n ≤ w.log.length ∧ ∀ e ∈ w.log.take n, ab.code ∈ setCodes m e.values

section Steps

variable {m : RegisterMap} {w w' : DebounceWatch} {k : Label}

theorem completed_of_callback (hm : w.link.Timely m) {l : PollLoops.Label}
    {input : Option AtsView × List Bool} {link : Polled AlarmDesk}
    (hs : Polled.step AlarmDesk.onPoll AlarmDesk.onElsewhere w.link (.loop l input) = some link)
    {cb : Callback} (hcb : w.link.callback l = some cb) :
    ∃ c, w.link.journal.loops.completed l = some c ∧
      link.journal.done = c :: w.link.journal.done ∧ c.poll.regmap = m ∧
      cb.reading = c.poll.reading w.link.journal.loops.poller.reading c.now c.mono := by
  obtain ⟨-, j, cb', hadvance, rfl⟩ := Polled.step_loop hs
  obtain rfl : cb' = some cb := by
    rw [Polled.callback, hadvance] at hcb
    exact hcb
  obtain ⟨-, s₁, hstep, rfl⟩ := PollJournal.advance_eq_some hadvance
  rcases PollLoops.step_completed hstep with
    ⟨tier, r, now, mono, poll, rfl, htask, hcompleted, hreading, -, -, hcallback⟩ |
    ⟨-, -, hcallback⟩
  · obtain rfl := Option.some.inj hcallback
    refine ⟨_, hcompleted, by simp [hcompleted], ?_, hreading⟩
    exact (poll.returned_same r).2.trans (hm.consistent.onMap.polls tier poll htask).1
  · cases hcallback

/-- What a step does: it keeps what is counted, or it serves the callback of a poll. -/
theorem step_cases (hm : w.link.Timely m) (h : step w k = some w') :
    (w.served k = [] ∧ w'.log = w.log ∧ w'.sm = w.sm ∧
      w'.link.journal.done = w.link.journal.done) ∨
    ∃ l input cb c e, k = .loop l input ∧ w.served k = [e] ∧ w'.log = e :: w.log ∧
      e = ⟨c, cb.reading.values, w.sm.Counts cb.reading.values input.2⟩ ∧
      w'.link.journal.done = c :: w.link.journal.done ∧ c.poll.regmap = m ∧
      cb.reading = c.poll.reading w.link.journal.loops.poller.reading c.now c.mono ∧
      w'.link.consumer = w.link.consumer.onPoll w'.link.journal.loops.poller.link.health cb
        input := by
  obtain ⟨link, hlink, rfl⟩ := Option.map_eq_some_iff.mp h
  cases k with
  | other db =>
    obtain rfl := Polled.step_other hlink
    exact Or.inl ⟨rfl, rfl, rfl, rfl⟩
  | loop l input =>
    cases hcb : w.link.callback l with
    | none =>
      have hserved : w.served (.loop l input) = [] := by simp [served, hcb]
      obtain ⟨hconsumer, hdone⟩ := Polled.step_quiet hlink hcb
      exact Or.inl ⟨hserved, by simp [hserved], congrArg AlarmDesk.sm hconsumer, hdone⟩
    | some cb =>
      obtain ⟨c, hc, hdone, hmap, hreading⟩ := completed_of_callback hm hlink hcb
      obtain ⟨hconsumer, -⟩ := Polled.step_callback hlink hcb
      have hserved : w.served (.loop l input) =
          [⟨c, cb.reading.values, w.sm.Counts cb.reading.values input.2⟩] := by
        simp [served, hcb, hc]
      exact Or.inr ⟨l, input, cb, c, _, rfl, hserved, by simp [hserved], rfl, hdone, hmap,
        hreading, hconsumer⟩

theorem onPoll_counts (d : AlarmDesk) (health : CommsHealth) (cb : Callback)
    (input : Option AtsView × List Bool) :
    (d.onPoll health cb input).sm.regmap = d.sm.regmap ∧
    (d.onPoll health cb input).sm.alarmPollCounts =
      if d.sm.Counts cb.reading.values input.2 then countPolls d.sm.alarmPollCounts
        ((d.sm.regmap.deriveActiveAlarms cb.reading.values).map AlarmBit.code)
      else d.sm.alarmPollCounts := by
  rw [AlarmDesk.onPoll, (AlarmDesk.update_final _ _ _ _ _).1]
  exact update_counts _ _ _ _

theorem raises_of_announced {d : AlarmDesk} (hd : d.sm.NumericDerived) {health : CommsHealth}
    {cb : Callback} {input : Option AtsView × List Bool} {code : String} (hb : ¬IsDerived code)
    (h : code ∈ raisedCodes (d.onPoll health cb input).published) :
    d.sm.Counts cb.reading.values input.2 ∧ code ∉ d.sm.snap.activeAlarms ∧
      code ∈ effectiveCodes d.sm.regmap d.sm.alarmPollCounts
        (nextEngineState d.sm.regmap cb.reading.values d.sm.snap.engineState)
        cb.reading.values := by
  unfold AlarmDesk.onPoll AlarmDesk.update at h
  split at h
  · rename_i u c' hok
    obtain ⟨new, he, -, hraised, -⟩ := (update_updated hd hok).emits
    obtain rfl : c'.emitted = new := he
    have hmem : code ∈ raisedCodes c'.emitted ∩ bitCodes := ⟨h, hb⟩
    rw [hraised] at hmem
    obtain ⟨⟨heffective, hshown⟩, -⟩ := hmem
    refine ⟨?_, fun hmem => hshown ⟨hmem, hb⟩, heffective.1⟩
    rw [update, bind_run (getSelf_ok.mpr ⟨rfl, rfl⟩)] at hok
    obtain ⟨c₁, h₁, -⟩ := seq_ok.mp hok
    have hiff := completed_updateEngineState_iff cb.reading cb.now ⟨d.sm, d.db, [], input.2⟩
    rw [h₁] at hiff
    exact hiff.mp rfl
  · simp at h

theorem values_of_fresh (hm : m.Accepted) {c : Completion} (hmap : c.poll.regmap = m)
    (current : Reading) {reg : RegisterDef} (hreg : reg ∈ m.registers)
    (htier : c.poll.tier = reg.tier) {v v' : ℚ} (hv : v ∈ readRegister c.poll.results reg)
    (hv' : v' ∈ (c.poll.reading current c.now c.mono).values reg.name) : v' = v := by
  have hnodup : ((c.poll.regmap.tier c.poll.tier).map RegisterDef.name).Nodup := by
    rw [hmap]
    exact hm.nodup_tier _
  have hmem : reg ∈ c.poll.regmap.tier c.poll.tier := by
    rw [hmap, htier]
    exact List.mem_filter.mpr ⟨hreg, by simp⟩
  have hentry := Poll.reading_entry current c.now c.mono hnodup hmem
  rw [show readRegister c.poll.results reg = some v from hv, Reading.stampEntry] at hentry
  have hvalue := congrArg Prod.fst hentry
  rw [Reading.entry] at hvalue
  simp only [Reading.evictEntry] at hvalue
  split at hvalue
  · rw [show (c.poll.reading current c.now c.mono).values reg.name = some v' from hv'] at hvalue
    cases hvalue
  · exact Option.some.inj (hv'.symm.trans hvalue)

theorem count_le_one {ab : AlarmBit} {rules : List AlarmBit}
    (h : (rules.filter fun rule => rule.code = ab.code).Sublist [ab]) :
    (rules.map AlarmBit.code).count ab.code ≤ 1 := by
  have hlen : (rules.map AlarmBit.code).count ab.code =
      (rules.filter fun rule => rule.code = ab.code).length := by
    rw [List.count_eq_countP, List.countP_map, List.countP_eq_length_filter]
    congr 1
  rw [hlen]
  exact h.length_le

/-- One more callback: the counter reaches past it only if the callback counts for the code. -/
theorem counted_cons {new : Counted} {log : List Counted} {counts counts' : String → ℕ}
    (h : ∀ ab n, (∀ e ∈ log.take n, CountsPoll m ab e) → n ≤ counts ab.code →
      n ≤ log.length ∧ ∀ e ∈ log.take n, ab.code ∈ setCodes m e.values)
    (hnext : new.counts = true → counts' = countPolls counts
      ((m.deriveActiveAlarms new.values).map AlarmBit.code)) :
    ∀ ab n, (∀ e ∈ (new :: log).take n, CountsPoll m ab e) → n ≤ counts' ab.code →
      n ≤ (new :: log).length ∧ ∀ e ∈ (new :: log).take n, ab.code ∈ setCodes m e.values := by
  intro ab n hall hn
  cases n with
  | zero => exact ⟨Nat.zero_le _, by simp⟩
  | succ n =>
    rw [List.take_succ_cons] at hall ⊢
    obtain ⟨hfirst, hrest⟩ := List.forall_mem_cons.mp hall
    rw [hnext hfirst.counts, countPolls_eq] at hn
    split at hn
    · rename_i hset
      have hone := count_le_one hfirst.sole
      obtain ⟨hlen, hall'⟩ := h ab n hrest (by omega)
      exact ⟨Nat.succ_le_succ hlen, List.forall_mem_cons.mpr ⟨hset, hall'⟩⟩
    · cases hn

theorem sound_start (m : RegisterMap) (now mono : ℚ) (db : Database) :
    (start m now mono db).Sound m where
  timely := Polled.timely_start m now mono _
  numeric := numericDerived_init m now
  regmap := rfl
  done := rfl
  fresh _ he := by cases he
  counted _ n _ hn := by
    obtain rfl : n = 0 := Nat.le_zero.mp hn
    exact ⟨le_rfl, by simp⟩

theorem Sound.step (hm : m.Accepted) (hs : w.Sound m) (h : DebounceWatch.step w k = some w') :
    w'.Sound m := by
  have htimely : w'.link.Timely m := by
    obtain ⟨link, hlink, rfl⟩ := Option.map_eq_some_iff.mp h
    exact hs.timely.step hm hlink
  obtain ⟨-, hlog, hsm, hdone⟩ | ⟨l, input, cb, c, e, -, -, hlog, rfl, hdone, hmap, hreading,
    hconsumer⟩ := step_cases hs.timely h
  · refine ⟨htimely, hsm ▸ hs.numeric, hsm ▸ hs.regmap, ?_, ?_, ?_⟩
    · rw [hlog, hdone]
      exact hs.done
    · rw [hlog]
      exact hs.fresh
    · rw [hlog, hsm]
      exact hs.counted
  · obtain ⟨hregmap, hcounts⟩ := onPoll_counts w.link.consumer
      w'.link.journal.loops.poller.link.health cb input
    rw [← hconsumer] at hregmap hcounts
    refine ⟨htimely, ?_, hregmap.trans hs.regmap, ?_, ?_, ?_⟩
    · show w'.link.consumer.sm.NumericDerived
      rw [hconsumer]
      exact AlarmDesk.numericDerived_update hs.numeric
    · rw [hlog, hdone, List.map_cons, hs.done]
    · rw [hlog]
      refine List.forall_mem_cons.mpr ⟨fun reg hreg htier v hv v' hv' => ?_, hs.fresh⟩
      rw [hreading] at hv'
      exact values_of_fresh hm hmap _ hreg htier hv hv'
    · rw [hlog]
      refine counted_cons hs.counted fun hcounts' => ?_
      have hpos : w.link.consumer.sm.Counts cb.reading.values input.2 :=
        of_decide_eq_true hcounts'
      rw [if_pos hpos, show w.link.consumer.sm.regmap = m from hs.regmap] at hcounts
      exact hcounts

theorem primes_take {log : List Counted} {n : ℕ}
    (h : ∀ e ∈ log.take n, e.done.poll.tier = .prime) (hn : n ≤ log.length) :
    (((log.map Counted.done).filter fun c => c.poll.tier = .prime).take n) =
      (log.take n).map Counted.done ∧
    n ≤ ((log.map Counted.done).filter fun c => c.poll.tier = .prime).length := by
  rw [List.map_take]
  refine Window.take_filter (fun c hc => ?_) (by rwa [List.length_map])
  rw [← List.map_take] at hc
  obtain ⟨e, he, rfl⟩ := List.mem_map.mp hc
  exact decide_eq_true (h e he)

/-- A callback that counts for a rule and shows its code set is that of a prime poll which decoded
the bit. -/
theorem freshSet_of_countsPoll (hs : w.Sound m) {ab : AlarmBit} {e : Counted} (he : e ∈ w.log)
    (hc : CountsPoll m ab e) (hset : ab.code ∈ setCodes m e.values) : FreshSet m ab e.done := by
  obtain ⟨rule, hrule, hcode⟩ := List.mem_map.mp hset
  have hmem : rule ∈ (m.deriveActiveAlarms e.values).filter fun rule => rule.code = ab.code :=
    List.mem_filter.mpr ⟨hrule, decide_eq_true hcode⟩
  obtain rfl : rule = ab := List.mem_singleton.mp (hc.sole.subset hmem)
  obtain ⟨reg, hreg, hname, hsome⟩ := hc.fresh
  obtain ⟨hin, htier⟩ := List.mem_filter.mp hreg
  obtain ⟨v, hv⟩ := Option.isSome_iff_exists.mp hsome
  refine ⟨reg, hreg, hname, v, hv, ?_⟩
  have hany := ((RegisterMap.mem_deriveActiveAlarms _ _).mp hrule).2
  rw [Values.anySet, ← hname] at hany
  split at hany
  · cases hany
  · rename_i raw hraw
    obtain rfl : raw = v :=
      hs.fresh e he reg hin (hc.prime.trans (of_decide_eq_true htier).symm) v hv raw hraw
    exact of_decide_eq_true hany

end Steps

/-- In every run of the two loops over an accepted map, with the tables changed elsewhere at any
time: if each of the last callbacks, as many as the rule asks for, counted for the rule alone, then
an update that raises its alarm does so after that many prime polls that each decoded the bit set.
And an alarm of an alarm bit is announced only for a rule that the update raises. -/
theorem alarm_seen_by_polls_of_countsPoll (m : RegisterMap) (hm : m.Accepted) (now mono : ℚ)
    (db : Database) (ls : List Label) :
    ∀ w k w', Takes step (start m now mono db) ls w k w' → ∀ e ∈ w.served k,
      (∀ ab, w.Raises e ab → (∀ e' ∈ w'.log.take ab.minPollCount, CountsPoll m ab e') →
        SeenByPolls m ab w'.link.journal.done) ∧
      ∀ code, ¬IsDerived code → code ∈ raisedCodes w'.link.consumer.published →
        ∃ ab, ab.code = code ∧ w.Raises e ab := by
  intro w k w' ht e he
  have hs : w.Sound m := ht.reachable.invariant (sound_start m now mono db)
    fun _ _ _ hs hstep => hs.step hm hstep
  have hs' : w'.Sound m := hs.step hm ht.step_eq
  obtain ⟨hnone, -⟩ | ⟨l, input, cb, c, e₁, -, hserved, hlog, he₁, -, -, -, hconsumer⟩ :=
    step_cases hs.timely ht.step_eq
  · rw [hnone] at he
    cases he
  rw [hserved] at he
  obtain rfl := List.mem_singleton.mp he
  constructor
  · rintro ab ⟨hcounts, -, heffective⟩ hall
    have hdue := (of_decide_eq_true (List.mem_filter.mp heffective).2).1
    have hcount : w'.sm.alarmPollCounts = countPolls w.sm.alarmPollCounts
        ((w.sm.regmap.deriveActiveAlarms e.values).map AlarmBit.code) := by
      rw [sm, hconsumer, (onPoll_counts _ _ _ _).2, if_pos]
      · rw [he₁]
        rfl
      · rw [he₁] at hcounts
        exact of_decide_eq_true hcounts
    rw [← hcount] at hdue
    obtain ⟨hlen, hset⟩ := hs'.counted ab _ hall hdue
    obtain ⟨htake, hmany⟩ := primes_take (fun e' he' => (hall e' he').prime) hlen
    rw [SeenByPolls, ← hs'.done]
    refine ⟨hmany, fun c hc => ?_⟩
    rw [htake] at hc
    obtain ⟨e', he', rfl⟩ := List.mem_map.mp hc
    exact freshSet_of_countsPoll hs' (List.mem_of_mem_take he') (hall e' he') (hset e' he')
  · intro code hb hraised
    rw [hconsumer] at hraised
    obtain ⟨hcounts, hshown, heffective⟩ := raises_of_announced hs.numeric hb hraised
    obtain ⟨ab, hab, rfl⟩ := List.mem_map.mp heffective
    rw [he₁]
    exact ⟨ab, rfl, decide_eq_true hcounts, hshown, hab⟩

/-- A fast register with an alarm bit to be seen twice, and a slow register. -/
def debouncedMap : RegisterMap :=
  { PollJournal.twoTierMap with
    alarmBits := [⟨"status", 1, "LOW_OIL", "Low oil pressure", .alarm, [], 2⟩] }

def lowOil : AlarmBit := ⟨"status", 1, "LOW_OIL", "Low oil pressure", .alarm, [], 2⟩

/-- A prime poll that reads the bit set, and its callback. -/
def firstSight : List Label :=
  [.loop (.begin .prime) (none, []), .loop (.returned .prime ⟨some [1], 0⟩ 1 1) (none, []),
    .loop (.callbackDone .prime) (none, [])]

/-- A second prime poll that reads the bit set raises the alarm. -/
theorem second_sight_raises :
    ∃ w w' e, Takes step (start debouncedMap 0 0 .empty)
        ((firstSight ++ [.loop (.begin .prime) (none, [])]) ++
          [.loop (.returned .prime ⟨some [1], 0⟩ 2 2) (none, [])]) w
        (.loop (.returned .prime ⟨some [1], 0⟩ 2 2) (none, [])) w' ∧
      w.Raises e lowOil ∧ SeenByPolls debouncedMap lowOil w'.link.journal.done := by
  obtain ⟨w, w', ht, htest⟩ := takes_of_lastStep step (start debouncedMap 0 0 .empty)
    (firstSight ++ [.loop (.begin .prime) (none, [])])
    (.loop (.returned .prime ⟨some [1], 0⟩ 2 2) (none, []))
    (fun w k w' => ∃ e ∈ w.served k, w.Raises e lowOil ∧
      ∀ e' ∈ w'.log.take 2, CountsPoll debouncedMap lowOil e') (by decide +kernel)
  obtain ⟨e, he, hraises, hall⟩ := of_decide_eq_true htest
  exact ⟨w, w', e, ht, hraises, (alarm_seen_by_polls_of_countsPoll debouncedMap (by decide +kernel)
    0 0 .empty _ w _ w' ht e he).1 lowOil hraises hall⟩

/-- A base poll's callback counts the retained bit a second time, and raises the alarm. -/
theorem base_callback_raises :
    ∃ w w' e, Takes step (start debouncedMap 0 0 .empty)
        ((firstSight ++ [.loop (.begin .base) (none, [])]) ++
          [.loop (.returned .base ⟨some [9], 0⟩ 2 2) (none, [])]) w
        (.loop (.returned .base ⟨some [9], 0⟩ 2 2) (none, [])) w' ∧
      w.Raises e lowOil ∧ "LOW_OIL" ∈ raisedCodes w'.link.consumer.published ∧
      ¬SeenByPolls debouncedMap lowOil w'.link.journal.done := by
  obtain ⟨w, w', ht, htest⟩ := takes_of_lastStep step (start debouncedMap 0 0 .empty)
    (firstSight ++ [.loop (.begin .base) (none, [])])
    (.loop (.returned .base ⟨some [9], 0⟩ 2 2) (none, []))
    (fun w k w' => (∃ e ∈ w.served k, w.Raises e lowOil) ∧
      (∃ e ∈ w'.link.consumer.published, e.raises = some "LOW_OIL") ∧
      (w'.link.journal.done.filter fun c => c.poll.tier = .prime).length = 1) (by decide +kernel)
  obtain ⟨⟨e, -, hraises⟩, hevent, hone⟩ := of_decide_eq_true htest
  refine ⟨w, w', e, ht, hraises, hevent, fun hseen => ?_⟩
  have hlen := hseen.1
  rw [hone] at hlen
  exact absurd hlen (by decide)

end DebounceWatch

end GenWatch

import GenWatch.Alarms.CrossCheck
import GenWatch.Polling.Sampled

/-! # The cross-check during a transfer

The generator's poller reads the electrical values batch by batch in its slow tier, decodes
them at the end of the poll and keeps them in between, while the position of the transfer
switch changes at any time. The debounce of the cross-check counts updates. They are evidence
of a disagreement only if both values have been read since the position took its present
value.
-/

namespace GenWatch

open Handler ServiceM Transition

/-- The state machine behind the generator's poller, with what it reads of the companion. -/
structure GenDesk where
  sm : StateMachine
  db : Database
  ats : Option AtsView

namespace GenDesk

def env (d : GenDesk) (health : CommsHealth) (cb : Callback) : PollEnv :=
  ⟨cb.now, d.ats, Function.update (fun _ => .initial 1500) .poller health⟩

/-- What an update starts from; `faults` says which of its database calls raise. -/
def context (d : GenDesk) (faults : List Bool) : Ctx StateMachine := ⟨d.sm, d.db, [], faults⟩

/-- A poll result is applied, and an error of the database is swallowed. -/
def onPoll (d : GenDesk) (health : CommsHealth) (cb : Callback) (faults : List Bool) : GenDesk :=
  let c := finalState ((StateMachine.update (d.env health cb) cb.reading .poller).run
    (d.context faults))
  { d with sm := c.self, db := c.db }

/-- The update gets to its cross-check. -/
def evaluates (d : GenDesk) (health : CommsHealth) (cb : Callback) (faults : List Bool) : Bool :=
  completed ((StateMachine.beforeCheck d.sm.regmap cb.reading (d.env health cb) .poller).run
    (d.context faults))

def completes (d : GenDesk) (health : CommsHealth) (cb : Callback) (faults : List Bool) : Bool :=
  completed ((StateMachine.update (d.env health cb) cb.reading .poller).run (d.context faults))

def onOther (d : GenDesk) (ats : Option AtsView) : GenDesk := { d with ats := ats }

def start (m : RegisterMap) (now : ℚ) (db : Database) : GenDesk := ⟨.init m now, db, none⟩

def position (d : GenDesk) : Option LoadSource := d.ats.map AtsView.position

/-- The verdict of the cross-check at a callback. -/
def verdict (d : GenDesk) (cb : Callback) : StateMachine.Verdict :=
  StateMachine.verdict d.ats (StateMachine.nextEngineState d.sm.regmap cb.reading.values
    d.sm.snap.engineState) cb.reading.values

def Disagrees (d : GenDesk) (health : CommsHealth) (cb : Callback) (faults : List Bool) : Prop :=
  d.evaluates health cb faults = true ∧ d.verdict cb = .disagree

instance (d : GenDesk) (health : CommsHealth) (cb : Callback) (faults : List Bool) :
    Decidable (d.Disagrees health cb faults) :=
  inferInstanceAs (Decidable (_ ∧ _))

theorem onPoll_debounce (d : GenDesk) (health : CommsHealth) (cb : Callback) (faults : List Bool) :
    (d.evaluates health cb faults = false ∧
      (d.onPoll health cb faults).sm.debounce = d.sm.debounce) ∨
    d.evaluates health cb faults = true ∧
      d.sm.debounce.Moves (d.completes health cb faults) (d.onPoll health cb faults).sm.debounce
        (d.verdict cb) :=
  StateMachine.update_moves (c := d.context faults) rfl

end GenDesk

def electrical : List String := ["avg_current", "total_kw"]

/-- The completed polls of the generator's poller, and at which step each word was read. -/
abbrev Samples := List (Completion × List (TimedBatch ℕ))

/-- Both electrical values have been read at the step `since` or later. -/
def ReadSince (m : RegisterMap) (samples : Samples) (since : ℕ) : Prop :=
  ∀ name ∈ electrical, ∃ reg ∈ m.registers, reg.name = name ∧
    ∃ x ∈ lastSample reg samples, ∀ t ∈ x.valueMoments reg, since ≤ t

def ReadAtOnce (m : RegisterMap) (samples : Samples) : Prop :=
  ∀ reg ∈ m.registers, reg.name ∈ electrical → ∀ x ∈ lastSample reg samples,
    ∃ t, ∀ t' ∈ x.valueMoments reg, t' = t

instance (m : RegisterMap) (samples : Samples) (since : ℕ) :
    Decidable (ReadSince m samples since) :=
  inferInstanceAs (Decidable (∀ name ∈ electrical, _))

/-- The generator's poller with its state machine, and with the steps at which words were read; the
number of steps so far; the step from which on the position has had its present value; and how many
disagreeing evaluations were made since then against values read since then. -/
structure TransferWatch where
  reads : Sampled ℕ GenDesk
  tick : ℕ
  since : ℕ
  evidence : ℕ

namespace TransferWatch

/-- What happens, and for a read that returns the step before which the slave answered it. -/
abbrev Label := Polled.Label (List Bool) (Option AtsView) × ℕ

def start (m : RegisterMap) (now mono : ℚ) (db : Database) : TransferWatch :=
  ⟨.start m now mono (.start m now db), 0, 0, 0⟩

def calls (s : Polled GenDesk) (k : Label) : Option (Callback × List Bool) :=
  match k.1 with
  | .loop l faults => (s.callback l).map fun cb => (cb, faults)
  | .other _ => none

/-- The link's record when a callback is served. -/
def health (link : Polled GenDesk) : CommsHealth := link.journal.loops.poller.link.health

def link (w : TransferWatch) : Polled GenDesk := w.reads.link

def desk (w : TransferWatch) : GenDesk := w.link.consumer

def debounce (w : TransferWatch) : StateMachine.Debounce := w.desk.sm.debounce

def step (m : RegisterMap) (w : TransferWatch) (k : Label) : Option TransferWatch :=
  if w.tick < k.2 then none
  else (Sampled.step GenDesk.onPoll GenDesk.onOther w.reads k).map fun reads =>
    if reads.link.consumer.position ≠ w.desk.position then ⟨reads, w.tick + 1, w.tick + 1, 0⟩
    else if ∃ call ∈ calls w.link k, w.desk.Disagrees (health reads.link) call.1 call.2 ∧
        ReadSince m reads.samples w.since then
      ⟨reads, w.tick + 1, w.since, w.evidence + 1⟩
    else ⟨reads, w.tick + 1, w.since, w.evidence⟩

/-- The disagreement alarm is raised. -/
def Raises (w w' : TransferWatch) : Prop :=
  w.debounce.raised = false ∧ w'.debounce.raised = true

instance (w w' : TransferWatch) : Decidable (w.Raises w') := inferInstanceAs (Decidable (_ ∧ _))

/-- While the alarm is off, a disagreeing evaluation is made against values read since the position
took its present value, and the position changes only while nothing is counted; no database call
raises in an update that withdraws the alarm. -/
structure Current (m : RegisterMap) (w : TransferWatch) (k : Label) (w' : TransferWatch) :
    Prop where
  values : w.debounce.raised = false → ∀ call ∈ calls w.link k,
    w.desk.Disagrees (health w'.link) call.1 call.2 → ReadSince m w'.reads.samples w.since
  position : w.debounce.raised = false → w'.desk.position ≠ w.desk.position → w.debounce.count = 0
  withdrawal : w.debounce.raised = true → ∀ call ∈ calls w.link k,
    w.desk.evaluates (health w'.link) call.1 call.2 = true → w.desk.verdict call.1 = .reset →
      w.desk.completes (health w'.link) call.1 call.2 = true

/-- While the alarm is off, a disagreeing evaluation compares no value whose words were read at
different steps. -/
def Whole (m : RegisterMap) (w : TransferWatch) (k : Label) (w' : TransferWatch) : Prop :=
  w.debounce.raised = false → ∀ call ∈ calls w.link k,
    w.desk.Disagrees (health w'.link) call.1 call.2 → ReadAtOnce m w'.reads.samples

/-- What is counted while the alarm is off has evidence. -/
def Backed (w : TransferWatch) : Prop := w.debounce.raised = true ∨ w.debounce.count ≤ w.evidence

section Steps

variable {m : RegisterMap} {w w' : TransferWatch} {k : Label}

theorem step_reads (h : step m w k = some w') :
    k.2 ≤ w.tick ∧ Sampled.step GenDesk.onPoll GenDesk.onOther w.reads k = some w'.reads ∧
      w'.tick = w.tick + 1 := by
  unfold step at h
  split at h
  · cases h
  · rename_i htick
    obtain ⟨reads, hreads, rfl⟩ := Option.map_eq_some_iff.mp h
    refine ⟨not_lt.mp htick, ?_, ?_⟩
    · rw [hreads]
      split_ifs <;> rfl
    · split_ifs <;> rfl

theorem step_cases (h : step m w k = some w') :
    (∃ ats, k.1 = .other ats ∧ w'.desk = w.desk.onOther ats ∧
      w'.reads.samples = w.reads.samples ∧
      (w'.desk.position ≠ w.desk.position ∧ w'.since = w.tick + 1 ∧ w'.evidence = 0 ∨
        w'.desk.position = w.desk.position ∧ w'.since = w.since ∧ w'.evidence = w.evidence)) ∨
    (calls w.link k = none ∧ w'.desk = w.desk ∧ w'.reads.samples = w.reads.samples ∧
      w'.since = w.since ∧ w'.evidence = w.evidence) ∨
    ∃ cb faults, calls w.link k = some (cb, faults) ∧
      w'.desk = w.desk.onPoll (health w'.link) cb faults ∧
      cb.reading = w'.link.journal.loops.poller.reading ∧
      (∃ c closed, w'.reads.samples = (c, closed) :: w.reads.samples) ∧ w'.since = w.since ∧
      w'.evidence = if w.desk.Disagrees (health w'.link) cb faults ∧
        ReadSince m w'.reads.samples w.since then w.evidence + 1 else w.evidence := by
  unfold step at h
  split at h
  · cases h
  obtain ⟨reads, hreads, rfl⟩ := Option.map_eq_some_iff.mp h
  obtain ⟨k, t⟩ := k
  cases k with
  | other ats =>
    left
    obtain rfl := Sampled.step_other hreads
    refine ⟨ats, rfl, ?_⟩
    split
    · exact ⟨rfl, rfl, Or.inl ⟨‹_›, rfl, rfl⟩⟩
    · rename_i hsame
      rw [if_neg (by simp [calls])]
      exact ⟨rfl, rfl, Or.inr ⟨not_not.mp hsame, rfl, rfl⟩⟩
  | loop l input =>
    right
    cases hcb : w.link.callback l with
    | none =>
      left
      obtain ⟨hconsumer, hsamples⟩ := Sampled.step_quiet hreads hcb
      have hsame : ¬reads.link.consumer.position ≠ w.desk.position := by
        rw [hconsumer]
        exact not_not.mpr rfl
      have hcalls : calls w.link (.loop l input, t) = none := by simp [calls, hcb]
      rw [if_neg hsame, if_neg (by simp [hcalls])]
      exact ⟨hcalls, hconsumer, hsamples, rfl, rfl⟩
    | some cb =>
      right
      obtain ⟨hconsumer, hreading, hsamples⟩ := Sampled.step_callback hreads hcb
      have hsame : ¬reads.link.consumer.position ≠ w.desk.position := by
        rw [hconsumer]
        exact not_not.mpr rfl
      rw [if_neg hsame]
      have hcalls : calls w.link (.loop l input, t) = some (cb, input) := by simp [calls, hcb]
      refine ⟨cb, input, hcalls, ?_⟩
      simp only [hcalls, Option.mem_some_iff, exists_eq_left']
      by_cases hcounts : w.desk.Disagrees (health reads.link) cb input ∧
          ReadSince m reads.samples w.since
      · rw [if_pos hcounts]
        exact ⟨hconsumer, hreading, hsamples, rfl, (if_pos hcounts).symm⟩
      · rw [if_neg hcounts]
        exact ⟨hconsumer, hreading, hsamples, rfl, (if_neg hcounts).symm⟩

theorem not_raises (h : w'.debounce = w.debounce) : ¬w.Raises w' := by
  rintro ⟨hoff, hon⟩
  rw [h, hoff] at hon
  cases hon

theorem Backed.same (h : w.Backed) (hsame : w'.debounce = w.debounce)
    (hevidence : w'.evidence = w.evidence) :
    w'.Backed ∧ (w.Raises w' → loadsourceDisagreeDebouncePolls ≤ w'.evidence) := by
  refine ⟨?_, fun hraises => absurd hraises (not_raises hsame)⟩
  rw [Backed, hsame, hevidence]
  exact h

/-- An update keeps what is counted backed by evidence, and raises the alarm on nothing less than
the debounce asks for. -/
theorem Backed.served {call : Callback × List Bool} (h : w.Backed) (hc : Current m w k w')
    (hcalls : calls w.link k = some call)
    (hmoves : w.debounce.Moves (w.desk.completes (health w'.link) call.1 call.2) w'.debounce
      (w.desk.verdict call.1))
    (hevaluates : w.desk.evaluates (health w'.link) call.1 call.2 = true)
    (hevidence : w'.evidence = if w.desk.Disagrees (health w'.link) call.1 call.2 ∧
      ReadSince m w'.reads.samples w.since then w.evidence + 1 else w.evidence) :
    w'.Backed ∧ (w.Raises w' → loadsourceDisagreeDebouncePolls ≤ w'.evidence) := by
  cases hverdict : w.desk.verdict call.1 with
  | reset =>
    rw [hverdict] at hmoves
    have hreset : w'.debounce = ⟨0, false⟩ := by
      apply hmoves
      cases hraised : w.debounce.raised with
      | true => exact Or.inl (hc.withdrawal hraised call hcalls hevaluates hverdict)
      | false => exact Or.inr rfl
    refine ⟨Or.inr (by simp [hreset]), fun hraises => ?_⟩
    rw [Raises, hreset] at hraises
    cases hraises.2
  | hold =>
    rw [hverdict] at hmoves
    rw [if_neg (by simp [GenDesk.Disagrees, hverdict])] at hevidence
    exact h.same hmoves hevidence
  | disagree =>
    rw [hverdict] at hmoves
    obtain ⟨hcount, hkept, hdue⟩ := hmoves
    cases hraised : w.debounce.raised with
    | true =>
      refine ⟨Or.inl (hkept hraised), ?_⟩
      rintro ⟨hoff, -⟩
      rw [hraised] at hoff
      cases hoff
    | false =>
      have hdisagrees : w.desk.Disagrees (health w'.link) call.1 call.2 := ⟨hevaluates, hverdict⟩
      have hbacked : w.debounce.count ≤ w.evidence := h.resolve_left (by simp [hraised])
      rw [if_pos ⟨hdisagrees, hc.values hraised call hcalls hdisagrees⟩] at hevidence
      refine ⟨Or.inr (by omega), ?_⟩
      rintro ⟨-, hon⟩
      have hpolls : loadsourceDisagreeDebouncePolls ≤ w.debounce.count + 1 :=
        (hdue hon).resolve_left (by simp [hraised])
      omega

theorem Backed.step (h : w.Backed) (hc : Current m w k w') (hs : step m w k = some w') :
    w'.Backed ∧ (w.Raises w' → loadsourceDisagreeDebouncePolls ≤ w'.evidence) := by
  rcases step_cases hs with ⟨ats, -, hdesk, -, hposition⟩ | ⟨-, hdesk, -, -, hevidence⟩ |
    ⟨cb, faults, hcalls, hdesk, -, -, -, hevidence⟩
  · have hsame : w'.debounce = w.debounce := by
      rw [debounce, hdesk]
      rfl
    rcases hposition with ⟨hchanged, -, -⟩ | ⟨-, -, hevidence⟩
    · refine ⟨?_, fun hraises => absurd hraises (not_raises hsame)⟩
      rw [Backed, hsame]
      cases hraised : w.debounce.raised with
      | true => exact Or.inl rfl
      | false => exact Or.inr (by simp [hc.position hraised hchanged])
    · exact h.same hsame hevidence
  · have hsame : w'.debounce = w.debounce := by rw [debounce, hdesk, ← debounce]
    exact h.same hsame hevidence
  · have hmoves := w.desk.onPoll_debounce (health w'.link) cb faults
    rw [← hdesk] at hmoves
    rcases hmoves with ⟨hnever, hsame⟩ | ⟨hevaluates, hmoves⟩
    · rw [if_neg (by simp [GenDesk.Disagrees, hnever])] at hevidence
      exact h.same hsame hevidence
    · exact h.served hc hcalls hmoves hevaluates hevidence

/-! ### A generator whose output agrees with the switch -/

/-- What a value of the generator's output is like in a position of the switch. -/
structure Agrees (position : LoadSource) (name : String) (v : ℚ) : Prop where
  utility : position = .utility → (name = "avg_current" → v < loadOnCurrentThreshold) ∧
    (name = "total_kw" → v < loadOnKwThreshold)
  generator : position = .generator → (name = "avg_current" → loadOffCurrentThreshold ≤ v) ∧
    (name = "total_kw" → loadOffKwThreshold ≤ v)

/-- The output agreed with the position whenever a value was read: a value of the poll that is
completed at this step agrees with the position that is reported if it was read at one step, and
since the position took its present value. -/
def Truthful (m : RegisterMap) (w w' : TransferWatch) : Prop :=
  ∀ c closed, w'.reads.samples = (c, closed) :: w.reads.samples →
    ∀ reg ∈ m.registers, c.poll.tier = reg.tier → ∀ x ∈ sampleOf closed reg,
      ∀ t, (∀ t' ∈ x.valueMoments reg, t' = t) → w.since ≤ t →
        ∀ position ∈ w.desk.position, Agrees position reg.name x.value

/-- What holds as long as every value agreed with the position when it was read. -/
structure Quiet (m : RegisterMap) (w : TransferWatch) : Prop where
  sound : w.reads.Sound m
  recorded : w.reads.Recorded (· < w.tick)
  since : w.since ≤ w.tick
  agrees : ∀ reg ∈ m.registers, ∀ x ∈ lastSample reg w.reads.samples,
    ∀ t, (∀ t' ∈ x.valueMoments reg, t' = t) → w.since ≤ t →
      ∀ position ∈ w.desk.position, Agrees position reg.name x.value
  calm : w.debounce.raised = false
  evidence : w.evidence = 0

end Steps

theorem quiet_start (m : RegisterMap) (now mono : ℚ) (db : Database) :
    Quiet m (start m now mono db) where
  sound := Sampled.sound_start m now mono _
  recorded := Sampled.recorded_start m now mono _
  since := le_rfl
  agrees _ _ _ hx := by cases hx
  calm := rfl
  evidence := rfl

section Truth

variable {m : RegisterMap} {w w' : TransferWatch} {k : Label}

theorem disagreement_of_agrees {v : AtsView} {currentVal kwVal : ℚ}
    (hcurrent : Agrees v.position "avg_current" currentVal)
    (hkw : Agrees v.position "total_kw" kwVal) :
    StateMachine.disagreement v currentVal kwVal = none := by
  unfold StateMachine.disagreement
  rw [if_neg, if_neg]
  · rintro ⟨hposition, hlow, -, -⟩
    exact absurd hlow (not_lt.mpr ((hcurrent.generator hposition).1 rfl))
  · rintro ⟨hposition, -, hhigh⟩
    exact absurd hhigh (not_le.mpr ((hkw.utility hposition).2 rfl))

theorem verdict_disagree {ats : Option AtsView} {state : EngineState} {values : Values}
    (h : StateMachine.verdict ats state values = .disagree) :
    ∃ v currentVal kwVal, ats = some v ∧ values "avg_current" = some currentVal ∧
      values "total_kw" = some kwVal ∧ StateMachine.disagreement v currentVal kwVal ≠ none := by
  unfold StateMachine.verdict at h
  split at h
  · cases h
  rename_i v
  split at h
  · cases h
  split at h
  · cases h
  split at h
  · cases h
  split at h
  · rename_i currentVal kwVal hcurrent hkw
    split at h
    · rename_i hdesc
      exact ⟨v, currentVal, kwVal, rfl, hcurrent, hkw, by simp [hdesc]⟩
    · cases h
  · cases h

theorem agrees_of_readSince (hm : m.Accepted) (hs : w'.reads.Sound m)
    (hagrees : ∀ reg ∈ m.registers, ∀ x ∈ lastSample reg w'.reads.samples,
      ∀ t, (∀ t' ∈ x.valueMoments reg, t' = t) → w.since ≤ t →
        ∀ position ∈ w.desk.position, Agrees position reg.name x.value)
    (hsince : ReadSince m w'.reads.samples w.since) (honce : ReadAtOnce m w'.reads.samples)
    {name : String} (hname : name ∈ electrical) {v : ℚ}
    (hv : w'.link.journal.loops.poller.reading.values name = some v) {position : LoadSource}
    (hposition : w.desk.position = some position) : Agrees position name v := by
  obtain ⟨reg, hreg, rfl, x, hx, hlate⟩ := hsince name hname
  obtain ⟨reg', hreg', hsame, c, hread, -⟩ := hs.timely.read hv
  obtain rfl := List.inj_on_of_nodup_map hm.nodup hreg' hreg hsame
  obtain ⟨x', hx', rfl, hof⟩ := hs.sample hread
  obtain rfl : x' = x := Option.some.inj (hx'.symm.trans hx)
  obtain ⟨t, ht⟩ := honce reg' hreg' hname x' hx'
  obtain ⟨t', ht'⟩ := List.exists_mem_of_ne_nil _ hof.valueMoments_ne_nil
  have hstart : w.since ≤ t := ht t' ht' ▸ hlate t' ht'
  exact hagrees reg' hreg' x' hx' t ht hstart position hposition

theorem Quiet.agrees_cons (h : Quiet m w) (ht : Truthful m w w') {c : Completion}
    {closed : List (TimedBatch ℕ)} (hsamples : w'.reads.samples = (c, closed) :: w.reads.samples) :
    ∀ reg ∈ m.registers, ∀ x ∈ lastSample reg w'.reads.samples,
      ∀ t, (∀ t' ∈ x.valueMoments reg, t' = t) → w.since ≤ t →
        ∀ position ∈ w.desk.position, Agrees position reg.name x.value := by
  intro reg hreg x hx
  rw [hsamples, lastSample] at hx
  split at hx
  · rename_i htier
    rcases Option.or_eq_some_iff.mp hx with hnew | ⟨-, hold⟩
    · exact ht c closed hsamples reg hreg htier x hnew
    · exact h.agrees reg hreg x hold
  · exact h.agrees reg hreg x hx

/-- An update that sees values in agreement adds no evidence. -/
theorem Quiet.evidence_served (hm : m.Accepted) (h : Quiet m w) (hsound : w'.reads.Sound m)
    (hagrees : ∀ reg ∈ m.registers, ∀ x ∈ lastSample reg w'.reads.samples,
      ∀ t, (∀ t' ∈ x.valueMoments reg, t' = t) → w.since ≤ t →
        ∀ position ∈ w.desk.position, Agrees position reg.name x.value)
    (hwhole : Whole m w k w') {cb : Callback} {faults : List Bool}
    (hcalls : calls w.link k = some (cb, faults))
    (hreading : cb.reading = w'.link.journal.loops.poller.reading) :
    ¬(w.desk.Disagrees (health w'.link) cb faults ∧ ReadSince m w'.reads.samples w.since) := by
  rintro ⟨hdisagrees, hsince⟩
  have honce := hwhole h.calm _ hcalls hdisagrees
  obtain ⟨v, currentVal, kwVal, hats, hcurrent, hkw, hne⟩ := verdict_disagree hdisagrees.2
  have hreported : w.desk.position = some v.position := by
    rw [GenDesk.position, hats]
    rfl
  rw [hreading] at hcurrent hkw
  exact hne (disagreement_of_agrees
    (agrees_of_readSince hm hsound hagrees hsince honce (by decide) hcurrent hreported)
    (agrees_of_readSince hm hsound hagrees hsince honce (by decide) hkw hreported))

theorem Quiet.step (hm : m.Accepted) (h : Quiet m w) (ht : Truthful m w w')
    (hwhole : Whole m w k w')
    (hbacked : w.Raises w' → loadsourceDisagreeDebouncePolls ≤ w'.evidence)
    (hs : step m w k = some w') : Quiet m w' := by
  obtain ⟨hlate, hreads, htick⟩ := step_reads hs
  have hsound : w'.reads.Sound m := h.sound.step hm hreads
  have hrecorded : w'.reads.Recorded (· < w'.tick) := by
    rw [htick]
    exact (h.recorded.mono fun t ht => Nat.lt_succ_of_lt ht).step (Nat.lt_succ_of_le hlate) hreads
  have hcalm : w'.evidence = 0 → w'.debounce.raised = false := by
    intro hnone
    by_contra hon
    have hdue := hbacked ⟨h.calm, by simpa using hon⟩
    rw [hnone] at hdue
    exact absurd hdue (by decide)
  have hkept : w'.since = w.since → w'.since ≤ w'.tick := fun hsince => by
    rw [hsince, htick]
    exact h.since.trans (Nat.le_succ _)
  rcases step_cases hs with ⟨ats, -, -, hsamples, hposition⟩ |
    ⟨-, hdesk, hsamples, hsince, hevidence⟩ |
    ⟨cb, faults, hcalls, hdesk, hreading, ⟨c, closed, hsamples⟩, hsince, hevidence⟩
  · rcases hposition with ⟨-, hsince, hevidence⟩ | ⟨hposition, hsince, hevidence⟩
    · refine ⟨hsound, hrecorded, (hsince.trans htick.symm).le, ?_, hcalm hevidence, hevidence⟩
      -- whatever has been read was read before the position changed
      intro reg hreg x hx t ht hstart
      obtain ⟨hof, hmoments⟩ := lastSample_spec hsound.lengths hx
      obtain ⟨t', ht'⟩ := List.exists_mem_of_ne_nil _ hof.valueMoments_ne_nil
      obtain ⟨y, hy, b, hb, hin⟩ := hmoments t' (RegisterSample.mem_of_valueMoments ht')
      have hbefore := hrecorded.samples y hy b hb t' hin
      rw [ht t' ht', htick] at hbefore
      rw [hsince] at hstart
      exact absurd hbefore (not_lt.mpr hstart)
    · have hnone := hevidence.trans h.evidence
      refine ⟨hsound, hrecorded, hkept hsince, ?_, hcalm hnone, hnone⟩
      rw [hsamples, hsince, hposition]
      exact h.agrees
  · have hnone := hevidence.trans h.evidence
    refine ⟨hsound, hrecorded, hkept hsince, ?_, hcalm hnone, hnone⟩
    rw [hsamples, hsince, hdesk]
    exact h.agrees
  · have hposition : w'.desk.position = w.desk.position := by
      rw [hdesk]
      rfl
    have hagrees := h.agrees_cons ht hsamples
    rw [if_neg (h.evidence_served hm hsound hagrees hwhole hcalls hreading)] at hevidence
    have hnone := hevidence.trans h.evidence
    refine ⟨hsound, hrecorded, hkept hsince, ?_, hcalm hnone, hnone⟩
    rw [hsince, hposition]
    exact hagrees

end Truth

/-- In every run in which disagreeing evaluations are made against current values, the alarm is
raised on as many of them as the debounce asks for, and never while the output agrees with the
position whenever it is read, if no value is read in pieces. -/
theorem disagree_alarm_has_evidence (m : RegisterMap) (hm : m.Accepted) (now mono : ℚ)
    (db : Database) (ls : List Label)
    (hcurrent : ∀ w k w', Takes (step m) (start m now mono db) ls w k w' → Current m w k w') :
    (∀ w k w', Takes (step m) (start m now mono db) ls w k w' → w.Raises w' →
      loadsourceDisagreeDebouncePolls ≤ w'.evidence) ∧
    ((∀ w k w', Takes (step m) (start m now mono db) ls w k w' →
        Truthful m w w' ∧ Whole m w k w') →
      ∀ w k w', Takes (step m) (start m now mono db) ls w k w' → ¬w.Raises w') := by
  have hevidence : ∀ w k w', Takes (step m) (start m now mono db) ls w k w' → w.Raises w' →
      loadsourceDisagreeDebouncePolls ≤ w'.evidence := by
    intro w k w' ht
    have hbacked : w.Backed := ht.invariant hcurrent (Or.inr le_rfl)
      fun _ _ _ hI hc hs => (hI.step hc hs).1
    exact (hbacked.step (hcurrent w k w' ht) ht.step_eq).2
  refine ⟨hevidence, fun htruthful w k w' ht hraises => ?_⟩
  have hquiet : Quiet m w := ht.invariant
    (fun w k w' ht => And.intro (htruthful w k w' ht) (hevidence w k w' ht))
    (quiet_start m now mono db) fun _ _ _ hI hc hs => hI.step hm hc.1.1 hc.1.2 hc.2 hs
  obtain ⟨htrue, hwhole⟩ := htruthful w k w' ht
  have hafter := hquiet.step hm htrue hwhole (hevidence w k w' ht) ht.step_eq
  exact absurd hraises.2 (by rw [hafter.calm]; decide)

instance (m : RegisterMap) (w : TransferWatch) (k : Label) (w' : TransferWatch) :
    Decidable (Current m w k w') :=
  decidable_of_iff
    ((w.debounce.raised = false → ∀ call ∈ calls w.link k,
        w.desk.Disagrees (health w'.link) call.1 call.2 →
          ReadSince m w'.reads.samples w.since) ∧
      (w.debounce.raised = false → w'.desk.position ≠ w.desk.position → w.debounce.count = 0) ∧
      (w.debounce.raised = true → ∀ call ∈ calls w.link k,
        w.desk.evaluates (health w'.link) call.1 call.2 = true → w.desk.verdict call.1 = .reset →
          w.desk.completes (health w'.link) call.1 call.2 = true))
    ⟨fun h => ⟨h.1, h.2.1, h.2.2⟩, fun h => ⟨h.values, h.position, h.withdrawal⟩⟩

instance (position : LoadSource) (name : String) (v : ℚ) : Decidable (Agrees position name v) :=
  decidable_of_iff ((position = .utility → (name = "avg_current" → v < loadOnCurrentThreshold) ∧
      (name = "total_kw" → v < loadOnKwThreshold)) ∧
    (position = .generator → (name = "avg_current" → loadOffCurrentThreshold ≤ v) ∧
      (name = "total_kw" → loadOffKwThreshold ≤ v)))
    ⟨fun h => ⟨h.1, h.2⟩, fun h => ⟨h.utility, h.generator⟩⟩

/-- A generator with a fast state register and slow electrical values. -/
def generatorMap : RegisterMap :=
  { RegisterMap.bare with
    engineStateBits := [⟨.running, "status", 1⟩]
    registers := [.plain "status" 0, { RegisterDef.plain "avg_current" 10 with tier := .base },
      { RegisterDef.plain "total_kw" 11 with tier := .base }] }

/-- What happens, each read answered right before it returns. -/
abbrev Steps := List (Polled.Label (List Bool) (Option AtsView))

def primePoll (now : ℚ) : Steps :=
  [.loop (.begin .prime) [], .loop (.returned .prime ⟨some [1], 0⟩ now now) [],
    .loop (.callbackDone .prime) []]

def loadedPoll (now : ℚ) : Steps :=
  [.loop (.begin .base) [], .loop (.returned .base ⟨some [100, 80], 0⟩ now now) [],
    .loop (.callbackDone .base) []]

/-- The switch is stuck on utility while the generator is under load. -/
def stuckSwitch : Steps :=
  [.other (some ⟨true, .utility, some true⟩)] ++ primePoll 1 ++ loadedPoll 2 ++ primePoll 3 ++
    [.loop (.begin .prime) []]

def primeReturned (now : ℚ) : Polled.Label (List Bool) (Option AtsView) :=
  .loop (.returned .prime ⟨some [1], 0⟩ now now) []

/-- A stuck switch is reported on three evaluations against current values. -/
theorem stuck_switch_has_evidence :
    (∃ w k w', Takes (step generatorMap) (start generatorMap 0 0 .empty)
      (stuckSwitch.zipIdx ++ [(primeReturned 4, stuckSwitch.length)]) w k w' ∧ w.Raises w') ∧
    ∀ w k w', Takes (step generatorMap) (start generatorMap 0 0 .empty)
      (stuckSwitch.zipIdx ++ [(primeReturned 4, stuckSwitch.length)]) w k w' →
      w.Raises w' → loadsourceDisagreeDebouncePolls ≤ w'.evidence := by
  constructor
  · obtain ⟨w, w', ht, hraises⟩ := takes_of_lastStep (step generatorMap)
      (start generatorMap 0 0 .empty) stuckSwitch.zipIdx (primeReturned 4, stuckSwitch.length)
      (fun w _ w' => decide (w.Raises w')) (by decide +kernel)
    exact ⟨w, _, w', ht, of_decide_eq_true hraises⟩
  · exact (disagree_alarm_has_evidence generatorMap (by decide +kernel) 0 0 .empty _
      fun w k w' ht => of_decide_eq_true (ht.test_of_everyStep
        (fun w k w' => decide (Current generatorMap w k w')) (by decide +kernel))).1

/-- The load is transferred back to utility, and the generator runs on without load. -/
def retransfer : Steps :=
  [.other (some ⟨true, .generator, some false⟩)] ++ primePoll 1 ++ loadedPoll 2 ++
    [.other (some ⟨true, .utility, some true⟩)] ++ primePoll 3 ++ primePoll (9 / 2) ++
    [.loop (.begin .prime) []]

/-- Every value agreed with the position when it was read, and the alarm is raised on the load that
was read before the transfer. -/
theorem retransfer_raises_alarm :
    (∀ w k w', Takes (step generatorMap) (start generatorMap 0 0 .empty)
      (retransfer.zipIdx ++ [(primeReturned 6, retransfer.length)]) w k w' →
      Truthful generatorMap w w' ∧ Whole generatorMap w k w') ∧
    ¬∀ w k w', Takes (step generatorMap) (start generatorMap 0 0 .empty)
      (retransfer.zipIdx ++ [(primeReturned 6, retransfer.length)]) w k w' →
      w.Raises w' → loadsourceDisagreeDebouncePolls ≤ w'.evidence := by
  constructor
  · intro w k w' ht
    constructor
    · intro c closed hsamples reg hreg htier x hx t _ _ position hposition
      have htest := of_decide_eq_true (ht.test_of_everyStep (fun w _ w' => decide
        (w.reads.samples.length < w'.reads.samples.length →
          ∀ y ∈ w'.reads.samples.head?, ∀ reg ∈ generatorMap.registers,
            y.1.poll.tier = reg.tier → ∀ x ∈ sampleOf y.2 reg,
              ∀ position ∈ w.desk.position, Agrees position reg.name x.value)) (by decide +kernel))
      rw [hsamples] at htest
      exact htest (Nat.lt_succ_self _) (c, closed) rfl reg hreg htier x hx position hposition
    · intro _ _ _ _ reg hreg hname x hx
      obtain ⟨t, -, hone⟩ := of_decide_eq_true (ht.test_of_everyStep (fun _ _ w' => decide
        (∀ reg ∈ generatorMap.registers, reg.name ∈ electrical → ∀ x ∈ lastSample reg
          w'.reads.samples, ∃ t ∈ x.valueMoments reg, ∀ t' ∈ x.valueMoments reg, t' = t))
        (by decide +kernel)) reg hreg hname x hx
      exact ⟨t, hone⟩
  · intro h
    obtain ⟨w, w', ht, htest⟩ := takes_of_lastStep (step generatorMap)
      (start generatorMap 0 0 .empty) retransfer.zipIdx (primeReturned 6, retransfer.length)
      (fun w _ w' => decide (w.Raises w' ∧ w'.evidence = 0)) (by decide +kernel)
    obtain ⟨hraises, hnone⟩ := of_decide_eq_true htest
    have hsome := h _ _ _ ht hraises
    rw [hnone] at hsome
    exact absurd hsome (by decide)

end TransferWatch

end GenWatch

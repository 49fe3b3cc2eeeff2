import GenWatch.Prelude.Transition
import GenWatch.Modbus.PollReading

/-! # Register maps that come and go

The map may be swapped while polls are under way. A poll decodes by the map that it has
captured, and copies the values of all other names forward. So what stands under a name may
have been decoded by a definition that is gone. The maps are numbered as editions, and for
every name it is recorded which poll decoded it last, and under which edition.
-/

namespace GenWatch

open Transition

/-- The last decode under a name: the definition, the poll, and the edition the poll captured. -/
structure Decode where
  reg : RegisterDef
  done : Completion
  edition : ℕ

namespace Decode

def value (d : Decode) : Option ℚ := readRegister d.done.poll.results d.reg

/-- The map reads this register as it was read at the decode. -/
def Under (d : Decode) (m : RegisterMap) (reg : RegisterDef) : Prop :=
  d.done.poll.regmap.readFc = m.readFc ∧ d.reg.addr = reg.addr ∧ d.reg.type = reg.type ∧
    d.reg.scale = reg.scale

instance (d : Decode) (m : RegisterMap) (reg : RegisterDef) : Decidable (d.Under m reg) :=
  inferInstanceAs (Decidable (_ ∧ _ ∧ _ ∧ _))

theorem readRegister_congr {results : List BatchResult} {reg reg' : RegisterDef}
    (haddr : reg.addr = reg'.addr) (htype : reg.type = reg'.type)
    (hscale : reg.scale = reg'.scale) :
    readRegister results reg = readRegister results reg' := by
  have hwords : reg.words = reg'.words := by rw [RegisterDef.words, RegisterDef.words, htype]
  simp only [readRegister, BatchResult.covers, BatchResult.read, decodeValue, haddr, htype, hscale,
    hwords]

theorem Under.value {d : Decode} {m : RegisterMap} {reg : RegisterDef} (h : d.Under m reg) :
    d.value = readRegister d.done.poll.results reg :=
  readRegister_congr h.2.1 h.2.2.1 h.2.2.2

end Decode

/-- The register under a name that a completed poll decodes. -/
def Completion.decoded (c : Completion) (name : String) : Option RegisterDef :=
  (c.poll.regmap.tier c.poll.tier).find? fun reg =>
    reg.name = name ∧ (readRegister c.poll.results reg).isSome

section Completed

variable (c : Completion)

/-- The age at which the poll drops a value. -/
def Completion.threshold : ℚ := c.poll.regmap.staleThresholdS c.poll.tier

variable {c}

theorem Reading.evictEntry_cases (threshold mono : ℚ) (e : Option ℚ × Option ℚ) :
    evictEntry threshold mono e = (none, none) ∨
      evictEntry threshold mono e = e ∧ ∀ age, e.2 = some age → mono - age < threshold := by
  obtain ⟨v, age⟩ := e
  cases age with
  | none => exact Or.inr ⟨rfl, by simp⟩
  | some age =>
    by_cases h : threshold ≤ mono - age
    · exact Or.inl (by simp [evictEntry, h])
    · exact Or.inr ⟨by simp [evictEntry, h], by simpa using h⟩

theorem Completion.decoded_eq_some {name : String} {reg : RegisterDef}
    (h : c.decoded name = some reg) :
    reg ∈ c.poll.regmap.tier c.poll.tier ∧ reg.name = name ∧
      (readRegister c.poll.results reg).isSome := by
  refine ⟨List.mem_of_find?_eq_some h, ?_⟩
  simpa using List.find?_some h

theorem Completion.entry_cases (hm : c.poll.regmap.Accepted) (current : Reading) (name : String) :
    (c.decoded name = none ∧ name ∉ (c.poll.regmap.tier c.poll.tier).map RegisterDef.name ∧
      (c.poll.reading current c.now c.mono).entry name = current.entry name) ∨
    ∃ reg ∈ c.poll.regmap.tier c.poll.tier, reg.name = name ∧
      ((readRegister c.poll.results reg = none ∧ c.decoded name = none ∧
        (c.poll.reading current c.now c.mono).entry name =
          Reading.evictEntry c.threshold c.mono (current.entry name)) ∨
      ∃ v, readRegister c.poll.results reg = some v ∧ c.decoded name = some reg ∧
        (c.poll.reading current c.now c.mono).entry name =
          Reading.evictEntry c.threshold c.mono (some v, some c.mono)) := by
  have hnodup := hm.nodup_tier c.poll.tier
  by_cases hname : name ∈ (c.poll.regmap.tier c.poll.tier).map RegisterDef.name
  · obtain ⟨reg, hreg, rfl⟩ := List.mem_map.mp hname
    have hentry := Poll.reading_entry current c.now c.mono hnodup hreg
    refine Or.inr ⟨reg, hreg, rfl, ?_⟩
    cases hread : readRegister c.poll.results reg with
    | none =>
      rw [hread] at hentry
      refine Or.inl ⟨rfl, List.find?_eq_none.mpr fun reg' hreg' => ?_, hentry⟩
      by_cases he : reg'.name = reg.name
      · obtain rfl := List.inj_on_of_nodup_map hnodup hreg' hreg he
        simp [hread]
      · simp [he]
    | some v =>
      rw [hread] at hentry
      refine Or.inr ⟨v, rfl, ?_, hentry⟩
      obtain ⟨reg', hdecoded⟩ : ∃ reg', c.decoded reg.name = some reg' := by
        refine Option.isSome_iff_exists.mp (List.find?_isSome.mpr ⟨reg, hreg, ?_⟩)
        simp [hread]
      obtain ⟨hreg', he, -⟩ := Completion.decoded_eq_some hdecoded
      rwa [List.inj_on_of_nodup_map hnodup hreg' hreg he] at hdecoded
  · refine Or.inl ⟨?_, hname, Poll.reading_entry_of_not_mem current c.now c.mono hname⟩
    cases hdecoded : c.decoded name with
    | none => rfl
    | some reg =>
      obtain ⟨hreg, rfl, -⟩ := Completion.decoded_eq_some hdecoded
      exact absurd (List.mem_map_of_mem hreg) hname

end Completed

/-- The loops, the monotonic clock, the edition of the map, the edition that the poll of each tier
has captured, the last decode under each name, and the edition and the clock of the last poll of
each tier that has ended. -/
structure Turnover where
  loops : PollLoops
  clock : ℚ
  edition : ℕ
  captured : RegTier → ℕ
  origin : String → Option Decode
  ended : RegTier → Option (ℕ × ℚ)

namespace Turnover

def start (m : RegisterMap) (now mono : ℚ) : Turnover :=
  ⟨.init m now, mono, 0, fun _ => 0, fun _ => none, fun _ => none⟩

variable (s : Turnover)

def regmap : RegisterMap := s.loops.poller.regmap

def reading : Reading := s.loops.poller.reading

/-- The last decodes after a poll of the tier. -/
def decodes (tier : RegTier) (c : Completion) (name : String) : Option Decode :=
  match c.decoded name with
  | some reg => some ⟨reg, c, s.captured tier⟩
  | none => s.origin name

/-- What is recorded of a step that takes the loops to `loops`; a poll of a tier without registers
ends where it begins. -/
def record (loops : PollLoops) : PollLoops.Label → Turnover
  | .begin tier =>
    if s.loops.poller.batches tier = [] then
      { s with ended := Function.update s.ended tier (some (s.edition, s.clock)) }
    else { s with loops := loops, captured := Function.update s.captured tier s.edition }
  | .returned tier r now mono =>
    match s.loops.completed (.returned tier r now mono) with
    | some c =>
      { s with
        loops := loops
        clock := mono
        origin := s.decodes tier c
        ended := Function.update s.ended tier (some (s.captured tier, mono)) }
    | none => { s with loops := loops, clock := mono }
  | .callbackDone _ => { s with loops := loops }
  | .wake mono => { s with loops := loops, clock := mono }
  | .applyRegmap _ => { s with loops := loops, edition := s.edition + 1 }

def Loads : PollLoops.Label → Prop
  | .applyRegmap m => m.Accepted
  | _ => True

instance : DecidablePred Loads
  | .applyRegmap m => inferInstanceAs (Decidable m.Accepted)
  | .begin _ | .returned _ _ _ _ | .callbackDone _ | .wake _ => inferInstanceAs (Decidable True)

/-- One step of the loops or a swap, with the callback that it enters. The clock does not run back,
and only maps that can be loaded are swapped in. -/
def advance (l : PollLoops.Label) : Option (Turnover × Option Callback) :=
  if (∃ mono ∈ l.mono?, mono < s.clock) ∨ ¬Loads l then none
  else (s.loops.step l).map fun r => (s.record r.1 l, r.2)

def step (l : PollLoops.Label) : Option Turnover := (s.advance l).map Prod.fst

section Steps

variable {s} {s' : Turnover} {l : PollLoops.Label} {cb : Option Callback}

/-- The poll under way is still that of the tier and of the map it began with. -/
def SamePolls (s s' : Turnover) : Prop :=
  ∀ tier poll', s'.loops.task tier = .reading poll' → ∃ poll, s.loops.task tier = .reading poll ∧
    poll'.tier = poll.tier ∧ poll'.regmap = poll.regmap

/-- What is the same after a step other than a swap. -/
structure SameMap (s s' : Turnover) : Prop where
  regmap : s'.regmap = s.regmap
  batches : s'.loops.poller.batches = s.loops.poller.batches
  edition : s'.edition = s.edition
  clock : s.clock ≤ s'.clock

/-- What the end of a poll of the tier makes of the state. -/
structure Ends (s s' : Turnover) (tier : RegTier) (poll : Poll) (c : Completion) : Prop where
  task : s.loops.task tier = .reading poll
  pollTier : c.poll.tier = poll.tier
  pollMap : c.poll.regmap = poll.regmap
  same : SameMap s s'
  clock : s'.clock = c.mono
  calling : s'.loops.task = Function.update s.loops.task tier .calling
  reading : s'.reading = c.poll.reading s.reading c.now c.mono
  captured : s'.captured = s.captured
  origin : s'.origin = s.decodes tier c
  ended : s'.ended = Function.update s.ended tier (some (s.captured tier, c.mono))

/-- No poll begins or ends in the step; only the clock may be read. -/
structure Passes (s : Turnover) (l : PollLoops.Label) (s' : Turnover) : Prop where
  begins : ∀ tier, l ≠ .begin tier
  completed : s.loops.completed l = none
  clock : s'.clock = l.mono?.getD s.clock

/-- What a step does. -/
inductive Moves (s : Turnover) (l : PollLoops.Label) (s' : Turnover) : Option Callback → Prop where
  | skips {tier : RegTier} :
    l = .begin tier → s.loops.task tier = .idle → s.loops.poller.batches tier = [] →
    s' = { s with ended := Function.update s.ended tier (some (s.edition, s.clock)) } →
    Moves s l s' none
  | begins {tier : RegTier} :
    l = .begin tier → s.loops.task tier = .idle → s.loops.poller.batches tier ≠ [] →
    s' = { s with
      loops := { s.loops with
        task := Function.update s.loops.task tier (.reading (s.loops.poller.capture tier)) }
      captured := Function.update s.captured tier s.edition } →
    Moves s l s' none
  | goesOn : Passes s l s' → SameMap s s' → SamePolls s s' → s'.reading = s.reading →
    s'.captured = s.captured →
    s'.origin = s.origin → s'.ended = s.ended → Moves s l s' none
  | ends {tier : RegTier} {r : ReadResult} {poll : Poll} {c : Completion} {cb : Callback} :
    l = .returned tier r c.now c.mono → s.loops.completed l = some c → Ends s s' tier poll c →
    cb.reading = s'.reading → Moves s l s' (some cb)
  | swaps {m : RegisterMap} :
    l = .applyRegmap m → m.Accepted →
    s' = { s with
      loops := { s.loops with poller := s.loops.poller.applyRegmap m }, edition := s.edition + 1 } →
    Moves s l s' none

theorem samePolls_of_step (h : s.loops.step l = some (s'.loops, cb))
    (hl : ∀ tier, l ≠ .begin tier) : SamePolls s s' := by
  intro tier poll hpoll
  rcases PollLoops.reading_of_step h hpoll with
    ⟨-, htask⟩ | ⟨hbegin, -⟩ | ⟨r, _, _, poll', -, htask, rfl, -⟩
  · exact ⟨poll, htask, rfl, rfl⟩
  · exact absurd hbegin (hl tier)
  · exact ⟨poll', htask, (poll'.returned_same r).1, (poll'.returned_same r).2⟩

theorem advance_eq_some (h : s.advance l = some (s', cb)) :
    (∀ mono ∈ l.mono?, s.clock ≤ mono) ∧ Loads l ∧ ∃ loops, s.loops.step l = some (loops, cb) ∧
      s' = s.record loops l := by
  unfold advance at h
  split at h
  · cases h
  rename_i hguard
  obtain ⟨hclock, hloads⟩ := not_or.mp hguard
  obtain ⟨⟨loops, cb'⟩, hstep, he⟩ := Option.map_eq_some_iff.mp h
  obtain ⟨rfl, rfl⟩ := Prod.mk.inj he
  refine ⟨fun mono hmono => ?_, not_not.mp hloads, loops, hstep, rfl⟩
  by_contra hback
  exact hclock ⟨mono, hmono, not_le.mp hback⟩

section Record

variable {tier : RegTier} {r : ReadResult} {now mono : ℚ} {loops : PollLoops} {c : Completion}

theorem record_completed (h : s.loops.completed (.returned tier r now mono) = some c) :
    s.record loops (.returned tier r now mono) =
      { s with
        loops := loops
        clock := mono
        origin := s.decodes tier c
        ended := Function.update s.ended tier (some (s.captured tier, mono)) } := by
  rw [record, h]

theorem record_pending (h : s.loops.completed (.returned tier r now mono) = none) :
    s.record loops (.returned tier r now mono) = { s with loops := loops, clock := mono } := by
  rw [record, h]

theorem moves_of_returned (hclock : s.clock ≤ mono)
    (h : s.loops.step (.returned tier r now mono) = some (loops, cb)) :
    Moves s (.returned tier r now mono) (s.record loops (.returned tier r now mono)) cb := by
  obtain ⟨poll, htask, hreturned⟩ := PollLoops.step_returned h
  obtain ⟨htier, hmap⟩ := poll.returned_same r
  by_cases hdone : (poll.returned r).1.pending = []
  · have hcompleted : s.loops.completed (.returned tier r now mono) =
        some ⟨(poll.returned r).1, now, mono⟩ := by
      simp [PollLoops.completed, htask, hdone]
    rw [PollLoops.returned_last s.loops tier now mono hdone] at hreturned
    obtain ⟨rfl, rfl⟩ := Prod.mk.inj hreturned
    rw [record_completed hcompleted]
    refine @Moves.ends s _ _ tier r poll ⟨(poll.returned r).1, now, mono⟩ _ rfl hcompleted
      ⟨htask, htier, hmap, ⟨?_, ?_, rfl, hclock⟩, rfl, rfl, ?_, rfl, rfl, rfl⟩ rfl
    · simp [regmap, Poller.finish]
    · exact s.loops.poller.recordSample_batches _ _ _
    · simp [reading, Poller.finish]
  · have hcompleted : s.loops.completed (.returned tier r now mono) = none := by
      simp [PollLoops.completed, htask, hdone]
    rw [PollLoops.returned_more s.loops tier now mono hdone] at hreturned
    obtain ⟨rfl, rfl⟩ := Prod.mk.inj hreturned
    rw [record_pending hcompleted]
    refine .goesOn ⟨by rintro _ ⟨⟩, hcompleted, rfl⟩
      ⟨?_, s.loops.poller.recordSample_batches _ _ _, rfl, hclock⟩
      (samePolls_of_step h (by rintro _ ⟨⟩)) ?_ rfl rfl rfl
    · simp [regmap]
    · simp [reading]

end Record

theorem moves_of_advance (h : s.advance l = some (s', cb)) : Moves s l s' cb := by
  obtain ⟨hclock, hloads, loops, hstep, rfl⟩ := advance_eq_some h
  cases l with
  | begin tier =>
    obtain ⟨hidle, rfl, ⟨hempty, rfl⟩ | ⟨hsome, rfl⟩⟩ := PollLoops.step_begin hstep
    · exact .skips rfl hidle hempty (by rw [record, if_pos hempty])
    · exact .begins rfl hidle hsome (by rw [record, if_neg hsome])
  | returned tier r now mono => exact moves_of_returned (hclock mono rfl) hstep
  | callbackDone tier =>
    obtain ⟨-, rfl, rfl⟩ := PollLoops.step_callbackDone hstep
    exact .goesOn ⟨by rintro _ ⟨⟩, rfl, rfl⟩ ⟨rfl, rfl, rfl, le_rfl⟩
      (samePolls_of_step hstep (by rintro _ ⟨⟩)) rfl rfl rfl rfl
  | wake mono =>
    obtain ⟨rfl, rfl⟩ := PollLoops.step_wake hstep
    exact .goesOn ⟨by rintro _ ⟨⟩, rfl, rfl⟩ ⟨rfl, rfl, rfl, hclock mono rfl⟩
      (fun _ poll hpoll => ⟨poll, hpoll, rfl, rfl⟩) rfl rfl rfl rfl
  | applyRegmap m =>
    obtain ⟨rfl, rfl⟩ := PollLoops.step_applyRegmap hstep
    exact .swaps rfl hloads rfl

theorem unswapped_of_advance (h : s.advance l = some (s', cb)) (hl : l.isSwap = false) :
    s'.regmap = s.regmap ∧ s'.edition = s.edition ∧ ∀ c ∈ cb, c.reading = s'.reading := by
  cases moves_of_advance h with
  | skips _ _ _ he | begins _ _ _ he =>
    subst he
    exact ⟨rfl, rfl, by simp⟩
  | goesOn _ hsame _ _ _ _ _ => exact ⟨hsame.regmap, hsame.edition, by simp⟩
  | ends _ _ hend hreading =>
    refine ⟨hend.same.regmap, hend.same.edition, fun c hc => ?_⟩
    obtain rfl := Option.some.inj hc
    exact hreading
  | swaps he _ _ =>
    rw [he] at hl
    cases hl

theorem swapped_of_step {m : RegisterMap} (h : s.step (.applyRegmap m) = some s') :
    s'.regmap = m ∧ s'.edition = s.edition + 1 := by
  obtain ⟨⟨s'', cb⟩, hadvance, rfl⟩ := Option.map_eq_some_iff.mp h
  obtain ⟨-, -, loops, hstep, rfl⟩ := advance_eq_some hadvance
  obtain ⟨-, rfl⟩ := PollLoops.step_applyRegmap hstep
  exact ⟨rfl, rfl⟩

theorem step_eq_some (h : s.step l = some s') : ∃ cb, s.advance l = some (s', cb) := by
  obtain ⟨⟨s'', cb⟩, h', rfl⟩ := Option.map_eq_some_iff.mp h
  exact ⟨cb, h'⟩

end Steps

/-- What holds between two steps: every value is that of the last decode under its name, which was
made by a register of the edition that its poll had captured. -/
structure Traced (s : Turnover) : Prop where
  accepted : s.regmap.Accepted
  batches : ∀ tier, s.loops.poller.batches tier = batchReads (s.regmap.tier tier)
  polls : ∀ tier poll, s.loops.task tier = .reading poll →
    poll.tier = tier ∧ poll.regmap.Accepted ∧ s.captured tier ≤ s.edition ∧
      (s.captured tier = s.edition → poll.regmap = s.regmap)
  past : ∀ tier e t, s.ended tier = some (e, t) → e ≤ s.edition ∧ t ≤ s.clock
  entries : ∀ name, s.reading.entry name = (none, none) ∨ ∃ d v, s.origin name = some d ∧
    d.value = some v ∧ s.reading.entry name = (some v, some d.done.mono)
  origins : ∀ name d, s.origin name = some d → d.reg.name = name ∧ d.edition ≤ s.edition ∧
    (d.edition = s.edition → d.reg ∈ s.regmap.registers ∧ d.done.poll.regmap = s.regmap)

theorem traced_start {m : RegisterMap} (hm : m.Accepted) (now mono : ℚ) :
    (start m now mono).Traced where
  accepted := hm
  batches tier := by cases tier <;> rfl
  polls _ _ h := by cases h
  past _ _ _ h := by cases h
  entries _ := Or.inl rfl
  origins _ _ h := by cases h

section Trace

variable {s} {s' : Turnover} {l : PollLoops.Label} {cb : Option Callback}

theorem past_update {tier : RegTier} {e₀ : ℕ} {t₀ : ℚ} (h : s.Traced) (he : e₀ ≤ s.edition)
    (ht : t₀ ≤ s'.clock) (hclock : s.clock ≤ s'.clock) {tier' : RegTier} {e : ℕ} {t : ℚ}
    (hended : Function.update s.ended tier (some (e₀, t₀)) tier' = some (e, t)) :
    e ≤ s.edition ∧ t ≤ s'.clock := by
  by_cases htier : tier' = tier
  · subst htier
    simp only [Function.update_self, Option.some.injEq, Prod.mk.injEq] at hended
    obtain ⟨rfl, rfl⟩ := hended
    exact ⟨he, ht⟩
  · rw [Function.update_of_ne htier] at hended
    obtain ⟨he', ht'⟩ := h.past tier' e t hended
    exact ⟨he', ht'.trans hclock⟩

section Ends

variable {tier : RegTier} {poll : Poll} {c : Completion} (h : s.Traced)
  (hend : Ends s s' tier poll c)

include h hend

theorem Traced.accepted_of_end : c.poll.regmap.Accepted :=
  hend.pollMap ▸ (h.polls tier poll hend.task).2.1

/-- After a poll, too, every value is that of the last decode. -/
theorem Traced.entry_of_end (name : String) :
    s'.reading.entry name = (none, none) ∨ ∃ d v, s'.origin name = some d ∧ d.value = some v ∧
      s'.reading.entry name = (some v, some d.done.mono) := by
  rw [hend.reading, hend.origin, decodes]
  rcases Completion.entry_cases (h.accepted_of_end hend) s.reading name with
    ⟨hd, -, hentry⟩ | ⟨reg, -, -, ⟨-, hd, hentry⟩ | ⟨v, hread, hd, hentry⟩⟩
  · rw [hentry, hd]
    exact h.entries name
  · rw [hentry, hd]
    rcases Reading.evictEntry_cases c.threshold c.mono (s.reading.entry name) with hgone | hkept
    · exact Or.inl hgone
    · rw [hkept.1]
      exact h.entries name
  · rw [hentry, hd]
    rcases Reading.evictEntry_cases c.threshold c.mono (some v, some c.mono) with hgone | hkept
    · exact Or.inl hgone
    · rw [hkept.1]
      exact Or.inr ⟨_, v, rfl, hread, rfl⟩

theorem Traced.origin_of_end {name : String} {d : Decode} (hd : s'.origin name = some d) :
    d.reg.name = name ∧ d.edition ≤ s.edition ∧
      (d.edition = s.edition → d.reg ∈ s.regmap.registers ∧ d.done.poll.regmap = s.regmap) := by
  obtain ⟨-, -, hle, hcurrent⟩ := h.polls tier poll hend.task
  rw [hend.origin, decodes] at hd
  cases hdecoded : c.decoded name with
  | none =>
    rw [hdecoded] at hd
    exact h.origins name d hd
  | some reg =>
    rw [hdecoded] at hd
    obtain rfl := Option.some.inj hd
    obtain ⟨hreg, hname, -⟩ := Completion.decoded_eq_some hdecoded
    refine ⟨hname, hle, fun he => ?_⟩
    have hregmap : c.poll.regmap = s.regmap := hend.pollMap.trans (hcurrent he)
    rw [hregmap] at hreg
    exact ⟨List.mem_of_mem_filter hreg, hregmap⟩

end Ends

theorem Traced.step (h : s.Traced) (hs : s.advance l = some (s', cb)) : s'.Traced := by
  cases moves_of_advance hs with
  | skips _ _ _ he =>
    subst he
    exact ⟨h.accepted, h.batches, h.polls, fun _ _ _ => past_update h le_rfl le_rfl le_rfl,
      h.entries, h.origins⟩
  | @begins tier _ _ _ he =>
    subst he
    refine ⟨h.accepted, h.batches, fun tier' poll hpoll => ?_, h.past, h.entries, h.origins⟩
    by_cases htier : tier' = tier
    · subst htier
      simp only [Function.update_self, TierTask.reading.injEq] at hpoll ⊢
      subst hpoll
      exact ⟨rfl, h.accepted, le_rfl, fun _ => rfl⟩
    · simp only [Function.update_of_ne htier] at hpoll ⊢
      exact h.polls tier' poll hpoll
  | goesOn _ hsame hpolls hreading hcaptured horigin hended =>
    refine ⟨hsame.regmap ▸ h.accepted, fun tier => ?_, fun tier poll' hpoll => ?_,
      fun tier e t hend => ?_, fun name => ?_, fun name d hd => ?_⟩
    · rw [hsame.batches, hsame.regmap]
      exact h.batches tier
    · obtain ⟨poll, htask, htier, hmap⟩ := hpolls tier poll' hpoll
      rw [htier, hmap, hcaptured, hsame.edition, hsame.regmap]
      exact h.polls tier poll htask
    · rw [hended] at hend
      rw [hsame.edition]
      exact ⟨(h.past tier e t hend).1, (h.past tier e t hend).2.trans hsame.clock⟩
    · rw [hreading, horigin]
      exact h.entries name
    · rw [hsame.edition, hsame.regmap]
      exact h.origins name d (horigin ▸ hd)
  | @ends tier _ poll c _ _ _ hend _ =>
    obtain ⟨-, -, hle, -⟩ := h.polls tier poll hend.task
    refine ⟨hend.same.regmap ▸ h.accepted, fun tier' => ?_, fun tier' poll' hpoll => ?_,
      fun tier' e t hended => ?_, h.entry_of_end hend, fun name d hd => ?_⟩
    · rw [hend.same.batches, hend.same.regmap]
      exact h.batches tier'
    · rw [hend.calling] at hpoll
      rw [hend.captured, hend.same.edition, hend.same.regmap]
      by_cases he : tier' = tier
      · subst he
        rw [Function.update_self] at hpoll
        cases hpoll
      · rw [Function.update_of_ne he] at hpoll
        exact h.polls tier' poll' hpoll
    · rw [hend.same.edition]
      exact past_update h hle hend.clock.ge hend.same.clock (hend.ended ▸ hended)
    · rw [hend.same.edition, hend.same.regmap]
      exact h.origin_of_end hend hd
  | swaps _ hm he =>
    subst he
    refine ⟨hm, fun tier => by cases tier <;> rfl, fun tier poll hpoll => ?_,
      fun tier e t hend => ?_, h.entries, fun name d hd => ?_⟩
    · obtain ⟨htier, haccepted, hle, -⟩ := h.polls tier poll hpoll
      exact ⟨htier, haccepted, Nat.le_succ_of_le hle, fun heq => absurd heq (by simp; omega)⟩
    · exact ⟨Nat.le_succ_of_le (h.past tier e t hend).1, (h.past tier e t hend).2⟩
    · obtain ⟨hname, hle, -⟩ := h.origins name d hd
      exact ⟨hname, Nat.le_succ_of_le hle, fun heq => absurd heq (by simp; omega)⟩

theorem Traced.withClock (h : s.Traced) {t : ℚ} (ht : s.clock ≤ t) :
    Traced { s with clock := t } :=
  ⟨h.accepted, h.batches, h.polls,
    fun tier e t' hended => ⟨(h.past tier e t' hended).1, (h.past tier e t' hended).2.trans ht⟩,
    h.entries, h.origins⟩

end Trace

end Turnover

end GenWatch

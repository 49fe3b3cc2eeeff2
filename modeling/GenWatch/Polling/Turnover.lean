import GenWatch.Polling.Editions

/-! # When a value outlives its register

A poll drops the stale values of its own tier and of the map it has captured, and nothing
drops the values of a register that a new map lacks. So the reading is that of the current
map only as long as a swap takes no register away that has a value, a poll that cannot
decode a register finds no value of another definition, a poll that a swap has overtaken
decodes nothing that the new map has redefined, and no tier is polled too late.
-/

namespace GenWatch

open Transition

namespace Turnover

variable (s : Turnover)

/-- A poll of the tier has begun and ended since the map was last swapped. -/
def Current (tier : RegTier) : Prop := (s.ended tier).map Prod.fst = some s.edition

instance (tier : RegTier) : Decidable (s.Current tier) := inferInstanceAs (Decidable (_ = _))

/-- The value under the name of a register was last decoded by its current definition, by a poll
that ended at this time. -/
def DecodedAt (reg : RegisterDef) (v mono : ℚ) : Prop :=
  ∃ d, s.origin reg.name = some d ∧ d.Under s.regmap reg ∧
    readRegister d.done.poll.results reg = some v ∧ d.done.mono = mono ∧
    s.reading.valueAges reg.name = some mono

/-- The value under the name of a register was decoded by its current definition, less than three
cadences of its tier ago. -/
def DecodedAs (reg : RegisterDef) (v : ℚ) : Prop :=
  ∃ mono, s.DecodedAt reg v mono ∧ s.clock - mono < s.regmap.staleThresholdS reg.tier

/-- The tier of which a poll of the current map ends in the step. -/
def closing : PollLoops.Label → Option RegTier
  | .begin tier => if s.loops.poller.batches tier = [] then some tier else none
  | .returned tier r now mono =>
    if (s.loops.completed (.returned tier r now mono)).isSome ∧ s.captured tier = s.edition then
      some tier
    else none
  | _ => none

/-- The polls keep up: if both tiers have been polled since the last swap when the step is done, and
no poll of a register's tier ends in it, the last poll that has decoded its value ended less than
three cadences of the tier ago. -/
def Young (l : PollLoops.Label) : Prop :=
  (∀ tier, s.closing l ≠ some tier → s.Current tier) →
    ∀ reg ∈ s.regmap.registers, s.closing l ≠ some reg.tier →
      (s.reading.values reg.name).isSome → ∀ d ∈ s.origin reg.name,
        l.mono?.getD s.clock - d.done.mono < s.regmap.staleThresholdS reg.tier

/-- A poll of the current map that cannot decode a register finds under its name no young value of
another definition. -/
def FindsOwn (c : Completion) : Prop :=
  ∀ reg ∈ c.poll.regmap.tier c.poll.tier, readRegister c.poll.results reg = none →
    ∀ d ∈ s.origin reg.name, (s.reading.values reg.name).isSome →
      c.mono - d.done.mono < c.threshold → d.Under c.poll.regmap reg

/-- A poll of a map that has been replaced decodes only registers that the current map still has,
and where their tier has been polled since, only by the same definition. -/
def LeavesOwn (c : Completion) : Prop :=
  ∀ reg ∈ c.poll.regmap.tier c.poll.tier, (readRegister c.poll.results reg).isSome →
    ∃ reg' ∈ s.regmap.registers, reg'.name = reg.name ∧
      (s.Current reg'.tier → (Decode.mk reg c 0).Under s.regmap reg')

/-- No value loses its register in the step. -/
def KeepsNames : PollLoops.Label → Prop
  | .applyRegmap m =>
    ∀ reg ∈ s.regmap.registers, (s.reading.values reg.name).isSome → reg.name ∈ m.names
  | .returned tier r now mono =>
    ∀ c ∈ s.loops.completed (.returned tier r now mono),
      if s.captured tier = s.edition then s.FindsOwn c else s.LeavesOwn c
  | _ => True

/-- No value loses its register in the step, and the polls keep up. -/
structure Keeps (l : PollLoops.Label) : Prop where
  names : s.KeepsNames l
  young : (s.closing l).isSome ∨ l.mono?.isSome → s.Young l

instance (c : Completion) : Decidable (s.FindsOwn c) :=
  inferInstanceAs (Decidable (∀ _ ∈ _, _))

instance (c : Completion) : Decidable (s.LeavesOwn c) :=
  inferInstanceAs (Decidable (∀ _ ∈ _, _))

instance : DecidablePred s.KeepsNames
  | .applyRegmap _ => inferInstanceAs (Decidable (∀ _ ∈ _, _))
  | .returned _ _ _ _ => inferInstanceAs (Decidable (∀ _ ∈ _, _))
  | .begin _ | .callbackDone _ | .wake _ => inferInstanceAs (Decidable True)

/-- Every value has its register, whose definition it has once the tier is polled; and once both
are, none is old. -/
structure Tidy (s : Turnover) : Prop where
  traced : s.Traced
  values : ∀ name v, s.reading.values name = some v →
    ∃ reg ∈ s.regmap.registers, reg.name = name ∧
      (s.Current reg.tier → ∃ mono, s.DecodedAt reg v mono)
  young : (∀ tier, s.Current tier) → ∀ reg ∈ s.regmap.registers,
    ∀ age ∈ s.reading.valueAges reg.name, s.clock - age < s.regmap.staleThresholdS reg.tier

theorem tidy_start {m : RegisterMap} (hm : m.Accepted) (now mono : ℚ) :
    (start m now mono).Tidy where
  traced := traced_start hm now mono
  values _ _ h := by cases h
  young h := by cases h .prime

section Step

variable {s} {s' : Turnover} {l : PollLoops.Label} {reg : RegisterDef} {v : ℚ}

theorem Current.ended {tier : RegTier} (h : s.Current tier) :
    ∃ t, s.ended tier = some (s.edition, t) := by
  obtain ⟨⟨e, t⟩, he, rfl⟩ := Option.map_eq_some_iff.mp h
  exact ⟨t, he⟩

theorem DecodedAt.congr {mono : ℚ} (h : s.DecodedAt reg v mono) (hmap : s'.regmap = s.regmap)
    (horigin : s'.origin reg.name = s.origin reg.name)
    (hentry : s'.reading.entry reg.name = s.reading.entry reg.name) :
    s'.DecodedAt reg v mono := by
  obtain ⟨d, hd, hunder, hread, hmono, hage⟩ := h
  exact ⟨d, horigin.trans hd, hmap.symm ▸ hunder, hread, hmono,
    (Prod.mk.inj hentry).2.trans hage⟩

theorem Traced.decoded_value (h : s.Traced) {name : String} (hv : s.reading.values name = some v) :
    ∃ d, s.origin name = some d ∧ d.value = some v ∧
      s.reading.entry name = (some v, some d.done.mono) := by
  rcases h.entries name with hnone | ⟨d, v', hd, hvalue, hentry⟩
  · rw [(Prod.mk.inj hnone).1] at hv
    cases hv
  · obtain rfl : v' = v := Option.some.inj ((Prod.mk.inj hentry).1.symm.trans hv)
    exact ⟨d, hd, hvalue, hentry⟩

end Step

section End

variable {s} {s' : Turnover} {tier : RegTier} {poll : Poll} {c : Completion} {reg : RegisterDef}
  {v : ℚ}

theorem Ends.other (h : Ends s s' tier poll c) {tier' : RegTier} (hne : tier' ≠ tier)
    (hcurrent : s'.Current tier') : s.Current tier' := by
  rwa [Current, h.ended, Function.update_of_ne hne, h.same.edition] at hcurrent

theorem Ends.current (h : Ends s s' tier poll c) (hcurrent : s'.Current tier) :
    s.captured tier = s.edition := by
  rw [Current, h.ended, h.same.edition] at hcurrent
  simpa using hcurrent

theorem Ends.regmap_of_current (hs : s.Traced) (h : Ends s s' tier poll c)
    (hcurrent : s'.Current tier) : c.poll.tier = tier ∧ c.poll.regmap = s.regmap := by
  obtain ⟨htier, -, -, hmap⟩ := hs.polls tier poll h.task
  exact ⟨h.pollTier.trans htier, h.pollMap.trans (hmap (h.current hcurrent))⟩

theorem Tidy.value_of_kept (hs : s.Tidy) (h : Ends s s' tier poll c) {name : String}
    (hentry : s'.reading.entry name = s.reading.entry name)
    (horigin : s'.origin name = s.origin name) (hv : s'.reading.values name = some v)
    (hown : ∀ reg ∈ s.regmap.registers, reg.name = name → reg.tier = tier → s'.Current tier →
      ∃ mono, s'.DecodedAt reg v mono) :
    ∃ reg ∈ s'.regmap.registers, reg.name = name ∧
      (s'.Current reg.tier → ∃ mono, s'.DecodedAt reg v mono) := by
  have hold : s.reading.values name = some v := (Prod.mk.inj hentry).1.symm.trans hv
  obtain ⟨reg, hreg, rfl, hdecoded⟩ := hs.values name v hold
  refine ⟨reg, h.same.regmap ▸ hreg, rfl, fun hcurrent => ?_⟩
  by_cases htier : reg.tier = tier
  · exact hown reg hreg rfl htier (htier ▸ hcurrent)
  · obtain ⟨mono, hat⟩ := hdecoded (h.other htier hcurrent)
    exact ⟨mono, hat.congr h.same.regmap horigin hentry⟩

theorem Tidy.value_of_decoded (hs : s.Tidy) (h : Ends s s' tier poll c)
    (hkeeps : if s.captured tier = s.edition then s.FindsOwn c else s.LeavesOwn c)
    (hreg : reg ∈ c.poll.regmap.tier c.poll.tier) (hread : readRegister c.poll.results reg = some v)
    (horigin : s'.origin reg.name = some ⟨reg, c, s.captured tier⟩)
    (hage : s'.reading.valueAges reg.name = some c.mono) :
    ∃ reg' ∈ s'.regmap.registers, reg'.name = reg.name ∧
      (s'.Current reg'.tier → ∃ mono, s'.DecodedAt reg' v mono) := by
  obtain ⟨htier, -, -, hmap⟩ := hs.traced.polls tier poll h.task
  by_cases he : s.captured tier = s.edition
  · have hpmap : c.poll.regmap = s.regmap := h.pollMap.trans (hmap he)
    refine ⟨reg, ?_, rfl, fun _ => ⟨c.mono, _, horigin, ?_, hread, rfl, hage⟩⟩
    · rw [h.same.regmap, ← hpmap]
      exact List.mem_of_mem_filter hreg
    · rw [h.same.regmap, ← hpmap]
      exact ⟨rfl, rfl, rfl, rfl⟩
  · rw [if_neg he] at hkeeps
    obtain ⟨reg', hreg', hname, hsame⟩ := hkeeps reg hreg (by simp [hread])
    refine ⟨reg', h.same.regmap ▸ hreg', hname, fun hcurrent => ?_⟩
    have hother : reg'.tier ≠ tier := fun htier' => he (h.current (htier' ▸ hcurrent))
    have hunder := hsame (h.other hother hcurrent)
    exact ⟨c.mono, _, hname ▸ horigin, h.same.regmap.symm ▸ hunder, hunder.value ▸ hread, rfl,
      hname ▸ hage⟩

/-- The end of a poll that keeps the values leaves them with their registers. -/
theorem Tidy.values_of_end (hs : s.Tidy) (h : Ends s s' tier poll c)
    (hkeeps : if s.captured tier = s.edition then s.FindsOwn c else s.LeavesOwn c) {name : String}
    (hv : s'.reading.values name = some v) :
    ∃ reg ∈ s'.regmap.registers, reg.name = name ∧
      (s'.Current reg.tier → ∃ mono, s'.DecodedAt reg v mono) := by
  have hreading : ∀ e, (c.poll.reading s.reading c.now c.mono).entry name = e →
      s'.reading.entry name = e := fun e he => h.reading ▸ he
  have horigin : s'.origin name = s.decodes tier c name := by rw [h.origin]
  rw [decodes] at horigin
  rcases Completion.entry_cases (hs.traced.accepted_of_end h) s.reading name with
    ⟨hd, hnot, hentry⟩ | ⟨reg, hreg, rfl, ⟨hread, hd, hentry⟩ | ⟨v', hread, hd, hentry⟩⟩
  · rw [hd] at horigin
    refine hs.value_of_kept h (hreading _ hentry) horigin hv fun reg hreg hname htier hcurrent => ?_
    obtain ⟨hptier, hpmap⟩ := h.regmap_of_current hs.traced hcurrent
    refine absurd (hname ▸ List.mem_map_of_mem ?_) hnot
    rw [hptier, hpmap]
    exact List.mem_filter.mpr ⟨hreg, by simp [htier]⟩
  · rw [hd] at horigin
    rcases Reading.evictEntry_cases c.threshold c.mono (s.reading.entry reg.name) with
      hgone | ⟨hkept, hyoung⟩
    · rw [(Prod.mk.inj (hreading _ (hentry.trans hgone))).1] at hv
      cases hv
    have hsame := hreading _ (hentry.trans hkept)
    refine hs.value_of_kept h hsame horigin hv fun reg' hreg' hname htier hcurrent => ?_
    obtain ⟨-, hpmap⟩ := h.regmap_of_current hs.traced hcurrent
    have hold : s.reading.values reg.name = some v := (Prod.mk.inj hsame).1.symm.trans hv
    obtain ⟨d, hdecode, hvalue, hdentry⟩ := hs.traced.decoded_value hold
    obtain rfl : reg' = reg := by
      rw [hpmap] at hreg
      exact List.inj_on_of_nodup_map hs.traced.accepted.nodup hreg' (List.mem_of_mem_filter hreg)
        hname
    rw [if_pos (h.current hcurrent)] at hkeeps
    have hunder := hkeeps reg' hreg hread d hdecode (by simp [hold])
      (hyoung d.done.mono (congrArg Prod.snd hdentry))
    rw [hpmap] at hunder
    exact ⟨d.done.mono, d, horigin.trans hdecode, h.same.regmap.symm ▸ hunder,
      hunder.value ▸ hvalue, rfl, congrArg Prod.snd (hsame.trans hdentry)⟩
  · rw [hd] at horigin
    rcases Reading.evictEntry_cases c.threshold c.mono (some v', some c.mono) with
      hgone | ⟨hkept, -⟩
    · rw [(Prod.mk.inj (hreading _ (hentry.trans hgone))).1] at hv
      cases hv
    have hnew := hreading _ (hentry.trans hkept)
    obtain rfl : v' = v := Option.some.inj ((Prod.mk.inj hnew).1.symm.trans hv)
    exact hs.value_of_decoded h hkeeps hreg hread horigin (Prod.mk.inj hnew).2

/-- The values of the tier that was polled are young, since the poll has dropped the others. -/
theorem Ends.young (hs : s.Traced) (h : Ends s s' tier poll c) (hcurrent : s'.Current tier)
    (hreg : reg ∈ s.regmap.registers) (htier : reg.tier = tier) {age : ℚ}
    (hage : s'.reading.valueAges reg.name = some age) :
    s'.clock - age < s.regmap.staleThresholdS reg.tier := by
  obtain ⟨hptier, hpmap⟩ := h.regmap_of_current hs hcurrent
  have hmem : reg ∈ c.poll.regmap.tier c.poll.tier := by
    rw [hptier, hpmap]
    exact List.mem_filter.mpr ⟨hreg, decide_eq_true htier⟩
  have hentry := Poll.reading_entry s.reading c.now c.mono
    ((hs.accepted_of_end h).nodup_tier c.poll.tier) hmem
  rw [← h.reading] at hentry
  have hsecond := congrArg Prod.snd hentry
  change s'.reading.valueAges reg.name = _ at hsecond
  rw [hage] at hsecond
  rw [h.clock, htier, ← hptier, ← hpmap]
  rcases Reading.evictEntry_cases c.threshold c.mono (Reading.stampEntry
    (readRegister c.poll.results reg) c.mono (s.reading.entry reg.name)) with
    hgone | ⟨hkept, hyoung⟩
  · rw [← Completion.threshold, hgone] at hsecond
    cases hsecond
  · rw [← Completion.threshold, hkept] at hsecond
    exact hyoung age hsecond.symm

theorem Ends.valueAges_other (hs : s.Traced) (h : Ends s s' tier poll c)
    (hcurrent : s'.Current tier) (hreg : reg ∈ s.regmap.registers) (hne : reg.tier ≠ tier) :
    s'.reading.valueAges reg.name = s.reading.valueAges reg.name := by
  obtain ⟨hptier, hpmap⟩ := h.regmap_of_current hs hcurrent
  have hnot : reg.name ∉ (c.poll.regmap.tier c.poll.tier).map RegisterDef.name := by
    rw [hptier, hpmap]
    exact hs.accepted.name_not_mem_tier hreg hne
  have hentry := Poll.reading_entry_of_not_mem s.reading c.now c.mono hnot
  rw [← h.reading] at hentry
  exact congrArg Prod.snd hentry

end End

section Run

variable {s} {s' : Turnover} {l : PollLoops.Label}

theorem closing_of_passes (h : Passes s l s') : s.closing l = none := by
  cases l with
  | begin tier => exact absurd rfl (h.begins tier)
  | returned tier r now mono => simp [closing, h.completed]
  | callbackDone _ | wake _ | applyRegmap _ => rfl

theorem Traced.tier_ne_of_empty (h : s.Traced) {tier : RegTier}
    (hempty : s.loops.poller.batches tier = []) {reg : RegisterDef}
    (hreg : reg ∈ s.regmap.registers) : reg.tier ≠ tier := by
  rintro rfl
  have hmem : reg ∈ s.regmap.tier reg.tier := List.mem_filter.mpr ⟨hreg, by simp⟩
  obtain ⟨b, hb, -⟩ := @batchReads_covers 64 _ reg hmem
  rw [← h.batches, hempty] at hb
  cases hb

theorem Traced.not_current_of_swap (h : s.Traced) {loops : PollLoops} (tier : RegTier) :
    ¬Current { s with loops := loops, edition := s.edition + 1 } tier := by
  intro hcurrent
  obtain ⟨t, hended⟩ := hcurrent.ended
  have hle := (h.past tier _ t hended).1
  simp at hle

theorem Tidy.values_step (h : s.Tidy) (hnames : s.KeepsNames l) (hs : s.step l = some s')
    {name : String} {v : ℚ} (hv : s'.reading.values name = some v) :
    ∃ reg ∈ s'.regmap.registers, reg.name = name ∧
      (s'.Current reg.tier → ∃ mono, s'.DecodedAt reg v mono) := by
  obtain ⟨cb, hadvance⟩ := step_eq_some hs
  cases moves_of_advance hadvance with
  | @skips tier _ _ hempty he =>
    subst he
    obtain ⟨reg, hreg, rfl, hdecoded⟩ := h.values name v hv
    refine ⟨reg, hreg, rfl, fun hcurrent => ?_⟩
    have hended : Function.update s.ended tier (some (s.edition, s.clock)) reg.tier =
        s.ended reg.tier := Function.update_of_ne (h.traced.tier_ne_of_empty hempty hreg) _ _
    simp only [Current, hended] at hcurrent
    exact hdecoded hcurrent
  | begins _ _ _ he =>
    subst he
    exact h.values name v hv
  | goesOn _ hsame _ hreading _ horigin hended =>
    rw [hreading] at hv
    obtain ⟨reg, hreg, rfl, hdecoded⟩ := h.values name v hv
    refine ⟨reg, hsame.regmap ▸ hreg, rfl, fun hcurrent => ?_⟩
    rw [Current, hended, hsame.edition] at hcurrent
    obtain ⟨mono, hat⟩ := hdecoded hcurrent
    exact ⟨mono, hat.congr hsame.regmap (by rw [horigin]) (by rw [hreading])⟩
  | ends hl hcompleted hend _ =>
    subst hl
    exact h.values_of_end hend (hnames _ hcompleted) hv
  | swaps hl _ he =>
    subst hl he
    obtain ⟨reg, hreg, rfl, -⟩ := h.values name v hv
    have hsome : (s.reading.values reg.name).isSome := Option.isSome_iff_exists.mpr ⟨v, hv⟩
    obtain ⟨reg', hreg', hname⟩ := List.mem_map.mp (hnames reg hreg hsome)
    exact ⟨reg', hreg', hname, fun hcurrent =>
      absurd hcurrent (h.traced.not_current_of_swap reg'.tier)⟩

theorem Young.age (h : s.Young l) (ht : s.Traced)
    (hcurrent : ∀ tier, s.closing l ≠ some tier → s.Current tier) {reg : RegisterDef}
    (hreg : reg ∈ s.regmap.registers) (hclosing : s.closing l ≠ some reg.tier) {age : ℚ}
    (hage : s.reading.valueAges reg.name = some age) :
    l.mono?.getD s.clock - age < s.regmap.staleThresholdS reg.tier := by
  rcases ht.entries reg.name with hnone | ⟨d, v, hd, -, hentry⟩
  · rw [(Prod.mk.inj hnone).2] at hage
    cases hage
  · obtain ⟨hvalue, hdecoded⟩ := Prod.mk.inj hentry
    obtain rfl := Option.some.inj (hdecoded.symm.trans hage)
    exact h hcurrent reg hreg hclosing (by rw [hvalue]; rfl) d hd

theorem Young.other {tier : RegTier} (h : s.Young l) (ht : s.Traced)
    (hclosing : s.closing l = some tier) (hcurrent : ∀ tier' ≠ tier, s.Current tier')
    {reg : RegisterDef} (hreg : reg ∈ s.regmap.registers) (hne : reg.tier ≠ tier) {age : ℚ}
    (hage : s.reading.valueAges reg.name = some age) :
    l.mono?.getD s.clock - age < s.regmap.staleThresholdS reg.tier := by
  refine h.age ht (fun tier' hother => hcurrent tier' ?_) hreg ?_ hage
  · rintro rfl
    exact hother hclosing
  · rw [hclosing]
    exact fun he => hne (Option.some.inj he).symm

theorem Tidy.young_step (h : s.Tidy)
    (hyoung : (s.closing l).isSome ∨ l.mono?.isSome → s.Young l) (hs : s.step l = some s')
    (hcurrent : ∀ tier, s'.Current tier) :
    ∀ reg ∈ s'.regmap.registers, ∀ age ∈ s'.reading.valueAges reg.name,
      s'.clock - age < s'.regmap.staleThresholdS reg.tier := by
  obtain ⟨cb, hadvance⟩ := step_eq_some hs
  cases moves_of_advance hadvance with
  | @skips tier hl _ hempty he =>
    subst hl he
    have hclosing : s.closing (.begin tier) = some tier := if_pos hempty
    have hbefore : ∀ tier' ≠ tier, s.Current tier' := by
      intro tier' hne
      have hafter := hcurrent tier'
      simp only [Current, Function.update_of_ne hne] at hafter
      exact hafter
    intro reg hreg age hage
    have hlate := hyoung (Or.inl (by rw [hclosing]; rfl))
    exact hlate.other h.traced hclosing hbefore hreg (h.traced.tier_ne_of_empty hempty hreg) hage
  | begins _ _ _ he =>
    subst he
    exact h.young hcurrent
  | goesOn hpasses hsame _ hreading _ _ hended =>
    have hbefore : ∀ tier, s.Current tier := by
      intro tier
      have hafter := hcurrent tier
      rwa [Current, hended, hsame.edition] at hafter
    rw [hsame.regmap, hreading, hpasses.clock]
    cases hmono : l.mono? with
    | none => exact h.young hbefore
    | some mono =>
      intro reg hreg age hage
      have hlate := (hyoung (Or.inr (by rw [hmono]; rfl))).age h.traced (fun tier _ => hbefore tier)
        hreg (by rw [closing_of_passes hpasses]; rintro ⟨⟩) hage
      rwa [hmono] at hlate
  | @ends tier r poll c _ hl hcompleted hend _ =>
    subst hl
    have hcaptured := hend.current (hcurrent tier)
    have hclosing : s.closing (.returned tier r c.now c.mono) = some tier :=
      if_pos ⟨by rw [hcompleted]; rfl, hcaptured⟩
    intro reg hreg age hage
    rw [hend.same.regmap] at hreg ⊢
    by_cases htier : reg.tier = tier
    · exact hend.young h.traced (hcurrent tier) hreg htier hage
    · rw [hend.valueAges_other h.traced (hcurrent tier) hreg htier] at hage
      rw [hend.clock]
      have hlate := hyoung (Or.inl (by rw [hclosing]; rfl))
      exact hlate.other h.traced hclosing (fun tier' hne => hend.other hne (hcurrent tier')) hreg
        htier hage
  | swaps _ _ he =>
    subst he
    exact absurd (hcurrent .prime) (h.traced.not_current_of_swap .prime)

theorem Tidy.step (h : s.Tidy) (hkeeps : s.Keeps l) (hs : s.step l = some s') : s'.Tidy := by
  obtain ⟨cb, hadvance⟩ := step_eq_some hs
  exact ⟨h.traced.step hadvance, fun _ _ hv => h.values_step hkeeps.names hs hv,
    h.young_step hkeeps.young hs⟩

/-- In a run whose swaps take no register away that has a value, whose polls find no young value of
another definition under a register that they cannot decode, whose overtaken polls decode nothing
that the new map has redefined, and whose polls keep up, once both tiers have been polled since the
last swap every value is that of a register of the current map, decoded by its definition, and
younger than three cadences of its tier. -/
theorem values_have_registers_of_keeps (m : RegisterMap) (hm : m.Accepted) (now mono : ℚ)
    (ls : List PollLoops.Label)
    (hkeeps : ∀ s l s', Takes step (start m now mono) ls s l s' → s.Keeps l) :
    ∀ s, run step (start m now mono) ls = some s → (∀ tier, s.Current tier) →
      ∀ name v, s.reading.values name = some v →
        ∃ reg ∈ s.regmap.registers, reg.name = name ∧ s.DecodedAs reg v := by
  intro s hrun hcurrent name v hv
  have htidy : s.Tidy := run_invariant_of_takes hrun hkeeps (tidy_start hm now mono)
    fun _ _ _ h hk hs => h.step hk hs
  obtain ⟨reg, hreg, rfl, hdecoded⟩ := htidy.values name v hv
  obtain ⟨decodedAt, hat⟩ := hdecoded (hcurrent reg.tier)
  have hage : s.reading.valueAges reg.name = some decodedAt := by
    obtain ⟨-, -, -, -, -, hage⟩ := hat
    exact hage
  exact ⟨reg, hreg, rfl, decodedAt, hat, htidy.young hcurrent reg hreg decodedAt hage⟩

instance {P : RegTier → Prop} [DecidablePred P] : Decidable (∀ tier, P tier) :=
  decidable_of_iff (P .prime ∧ P .base) ⟨fun h tier => by cases tier; exacts [h.1, h.2],
    fun h => ⟨h .prime, h .base⟩⟩

instance (l : PollLoops.Label) : Decidable (s.Young l) :=
  inferInstanceAs (Decidable ((∀ _ : RegTier, _) → ∀ _ ∈ _, _))

instance : DecidablePred s.Keeps := fun l =>
  decidable_of_iff (s.KeepsNames l ∧ ((s.closing l).isSome ∨ l.mono?.isSome → s.Young l))
    ⟨fun h => ⟨h.1, h.2⟩, fun h => ⟨h.names, h.young⟩⟩

def statusAt (addr : ℤ) : RegisterMap :=
  { RegisterMap.bare with
    registers := [.plain "status" addr, { RegisterDef.plain "hours" 20 with tier := .base }] }

def pollBoth (status hours : ℤ) (t : ℚ) : List PollLoops.Label :=
  [.begin .prime, .returned .prime ⟨some [status], 0⟩ t t, .callbackDone .prime,
    .begin .base, .returned .base ⟨some [hours], 0⟩ t t, .callbackDone .base]

/-- A status word that moves to another address is read there. -/
theorem moved_status_read :
    ∃ s, run step (start (statusAt 0) 0 0)
        (pollBoth 3 9 1 ++ .applyRegmap (statusAt 5) :: pollBoth 4 9 2) = some s ∧
      (∀ tier, s.Current tier) ∧ s.reading.values "status" = some 4 ∧
      ∃ reg ∈ s.regmap.registers, reg.name = "status" ∧ s.DecodedAs reg 4 := by
  have heval : (run step (start (statusAt 0) 0 0)
      (pollBoth 3 9 1 ++ .applyRegmap (statusAt 5) :: pollBoth 4 9 2)).any (fun s =>
        s.Current .prime ∧ s.Current .base ∧ s.reading.values "status" = some 4) = true := by
    decide +kernel
  obtain ⟨s, hrun, hs⟩ := (Option.any_eq_true _ _).mp heval
  obtain ⟨hprime, hbase, hv⟩ := of_decide_eq_true hs
  have hcurrent : ∀ tier, s.Current tier := fun tier => by
    cases tier
    · exact hprime
    · exact hbase
  refine ⟨s, hrun, hcurrent, hv, ?_⟩
  refine values_have_registers_of_keeps (statusAt 0) (by decide +kernel) 0 0 _
    (fun s l s' ht => ?_) s hrun hcurrent "status" 4 hv
  exact of_decide_eq_true (ht.test_of_everyStep (fun s l _ => s.Keeps l) (by decide +kernel))

/-- A register that the new map lacks keeps its value after both tiers have been polled. -/
theorem removed_register_lingers :
    ∃ m m' : RegisterMap, m.Accepted ∧ m'.Accepted ∧
      ∃ s, run step (start m 0 0)
          ([.begin .prime, .returned .prime ⟨some [3, 7], 0⟩ 1 1, .callbackDone .prime] ++
            .applyRegmap m' :: pollBoth 3 9 2) = some s ∧
        (∀ tier, s.Current tier) ∧ s.regmap = m' ∧ s.reading.values "extra" = some 7 ∧
        ¬∃ reg ∈ s.regmap.registers, reg.name = "extra" ∧ s.DecodedAs reg 7 := by
  refine ⟨{ statusAt 0 with registers := .plain "extra" 1 :: (statusAt 0).registers }, statusAt 0,
    by decide +kernel, by decide +kernel, _, rfl, ?_, rfl, by decide +kernel, ?_⟩
  · intro tier
    cases tier <;> decide +kernel
  · rintro ⟨reg, hreg, hname, -⟩
    have hall : ∀ reg ∈ (statusAt 0).registers, reg.name ≠ "extra" := by decide
    exact hall reg hreg hname

end Run

end Turnover

end GenWatch

import GenWatch.Prelude.Transition
import GenWatch.Modbus.PollReading

/-! # Two tiers on one reading

Both loops copy the current reading, change the registers of their own tier and assign the
copy, in one stretch without an await. So whatever the interleaving, the reading holds the
last decode of every register, and the callback sees the readings in the order in which
they were assigned.
-/

namespace GenWatch

open Transition

/-- The entry of a register as the completed polls, newest first, tell it: the last decode by a
poll of its tier, unless a poll of its tier has dropped it as stale. -/
def lastDecode (m : RegisterMap) (reg : RegisterDef) : List Completion → Option (ℚ × ℚ)
  | [] => none
  | c :: cs =>
    if c.poll.tier = reg.tier then
      let latest := match readRegister c.poll.results reg with
        | some v => some (v, c.mono)
        | none => lastDecode m reg cs
      latest.filter fun e => c.mono - e.2 < m.staleThresholdS reg.tier
    else lastDecode m reg cs

/-- The last successful decode of a register, whether or not it has been dropped since. -/
def lastRead (reg : RegisterDef) : List Completion → Option (ℚ × Completion)
  | [] => none
  | c :: cs =>
    if c.poll.tier = reg.tier then
      match readRegister c.poll.results reg with
      | some v => some (v, c)
      | none => lastRead reg cs
    else lastRead reg cs

section LastRead

variable {m : RegisterMap} {reg : RegisterDef} {cs : List Completion} {v : ℚ}

theorem lastRead_of_lastDecode {age : ℚ} (h : lastDecode m reg cs = some (v, age)) :
    ∃ c, lastRead reg cs = some (v, c) ∧ c.mono = age := by
  induction cs with
  | nil => cases h
  | cons c cs ih =>
    rw [lastDecode] at h
    rw [lastRead]
    split
    · rename_i htier
      simp only [if_pos htier] at h
      split
      · rename_i v' hread
        simp only [hread] at h
        obtain ⟨rfl, rfl⟩ : v' = v ∧ c.mono = age := by
          simpa using (Option.filter_eq_some_iff.mp h).1
        exact ⟨c, rfl, rfl⟩
      · rename_i hread
        simp only [hread] at h
        exact ih (Option.filter_eq_some_iff.mp h).1
    · rename_i htier
      simp only [if_neg htier] at h
      exact ih h

theorem lastDecode_of_lastRead {c : Completion} {mono : ℚ} (h : lastRead reg cs = some (v, c))
    (hpast : ∀ c ∈ cs, c.mono ≤ mono) (hfresh : mono - c.mono < m.staleThresholdS reg.tier) :
    lastDecode m reg cs = some (v, c.mono) := by
  induction cs with
  | nil => cases h
  | cons c₀ cs ih =>
    obtain ⟨hfirst, hrest⟩ := List.forall_mem_cons.mp hpast
    rw [lastRead] at h
    rw [lastDecode]
    split
    · rename_i htier
      simp only [if_pos htier] at h
      cases hread : readRegister c₀.poll.results reg with
      | some v' =>
        simp only [hread, Option.some.injEq, Prod.mk.injEq] at h
        obtain ⟨rfl, rfl⟩ := h
        have hkept : 0 < m.staleThresholdS reg.tier := by linarith
        simp [Option.filter, hkept]
      | none =>
        simp only [hread] at h
        have hkept : c₀.mono - c.mono < m.staleThresholdS reg.tier := by linarith
        simp [ih h hrest, Option.filter, hkept]
    · rename_i htier
      simp only [if_neg htier] at h
      exact ih h hrest

end LastRead

/-- The loops over a fixed map, with the polls completed so far, the readings assigned and the
readings that the callback was entered with. -/
structure PollJournal where
  loops : PollLoops
  done : List Completion
  assigned : List Reading
  entered : List Reading

namespace PollJournal

def start (m : RegisterMap) (now : ℚ) : PollJournal := ⟨.init m now, [], [], []⟩

/-- One step of the loops, with the callback it enters; the map is not swapped. -/
def advance (j : PollJournal) (l : PollLoops.Label) : Option (PollJournal × Option Callback) :=
  if l.isSwap then none
  else (j.loops.step l).map fun r =>
    ({ loops := r.1
       done := (j.loops.completed l).toList ++ j.done
       assigned := j.assigned ++ (j.loops.completed l).toList.map fun _ => r.1.poller.reading
       entered := j.entered ++ r.2.toList.map Callback.reading }, r.2)

def step (j : PollJournal) (l : PollLoops.Label) : Option PollJournal :=
  (j.advance l).map Prod.fst

/-- The entry that a decode with its time stands for. -/
def entryOf (e : Option (ℚ × ℚ)) : Option ℚ × Option ℚ := (e.map Prod.fst, e.map Prod.snd)

structure Consistent (m : RegisterMap) (j : PollJournal) : Prop where
  onMap : PollLoops.OnMap m j.loops
  entries : ∀ reg ∈ m.registers,
    j.loops.poller.reading.entry reg.name = entryOf (lastDecode m reg j.done)
  others : ∀ name ∉ m.names, j.loops.poller.reading.entry name = (none, none)
  callbacks : j.entered = j.assigned

theorem evictEntry_entryOf (threshold mono : ℚ) (e : Option (ℚ × ℚ)) :
    Reading.evictEntry threshold mono (entryOf e) =
      entryOf (e.filter fun e => mono - e.2 < threshold) := by
  cases e with
  | none => rfl
  | some e =>
    obtain ⟨v, age⟩ := e
    by_cases h : threshold ≤ mono - age
    · simp [Reading.evictEntry, entryOf, h, Option.filter]
    · simp [Reading.evictEntry, entryOf, h, not_le.mp h, Option.filter]

theorem lastDecode_other {m : RegisterMap} {reg : RegisterDef} {c : Completion}
    {cs : List Completion} (h : c.poll.tier ≠ reg.tier) :
    lastDecode m reg (c :: cs) = lastDecode m reg cs := by
  rw [lastDecode, if_neg h]

/-- A poll of the register's tier decodes it or keeps it, and then drops it if it is stale. -/
theorem entryOf_lastDecode {m : RegisterMap} {reg : RegisterDef} {c : Completion}
    {cs : List Completion} (h : c.poll.tier = reg.tier) :
    entryOf (lastDecode m reg (c :: cs)) =
      Reading.evictEntry (m.staleThresholdS reg.tier) c.mono
        (Reading.stampEntry (readRegister c.poll.results reg) c.mono
          (entryOf (lastDecode m reg cs))) := by
  rw [lastDecode, if_pos h]
  cases hread : readRegister c.poll.results reg with
  | none => exact (evictEntry_entryOf _ _ _).symm
  | some v => exact (evictEntry_entryOf _ _ (some (v, c.mono))).symm

variable {m : RegisterMap} {j j' : PollJournal} {l : PollLoops.Label}

theorem advance_eq_some {cb : Option Callback} (h : j.advance l = some (j', cb)) :
    l.isSwap = false ∧ ∃ s, j.loops.step l = some (s, cb) ∧
      j' = { loops := s
             done := (j.loops.completed l).toList ++ j.done
             assigned := j.assigned ++ (j.loops.completed l).toList.map fun _ => s.poller.reading
             entered := j.entered ++ cb.toList.map Callback.reading } := by
  unfold advance at h
  split at h
  · cases h
  · rename_i hl
    obtain ⟨⟨s, cb'⟩, hr, he⟩ := Option.map_eq_some_iff.mp h
    obtain ⟨rfl, rfl⟩ := Prod.mk.inj he
    exact ⟨by simpa using hl, s, hr, rfl⟩

theorem step_eq_some (h : j.step l = some j') : ∃ cb, j.advance l = some (j', cb) := by
  obtain ⟨⟨j'', cb⟩, h', rfl⟩ := Option.map_eq_some_iff.mp h
  exact ⟨cb, h'⟩

theorem consistent_start (m : RegisterMap) (now : ℚ) : (start m now).Consistent m where
  onMap := PollLoops.onMap_init m now
  entries _ _ := rfl
  others _ _ := rfl
  callbacks := rfl

theorem Consistent.advance (hm : m.Accepted) (h : j.Consistent m) {cb : Option Callback}
    (hs : j.advance l = some (j', cb)) : j'.Consistent m := by
  obtain ⟨hl, s, hstep, rfl⟩ := advance_eq_some hs
  have honMap := h.onMap.step hl hstep
  rcases PollLoops.step_completed hstep with
    ⟨tier, r, now, mono, poll, rfl, htask, hcompleted, hreading, -, -, rfl⟩ |
    ⟨hcompleted, hreading, rfl⟩
  · obtain ⟨hmap, htier⟩ := h.onMap.polls tier poll htask
    have hmap' := (poll.returned_same r).2.trans hmap
    have htier' := (poll.returned_same r).1.trans htier
    refine ⟨honMap, fun reg hreg => ?_, fun name hname => ?_, by simp [h.callbacks, hcompleted]⟩
    · simp only [hcompleted, Option.toList_some, List.singleton_append, hreading]
      by_cases hother : tier = reg.tier
      · have hmem : reg ∈ (poll.returned r).1.regmap.tier (poll.returned r).1.tier := by
          rw [hmap', htier']
          exact List.mem_filter.mpr ⟨hreg, by simp [hother]⟩
        have hnodup : (((poll.returned r).1.regmap.tier (poll.returned r).1.tier).map
            RegisterDef.name).Nodup := by
          rw [hmap', htier']
          exact hm.nodup_tier tier
        rw [entryOf_lastDecode (htier'.trans hother), Poll.reading_entry _ _ _ hnodup hmem,
          h.entries reg hreg, hmap', htier', hother]
      · have hnot : reg.name ∉ ((poll.returned r).1.regmap.tier (poll.returned r).1.tier).map
            RegisterDef.name := by
          rw [hmap', htier']
          exact hm.name_not_mem_tier hreg (Ne.symm hother)
        have htier : (poll.returned r).1.tier ≠ reg.tier := htier'.trans_ne hother
        rw [lastDecode_other htier, Poll.reading_entry_of_not_mem _ _ _ hnot, h.entries reg hreg]
    · have hnot : name ∉ ((poll.returned r).1.regmap.tier (poll.returned r).1.tier).map
          RegisterDef.name := by
        rw [hmap', htier']
        exact fun hmem => hname ((List.filter_sublist.map RegisterDef.name).subset hmem)
      simp only [hreading]
      rw [Poll.reading_entry_of_not_mem _ _ _ hnot, h.others name hname]
  · refine ⟨honMap, fun reg hreg => ?_, fun name hname => ?_, by simp [h.callbacks, hcompleted]⟩
    · simpa [hcompleted, hreading] using h.entries reg hreg
    · simpa [hreading] using h.others name hname

theorem Consistent.step (hm : m.Accepted) (h : j.Consistent m) (hs : j.step l = some j') :
    j'.Consistent m := by
  obtain ⟨cb, hadvance⟩ := step_eq_some hs
  exact h.advance hm hadvance

theorem Consistent.entry_kept (hm : m.Accepted) (h : j.Consistent m) (hs : j.step l = some j')
    {reg : RegisterDef} (hreg : reg ∈ m.registers)
    (hother : ∀ c ∈ j.loops.completed l, c.poll.tier ≠ reg.tier) :
    j'.loops.poller.reading.entry reg.name = j.loops.poller.reading.entry reg.name := by
  have h' := h.step hm hs
  obtain ⟨cb, hadvance⟩ := step_eq_some hs
  obtain ⟨-, s, -, rfl⟩ := advance_eq_some hadvance
  rw [h'.entries reg hreg, h.entries reg hreg]
  cases hcompleted : j.loops.completed l with
  | none => rfl
  | some c =>
    have htier : c.poll.tier ≠ reg.tier := hother c hcompleted
    simp [lastDecode_other htier]

/-- In every interleaving of the two loops and the watchdog over an accepted map, the reading holds
the last decode of every register that its own tier has not dropped since, a poll of one tier leaves
the registers of the other alone, and the callback is entered with each reading that is assigned, in
that order. -/
theorem tiers_lose_no_update (m : RegisterMap) (hm : m.Accepted) (now : ℚ)
    (ls : List PollLoops.Label) :
    (∀ j, run step (start m now) ls = some j →
      (∀ reg ∈ m.registers,
        j.loops.poller.reading.entry reg.name = entryOf (lastDecode m reg j.done)) ∧
      j.entered = j.assigned) ∧
    (∀ j l j', Takes step (start m now) ls j l j' → ∀ reg ∈ m.registers,
      (∀ c ∈ j.loops.completed l, c.poll.tier ≠ reg.tier) →
        j'.loops.poller.reading.entry reg.name = j.loops.poller.reading.entry reg.name) := by
  constructor
  · intro j hrun
    have h : j.Consistent m := run_invariant (fun _ _ _ _ hI hs => hI.step hm hs)
      (consistent_start m now) hrun
    exact ⟨h.entries, h.callbacks⟩
  · intro j l j' ht reg hreg hother
    have h : j.Consistent m := ht.reachable.invariant (consistent_start m now)
      fun _ _ _ hI hs => hI.step hm hs
    exact h.entry_kept hm ht.step_eq hreg hother

def twoTierMap : RegisterMap :=
  { RegisterMap.bare with
    registers := [.plain "status", { RegisterDef.plain "hours" 1 with tier := .base }] }

/-- A base poll that begins first and ends last keeps the status read in between. -/
theorem slow_poll_keeps_status :
    ∃ j, run step (start twoTierMap 0)
        [.begin .base, .begin .prime, .returned .prime ⟨some [3], 0⟩ 1 1,
          .returned .base ⟨some [9], 0⟩ 2 2] = some j ∧
      j.entered = j.assigned ∧ j.loops.poller.reading.values "status" = some 3 := by
  obtain ⟨j, hrun, hstatus⟩ : ∃ j, run step (start twoTierMap 0)
      [.begin .base, .begin .prime, .returned .prime ⟨some [3], 0⟩ 1 1,
        .returned .base ⟨some [9], 0⟩ 2 2] = some j ∧
      j.loops.poller.reading.values "status" = some 3 := ⟨_, rfl, by decide +kernel⟩
  have h := (tiers_lose_no_update twoTierMap (by decide +kernel) 0 _).1 j hrun
  exact ⟨j, hrun, h.2, hstatus⟩

end PollJournal

end GenWatch

import Mathlib.Data.List.ReduceOption
import GenWatch.Polling.Requests

/-! # The panel command

The panel command reads the registers of both tiers in one division into batches, decodes
those whose words it has, and cuts every value to an integer before it tests bits. The
words it has are the readable ones, so it shows what the service makes of the same slave.
-/

namespace GenWatch

open Keyed Transition

/-- A read that failed, as the data of the line that says so. -/
inductive PanelError where
  /-- `batch 0x{start}+{count} failed ({error}); falling back to singles` -/
  | batch (start count : ℤ)
  /-- `  0x{addr} {error}` -/
  | single (addr : ℤ)
  deriving DecidableEq

/-- The words read so far, by their addresses, and the reads that failed. -/
structure PanelReads where
  words : ℤ → Option ℤ
  errors : List PanelError

namespace PanelReads

def empty : PanelReads := ⟨fun _ => none, []⟩

variable (r : PanelReads) (read : ℤ → ℤ → Option (List ℤ))

def store (addr w : ℤ) : PanelReads := { r with words := Function.update r.words addr (some w) }

@[simp] theorem store_words (addr w : ℤ) :
    (r.store addr w).words = Function.update r.words addr (some w) := rfl

/-- The words of a batch go to the addresses from its start on. -/
def storeAll (start : ℤ) (words : List ℤ) : PanelReads :=
  words.zipIdx.foldl (fun r w => r.store (start + w.2) w.1) r

def fail (e : PanelError) : PanelReads := { r with errors := r.errors ++ [e] }

def readSingle (addr : ℤ) : PanelReads :=
  match read addr 1 with
  | some (w :: _) => r.store addr w
  | _ => r.fail (.single addr)

def readBatch (batch : ℤ × ℤ) : PanelReads :=
  match read batch.1 batch.2 with
  | some (w :: ws) => r.storeAll batch.1 (w :: ws)
  | _ => (List.range batch.2.toNat).foldl (fun r i => r.readSingle read (batch.1 + (i : ℕ)))
      (r.fail (.batch batch.1 batch.2))

def readMap (m : RegisterMap) : PanelReads :=
  (batchReads m.registers).foldl (fun r batch => r.readBatch read batch) empty

end PanelReads

structure PanelRow where
  reg : RegisterDef
  rawWords : List (Option ℤ)
  value : Option ℚ

/-- A register is decoded if all its words were read. -/
def PanelReads.row (r : PanelReads) (reg : RegisterDef) : PanelRow :=
  let rawWords := (List.range reg.words).map fun i : ℕ => r.words (reg.addr + i)
  ⟨reg, rawWords, if none ∈ rawWords then none else decodeValue reg rawWords.reduceOption⟩

/-- The values of the report by name, cut to integers. -/
def PanelRow.valueMap (rows : List PanelRow) : Values :=
  rows.foldl (fun values row => row.value.elim values fun v =>
    Function.update values row.reg.name (some (truncInt v : ℚ))) fun _ => none

structure PanelReport where
  rows : List PanelRow
  engineState : EngineState
  engineStateVia : Option StateBitRule
  activeAlarms : List AlarmBit
  errors : List PanelError

def panel (read : ℤ → ℤ → Option (List ℤ)) (m : RegisterMap) : PanelReport :=
  let reads := PanelReads.readMap read m
  let rows := m.registers.map reads.row
  let values := PanelRow.valueMap rows
  let rule := m.engineStateBits.find? fun rule => values.allSet rule.register rule.mask
  { rows := rows
    engineState := rule.elim .unknown StateBitRule.state
    engineStateVia := rule
    activeAlarms := m.deriveActiveAlarms values
    errors := reads.errors }

/-- The report shows every register of the map as the reading has it, none where that has none,
with the state and the alarms that are derived from the reading. -/
structure PanelReport.Shows (report : PanelReport) (m : RegisterMap) (r : Reading) : Prop where
  registers : report.rows.map PanelRow.reg = m.registers
  values : ∀ row ∈ report.rows, row.value = r.values row.reg.name
  others : ∀ name ∉ m.registers.map RegisterDef.name, r.values name = none
  engineState : report.engineState = m.deriveEngineState r.values
  activeAlarms : report.activeAlarms = m.deriveActiveAlarms r.values

/-! ### Values cut to integers -/

namespace Values

variable (values : Values)

def truncated : Values := fun name => (values name).map fun v => (truncInt v : ℚ)

theorem allSet_truncated (register : String) (mask : ℤ) :
    values.truncated.allSet register mask = values.allSet register mask := by
  unfold allSet truncated
  cases values register <;> simp

theorem anySet_truncated (register : String) (mask : ℤ) :
    values.truncated.anySet register mask = values.anySet register mask := by
  unfold anySet truncated
  cases values register <;> simp

end Values

section Truncated

variable (m : RegisterMap) (values : Values)

theorem deriveActiveAlarms_truncated :
    m.deriveActiveAlarms values.truncated = m.deriveActiveAlarms values := by
  simp only [RegisterMap.deriveActiveAlarms, Values.anySet_truncated]

theorem deriveEngineState_eq : m.deriveEngineState values =
    (m.engineStateBits.find? fun rule => values.truncated.allSet rule.register rule.mask).elim
      .unknown StateBitRule.state := by
  simp only [RegisterMap.deriveEngineState, Values.allSet_truncated]
  cases m.engineStateBits.find? fun rule => values.allSet rule.register rule.mask <;> rfl

end Truncated

/-! ### The words of a slave -/

namespace Slave

section Words

variable {slave : Slave} {r : PanelReads} {start addr a : ℤ} {n : ℕ}

def Reads (batch : ℤ × ℤ) (a : ℤ) : Prop := batch.1 ≤ a ∧ a < batch.1 + batch.2.toNat

instance (batch : ℤ × ℤ) (a : ℤ) : Decidable (Reads batch a) := inferInstanceAs (Decidable (_ ∧ _))

def word (slave : Slave) (a : ℤ) : Option ℤ :=
  if slave.readable a = true then some (slave.memory a) else none

theorem words_succ (start : ℤ) (n : ℕ) :
    slave.words start (n + 1) = slave.words start n ++ [slave.memory (start + n)] := by
  simp [words, List.range_succ]

theorem storeAll_words (start : ℤ) (n : ℕ) (a : ℤ) :
    (r.storeAll start (slave.words start n)).words a =
      if start ≤ a ∧ a < start + n then some (slave.memory a) else r.words a := by
  induction n with
  | zero => simp [words, PanelReads.storeAll]
  | succ n ih =>
    unfold PanelReads.storeAll at ih ⊢
    rw [words_succ, List.zipIdx_append, List.foldl_append]
    simp only [List.zipIdx_cons, List.zipIdx_nil, List.foldl_cons, List.foldl_nil, length_words,
      Nat.zero_add, PanelReads.store_words]
    by_cases h : a = start + n
    · subst h
      simp
    · rw [Function.update_of_ne h, ih]
      have hiff : (start ≤ a ∧ a < start + n) ↔ start ≤ a ∧ a < start + (n + 1 : ℕ) := by omega
      simp only [hiff]

theorem readSingle_words (addr a : ℤ) :
    (r.readSingle slave.read addr).words a =
      if a = addr ∧ slave.readable addr = true then some (slave.memory a) else r.words a := by
  cases h : slave.readable addr with
  | true =>
    have hread : slave.read addr 1 = some [slave.memory addr] := by
      simp [read, Readable, words, h]
    by_cases ha : a = addr <;> simp [PanelReads.readSingle, hread, PanelReads.store, ha]
  | false =>
    have hread : slave.read addr 1 = none := by
      simp [read, Readable, h]
    simp [PanelReads.readSingle, hread, PanelReads.fail]

theorem singles_words (start : ℤ) (n : ℕ) (a : ℤ) :
    ((List.range n).foldl (fun r i => r.readSingle slave.read (start + (i : ℕ))) r).words a =
      if (start ≤ a ∧ a < start + n) ∧ slave.readable a = true then some (slave.memory a)
      else r.words a := by
  induction n with
  | zero =>
    rw [if_neg (by omega)]
    rfl
  | succ n ih =>
    rw [List.range_succ, List.foldl_append, List.foldl_cons, List.foldl_nil, readSingle_words, ih]
    by_cases h : a = start + n
    · subst h
      simp
    · have hiff : (start ≤ a ∧ a < start + n) ↔ start ≤ a ∧ a < start + (n + 1 : ℕ) := by omega
      simp only [h, false_and, if_false, hiff]

theorem readBatch_words (batch : ℤ × ℤ) (a : ℤ) :
    (r.readBatch slave.read batch).words a =
      if Reads batch a ∧ slave.readable a = true then some (slave.memory a) else r.words a := by
  unfold PanelReads.readBatch Reads
  split
  · rename_i w ws hread
    have hok : slave.Readable batch.1 batch.2.toNat := by
      by_contra hbad
      rw [read, if_neg hbad] at hread
      cases hread
    rw [read, if_pos hok] at hread
    rw [← Option.some.inj hread, storeAll_words]
    refine if_congr (iff_self_and.mpr ?_) rfl rfl
    rintro ⟨hlow, hhigh⟩
    have hword := hok (a - batch.1).toNat (by omega)
    rwa [Int.toNat_of_nonneg (by omega), add_sub_cancel] at hword
  · exact singles_words batch.1 batch.2.toNat a

theorem readBatches_words (batches : List (ℤ × ℤ)) (a : ℤ) :
    (batches.foldl (fun r batch => r.readBatch slave.read batch) r).words a =
      if (∃ batch ∈ batches, Reads batch a) ∧ slave.readable a = true then some (slave.memory a)
      else r.words a := by
  induction batches generalizing r with
  | nil => simp
  | cons batch batches ih =>
    rw [List.foldl_cons, ih, readBatch_words, ← ite_or]
    refine if_congr ?_ rfl rfl
    rw [List.exists_mem_cons_iff, ← or_and_right, or_comm]

/-- The panel command has the readable words of every register. -/
theorem readMap_words {m : RegisterMap} {reg : RegisterDef} (hreg : reg ∈ m.registers) {i : ℕ}
    (hi : i < reg.words) :
    (PanelReads.readMap slave.read m).words (reg.addr + i) = slave.word (reg.addr + i) := by
  obtain ⟨batch, hbatch, hlow, hhigh⟩ : ∃ b ∈ batchReads m.registers, Covers b reg :=
    batchReads_covers hreg
  have hin : ∃ b ∈ batchReads m.registers, Reads b (reg.addr + i) :=
    ⟨batch, hbatch, by omega, by omega⟩
  rw [PanelReads.readMap, readBatches_words]
  simp only [hin, true_and]
  rfl

theorem map_word_of_readable (h : slave.Readable addr n) :
    ((List.range n).map fun i : ℕ => slave.word (addr + i)) = (slave.words addr n).map some := by
  rw [words, List.map_map]
  refine List.map_congr_left fun i hi => ?_
  exact if_pos (h i (List.mem_range.mp hi))

theorem none_mem_map_word (h : ¬slave.Readable addr n) :
    none ∈ (List.range n).map fun i : ℕ => slave.word (addr + i) := by
  obtain ⟨i, hi, hbad⟩ : ∃ i < n, ¬slave.readable (addr + (i : ℕ)) = true := by
    simpa [Readable] using h
  exact List.mem_map.mpr ⟨i, List.mem_range.mpr hi, if_neg hbad⟩

theorem reduceOption_map_some (words : List ℤ) : (words.map some).reduceOption = words := by
  induction words with
  | nil => rfl
  | cons w words ih => rw [List.map_cons, List.reduceOption_cons_of_some, ih]

theorem row_value {m : RegisterMap} {reg : RegisterDef} (hreg : reg ∈ m.registers) :
    ((PanelReads.readMap slave.read m).row reg).value =
      if slave.Readable reg.addr reg.words then decodeValue reg (slave.words reg.addr reg.words)
      else none := by
  have hraw : (List.range reg.words).map (fun i : ℕ =>
        (PanelReads.readMap slave.read m).words (reg.addr + i)) =
      (List.range reg.words).map fun i : ℕ => slave.word (reg.addr + i) :=
    List.map_congr_left fun i hi => readMap_words hreg (List.mem_range.mp hi)
  rw [PanelReads.row]
  simp only [hraw]
  by_cases hok : slave.Readable reg.addr reg.words
  · rw [if_pos hok, map_word_of_readable hok, if_neg (by simp), reduceOption_map_some]
  · rw [if_neg hok, if_pos (none_mem_map_word hok)]

end Words

/-! ### The service against the same slave -/

/-- What happens to the loops of a poller whose reads the slave answers. -/
inductive Event where
  | begin (tier : RegTier)
  | readReturns (tier : RegTier) (elapsedMs now mono : ℚ)
  | callbackDone (tier : RegTier)
  | wake (mono : ℚ)

variable (slave : Slave)

/-- One step of the loops, with the answer of the slave to the read that returns. -/
def advance (s : PollLoops) : Event → Option PollLoops
  | .begin tier => s.advance (.begin tier)
  | .readReturns tier elapsedMs now mono => slave.step tier s (.readReturns elapsedMs now mono)
  | .callbackDone tier => s.advance (.callbackDone tier)
  | .wake mono => s.advance (.wake mono)

/-- A poll of the tier has been made: its callback is done, or there was nothing to read. -/
def Polled (m : RegisterMap) (tier : RegTier) (events : List Event) : Prop :=
  if m.tier tier = [] then .begin tier ∈ events else .callbackDone tier ∈ events

def Event.ReadsFor (tier : RegTier) : Event → Prop
  | .readReturns t _ _ _ => t = tier
  | _ => False

/-- The events of one poll: it begins, its reads return, and its callback is done if there was
anything to read. -/
def IsPoll (m : RegisterMap) (tier : RegTier) (events : List Event) : Prop :=
  ∃ reads, (∀ e ∈ reads, e.ReadsFor tier) ∧
    events = .begin tier :: reads ++ if m.tier tier = [] then [] else [.callbackDone tier]

/-- The reading has the readable registers of a tier. -/
def Has (m : RegisterMap) (tier : RegTier) (r : Reading) : Prop :=
  ∀ reg ∈ m.tier tier, slave.Readable reg.addr reg.words →
    r.values reg.name = decodeValue reg (slave.words reg.addr reg.words)

/-- The reading has nothing but readable registers of the map. -/
structure Only (m : RegisterMap) (r : Reading) : Prop where
  unreadable : ∀ reg ∈ m.registers, ¬slave.Readable reg.addr reg.words →
    r.entry reg.name = (none, none)
  others : ∀ name ∉ m.registers.map RegisterDef.name, r.values name = none

/-- How far the loops have come: each poll under way follows the slave, a poll in its callback has
left the registers of its tier, and the reading has no others. -/
structure Tracks (m : RegisterMap) (s : PollLoops) : Prop where
  regmap : s.poller.regmap = m
  batches : ∀ tier, s.poller.batches tier = batchReads (m.tier tier)
  polls : ∀ tier p, s.task tier = .reading p → p.pending ≠ [] ∧ slave.Following tier m p
  calling : ∀ tier, s.task tier = .calling → slave.Has m tier s.poller.reading
  only : slave.Only m s.poller.reading

section Loops

variable {slave} {m : RegisterMap} {s s' : PollLoops} {tier : RegTier} {p : Poll} {r : Reading}

theorem Following.has (h : slave.Following tier m p) (hm : m.Accepted) (hpos : 0 < m.pollMs tier)
    (hdone : p.pending = []) (now mono : ℚ) : slave.Has m tier (p.reading r now mono) :=
  fun _ hreg hok => congrArg Prod.fst (h.reading_entry_of_readable hm hpos hdone now mono hreg hok)

theorem Following.has_of_has (h : slave.Following tier m p) (hm : m.Accepted)
    (hpos : 0 < m.pollMs tier) (hdone : p.pending = []) (now mono : ℚ) {tier' : RegTier}
    (hr : slave.Has m tier' r) : slave.Has m tier' (p.reading r now mono) := by
  by_cases he : tier' = tier
  · subst he
    exact h.has hm hpos hdone now mono
  · intro reg hreg hok
    obtain ⟨hmem, rfl⟩ := RegisterMap.mem_tier.mp hreg
    have hentry : (p.reading r now mono).entry reg.name = r.entry reg.name :=
      h.reading_entry_of_not_mem now mono (hm.name_not_mem_tier hmem he)
    rw [← hr reg hreg hok]
    exact congrArg Prod.fst hentry

theorem Following.only (h : slave.Following tier m p) (hm : m.Accepted) (hdone : p.pending = [])
    (now mono : ℚ) (hr : slave.Only m r) : slave.Only m (p.reading r now mono) := by
  constructor
  · intro reg hreg hbad
    by_cases htier : reg.tier = tier
    · rw [h.reading_entry hm hdone now mono (RegisterMap.mem_tier.mpr ⟨hreg, htier⟩), if_neg hbad,
        hr.unreadable reg hreg hbad]
      rfl
    · rw [h.reading_entry_of_not_mem now mono (hm.name_not_mem_tier hreg htier)]
      exact hr.unreadable reg hreg hbad
  · intro name hname
    have hnot : name ∉ (m.tier tier).map RegisterDef.name :=
      fun h => hname ((List.filter_sublist.map _).subset h)
    have hentry : (p.reading r now mono).entry name = r.entry name :=
      h.reading_entry_of_not_mem now mono hnot
    exact (congrArg Prod.fst hentry).trans (hr.others name hname)

theorem tracks_init (m : RegisterMap) (now : ℚ) : slave.Tracks m (.init m now) where
  regmap := rfl
  batches tier := by cases tier <;> rfl
  polls := by rintro _ _ ⟨⟩
  calling := by rintro _ ⟨⟩
  only := ⟨fun _ _ _ => rfl, fun _ _ => rfl⟩

theorem Tracks.update (h : slave.Tracks m s) {t : TierTask} (hmap : s'.poller.regmap = m)
    (hbatches : s'.poller.batches = s.poller.batches)
    (hkept : ∀ tier', slave.Has m tier' s.poller.reading → slave.Has m tier' s'.poller.reading)
    (honly : slave.Only m s'.poller.reading)
    (htask : s'.task = Function.update s.task tier t)
    (hpolls : ∀ p, t = .reading p → p.pending ≠ [] ∧ slave.Following tier m p)
    (hcalling : t = .calling → slave.Has m tier s'.poller.reading) : slave.Tracks m s' where
  regmap := hmap
  batches := by
    rw [hbatches]
    exact h.batches
  polls := by
    rw [htask]
    exact (Function.forall_update_iff s.task fun tier t => ∀ p, t = .reading p →
      p.pending ≠ [] ∧ slave.Following tier m p).mpr ⟨hpolls, fun tier _ => h.polls tier⟩
  calling := by
    rw [htask]
    exact (Function.forall_update_iff s.task fun tier t => t = .calling →
      slave.Has m tier s'.poller.reading).mpr
        ⟨hcalling, fun tier _ hc => hkept tier (h.calling tier hc)⟩
  only := honly

theorem Tracks.returned (h : slave.Tracks m s) (hm : m.Accepted) (hpos : ∀ tier, 0 < m.pollMs tier)
    (htask : s.task tier = .reading p) (elapsedMs now mono : ℚ) :
    slave.Tracks m (s.returned tier p ⟨slave.answer p, elapsedMs⟩ now mono).1 ∧
      ∀ tier', slave.Has m tier' s.poller.reading → slave.Has m tier'
        (s.returned tier p ⟨slave.answer p, elapsedMs⟩ now mono).1.poller.reading := by
  have hfollows := (h.polls tier p htask).2.returned elapsedMs
  by_cases hdone : (p.returned ⟨slave.answer p, elapsedMs⟩).1.pending = []
  · rw [PollLoops.returned_last s tier now mono hdone]
    have hreading : ∀ sample, ((s.poller.recordSample sample now mono).finish
        (p.returned ⟨slave.answer p, elapsedMs⟩).1 now mono).reading =
        (p.returned ⟨slave.answer p, elapsedMs⟩).1.reading s.poller.reading now mono := by
      intro sample
      simp [Poller.finish]
    have hkept : ∀ tier', slave.Has m tier' s.poller.reading → slave.Has m tier'
        ((p.returned ⟨slave.answer p, elapsedMs⟩).1.reading s.poller.reading now mono) :=
      fun tier' hr => hfollows.has_of_has hm (hpos tier) hdone now mono hr
    refine ⟨h.update ?_ ?_ ?_ ?_ rfl ?_ ?_, ?_⟩
    · simpa [Poller.finish] using h.regmap
    · cases (p.returned ⟨slave.answer p, elapsedMs⟩).2 <;> cases tier <;> rfl
    · rwa [hreading]
    · rw [hreading]
      exact hfollows.only hm hdone now mono h.only
    · rintro _ ⟨⟩
    · intro _
      rw [hreading]
      exact hfollows.has hm (hpos tier) hdone now mono
    · rwa [hreading]
  · rw [PollLoops.returned_more s tier now mono hdone]
    refine ⟨h.update ?_ ?_ ?_ ?_ rfl ?_ ?_, ?_⟩
    · simpa using h.regmap
    · cases (p.returned ⟨slave.answer p, elapsedMs⟩).2 <;> rfl
    · simp
    · simpa using h.only
    · rintro _ ⟨⟩
      exact ⟨hdone, hfollows⟩
    · simp
    · simp

theorem Tracks.advance (h : slave.Tracks m s) (hm : m.Accepted)
    (hpos : ∀ tier, 0 < m.pollMs tier) {e : Event} (hs : slave.advance s e = some s') :
    slave.Tracks m s' ∧
      ∀ tier, slave.Has m tier s.poller.reading → slave.Has m tier s'.poller.reading := by
  cases e with
  | begin tier =>
    obtain ⟨cb, hstep⟩ := PollLoops.step_of_advance hs
    obtain ⟨-, -, ⟨-, rfl⟩ | ⟨hne, rfl⟩⟩ := PollLoops.step_begin hstep
    · exact ⟨h, fun _ => id⟩
    · refine ⟨h.update h.regmap rfl (fun _ => id) h.only rfl ?_ (by simp), fun _ => id⟩
      rintro _ ⟨⟩
      exact ⟨hne, following_capture h.regmap (h.batches tier)⟩
  | readReturns tier elapsedMs now mono =>
    obtain ⟨p, htask, rfl⟩ := step_readReturns hs
    exact h.returned hm hpos htask elapsedMs now mono
  | callbackDone tier =>
    obtain ⟨cb, hstep⟩ := PollLoops.step_of_advance hs
    obtain ⟨-, -, rfl⟩ := PollLoops.step_callbackDone hstep
    exact ⟨h.update h.regmap rfl (fun _ => id) h.only rfl (by rintro _ ⟨⟩) (by simp), fun _ => id⟩
  | wake mono =>
    obtain ⟨cb, hstep⟩ := PollLoops.step_of_advance hs
    obtain ⟨-, rfl⟩ := PollLoops.step_wake hstep
    exact ⟨⟨h.regmap, h.batches, h.polls, h.calling, h.only⟩, fun _ => id⟩

/-- After a poll of a tier the reading has its readable registers, whatever was polled since. -/
theorem has_of_run (hm : m.Accepted) (hpos : ∀ tier, 0 < m.pollMs tier) {now : ℚ}
    {events : List Event} (hrun : run slave.advance (.init m now) events = some s) :
    slave.Tracks m s ∧ ∀ tier, Polled m tier events → slave.Has m tier s.poller.reading := by
  induction events using List.reverseRecOn generalizing s with
  | nil =>
    obtain rfl := Option.some.inj hrun
    refine ⟨tracks_init m now, fun tier hpolled => ?_⟩
    unfold Polled at hpolled
    split at hpolled <;> cases hpolled
  | append_singleton events e ih =>
    obtain ⟨t, ht, hs⟩ := run_snoc_iff.mp hrun
    obtain ⟨htracks, hhas⟩ := ih ht
    obtain ⟨htracks', hkept⟩ := htracks.advance hm hpos hs
    refine ⟨htracks', fun tier hpolled => ?_⟩
    unfold Polled at hpolled
    split at hpolled
    · rename_i hempty
      simp [Has, hempty]
    · rename_i hne
      rcases List.mem_append.mp hpolled with hbefore | hlast
      · exact hkept tier (hhas tier (by rwa [Polled, if_neg hne]))
      · obtain rfl := List.mem_singleton.mp hlast
        obtain ⟨cb, hstep⟩ := PollLoops.step_of_advance hs
        exact hkept tier (htracks.calling tier (PollLoops.step_callbackDone hstep).1)

theorem batchReads_eq_nil_iff : batchReads (m.tier tier) = [] ↔ m.tier tier = [] := by
  constructor
  · intro h
    by_contra hne
    obtain ⟨reg, hreg⟩ := List.exists_mem_of_ne_nil _ hne
    obtain ⟨batch, hbatch, -⟩ : ∃ b ∈ batchReads (m.tier tier), Covers b reg :=
      batchReads_covers hreg
    exact List.ne_nil_of_mem hbatch h
  · intro h
    rw [h]
    rfl

theorem Tracks.exists_calling (h : slave.Tracks m s) (hm : m.Accepted)
    (hpos : ∀ tier, 0 < m.pollMs tier) (htask : s.task tier = .reading p) :
    ∃ reads s', (∀ e ∈ reads, e.ReadsFor tier) ∧ run slave.advance s reads = some s' ∧
      s'.task = Function.update s.task tier .calling := by
  obtain ⟨n, hn⟩ : ∃ n, readsLeft p ≤ n := ⟨_, le_rfl⟩
  induction n generalizing s p with
  | zero =>
    obtain ⟨hpending, hfollows⟩ := h.polls tier p htask
    have := readsLeft_pos hfollows hpending
    omega
  | succ n ih =>
    obtain ⟨hpending, hfollows⟩ := h.polls tier p htask
    have hless := hfollows.readsLeft_returned hpending 0
    have hs : slave.advance s (.readReturns tier 0 0 0) =
        some (s.returned tier p ⟨slave.answer p, 0⟩ 0 0).1 := by
      simp [Slave.advance, Slave.step, PollLoops.step, htask]
    obtain ⟨htracks, -⟩ := h.advance hm hpos hs
    by_cases hdone : (p.returned ⟨slave.answer p, 0⟩).1.pending = []
    · refine ⟨[.readReturns tier 0 0 0], (s.returned tier p ⟨slave.answer p, 0⟩ 0 0).1, ?_, ?_, ?_⟩
      · exact List.forall_mem_singleton.mpr rfl
      · rw [run_cons, hs]
        rfl
      · rw [PollLoops.returned_last s tier 0 0 hdone]
    · rw [PollLoops.returned_more s tier 0 0 hdone] at hs htracks
      obtain ⟨reads, s', hreads, hrun, htask'⟩ :=
        ih htracks (Function.update_self tier _ s.task) (by omega)
      refine ⟨.readReturns tier 0 0 0 :: reads, s', ?_, ?_, ?_⟩
      · exact List.forall_mem_cons.mpr ⟨rfl, hreads⟩
      · rw [run_cons, hs]
        exact hrun
      · rw [htask', Function.update_idem]

theorem Tracks.exists_poll (h : slave.Tracks m s) (hm : m.Accepted)
    (hpos : ∀ tier, 0 < m.pollMs tier) (tier : RegTier) (hidle : s.task tier = .idle) :
    ∃ events s', IsPoll m tier events ∧ run slave.advance s events = some s' ∧
      s'.task = s.task := by
  by_cases hempty : m.tier tier = []
  · have hbatches : s.poller.batches tier = [] := by
      rw [h.batches, batchReads_eq_nil_iff.mpr hempty]
    refine ⟨[.begin tier], s, ⟨[], by simp, by simp [hempty]⟩, ?_, rfl⟩
    simp [Slave.advance, PollLoops.advance, PollLoops.step, hidle, hbatches]
  · have hbatches : s.poller.batches tier ≠ [] := by
      rw [h.batches]
      exact mt batchReads_eq_nil_iff.mp hempty
    have hbegin : slave.advance s (.begin tier) = some { s with
        task := Function.update s.task tier (.reading (s.poller.capture tier)) } := by
      simp [Slave.advance, PollLoops.advance, PollLoops.step, hidle, hbatches]
    obtain ⟨reads, t, hreads, hrun, htask⟩ := (h.advance hm hpos hbegin).1.exists_calling hm hpos
      (Function.update_self tier _ s.task)
    have hdone : slave.advance t (.callbackDone tier) =
        some { t with task := Function.update t.task tier .idle } := by
      simp [Slave.advance, PollLoops.advance, PollLoops.step, htask]
    refine ⟨.begin tier :: reads ++ [.callbackDone tier],
      { t with task := Function.update t.task tier .idle }, ⟨reads, hreads, by simp [hempty]⟩,
      ?_, ?_⟩
    · rw [List.cons_append, run_cons, hbegin]
      exact run_snoc_iff.mpr ⟨t, hrun, hdone⟩
    · simp only [htask, Function.update_idem]
      rw [← hidle, Function.update_eq_self]

theorem Polled.append_right {events : List Event} (h : Polled m tier events) (later : List Event) :
    Polled m tier (events ++ later) := by
  unfold Polled at *
  split at h <;> rename_i hempty <;> simp [hempty, h]

theorem Polled.append_left {events : List Event} (h : Polled m tier events)
    (earlier : List Event) : Polled m tier (earlier ++ events) := by
  unfold Polled at *
  split at h <;> rename_i hempty <;> simp [hempty, h]

theorem IsPoll.polled {events : List Event} (h : IsPoll m tier events) : Polled m tier events := by
  obtain ⟨reads, -, rfl⟩ := h
  unfold Polled
  split <;> simp

end Loops

/-! ### The report -/

section Report

variable {slave} {m : RegisterMap} {s : PollLoops} {rows : List PanelRow}

theorem acts_valueMap : Acts (fun (values : Values) name => values name) (fun row => row.reg.name)
    (fun (row : PanelRow) old => row.value.elim old fun v => some (truncInt v : ℚ))
    (fun values row => row.value.elim values fun v =>
      Function.update values row.reg.name (some (truncInt v : ℚ))) := by
  rintro values ⟨reg, rawWords, value⟩ name
  cases value with
  | none => simp
  | some v => by_cases h : name = reg.name <;> simp [h]

theorem valueMap_eq {values : Values} (hnodup : (rows.map fun row => row.reg.name).Nodup)
    (hrows : ∀ row ∈ rows, row.value = values row.reg.name)
    (hothers : ∀ name ∉ rows.map fun row => row.reg.name, values name = none) :
    PanelRow.valueMap rows = values.truncated := by
  funext name
  by_cases hname : name ∈ rows.map fun row => row.reg.name
  · obtain ⟨row, hrow, rfl⟩ := List.mem_map.mp hname
    have hvalue := acts_valueMap.foldl_of_mem hnodup hrow fun _ => none
    refine hvalue.trans ?_
    rw [hrows row hrow, Values.truncated]
    cases values row.reg.name <;> rfl
  · have hvalue := acts_valueMap.foldl_of_not_mem hname fun _ => none
    refine hvalue.trans ?_
    rw [Values.truncated, hothers name hname]
    rfl

/-- The report shows the reading that has the readable registers of both tiers and no others. -/
theorem panel_shows (hm : m.Accepted) {r : Reading} (hhas : ∀ tier, slave.Has m tier r)
    (honly : slave.Only m r) : (panel slave.read m).Shows m r := by
  have hregs : ((panel slave.read m).rows.map PanelRow.reg) = m.registers := by
    simp [panel, PanelReads.row, Function.comp_def]
  have hnames : ((panel slave.read m).rows.map fun row => row.reg.name) =
      m.registers.map RegisterDef.name := by
    simp [panel, PanelReads.row, Function.comp_def]
  have hrows : ∀ row ∈ (panel slave.read m).rows, row.value = r.values row.reg.name := by
    intro row hrow
    obtain ⟨reg, hreg, rfl⟩ := List.mem_map.mp hrow
    rw [row_value hreg]
    by_cases hok : slave.Readable reg.addr reg.words
    · rw [if_pos hok]
      exact (hhas reg.tier reg (RegisterMap.mem_tier.mpr ⟨hreg, rfl⟩) hok).symm
    · rw [if_neg hok]
      exact (congrArg Prod.fst (honly.unreadable reg hreg hok)).symm
  have hvalues : PanelRow.valueMap (panel slave.read m).rows = r.values.truncated :=
    valueMap_eq (hnames ▸ hm.nodup) hrows (hnames ▸ honly.others)
  refine ⟨hregs, hrows, honly.others, ?_, ?_⟩
  · rw [deriveEngineState_eq, ← hvalues]
    rfl
  · rw [← deriveActiveAlarms_truncated, ← hvalues]
    rfl

end Report

/-- Once both tiers of a fresh poller have been polled, the panel command reports of the same slave
what the reading has and what is derived from it. The two polls can be made, one after the other. -/
theorem panel_agrees_with_polls (slave : Slave) (m : RegisterMap) (hm : m.Accepted)
    (hprime : 0 < m.primePollMs) (hbase : 0 < m.basePollMs) (now : ℚ) :
    (∀ events s, run slave.advance (.init m now) events = some s →
      (∀ tier, Polled m tier events) → (panel slave.read m).Shows m s.poller.reading) ∧
    ∃ prime base s, IsPoll m .prime prime ∧ IsPoll m .base base ∧
      run slave.advance (.init m now) (prime ++ base) = some s ∧
      (panel slave.read m).Shows m s.poller.reading := by
  have hpos : ∀ tier, 0 < m.pollMs tier := by
    intro tier
    cases tier <;> assumption
  have hshows : ∀ events s, run slave.advance (.init m now) events = some s →
      (∀ tier, Polled m tier events) → (panel slave.read m).Shows m s.poller.reading := by
    intro events s hrun hpolled
    obtain ⟨htracks, hhas⟩ := has_of_run hm hpos hrun
    exact panel_shows hm (fun tier => hhas tier (hpolled tier)) htracks.only
  refine ⟨hshows, ?_⟩
  obtain ⟨prime, s₁, hp, hrun₁, htask⟩ :=
    Tracks.exists_poll (tracks_init m now : slave.Tracks m (.init m now)) hm hpos .prime rfl
  obtain ⟨base, s₂, hb, hrun₂, -⟩ :=
    (has_of_run hm hpos hrun₁).1.exists_poll hm hpos .base (by rw [htask]; rfl)
  have hrun : run slave.advance (.init m now) (prime ++ base) = some s₂ := by
    rw [run_append, hrun₁]
    exact hrun₂
  refine ⟨prime, base, s₂, hp, hb, hrun, hshows _ _ hrun fun tier => ?_⟩
  cases tier with
  | prime => exact hp.polled.append_right base
  | base => exact hb.polled.append_left prime

/-- One of two neighbouring registers can be read, and the report shows it and not the other. -/
theorem half_panel_shows :
    (panel halfSlave.read pairMap).rows.map PanelRow.value = [some 7, none] ∧
    ∃ prime base s, IsPoll pairMap .prime prime ∧ IsPoll pairMap .base base ∧
      run halfSlave.advance (.init pairMap 0) (prime ++ base) = some s ∧
      (panel halfSlave.read pairMap).Shows pairMap s.poller.reading :=
  ⟨by decide +kernel, (panel_agrees_with_polls halfSlave pairMap (by decide +kernel) (by decide)
    (by decide) 0).2⟩

end Slave

end GenWatch

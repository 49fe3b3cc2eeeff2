import GenWatch.Prelude.Transition
import GenWatch.Modbus.PollReading

/-! # Polling a slave

A slave is a memory with some unreadable addresses: a read succeeds if its whole range is
readable. Whatever the batches, the fan-out and their placeholders, a poll of a slave
leaves each register of its tier as if its own words had been read by themselves.
-/

namespace GenWatch

open Transition

structure Slave where
  memory : ℤ → ℤ
  readable : ℤ → Bool

namespace Slave

variable (slave : Slave)

def words (addr : ℤ) (n : ℕ) : List ℤ := (List.range n).map fun i : ℕ => slave.memory (addr + i)

def Readable (addr : ℤ) (n : ℕ) : Prop := ∀ i < n, slave.readable (addr + (i : ℕ)) = true

instance (addr : ℤ) (n : ℕ) : Decidable (slave.Readable addr n) :=
  inferInstanceAs (Decidable (∀ i < n, _))

def read (addr count : ℤ) : Option (List ℤ) :=
  if slave.Readable addr count.toNat then some (slave.words addr count.toNat) else none

def answer (poll : Poll) : Option (List ℤ) := poll.request.bind fun r => slave.read r.1 r.2

/-- The single words up to an offset, with zeros for the unreadable ones. -/
def patched (addr : ℤ) (n : ℕ) : List ℤ :=
  (List.range n).map fun i : ℕ =>
    if slave.readable (addr + i) then slave.memory (addr + i) else 0

def unreadable (addr : ℤ) (n : ℕ) : List ℕ :=
  (List.range n).filter fun i : ℕ => !slave.readable (addr + i)

def anyReadable (addr : ℤ) (n : ℕ) : Bool :=
  (List.range n).any fun i : ℕ => slave.readable (addr + i)

def fanOut (addr : ℤ) (n : ℕ) (elapsedMs : ℚ) : FanOut where
  words := slave.patched addr n
  failed := slave.unreadable addr n
  anyOk := slave.anyReadable addr n
  elapsedMs := elapsedMs

/-- What a batch of reads comes to. -/
def batchResult (batch : ℤ × ℤ) : Option BatchResult :=
  if slave.Readable batch.1 batch.2.toNat then
    some ⟨batch.1, slave.words batch.1 batch.2.toNat, []⟩
  else if slave.anyReadable batch.1 batch.2.toNat then
    some ⟨batch.1, slave.patched batch.1 batch.2.toNat, slave.unreadable batch.1 batch.2.toNat⟩
  else none

/-- What is expected of a poll: every register of the tier by its own words. -/
structure Refined (m : RegisterMap) (tier : RegTier) (prior : Reading) (mono : ℚ) (r : Reading) :
    Prop where
  read : ∀ reg ∈ m.tier tier, slave.Readable reg.addr reg.words →
    r.entry reg.name = (decodeValue reg (slave.words reg.addr reg.words), some mono)
  kept : ∀ reg ∈ m.tier tier, ¬slave.Readable reg.addr reg.words →
    ∀ age ∈ prior.valueAges reg.name, mono - age < m.staleThresholdS tier →
      r.entry reg.name = prior.entry reg.name
  dropped : ∀ reg ∈ m.tier tier, ¬slave.Readable reg.addr reg.words →
    (∀ age ∈ prior.valueAges reg.name, m.staleThresholdS tier ≤ mono - age) →
      r.entry reg.name = (none, none)
  others : ∀ name ∉ (m.tier tier).map RegisterDef.name, r.entry name = prior.entry name

/-! ### The words of a register in a batch -/

end Slave

/-- The words that a batch has of a register it covers, unless one of them failed. -/
def BatchResult.slice (b : BatchResult) (reg : RegisterDef) : Option (List ℤ) :=
  let offset := (reg.addr - b.start).toNat
  if ∃ o ∈ b.failed, offset ≤ o ∧ o < offset + reg.words then none
  else some ((b.words.drop offset).take reg.words)

/-- The words that a register is decoded from. -/
def registerWords (results : List BatchResult) (reg : RegisterDef) : Option (List ℤ) :=
  (results.find? (·.covers reg)).bind (·.slice reg)

theorem readRegister_eq (results : List BatchResult) (reg : RegisterDef) :
    readRegister results reg = (registerWords results reg).bind (decodeValue reg) := by
  unfold readRegister registerWords
  cases results.find? (·.covers reg) with
  | none => rfl
  | some b =>
    simp only [Option.bind_some, BatchResult.read, BatchResult.slice]
    split <;> rfl

namespace Slave

variable (slave : Slave)

section Words

variable {slave}

theorem length_words (addr : ℤ) (n : ℕ) : (slave.words addr n).length = n := by
  simp [words]

theorem length_patched (addr : ℤ) (n : ℕ) : (slave.patched addr n).length = n := by
  simp [patched]

theorem mem_unreadable {addr : ℤ} {n i : ℕ} :
    i ∈ slave.unreadable addr n ↔ i < n ∧ slave.readable (addr + i) = false := by
  simp [unreadable]

theorem drop_take_map_range {f : ℕ → ℤ} {n offset len : ℕ} (h : offset + len ≤ n) :
    (((List.range n).map f).drop offset).take len =
      (List.range len).map fun i => f (offset + i) := by
  apply List.ext_getElem
  · simp only [List.length_take, List.length_drop, List.length_map, List.length_range]
    omega
  · intro i h₁ h₂
    simp

theorem length_of_batchResult {batch : ℤ × ℤ} {b : BatchResult}
    (h : slave.batchResult batch = some b) :
    b.start = batch.1 ∧ b.words.length = batch.2.toNat := by
  unfold batchResult at h
  split at h
  · obtain rfl := Option.some.inj h
    exact ⟨rfl, length_words _ _⟩
  · split at h
    · obtain rfl := Option.some.inj h
      exact ⟨rfl, length_patched _ _⟩
    · cases h

theorem exists_offset {start : ℤ} {n : ℕ} {reg : RegisterDef} (hlow : start ≤ reg.addr)
    (hhigh : reg.addr + reg.words ≤ start + n) :
    ∃ offset : ℕ, reg.addr = start + offset ∧ offset + reg.words ≤ n ∧
      (reg.addr - start).toNat = offset := by
  obtain ⟨offset, hoffset⟩ := Int.eq_ofNat_of_zero_le (sub_nonneg.mpr hlow)
  exact ⟨offset, by omega, by omega, by omega⟩

section Stretch

variable {addr : ℤ} {n offset len : ℕ}

theorem Readable.stretch (h : slave.Readable addr n) (hfits : offset + len ≤ n) :
    slave.Readable (addr + offset) len := by
  intro i hi
  rw [add_assoc, ← Nat.cast_add]
  exact h (offset + i) (by omega)

theorem words_stretch (hfits : offset + len ≤ n) :
    ((slave.words addr n).drop offset).take len = slave.words (addr + offset) len := by
  rw [words, drop_take_map_range hfits, words]
  simp only [Nat.cast_add, add_assoc]

theorem patched_stretch (hfits : offset + len ≤ n) (h : slave.Readable (addr + offset) len) :
    ((slave.patched addr n).drop offset).take len = slave.words (addr + offset) len := by
  rw [patched, drop_take_map_range hfits, words]
  apply List.map_congr_left
  intro i hi
  rw [Nat.cast_add, ← add_assoc, if_pos (h i (List.mem_range.mp hi))]

theorem readable_stretch_iff (hfits : offset + len ≤ n) :
    slave.Readable (addr + offset) len ↔
      ¬∃ o ∈ slave.unreadable addr n, offset ≤ o ∧ o < offset + len := by
  constructor
  · rintro h ⟨o, ho, hlow, hhigh⟩
    obtain ⟨i, rfl⟩ := Nat.exists_eq_add_of_le hlow
    have hread := h i (by omega)
    rw [add_assoc, ← Nat.cast_add, (mem_unreadable.mp ho).2] at hread
    cases hread
  · intro h i hi
    rw [add_assoc, ← Nat.cast_add]
    by_contra hbad
    exact h ⟨offset + i, mem_unreadable.mpr ⟨by omega, by simpa using hbad⟩, by omega, by omega⟩

end Stretch

theorem slice_of_batchResult {batch : ℤ × ℤ} {b : BatchResult} {reg : RegisterDef}
    (h : slave.batchResult batch = some b) (hcovers : b.covers reg = true) :
    b.slice reg = if slave.Readable reg.addr reg.words then
      some (slave.words reg.addr reg.words) else none := by
  obtain ⟨hstart, hlength⟩ := length_of_batchResult h
  obtain ⟨hlow, hhigh⟩ := of_decide_eq_true hcovers
  rw [hstart] at hlow
  rw [hstart, hlength] at hhigh
  obtain ⟨offset, haddr, hfits, htoNat⟩ := exists_offset hlow hhigh
  unfold BatchResult.slice
  rw [hstart, htoNat, haddr]
  unfold batchResult at h
  split at h
  · rename_i hall
    obtain rfl := Option.some.inj h
    rw [if_pos (hall.stretch hfits)]
    simp only [List.not_mem_nil, false_and, exists_false, if_false]
    rw [words_stretch hfits]
  · split at h
    swap
    · cases h
    obtain rfl := Option.some.inj h
    by_cases hok : slave.Readable (batch.1 + offset) reg.words
    · rw [if_neg ((readable_stretch_iff hfits).mp hok), if_pos hok, patched_stretch hfits hok]
    · rw [if_neg hok, if_pos (not_not.mp (mt (readable_stretch_iff hfits).mpr hok))]

theorem registerWords_batches {batches : List (ℤ × ℤ)} {reg : RegisterDef}
    (hcovers : ∃ batch ∈ batches, Covers batch reg) :
    registerWords (batches.filterMap slave.batchResult) reg =
      if slave.Readable reg.addr reg.words then some (slave.words reg.addr reg.words)
      else none := by
  unfold registerWords
  cases hfind : (batches.filterMap slave.batchResult).find? (·.covers reg) with
  | some b =>
    have hb : b.covers reg = true := by simpa using List.find?_some hfind
    obtain ⟨batch, -, hbatch⟩ := List.mem_filterMap.mp (List.mem_of_find?_eq_some hfind)
    exact slice_of_batchResult hbatch hb
  | none =>
    rw [Option.bind_none, if_neg]
    intro hok
    obtain ⟨batch, hmem, hlow, hhigh⟩ := hcovers
    have hany : slave.anyReadable batch.1 batch.2.toNat = true := by
      rw [anyReadable, List.any_eq_true]
      have hpos := reg.words_pos
      refine ⟨(reg.addr - batch.1).toNat, List.mem_range.mpr (by omega), ?_⟩
      have hfirst := hok 0 hpos
      rw [Int.toNat_of_nonneg (by omega)]
      simpa using hfirst
    obtain ⟨b, hbatch⟩ : ∃ b, slave.batchResult batch = some b := by
      rw [batchResult, if_pos hany]
      split <;> exact ⟨_, rfl⟩
    obtain ⟨hstart, hlength⟩ := length_of_batchResult hbatch
    have hnot := List.find?_eq_none.mp hfind b (List.mem_filterMap.mpr ⟨batch, hmem, hbatch⟩)
    apply hnot
    simp only [BatchResult.covers, hstart, hlength, decide_eq_true_eq]
    omega

/-- The results of all the batches say of a register what its own words say. -/
theorem readRegister_batches {batches : List (ℤ × ℤ)} {reg : RegisterDef}
    (hcovers : ∃ batch ∈ batches, Covers batch reg) :
    readRegister (batches.filterMap slave.batchResult) reg =
      if slave.Readable reg.addr reg.words then decodeValue reg (slave.words reg.addr reg.words)
      else none := by
  rw [readRegister_eq, registerWords_batches hcovers]
  split <;> rfl

end Words

/-! ### A poll of the slave -/

section Steps

variable {slave}

@[simp] theorem length_fanOut (addr : ℤ) (n : ℕ) (elapsedMs : ℚ) :
    (slave.fanOut addr n elapsedMs).words.length = n :=
  length_patched addr n

theorem fanOut_push (addr : ℤ) (n : ℕ) (elapsedMs singleMs : ℚ) :
    (slave.fanOut addr n elapsedMs).push ⟨slave.read (addr + n) 1, singleMs⟩ =
      slave.fanOut addr (n + 1) elapsedMs := by
  cases h : slave.readable (addr + n) with
  | true =>
    have hread : slave.read (addr + n) 1 = some [slave.memory (addr + n)] := by
      simp [read, Readable, words, h]
    simp [FanOut.push, hread, fanOut, patched, unreadable, anyReadable, List.range_succ, h]
  | false =>
    have hread : slave.read (addr + n) 1 = none := by
      simp [read, Readable, h]
    simp [FanOut.push, hread, fanOut, patched, unreadable, anyReadable, List.range_succ, h]

/-- How far a poll of the slave has come: the batches it has closed are in its results, and the one
under way has been read up to some word. -/
structure Following (slave : Slave) (tier : RegTier) (m : RegisterMap) (p : Poll) : Prop where
  sameTier : p.tier = tier
  sameMap : p.regmap = m
  results : ∃ closed, batchReads (m.tier tier) = closed ++ p.pending ∧
    p.results = closed.filterMap slave.batchResult
  fanOut : ∀ fan ∈ p.fanOut, ∃ start count rest n elapsedMs,
    p.pending = (start, count) :: rest ∧ ¬slave.Readable start count.toNat ∧
      n < count.toNat ∧ fan = slave.fanOut start n elapsedMs

variable {tier : RegTier} {m : RegisterMap} {p : Poll}

theorem Following.close (h : slave.Following tier m p) {batch : ℤ × ℤ} {rest : List (ℤ × ℤ)}
    (hpending : p.pending = batch :: rest) {anyBatchOk : Bool} {results : List BatchResult}
    (hresults : results = p.results ++ (slave.batchResult batch).toList) :
    slave.Following tier m
      { p with
        pending := rest
        fanOut := none
        results := results
        anyBatchOk := anyBatchOk } := by
  obtain ⟨closed, hbatches, hclosed⟩ := h.results
  refine ⟨h.sameTier, h.sameMap, ⟨closed ++ [batch], ?_, ?_⟩, by simp⟩
  · rw [hbatches, hpending]
    simp
  · simp only [hresults, hclosed, List.filterMap_append]
    cases hb : slave.batchResult batch <;> simp [hb]

theorem Following.settle (h : slave.Following tier m p) {start count : ℤ}
    {rest : List (ℤ × ℤ)} (hpending : p.pending = (start, count) :: rest)
    (hbad : ¬slave.Readable start count.toNat) {n : ℕ} (hn : n ≤ count.toNat) (elapsedMs : ℚ) :
    slave.Following tier m (p.settle (slave.fanOut start n elapsedMs)).1 := by
  rw [Poll.settle_eq hpending, length_fanOut]
  by_cases hmore : n < count.toNat
  · rw [if_pos hmore]
    refine ⟨h.sameTier, h.sameMap, h.results, fun fan hfan => ?_⟩
    obtain rfl := Option.some.inj hfan
    exact ⟨start, count, rest, n, elapsedMs, hpending, hbad, hmore, rfl⟩
  · obtain rfl : n = count.toNat := le_antisymm hn (not_lt.mp hmore)
    rw [if_neg hmore]
    by_cases hany : slave.anyReadable start count.toNat = true
    · have hresult : slave.batchResult (start, count) =
          some ⟨start, slave.patched start count.toNat, slave.unreadable start count.toNat⟩ := by
        rw [batchResult, if_neg hbad, if_pos hany]
      have hok : (slave.fanOut start count.toNat elapsedMs).anyOk = true := hany
      rw [if_pos hok]
      exact h.close hpending (by rw [hresult]; rfl)
    · have hresult : slave.batchResult (start, count) = none := by
        rw [batchResult, if_neg hbad, if_neg hany]
      have hok : ¬(slave.fanOut start count.toNat elapsedMs).anyOk = true := hany
      rw [if_neg hok]
      exact h.close hpending (by rw [hresult]; simp)

theorem Following.returned (h : slave.Following tier m p) (elapsedMs : ℚ) :
    slave.Following tier m (p.returned ⟨slave.answer p, elapsedMs⟩).1 := by
  cases hpending : p.pending with
  | nil =>
    rw [Poll.returned_of_nil hpending]
    exact h
  | cons batch rest =>
    obtain ⟨start, count⟩ := batch
    cases hfan : p.fanOut with
    | some fan =>
      obtain ⟨start', count', rest', n, ms, hpending', hbad, hn, rfl⟩ := h.fanOut fan hfan
      obtain ⟨⟨rfl, rfl⟩, rfl⟩ : (start = start' ∧ count = count') ∧ rest = rest' := by
        simpa [hpending] using hpending'
      have hanswer : slave.answer p = slave.read (start + n) 1 := by
        simp [answer, Poll.request, hpending, hfan]
      rw [Poll.returned_of_fanOut hpending hfan, hanswer, fanOut_push]
      exact h.settle hpending hbad hn ms
    | none =>
      have hanswer : slave.answer p = slave.read start count := by
        simp [answer, Poll.request, hpending, hfan]
      rw [hanswer, read]
      by_cases hok : slave.Readable start count.toNat
      · have hresult : slave.batchResult (start, count) =
            some ⟨start, slave.words start count.toNat, []⟩ := by
          rw [batchResult, if_pos hok]
        rw [if_pos hok, Poll.returned_of_words hpending hfan]
        exact h.close hpending (by rw [hresult]; rfl)
      · rw [if_neg hok, Poll.returned_of_failed hpending hfan]
        exact h.settle hpending hok (Nat.zero_le _) elapsedMs

end Steps

/-! ### The whole poll, with swaps of the map in between -/

/-- What interleaves with a poll of the slave: its own reads return, the map is swapped. -/
inductive Label where
  | readReturns (elapsedMs now mono : ℚ)
  | applyRegmap (m : RegisterMap)

def step (tier : RegTier) (s : PollLoops) : Label → Option PollLoops
  | .readReturns elapsedMs now mono =>
    match s.task tier with
    | .reading poll =>
      (s.step (.returned tier ⟨slave.answer poll, elapsedMs⟩ now mono)).map Prod.fst
    | _ => none
  | .applyRegmap m => (s.step (.applyRegmap m)).map Prod.fst

section Steps

variable {slave : Slave} {tier : RegTier} {s s' : PollLoops} {l : Label} {m : RegisterMap}
  {elapsedMs now mono : ℚ}

theorem step_readReturns (h : slave.step tier s (.readReturns elapsedMs now mono) = some s') :
    ∃ p, s.task tier = .reading p ∧
      s' = (s.returned tier p ⟨slave.answer p, elapsedMs⟩ now mono).1 := by
  simp only [Slave.step] at h
  split at h
  · rename_i p htask
    refine ⟨p, htask, ?_⟩
    simpa [PollLoops.step, htask] using h.symm
  · cases h

theorem step_applyRegmap (h : slave.step tier s (.applyRegmap m) = some s') :
    s' = { s with poller := s.poller.applyRegmap m } :=
  (Option.some.inj h).symm

/-- What a slave answers is a step of the loops, and begins no poll. -/
theorem loops_of_step (h : slave.step tier s l = some s') :
    ∃ l' cb, s.step l' = some (s', cb) ∧ ∀ tier, l' ≠ .begin tier := by
  cases l with
  | readReturns elapsedMs now mono =>
    simp only [Slave.step] at h
    split at h
    · obtain ⟨⟨_, cb⟩, hstep, rfl⟩ := Option.map_eq_some_iff.mp h
      exact ⟨_, cb, hstep, by rintro _ ⟨⟩⟩
    · cases h
  | applyRegmap m =>
    obtain rfl := step_applyRegmap h
    exact ⟨.applyRegmap m, none, rfl, by rintro _ ⟨⟩⟩

end Steps

/-- The poller before the poll: any reading and link, at rest on this tier. -/
def before (m : RegisterMap) (prior : Reading) (link : PollerHealth) (task : RegTier → TierTask)
    (watchMs : ℤ) : PollLoops :=
  ⟨.ofMap m prior link, task, watchMs⟩

/-- The reads that a batch can take: its own, and one for each of its words. -/
def batchCost (batch : ℤ × ℤ) : ℕ := 1 + batch.2.toNat

/-- The reads that a poll can take. -/
def pollCost (batches : List (ℤ × ℤ)) : ℕ := (batches.map batchCost).sum

/-- The reads that a poll in progress can still take. -/
def readsLeft (p : Poll) : ℕ :=
  match p.fanOut with
  | none => pollCost p.pending
  | some fan => pollCost p.pending - 1 - fan.words.length

def Label.isRead : Label → Bool
  | .readReturns _ _ _ => true
  | .applyRegmap _ => false

section Whole

variable {slave} {tier : RegTier} {m : RegisterMap} {prior : Reading}

theorem following_capture {p : Poller} (hp : p.regmap = m)
    (hb : p.batches tier = batchReads (m.tier tier)) :
    slave.Following tier m (p.capture tier) where
  sameTier := rfl
  sameMap := hp
  results := ⟨[], by simp [Poller.capture, hb], rfl⟩
  fanOut := by simp [Poller.capture]

theorem Following.results_of_done {p : Poll} (h : slave.Following tier m p)
    (hdone : p.pending = []) :
    p.results = (batchReads (m.tier tier)).filterMap slave.batchResult := by
  obtain ⟨closed, hbatches, hresults⟩ := h.results
  rw [hbatches, hdone, List.append_nil]
  exact hresults

theorem Following.reading_entry {p : Poll} (h : slave.Following tier m p) (hm : m.Accepted)
    (hdone : p.pending = []) (now mono : ℚ) {reg : RegisterDef} (hreg : reg ∈ m.tier tier) :
    (p.reading prior now mono).entry reg.name =
      Reading.evictEntry (m.staleThresholdS tier) mono (Reading.stampEntry
        (if slave.Readable reg.addr reg.words then
          decodeValue reg (slave.words reg.addr reg.words) else none) mono
        (prior.entry reg.name)) := by
  have hreg' : reg ∈ p.regmap.tier p.tier := by rwa [h.sameMap, h.sameTier]
  have hnodup : ((p.regmap.tier p.tier).map RegisterDef.name).Nodup := by
    rw [h.sameMap, h.sameTier]
    exact hm.nodup_tier tier
  rw [Poll.reading_entry prior now mono hnodup hreg', h.results_of_done hdone,
    readRegister_batches (batchReads_covers hreg), h.sameMap, h.sameTier]

theorem Following.reading_entry_of_not_mem {p : Poll} (h : slave.Following tier m p)
    (now mono : ℚ) {name : String} (hname : name ∉ (m.tier tier).map RegisterDef.name) :
    (p.reading prior now mono).entry name = prior.entry name := by
  rw [← h.sameMap, ← h.sameTier] at hname
  exact Poll.reading_entry_of_not_mem prior now mono hname

theorem staleThresholdS_pos (hpos : 0 < m.pollMs tier) : 0 < m.staleThresholdS tier := by
  have : (0 : ℚ) < m.pollMs tier := by exact_mod_cast hpos
  unfold RegisterMap.staleThresholdS tierStaleMultiplier
  positivity

theorem Following.reading_entry_of_readable {p : Poll} (h : slave.Following tier m p)
    (hm : m.Accepted) (hpos : 0 < m.pollMs tier) (hdone : p.pending = []) (now mono : ℚ)
    {reg : RegisterDef} (hreg : reg ∈ m.tier tier) (hok : slave.Readable reg.addr reg.words) :
    (p.reading prior now mono).entry reg.name =
      (decodeValue reg (slave.words reg.addr reg.words), some mono) := by
  have hsome : (decodeValue reg (slave.words reg.addr reg.words)).isSome :=
    decodeValue_isSome (by rw [length_words])
  obtain ⟨v, hv⟩ := Option.isSome_iff_exists.mp hsome
  rw [h.reading_entry hm hdone now mono hreg, if_pos hok, hv]
  simp [Reading.stampEntry, Reading.evictEntry, (staleThresholdS_pos hpos).not_ge]

/-- The reading at the end of a poll that has followed the slave. -/
theorem Following.refined {p : Poll} (h : slave.Following tier m p) (hm : m.Accepted)
    (hpos : 0 < m.pollMs tier)
    (hsame : ∀ name, (prior.values name).isSome = (prior.valueAges name).isSome)
    (hdone : p.pending = []) (now mono : ℚ) :
    slave.Refined m tier prior mono (p.reading prior now mono) := by
  have hentry : ∀ reg ∈ m.tier tier, (p.reading prior now mono).entry reg.name = _ :=
    fun reg hreg => h.reading_entry hm hdone now mono hreg
  constructor
  · intro reg hreg hok
    exact h.reading_entry_of_readable hm hpos hdone now mono hreg hok
  · intro reg hreg hbad age hage hfresh
    rw [hentry reg hreg, if_neg hbad]
    have hage' : prior.valueAges reg.name = some age := hage
    simp [Reading.stampEntry, Reading.evictEntry, Reading.entry, hage', hfresh.not_ge]
  · intro reg hreg hbad hstale
    rw [hentry reg hreg, if_neg hbad]
    cases hage : prior.valueAges reg.name with
    | none =>
      have hnone : prior.values reg.name = none := by
        have := hsame reg.name
        simpa [hage] using this
      simp [Reading.stampEntry, Reading.evictEntry, Reading.entry, hage, hnone]
    | some age =>
      simp [Reading.stampEntry, Reading.evictEntry, Reading.entry, hage, hstale age hage]
  · intro name hname
    exact h.reading_entry_of_not_mem now mono hname

theorem pollCost_cons (batch : ℤ × ℤ) (rest : List (ℤ × ℤ)) :
    pollCost (batch :: rest) = 1 + batch.2.toNat + pollCost rest := by
  simp [pollCost, batchCost]

theorem readsLeft_settle {p : Poll} {start count : ℤ} {rest : List (ℤ × ℤ)}
    (hpending : p.pending = (start, count) :: rest) (fan : FanOut) :
    readsLeft (p.settle fan).1 ≤ pollCost p.pending - 1 - fan.words.length ∨
      readsLeft (p.settle fan).1 = pollCost rest := by
  rw [Poll.settle_eq hpending]
  split_ifs
  · exact Or.inl le_rfl
  · exact Or.inr rfl
  · exact Or.inr rfl

theorem Following.readsLeft_returned {p : Poll} (h : slave.Following tier m p)
    (hpending : p.pending ≠ []) (elapsedMs : ℚ) :
    readsLeft (p.returned ⟨slave.answer p, elapsedMs⟩).1 < readsLeft p := by
  obtain ⟨⟨start, count⟩, rest, hcons⟩ := List.exists_cons_of_ne_nil hpending
  have hcost : pollCost p.pending = 1 + count.toNat + pollCost rest := by
    rw [hcons, pollCost_cons]
  cases hfan : p.fanOut with
  | some fan =>
    obtain ⟨start', count', rest', n, ms, hcons', -, hn, rfl⟩ := h.fanOut fan hfan
    obtain ⟨⟨rfl, rfl⟩, rfl⟩ : (start = start' ∧ count = count') ∧ rest = rest' := by
      simpa [hcons] using hcons'
    have hanswer : slave.answer p = slave.read (start + n) 1 := by
      simp [answer, Poll.request, hcons, hfan]
    have hleft : readsLeft p = pollCost p.pending - 1 - n := by
      simp [readsLeft, hfan]
    rw [Poll.returned_of_fanOut hcons hfan, hanswer, fanOut_push, hleft]
    rcases readsLeft_settle hcons (slave.fanOut start (n + 1) ms) with hless | hclosed
    · rw [length_fanOut] at hless
      omega
    · omega
  | none =>
    have hleft : readsLeft p = pollCost p.pending := by
      simp [readsLeft, hfan]
    rw [hleft]
    cases slave.answer p with
    | some words =>
      rw [Poll.returned_of_words hcons hfan]
      simp only [readsLeft]
      omega
    | none =>
      rw [Poll.returned_of_failed hcons hfan]
      rcases readsLeft_settle hcons ⟨[], [], false, elapsedMs⟩ with hless | hclosed
      · simp only [List.length_nil] at hless
        omega
      · omega

def Polling (slave : Slave) (tier : RegTier) (m : RegisterMap) (prior : Reading) (reads : ℕ)
    (s : PollLoops) : Prop :=
  ∃ p, s.task tier = .reading p ∧ p.pending ≠ [] ∧ slave.Following tier m p ∧
    s.poller.reading = prior ∧ reads + readsLeft p ≤ pollCost (batchReads (m.tier tier))

theorem Polling.step {reads : ℕ} {s s' : PollLoops} (h : slave.Polling tier m prior reads s)
    {elapsedMs now mono : ℚ} (hs : slave.step tier s (.readReturns elapsedMs now mono) = some s') :
    slave.Polling tier m prior (reads + 1) s' ∨
      s'.task tier = .calling ∧ ∃ p, slave.Following tier m p ∧ p.pending = [] ∧
        s'.poller.reading = p.reading prior now mono := by
  obtain ⟨p, htask, hpending, hfollows, hreading, hleft⟩ := h
  obtain ⟨p', htask', rfl⟩ := step_readReturns hs
  obtain rfl := TierTask.reading.inj (htask.symm.trans htask')
  have hfollows' := hfollows.returned elapsedMs
  have hless := hfollows.readsLeft_returned hpending elapsedMs
  by_cases hdone : (p.returned ⟨slave.answer p, elapsedMs⟩).1.pending = []
  · right
    rw [PollLoops.returned_last s tier now mono hdone]
    refine ⟨by simp, _, hfollows', hdone, ?_⟩
    simp [Poller.finish, hreading]
  · left
    rw [PollLoops.returned_more s tier now mono hdone]
    refine ⟨_, by simp, hdone, hfollows', by simpa using hreading, ?_⟩
    omega

theorem Polling.run {s₁ s₂ : PollLoops} (h : slave.Polling tier m prior 0 s₁) {ls : List Label}
    (hrun : run (slave.step tier) s₁ ls = some s₂) :
    slave.Polling tier m prior (ls.countP Label.isRead) s₂ ∨ s₂.task tier = .calling := by
  induction ls using List.reverseRecOn generalizing s₂ with
  | nil =>
    obtain rfl := Option.some.inj hrun
    exact Or.inl h
  | append_singleton ls l ih =>
    obtain ⟨s, hs, hl⟩ := run_snoc_iff.mp hrun
    cases l with
    | readReturns elapsedMs now mono =>
      rcases ih hs with hpolling | hcalling
      · rw [List.countP_append]
        exact (hpolling.step hl).imp_right And.left
      · obtain ⟨p, htask, -⟩ := step_readReturns hl
        rw [hcalling] at htask
        cases htask
    | applyRegmap m' =>
      obtain rfl := step_applyRegmap hl
      rw [List.countP_append]
      exact (ih hs).imp_left id

theorem polling_of_begin (slave : Slave) {link : PollerHealth} {task : RegTier → TierTask}
    {watchMs : ℤ} {s₁ : PollLoops}
    (h : (before m prior link task watchMs).step (.begin tier) = some (s₁, none)) :
    slave.Polling tier m prior 0 s₁ ∨ s₁.task tier = .idle := by
  have hbatches : (Poller.ofMap m prior link).batches tier = batchReads (m.tier tier) := by
    cases tier <;> rfl
  obtain ⟨hidle, -, ⟨-, rfl⟩ | ⟨hne, rfl⟩⟩ := PollLoops.step_begin h
  · exact Or.inr hidle
  · refine Or.inl ⟨_, Function.update_self _ _ _, hne, following_capture rfl hbatches, rfl, ?_⟩
    simp [readsLeft, Poller.capture, before, hbatches]

theorem exists_begin (slave : Slave) (hne : batchReads (m.tier tier) ≠ []) (prior : Reading)
    (link : PollerHealth) (watchMs : ℤ) :
    ∃ s₁, (before m prior link (fun _ => .idle) watchMs).step (.begin tier) = some (s₁, none) ∧
      slave.Polling tier m prior 0 s₁ := by
  have hbatches : (before m prior link (fun _ => .idle) watchMs).poller.batches tier ≠ [] := by
    cases tier <;> exact hne
  have hbegin : (before m prior link (fun _ => .idle) watchMs).step (.begin tier) =
      some ({ before m prior link (fun _ => .idle) watchMs with
        task := Function.update (fun _ => .idle) tier (.reading
          ((before m prior link (fun _ => .idle) watchMs).poller.capture tier)) }, none) :=
    if_neg hbatches
  refine ⟨_, hbegin, ?_⟩
  rcases polling_of_begin slave hbegin with hpolling | hidle
  · exact hpolling
  · simp at hidle

theorem idle_of_run {s₁ s₂ : PollLoops} (h : s₁.task tier = .idle) {ls : List Label}
    (hrun : run (slave.step tier) s₁ ls = some s₂) : s₂.task tier = .idle := by
  refine run_invariant (I := fun s => s.task tier = .idle) (fun s l s' _ hI hs => ?_) h hrun
  cases l with
  | readReturns elapsedMs now mono =>
    obtain ⟨p, htask, -⟩ := step_readReturns hs
    rw [hI] at htask
    cases htask
  | applyRegmap m' =>
    obtain rfl := step_applyRegmap hs
    exact hI

theorem exists_lastRead {reads : ℕ} {s : PollLoops}
    (h : slave.Polling tier m prior reads s) :
    ∃ ls s₂ p, run (slave.step tier) s ls = some s₂ ∧ s₂.task tier = .reading p ∧
      (p.returned ⟨slave.answer p, 0⟩).1.pending = [] := by
  obtain ⟨n, hn⟩ : ∃ n, ∀ p, s.task tier = .reading p → readsLeft p ≤ n := by
    obtain ⟨p, htask, -⟩ := h
    refine ⟨readsLeft p, fun q hq => ?_⟩
    rw [htask] at hq
    cases hq
    exact le_rfl
  induction n generalizing s reads with
  | zero =>
    obtain ⟨p, htask, hpending, hfollows, -⟩ := h
    have hless := hfollows.readsLeft_returned hpending 0
    have := hn p htask
    omega
  | succ n ih =>
    obtain ⟨p, htask, hpending, hfollows, -⟩ := id h
    by_cases hdone : (p.returned ⟨slave.answer p, 0⟩).1.pending = []
    · exact ⟨[], s, p, rfl, htask, hdone⟩
    · have hs : slave.step tier s (.readReturns 0 0 0) =
          some (s.returned tier p ⟨slave.answer p, 0⟩ 0 0).1 := by
        simp [Slave.step, PollLoops.step, htask]
      have hmore := PollLoops.returned_more s tier 0 0 hdone
      rcases h.step hs with hpolling | ⟨hcalling, -⟩
      · obtain ⟨ls, s₂, q, hrun, hq⟩ := ih hpolling fun q hq => by
          rw [hmore] at hq
          simp only [Function.update_self, TierTask.reading.injEq] at hq
          have hless := hfollows.readsLeft_returned hpending 0
          have := hn p htask
          rw [← hq]
          omega
        exact ⟨.readReturns 0 0 0 :: ls, s₂, q, by rw [run_cons, hs]; exact hrun, hq⟩
      · rw [hmore] at hcalling
        simp at hcalling

theorem readsLeft_pos {p : Poll} (h : slave.Following tier m p) (hpending : p.pending ≠ []) :
    0 < readsLeft p :=
  (Nat.zero_le _).trans_lt (h.readsLeft_returned hpending 0)

end Whole

/-- A poll of a slave, with swaps of the map in between, leaves each register of the tier in the
map it began with by its own words alone, and it ends after a bounded number of reads. -/
theorem poll_refines_register_reads (slave : Slave) (tier : RegTier) (m : RegisterMap)
    (hm : m.Accepted) (hprime : 0 < m.primePollMs) (hbase : 0 < m.basePollMs) (prior : Reading)
    (hsame : ∀ name, (prior.values name).isSome = (prior.valueAges name).isSome)
    (link : PollerHealth) (task : RegTier → TierTask) (watchMs : ℤ) (s₁ : PollLoops)
    (hbegin : (before m prior link task watchMs).step (.begin tier) = some (s₁, none))
    (ls : List Label) :
    (∀ s elapsedMs now mono s', Takes (slave.step tier) s₁ ls s
        (.readReturns elapsedMs now mono) s' → s'.task tier = .calling →
      slave.Refined m tier prior mono s'.poller.reading) ∧
    (∀ s₂ p, run (slave.step tier) s₁ ls = some s₂ → s₂.task tier = .reading p →
      ls.countP Label.isRead < pollCost (batchReads (m.tier tier))) := by
  have hpos : 0 < m.pollMs tier := by cases tier <;> assumption
  rcases polling_of_begin slave hbegin with hpolling | h₁
  · constructor
    · rintro s elapsedMs now mono s' ⟨pre, post, rfl, hpre, hs⟩ hcalling
      rcases hpolling.run hpre with hstill | hended
      · rcases hstill.step hs with ⟨p, htask, -⟩ | ⟨-, p, hfollows, hdone, hreading⟩
        · rw [htask] at hcalling
          cases hcalling
        · rw [hreading]
          exact hfollows.refined hm hpos hsame hdone now mono
      · simp [Slave.step, hended] at hs
    · intro s₂ p hrun htask
      rcases hpolling.run hrun with ⟨p', htask', hpending, hfollows, -, hleft⟩ | hended
      · have := readsLeft_pos hfollows hpending
        omega
      · rw [htask] at hended
        cases hended
  · constructor
    · rintro s elapsedMs now mono s' ⟨pre, post, rfl, hpre, hs⟩ -
      simp [Slave.step, idle_of_run h₁ hpre] at hs
    · intro s₂ p hrun htask
      rw [idle_of_run h₁ hrun] at htask
      cases htask

/-- Two neighbouring registers, read in one batch. -/
def pairMap : RegisterMap :=
  { RegisterMap.bare with registers := [.plain "oil", .plain "fuel" 1] }

def halfSlave : Slave := ⟨fun _ => 7, fun addr => addr = 0⟩

/-- The batch fails, one of its two words is read by itself, and a swap of the map in between makes
no difference. -/
theorem half_batch_refines :
    ∃ s₁ s s', (before pairMap .empty (.initial 1500) (fun _ => .idle) 1500).step
        (.begin .prime) = some (s₁, none) ∧
      Takes (halfSlave.step .prime) s₁
        ([.readReturns 5 1 1, .readReturns 5 2 2, .applyRegmap .bare] ++ [.readReturns 5 3 3]) s
        (.readReturns 5 3 3) s' ∧
      halfSlave.Refined pairMap .prime .empty 3 s'.poller.reading := by
  obtain ⟨s₁, hbegin⟩ : ∃ s₁, (before pairMap .empty (.initial 1500) (fun _ => .idle) 1500).step
      (.begin .prime) = some (s₁, none) := ⟨_, rfl⟩
  obtain ⟨s, s', ht, hs⟩ := takes_of_lastStep (halfSlave.step .prime) s₁
    [.readReturns 5 1 1, .readReturns 5 2 2, .applyRegmap .bare] (.readReturns 5 3 3)
    (fun _ _ s' => (s'.task .prime).isCalling) (by
      obtain rfl := (Prod.mk.inj (Option.some.inj hbegin)).1
      decide +kernel)
  refine ⟨s₁, s, s', hbegin, ht, ?_⟩
  exact (poll_refines_register_reads halfSlave .prime pairMap (by decide +kernel) (by decide)
    (by decide) .empty (fun _ => rfl) (.initial 1500) (fun _ => .idle) 1500 s₁ hbegin _).1 s 5 3 3
    s' ht (TierTask.isCalling_iff.mp hs)

end Slave

end GenWatch

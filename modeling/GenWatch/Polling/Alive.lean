import GenWatch.Modbus.Acceptance
import GenWatch.Polling.Heartbeat
import GenWatch.Polling.Slave
import GenWatch.Services.Control

/-! # What an accepted map can report

Validation relates the engine-state rules to registers by name alone: not to the bits of
a mask, not to the tier that polls the register, not to the end of the address space. A
rule without bits matches whatever its register reads, and a rule on a register that no
prime poll decodes keeps the heartbeat silent and the commands refused, against any slave.
-/

namespace GenWatch

open Transition

theorem land_zero (a : ℤ) : Int.land a 0 = 0 := by
  cases a with
  | ofNat n =>
    change ((n &&& 0 : ℕ) : ℤ) = 0
    simp
  | negSucc n =>
    change ((Nat.ldiff 0 n : ℕ) : ℤ) = 0
    simp [Nat.ldiff]

theorem truncInt_zero : truncInt 0 = 0 := truncInt_intCast 0

theorem zero_land (a : ℤ) : Int.land 0 a = 0 := by
  cases a with
  | ofNat n =>
    change ((0 &&& n : ℕ) : ℤ) = 0
    simp
  | negSucc n =>
    change ((Nat.ldiff 0 n : ℕ) : ℤ) = 0
    simp [Nat.ldiff]

namespace RegisterMap

variable {m : RegisterMap}

/-- A state is derived, unless it is the unknown one, from a bit of a rule for it. -/
def DerivesFromBits (m : RegisterMap) : Prop :=
  ∀ values : Values, m.deriveEngineState values ≠ .unknown →
    ∃ rule ∈ m.engineStateBits, rule.state = m.deriveEngineState values ∧
      values.anySet rule.register rule.mask = true

def firstEmpty (m : RegisterMap) (register : String) : Option StateBitRule :=
  m.engineStateBits.find? fun rule => rule.register = register ∧ rule.mask = 0

/-- A register whose first rule without bits is for a state is not among the rules. -/
def EmptyIsUnknown (m : RegisterMap) : Prop :=
  ∀ rule ∈ m.engineStateBits, ∀ first ∈ m.firstEmpty rule.register, first.state = .unknown

instance (m : RegisterMap) : Decidable m.EmptyIsUnknown :=
  inferInstanceAs (Decidable (∀ _ ∈ _, ∀ _ ∈ _, _))

section Derive

variable {values : Values} {rule : StateBitRule}

theorem allSet_zero {register : String} :
    values.allSet register 0 = true ↔ (values register).isSome := by
  unfold Values.allSet
  cases values register <;> simp [land_zero]

theorem anySet_of_allSet {register : String} {mask : ℤ} (hmask : mask ≠ 0)
    (h : values.allSet register mask = true) : values.anySet register mask = true := by
  unfold Values.allSet at h
  unfold Values.anySet
  cases hraw : values register with
  | none => simp [hraw] at h
  | some raw =>
    simp only [hraw, decide_eq_true_eq] at h ⊢
    rwa [h]

theorem derivesFromBits_of_emptyIsUnknown (h : m.EmptyIsUnknown) : m.DerivesFromBits := by
  intro values hknown
  unfold deriveEngineState at hknown ⊢
  cases hfind : m.engineStateBits.find? fun r => values.allSet r.register r.mask with
  | none => simp [hfind] at hknown
  | some rule =>
    simp only [hfind] at hknown
    have hmem := List.mem_of_find?_eq_some hfind
    have hset : values.allSet rule.register rule.mask = true := by
      simpa using List.find?_some hfind
    refine ⟨rule, hmem, rfl, anySet_of_allSet (fun hzero => hknown ?_) hset⟩
    -- a rule without bits that matches first is the first such rule on its register
    refine h rule hmem rule ?_
    obtain ⟨-, pre, post, he, hpre⟩ := List.find?_eq_some_iff_append.mp hfind
    refine List.find?_eq_some_iff_append.mpr ⟨by simp [hzero], pre, post, he, fun r hr => ?_⟩
    have hnot := hpre r hr
    simp only [Bool.not_eq_true', decide_eq_false_iff_not, not_and] at hnot ⊢
    rintro hregister hempty
    rw [hregister, hempty, allSet_zero.mpr] at hnot
    · cases hnot
    · rw [hzero] at hset
      exact allSet_zero.mp hset

def zeroAt (register : String) : Values := fun name => if name = register then some 0 else none

theorem allSet_zeroAt {register name : String} {mask : ℤ} :
    (zeroAt register).allSet name mask = decide (name = register ∧ mask = 0) := by
  unfold Values.allSet zeroAt
  by_cases hname : name = register
  · simp [hname, truncInt_zero, zero_land, eq_comm]
  · simp [hname]

theorem anySet_zeroAt {register name : String} {mask : ℤ} :
    (zeroAt register).anySet name mask = false := by
  unfold Values.anySet zeroAt
  by_cases hname : name = register <;> simp [hname, truncInt_zero, zero_land]

theorem emptyIsUnknown_of_derivesFromBits (h : m.DerivesFromBits) : m.EmptyIsUnknown := by
  intro rule hrule first hfirst
  by_contra hknown
  have hderive : m.deriveEngineState (zeroAt rule.register) = first.state := by
    have hfind : m.engineStateBits.find?
        (fun r => (zeroAt rule.register).allSet r.register r.mask) = some first := by
      simp only [allSet_zeroAt]
      exact hfirst
    rw [deriveEngineState, hfind]
  obtain ⟨r, -, -, hany⟩ := h (zeroAt rule.register) (by rwa [hderive])
  rw [anySet_zeroAt] at hany
  cases hany

end Derive

end RegisterMap

def Slave.AllReadable (slave : Slave) : Prop :=
  ∀ addr, slave.readable addr = true ↔ 0 ≤ addr ∧ addr ≤ 0xFFFF

/-- What a prime poll that ends at a time is to leave behind: the registers of the rules are decoded
from their words, the heartbeat goes on and no command is refused for stale data. -/
structure Alive (m : RegisterMap) (slave : Slave) (mono : ℚ) (s : PollLoops) : Prop where
  decoded : ∀ reg ∈ m.registers, reg.name ∈ ControlService.controlSources m →
    s.poller.reading.entry reg.name =
      (decodeValue reg (slave.words reg.addr reg.words), some mono)
  heartbeat : s.lastPrimeGood = some mono
  fresh : ControlService.staleControlRegisters m s.poller.reading mono = []

namespace RegisterMap

variable {m : RegisterMap}

/-- Against a readable slave a prime poll has something to read, and keeps the service alive. -/
def StaysAlive (m : RegisterMap) : Prop :=
  ∀ slave prior link task watchMs s₁, Slave.AllReadable slave →
    (Slave.before m prior link task watchMs).step (.begin .prime) = some (s₁, none) →
    s₁.task .prime ≠ .idle ∧
    ∀ ls s elapsedMs now mono s',
      Takes (slave.step .prime) s₁ ls s (.readReturns elapsedMs now mono) s' →
      s'.task .prime = .calling → Alive m slave mono s'

/-- The registers of the rules are polled by the prime loop, within the address space and at a
positive interval. -/
structure PollsRules (m : RegisterMap) : Prop where
  cadence : 0 < m.primePollMs
  prime : ∀ reg ∈ m.registers, reg.name ∈ ControlService.controlSources m →
    reg.tier = .prime ∧ reg.stop ≤ 0x10000

theorem readable_iff {slave : Slave} (hslave : slave.AllReadable) (hm : m.Accepted)
    {reg : RegisterDef} (hreg : reg ∈ m.registers) :
    slave.Readable reg.addr reg.words ↔ reg.stop ≤ 0x10000 := by
  obtain ⟨-, hlow, -⟩ := hm.checked.registers reg hreg
  have hwords := reg.words_pos
  unfold Slave.Readable RegisterDef.stop
  constructor
  · intro h
    have hlast := (hslave _).mp (h (reg.words - 1) (by omega))
    omega
  · intro h i hi
    exact (hslave _).mpr (by omega)

theorem exists_of_source (hm : m.Accepted) {name : String}
    (h : name ∈ ControlService.controlSources m) : ∃ reg ∈ m.registers, reg.name = name := by
  have hchecked := hm.checked
  rcases ControlService.mem_controlSources.mp h with ⟨rule, hrule, rfl⟩ | ⟨rule, hrule, rfl⟩
  · exact List.mem_map.mp (hchecked.stateRules rule hrule)
  · exact List.mem_map.mp (hchecked.panelRules rule hrule).1

theorem state_source {rule : StateBitRule} (h : rule ∈ m.engineStateBits) :
    rule.register ∈ ControlService.controlSources m :=
  ControlService.mem_controlSources.mpr (Or.inl ⟨rule, h, rfl⟩)

section Poll

variable {slave : Slave} {p : Poll} {prior : Reading} {now mono : ℚ}

/-- What a poll that has followed a readable slave says of the registers of the rules. -/
theorem PollsRules.decoded (h : m.PollsRules) (hm : m.Accepted) (hslave : slave.AllReadable)
    (hp : slave.Following .prime m p) (hdone : p.pending = []) {reg : RegisterDef}
    (hreg : reg ∈ m.registers) (hsource : reg.name ∈ ControlService.controlSources m) :
    (p.reading prior now mono).entry reg.name =
      (decodeValue reg (slave.words reg.addr reg.words), some mono) := by
  obtain ⟨hprime, hstop⟩ := h.prime reg hreg hsource
  exact hp.reading_entry_of_readable hm h.cadence hdone now mono (mem_tier.mpr ⟨hreg, hprime⟩)
    ((readable_iff hslave hm hreg).mpr hstop)

theorem prime_of_decoded (hm : m.Accepted) (hslave : slave.AllReadable)
    (hp : slave.Following .prime m p) (hdone : p.pending = []) {reg : RegisterDef}
    (hreg : reg ∈ m.registers)
    (he : ((p.reading .empty now mono).entry reg.name).2 = some mono) :
    reg.tier = .prime ∧ reg.stop ≤ 0x10000 ∧ 0 < m.primePollMs := by
  by_cases hname : reg.name ∈ (m.tier .prime).map RegisterDef.name
  swap
  · rw [hp.reading_entry_of_not_mem now mono hname] at he
    cases he
  obtain ⟨reg', hreg', hsame⟩ := List.mem_map.mp hname
  obtain rfl : reg' = reg :=
    List.inj_on_of_nodup_map hm.nodup (mem_tier.mp hreg').1 hreg hsame
  refine ⟨(mem_tier.mp hreg').2, ?_⟩
  rw [hp.reading_entry hm hdone now mono hreg'] at he
  by_cases hok : slave.Readable reg'.addr reg'.words
  · refine ⟨(readable_iff hslave hm hreg).mp hok, ?_⟩
    by_contra hcadence
    have hthreshold : m.staleThresholdS .prime ≤ 0 := by
      have hms : (m.primePollMs : ℚ) ≤ 0 := by exact_mod_cast not_lt.mp hcadence
      unfold staleThresholdS tierStaleMultiplier pollMs
      linarith
    rw [if_pos hok] at he
    cases hv : decodeValue reg' (slave.words reg'.addr reg'.words) with
    | none => simp [hv, Reading.stampEntry, Reading.evictEntry, Reading.entry, Reading.empty] at he
    | some v => simp [hv, Reading.stampEntry, Reading.evictEntry, hthreshold] at he
  · simp [hok, Reading.stampEntry, Reading.evictEntry, Reading.entry, Reading.empty] at he

theorem PollsRules.prime_batches (h : m.PollsRules) (hm : m.Accepted)
    (hbits : m.engineStateBits ≠ []) : batchReads (m.tier .prime) ≠ [] := by
  obtain ⟨rule, rules, hcons⟩ := List.exists_cons_of_ne_nil hbits
  have hrule : rule ∈ m.engineStateBits := hcons ▸ List.mem_cons_self
  obtain ⟨reg, hreg, hname⟩ := exists_of_source hm (state_source hrule)
  obtain ⟨hprime, -⟩ := h.prime reg hreg (hname ▸ state_source hrule)
  obtain ⟨batch, hbatch, -⟩ : ∃ b ∈ batchReads (m.tier .prime), Covers b reg :=
    batchReads_covers (mem_tier.mpr ⟨hreg, hprime⟩)
  exact List.ne_nil_of_mem hbatch

theorem completed_of_step {reads : ℕ} {s s' : PollLoops} {elapsedMs : ℚ}
    (h : slave.Polling .prime m prior reads s)
    (hs : slave.step .prime s (.readReturns elapsedMs now mono) = some s')
    (hcalling : s'.task .prime = .calling) :
    ∃ p, slave.Following .prime m p ∧ p.pending = [] ∧
      s'.poller.reading = p.reading prior now mono ∧
      (p.stateFresh s'.poller.reading mono = true → s'.lastPrimeGood = some mono) := by
  obtain ⟨p, htask, -, hfollows, hreading, -⟩ := h
  obtain ⟨p', htask', hs'⟩ := Slave.step_readReturns hs
  obtain rfl := TierTask.reading.inj (htask.symm.trans htask')
  have hfollows' := hfollows.returned elapsedMs
  by_cases hdone : (p.returned ⟨slave.answer p, elapsedMs⟩).1.pending = []
  · rw [PollLoops.returned_last s .prime now mono hdone] at hs'
    refine ⟨_, hfollows', hdone, by simp [hs', Poller.finish, hreading], fun hfresh => ?_⟩
    subst hs'
    rw [PollLoops.lastPrimeGood]
    simp only [Poller.finish] at hfresh ⊢
    rw [if_pos ⟨hfollows'.sameTier, hfresh⟩]
    rfl
  · rw [hs', PollLoops.returned_more s .prime now mono hdone] at hcalling
    simp at hcalling

theorem PollsRules.alive (h : m.PollsRules) (hm : m.Accepted) (hbits : m.engineStateBits ≠ [])
    (hslave : slave.AllReadable) (hp : slave.Following .prime m p) (hdone : p.pending = [])
    {s : PollLoops} (hreading : s.poller.reading = p.reading prior now mono)
    (hbeat : p.stateFresh s.poller.reading mono = true → s.lastPrimeGood = some mono) :
    Alive m slave mono s := by
  have hdecoded : ∀ reg ∈ m.registers, reg.name ∈ ControlService.controlSources m →
      s.poller.reading.entry reg.name =
        (decodeValue reg (slave.words reg.addr reg.words), some mono) := by
    intro reg hreg hsource
    rw [hreading]
    exact h.decoded hm hslave hp hdone hreg hsource
  have hage : ∀ name ∈ ControlService.controlSources m,
      s.poller.reading.valueAges name = some mono := by
    intro name hname
    obtain ⟨reg, hreg, rfl⟩ := exists_of_source hm hname
    exact congrArg Prod.snd (hdecoded reg hreg hname)
  refine ⟨hdecoded, hbeat ?_, ?_⟩
  · rw [Poll.stateFresh, hp.sameMap, if_neg hbits, List.all_eq_true]
    exact fun rule hrule => decide_eq_true (hage rule.register (state_source hrule))
  · rw [ControlService.staleControlRegisters_eq_nil]
    intro name hname
    refine ⟨mono, hage name hname, ?_⟩
    rw [sub_self]
    unfold ControlService.maxAgeS ControlService.controlFreshMultiplier
    positivity

end Poll

theorem PollsRules.staysAlive (h : m.PollsRules) (hm : m.Accepted)
    (hbits : m.engineStateBits ≠ []) : m.StaysAlive := by
  intro slave prior link task watchMs s₁ hslave hbegin
  have hne := h.prime_batches hm hbits
  rcases Slave.polling_of_begin slave hbegin with hpolling | hidle
  · constructor
    · obtain ⟨p, htask, -⟩ := hpolling
      rw [htask]
      rintro ⟨⟩
    · rintro ls s elapsedMs now mono s' ⟨pre, post, rfl, hpre, hs⟩ hcalling
      rcases hpolling.run hpre with hstill | hended
      · obtain ⟨p, hp, hdone, hreading, hbeat⟩ := completed_of_step hstill hs hcalling
        exact h.alive hm hbits hslave hp hdone hreading hbeat
      · simp [Slave.step, hended] at hs
  · obtain ⟨-, -, ⟨hempty, -⟩ | ⟨-, rfl⟩⟩ := PollLoops.step_begin hbegin
    · exact absurd hempty hne
    · simp at hidle

theorem pollsRules_of_staysAlive (hm : m.Accepted) (hbits : m.engineStateBits ≠ [])
    (h : m.StaysAlive) : m.PollsRules := by
  let slave : Slave := ⟨fun _ => 0, fun addr => 0 ≤ addr ∧ addr ≤ 0xFFFF⟩
  have hslave : slave.AllReadable := fun addr => by simp [slave]
  have hne : batchReads (m.tier .prime) ≠ [] := by
    intro hempty
    have hbegin : (Slave.before m .empty (.initial 0) (fun _ => .idle) 0).step (.begin .prime) =
        some (Slave.before m .empty (.initial 0) (fun _ => .idle) 0, none) := if_pos hempty
    exact (h slave _ _ _ _ _ hslave hbegin).1 rfl
  obtain ⟨s₁, hbegin, hpolling⟩ := Slave.exists_begin slave hne .empty (.initial 0) 0
  obtain ⟨ls, s, poll, hrun, htask, hlast⟩ := Slave.exists_lastRead hpolling
  have hs : slave.step .prime s (.readReturns 0 0 0) =
      some (s.returned .prime poll ⟨slave.answer poll, 0⟩ 0 0).1 := by
    simp [Slave.step, PollLoops.step, htask]
  have hcalling : (s.returned .prime poll ⟨slave.answer poll, 0⟩ 0 0).1.task .prime =
      .calling := by
    rw [PollLoops.returned_last s .prime 0 0 hlast]
    simp
  have halive := (h slave _ _ _ _ _ hslave hbegin).2 (ls ++ [.readReturns 0 0 0]) s 0 0 0 _
    ⟨ls, [], rfl, hrun, hs⟩ hcalling
  have hstill : slave.Polling .prime m .empty (ls.countP Slave.Label.isRead) s := by
    rcases hpolling.run hrun with hstill | hended
    · exact hstill
    · rw [htask] at hended
      cases hended
  obtain ⟨p, hp, hdone, hreading, -⟩ := completed_of_step hstill hs hcalling
  have hprime : ∀ reg ∈ m.registers, reg.name ∈ ControlService.controlSources m →
      reg.tier = .prime ∧ reg.stop ≤ 0x10000 ∧ 0 < m.primePollMs := by
    intro reg hreg hsource
    have he := halive.decoded reg hreg hsource
    rw [hreading] at he
    exact prime_of_decoded hm hslave hp hdone hreg (congrArg Prod.snd he)
  constructor
  · obtain ⟨rule, rules, hcons⟩ := List.exists_cons_of_ne_nil hbits
    have hrule : rule ∈ m.engineStateBits := hcons ▸ List.mem_cons_self
    obtain ⟨reg, hreg, hname⟩ := exists_of_source hm (state_source hrule)
    exact (hprime reg hreg (hname ▸ state_source hrule)).2.2
  · intro reg hreg hsource
    obtain ⟨htier, hstop, -⟩ := hprime reg hreg hsource
    exact ⟨htier, hstop⟩

/-- An accepted map with engine-state rules reports states from bits and keeps the service alive
exactly if no first rule without bits is for a state, and the registers of the rules are polled by
the prime loop. -/
theorem reports_and_stays_alive_iff (hm : m.Accepted) (hbits : m.engineStateBits ≠ []) :
    (m.DerivesFromBits ∧ m.StaysAlive) ↔ m.EmptyIsUnknown ∧ m.PollsRules :=
  and_congr ⟨emptyIsUnknown_of_derivesFromBits, derivesFromBits_of_emptyIsUnknown⟩
    ⟨pollsRules_of_staysAlive hm hbits, fun h => h.staysAlive hm hbits⟩

def statusMap : RegisterMap :=
  { RegisterMap.bare with
    registers := [.plain "status"]
    engineStateBits := [⟨.running, "status", 1⟩] }

theorem status_reported : statusMap.DerivesFromBits ∧ statusMap.StaysAlive :=
  (reports_and_stays_alive_iff (by decide +kernel) (by decide)).mpr
    ⟨by decide, ⟨by decide, by decide +kernel⟩⟩

/-- The status register is left in its default tier, and its rule has no bits. -/
def idleStatusDoc : Yaml :=
  .map [("engine_state_bits", .seq [.map [("state", .str "running"), ("register", .str "status"),
      ("mask", .int 0)]]),
    ("registers", .seq [.map [("name", .str "status"), ("addr", .int 0)]])]

def idleStatusMap : RegisterMap :=
  { RegisterMap.bare with
    registers := [{ RegisterDef.plain "status" with tier := .base }]
    engineStateBits := [⟨.running, "status", 0⟩] }

/-- Every reading of the status register says running, and no prime poll ever reads it. -/
theorem running_never_polled :
    ∃ m : RegisterMap, loadRegisterMap .ascii idleStatusDoc = .ok m.keyed ∧
      m.engineStateBits ≠ [] ∧ ¬m.DerivesFromBits ∧ ¬m.StaysAlive := by
  have hload : loadRegisterMap .ascii idleStatusDoc = .ok idleStatusMap.keyed := by decide +kernel
  have hbits : idleStatusMap.engineStateBits ≠ [] := by decide
  have hempty : ¬idleStatusMap.EmptyIsUnknown := by decide +kernel
  obtain ⟨reg, hreg, hsource, htier⟩ : ∃ reg ∈ idleStatusMap.registers,
      reg.name ∈ ControlService.controlSources idleStatusMap ∧ reg.tier = .base :=
    ⟨_, List.mem_cons_self, by decide +kernel, rfl⟩
  refine ⟨idleStatusMap, hload, hbits, mt emptyIsUnknown_of_derivesFromBits hempty, fun hlive => ?_⟩
  have hprime := ((pollsRules_of_staysAlive (accepted_of_load hload) hbits hlive).prime reg hreg
    hsource).1
  rw [htier] at hprime
  cases hprime

end RegisterMap

end GenWatch

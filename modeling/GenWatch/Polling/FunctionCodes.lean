import GenWatch.Modbus.Acceptance
import GenWatch.Polling.Slave

/-! # Function codes

A register may declare the function code it is read with, but the reads of a poll all go
out with that of the map. Against a slave whose holding and input registers differ, a
register is decoded from its own words exactly if it declares the code of the map.
-/

namespace GenWatch

open Transition

structure ReadRequest where
  fc : ℤ
  addr : ℤ
  count : ℤ
  deriving DecidableEq

/-- The read that the poll is waiting for; batches and single words alike take the code of the
map. -/
def Poll.readRequest (p : Poll) : Option ReadRequest :=
  p.request.map fun r => ⟨p.regmap.readFc, r.1, r.2⟩

structure Banks where
  holding : Slave
  input : Slave

namespace Banks

variable (b : Banks)

def bank (fc : ℤ) : Slave := if fc = 4 then b.input else b.holding

def answer (poll : Poll) : Option (List ℤ) :=
  poll.readRequest.bind fun q => (b.bank q.fc).read q.addr q.count

theorem answer_eq (poll : Poll) : b.answer poll = (b.bank poll.regmap.readFc).answer poll := by
  unfold answer Poll.readRequest Slave.answer
  cases poll.request <;> rfl

def step (tier : RegTier) (s : PollLoops) : Slave.Label → Option PollLoops
  | .readReturns elapsedMs now mono =>
    match s.task tier with
    | .reading poll => (s.step (.returned tier ⟨b.answer poll, elapsedMs⟩ now mono)).map Prod.fst
    | _ => none
  | .applyRegmap m => (s.step (.applyRegmap m)).map Prod.fst

/-- The poll that ends when the slave answers the read it is waiting for. -/
def finished (tier : RegTier) (s : PollLoops) (elapsedMs : ℚ) : Option Poll :=
  match s.task tier with
  | .reading poll =>
    let p := (poll.returned ⟨b.answer poll, elapsedMs⟩).1
    if p.pending = [] then some p else none
  | _ => none

def PollsMap (tier : RegTier) (m : RegisterMap) (s : PollLoops) : Prop :=
  ∀ poll, s.task tier = .reading poll → poll.regmap = m

end Banks

/-- Every register that a poll of the map decodes is decoded from words that were read with its own
function code, and no batch mixes function codes. -/
structure RegisterMap.ReadsOwnFc (m : RegisterMap) : Prop where
  decoded : ∀ (b : Banks) tier prior link task watchMs s₁ ls s elapsedMs now mono s' p,
    (Slave.before m prior link task watchMs).step (.begin tier) = some (s₁, none) →
    Takes (b.step tier) s₁ ls s (.readReturns elapsedMs now mono) s' →
    b.finished tier s elapsedMs = some p →
    s'.poller.reading = p.reading prior now mono ∧
    ∀ reg ∈ m.tier tier, ∀ v, readRegister p.results reg = some v →
      ∃ words, registerWords p.results reg = some words ∧ decodeValue reg words = some v ∧
        words = (b.bank reg.fc).words reg.addr reg.words
  unmixed : ∀ tier, ∀ batch ∈ batchReads (m.tier tier), ∀ r ∈ m.tier tier, ∀ r' ∈ m.tier tier,
    Covers batch r → Covers batch r' → r.fc = r'.fc

namespace Banks

variable {b : Banks} {tier : RegTier} {m : RegisterMap} {prior : Reading} {s s' : PollLoops}
  {l : Slave.Label}

theorem PollsMap.step {slave : Slave} (h : PollsMap tier m s)
    (hs : slave.step tier s l = some s') : PollsMap tier m s' := by
  obtain ⟨l', cb, hstep, hbegin⟩ := Slave.loops_of_step hs
  intro p hp
  rcases PollLoops.reading_of_step hstep hp with
    ⟨-, htask⟩ | ⟨he, -⟩ | ⟨r, _, _, poll, -, htask, rfl, -⟩
  · exact h p htask
  · exact absurd he (hbegin tier)
  · exact (poll.returned_same r).2.trans (h poll htask)

theorem step_eq (h : PollsMap tier m s) (l : Slave.Label) :
    b.step tier s l = (b.bank m.readFc).step tier s l := by
  cases l with
  | readReturns elapsedMs now mono =>
    cases htask : s.task tier with
    | reading poll => simp only [step, Slave.step, htask, answer_eq, h poll htask]
    | idle | calling => simp only [step, Slave.step, htask]
  | applyRegmap m' => rfl

theorem pollsMap_begin {link : PollerHealth} {task : RegTier → TierTask} {watchMs : ℤ}
    (h : (Slave.before m prior link task watchMs).step (.begin tier) = some (s, none)) :
    PollsMap tier m s := by
  intro poll hpoll
  rcases PollLoops.reading_of_step h hpoll with ⟨hother, -⟩ | ⟨-, -, rfl⟩ | ⟨_, _, _, _, ⟨⟩, -⟩
  · exact absurd rfl hother
  · rfl

theorem takes_iff {link : PollerHealth} {task : RegTier → TierTask} {watchMs : ℤ}
    {s₁ : PollLoops} {ls : List Slave.Label}
    (h : (Slave.before m prior link task watchMs).step (.begin tier) = some (s₁, none)) :
    Takes (b.step tier) s₁ ls s l s' ↔ Takes ((b.bank m.readFc).step tier) s₁ ls s l s' :=
  takes_congr (I := PollsMap tier m) (fun _ _ _ hI hs => hI.step hs) (fun _ l hI => step_eq hI l)
    (pollsMap_begin h)

theorem following_of_finished {link : PollerHealth} {task : RegTier → TierTask} {watchMs : ℤ}
    {s₁ : PollLoops} {ls : List Slave.Label} {elapsedMs now mono : ℚ} {p : Poll}
    (hbegin : (Slave.before m prior link task watchMs).step (.begin tier) = some (s₁, none))
    (ht : Takes (b.step tier) s₁ ls s (.readReturns elapsedMs now mono) s')
    (hp : b.finished tier s elapsedMs = some p) :
    (b.bank m.readFc).Following tier m p ∧ p.pending = [] ∧
      s'.poller.reading = p.reading prior now mono := by
  have hpolls : PollsMap tier m s := by
    obtain ⟨pre, post, -, hpre, -⟩ := (takes_iff hbegin).mp ht
    exact run_invariant (fun _ _ _ _ hI hs => hI.step hs) (pollsMap_begin hbegin) hpre
  obtain ⟨pre, post, rfl, hpre, hs⟩ := (takes_iff hbegin).mp ht
  unfold finished at hp
  split at hp
  swap
  · cases hp
  rename_i poll htask
  dsimp only at hp
  split at hp
  swap
  · cases hp
  rename_i hdone
  obtain rfl := Option.some.inj hp
  rw [answer_eq, hpolls poll htask] at hdone ⊢
  rcases Slave.polling_of_begin (b.bank m.readFc) hbegin with hpolling | hidle
  · rcases hpolling.run hpre with ⟨q, hq, hpending, hfollows, hreading, -⟩ | hcalling
    · obtain rfl : q = poll := by
        rw [htask] at hq
        exact (TierTask.reading.inj hq).symm
      refine ⟨hfollows.returned elapsedMs, hdone, ?_⟩
      obtain ⟨q', htask', hs'⟩ := Slave.step_readReturns hs
      obtain rfl := TierTask.reading.inj (htask.symm.trans htask')
      rw [hs', PollLoops.returned_last s tier now mono hdone]
      simp [Poller.finish, hreading]
    · rw [htask] at hcalling
      cases hcalling
  · rw [Slave.idle_of_run hidle hpre] at htask
    cases htask

/-- A slave all of whose holding registers are zero and all of whose input registers are one. -/
def contrast : Banks := ⟨⟨fun _ => 0, fun _ => true⟩, ⟨fun _ => 1, fun _ => true⟩⟩

theorem contrast_readable (fc addr : ℤ) (n : ℕ) : (contrast.bank fc).Readable addr n := by
  intro i _
  unfold bank contrast
  split <;> rfl

/-- Words that are the same under two function codes were read with the same one. -/
theorem fc_eq_of_contrast {fc fc' addr : ℤ} {n : ℕ} (hfc : fc = 3 ∨ fc = 4)
    (hfc' : fc' = 3 ∨ fc' = 4) (hn : 0 < n)
    (h : (contrast.bank fc).words addr n = (contrast.bank fc').words addr n) : fc = fc' := by
  obtain ⟨k, rfl⟩ : ∃ k, n = k + 1 := ⟨n - 1, by omega⟩
  have hhead := congrArg List.head? h
  rcases hfc with rfl | rfl <;> rcases hfc' with rfl | rfl <;>
    simp [Slave.words, bank, contrast, List.range_succ_eq_map] at hhead ⊢

end Banks

namespace RegisterMap

variable {m : RegisterMap}

theorem readsOwnFc_of_fc (h : ∀ r ∈ m.registers, r.fc = m.readFc) : m.ReadsOwnFc := by
  have htier : ∀ {tier}, ∀ r ∈ m.tier tier, r.fc = m.readFc :=
    fun r hr => h r (mem_tier.mp hr).1
  constructor
  · intro b tier prior link task watchMs s₁ ls s elapsedMs now mono s' p hbegin ht hp
    obtain ⟨hfollows, hdone, hreading⟩ := Banks.following_of_finished hbegin ht hp
    refine ⟨hreading, fun reg hreg v hv => ?_⟩
    rw [readRegister_eq] at hv
    obtain ⟨words, hwords, hdecode⟩ := Option.bind_eq_some_iff.mp hv
    refine ⟨words, hwords, hdecode, ?_⟩
    rw [hfollows.results_of_done hdone,
      Slave.registerWords_batches (batchReads_covers hreg)] at hwords
    split at hwords
    · rw [htier reg hreg]
      exact (Option.some.inj hwords).symm
    · cases hwords
  · intro tier batch _ r hr r' hr' _ _
    rw [htier r hr, htier r' hr']

theorem fc_of_readsOwnFc (hm : m.Accepted) (h : m.ReadsOwnFc) {r : RegisterDef}
    (hr : r ∈ m.registers) : r.fc = m.readFc := by
  have hchecked := hm.checked
  have htier : r ∈ m.tier r.tier := mem_tier.mpr ⟨hr, rfl⟩
  have hcovers : ∃ batch ∈ batchReads (m.tier r.tier), Covers batch r := batchReads_covers htier
  have hne : batchReads (m.tier r.tier) ≠ [] := by
    obtain ⟨batch, hbatch, -⟩ := hcovers
    exact List.ne_nil_of_mem hbatch
  -- poll a slave whose two kinds of registers differ everywhere, to the end
  let slave := Banks.contrast.bank m.readFc
  obtain ⟨s₁, hbegin, hpolling⟩ := Slave.exists_begin slave hne .empty (.initial 0) 0
  obtain ⟨ls, s, poll, hrun, htask, hdone⟩ := Slave.exists_lastRead hpolling
  have hpolls : Banks.PollsMap r.tier m s :=
    run_invariant (fun _ _ _ _ hI hs => hI.step hs) (Banks.pollsMap_begin hbegin) hrun
  have hanswer : Banks.contrast.answer poll = slave.answer poll := by
    rw [Banks.answer_eq, hpolls poll htask]
  have hstep : slave.step r.tier s (.readReturns 0 0 0) =
      some (s.returned r.tier poll ⟨slave.answer poll, 0⟩ 0 0).1 := by
    simp [Slave.step, PollLoops.step, htask]
  have ht : Takes (Banks.contrast.step r.tier) s₁ (ls ++ [.readReturns 0 0 0]) s
      (.readReturns 0 0 0) _ := (Banks.takes_iff hbegin).mpr ⟨ls, [], rfl, hrun, hstep⟩
  have hfinished : Banks.contrast.finished r.tier s 0 =
      some (poll.returned ⟨slave.answer poll, 0⟩).1 := by
    simp [Banks.finished, htask, hanswer, hdone]
  obtain ⟨hfollows, -, -⟩ := Banks.following_of_finished hbegin ht hfinished
  have hwords : registerWords (poll.returned ⟨slave.answer poll, 0⟩).1.results r =
      some (slave.words r.addr r.words) := by
    rw [hfollows.results_of_done hdone, Slave.registerWords_batches hcovers,
      if_pos (Banks.contrast_readable _ _ _)]
  have hsome : (decodeValue r (slave.words r.addr r.words)).isSome :=
    decodeValue_isSome (by rw [Slave.length_words])
  obtain ⟨v, hv⟩ := Option.isSome_iff_exists.mp hsome
  have hread : readRegister (poll.returned ⟨slave.answer poll, 0⟩).1.results r = some v := by
    rw [readRegister_eq, hwords]
    exact hv
  obtain ⟨-, hown⟩ := h.decoded _ _ _ _ _ _ _ _ _ _ _ _ _ _ hbegin ht hfinished
  obtain ⟨words, hwords', -, he⟩ := hown r htier v hread
  obtain rfl := Option.some.inj (hwords.symm.trans hwords')
  exact Banks.fc_eq_of_contrast (hchecked.registers r hr).1 hchecked.readFc r.words_pos he.symm

/-- Every register is read with its own function code exactly if all of them declare that of the
map. -/
theorem reads_own_fc_iff (hm : m.Accepted) :
    m.ReadsOwnFc ↔ ∀ r ∈ m.registers, r.fc = m.readFc :=
  ⟨fun h _ hr => fc_of_readsOwnFc hm h hr, readsOwnFc_of_fc⟩

theorem pair_reads_own_fc : Slave.pairMap.Accepted ∧ Slave.pairMap.ReadsOwnFc :=
  ⟨by decide +kernel, (reads_own_fc_iff (by decide +kernel)).mpr (by decide)⟩

/-- Two registers next to each other, the second of them an input register. -/
def inputDoc : Yaml :=
  .map [("registers", .seq [
    .map [("name", .str "status"), ("addr", .int 0), ("tier", .str "prime")],
    .map [("name", .str "level"), ("addr", .int 1), ("tier", .str "prime"), ("fc", .int 4)]])]

def inputMap : RegisterMap :=
  { RegisterMap.bare with
    registers := [.plain "status", { RegisterDef.plain "level" 1 with fc := 4 }] }

/-- The input register is read as a holding register. -/
theorem input_read_as_holding :
    ∃ m : RegisterMap, loadRegisterMap .ascii inputDoc = .ok m.keyed ∧ ¬m.ReadsOwnFc := by
  have hload : loadRegisterMap .ascii inputDoc = .ok inputMap.keyed := by decide +kernel
  obtain ⟨r, hr, hfc⟩ : ∃ r ∈ inputMap.registers, r.fc ≠ inputMap.readFc :=
    ⟨_, List.mem_cons_of_mem _ List.mem_cons_self, by decide⟩
  exact ⟨inputMap, hload, fun h => hfc (fc_of_readsOwnFc (accepted_of_load hload) h hr)⟩

end RegisterMap

end GenWatch

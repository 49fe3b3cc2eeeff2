import GenWatch.Polling.FunctionCodes

/-! # Reads within the address space

A register may start anywhere in the address space, also at its last word, and nothing
asks whether its last word is still there. Where all registers end in the address space,
so do the batches, for they begin and end at registers, and the single words of a batch
that failed.
-/

namespace GenWatch

open Transition

/-- The read names words that exist, and no more of them than one request may. -/
structure ReadRequest.WellFormed (q : ReadRequest) : Prop where
  addr_nonneg : 0 ≤ q.addr
  count_pos : 1 ≤ q.count
  count_le : q.count ≤ 125
  stop_le : q.addr + q.count ≤ 0x10000

/-- Every register ends in the address space. -/
def RegisterMap.ReadsFit (m : RegisterMap) : Prop := ∀ r ∈ m.registers, r.stop ≤ 0x10000

instance : DecidablePred RegisterMap.ReadsFit :=
  fun m => inferInstanceAs (Decidable (∀ r ∈ m.registers, _))

/-- A batch within the address space, of at most the words that a read coalesces. -/
structure FitsSpace (b : ℤ × ℤ) : Prop where
  start_nonneg : 0 ≤ b.1
  count_pos : 1 ≤ b.2
  count_le : b.2 ≤ 64
  stop_le : b.1 + b.2 ≤ 0x10000

section Batches

variable {regs rest : List RegisterDef} {start stop : ℤ} {b : ℤ × ℤ}

theorem fitsSpace_register {r : RegisterDef} (haddr : 0 ≤ r.addr) (hstop : r.stop ≤ 0x10000) :
    0 ≤ r.addr ∧ r.addr < r.stop ∧ r.stop - r.addr ≤ 64 ∧ r.stop ≤ 0x10000 := by
  refine ⟨haddr, r.addr_lt_stop, ?_, hstop⟩
  have := r.words_le_two
  unfold RegisterDef.stop
  omega

theorem fitsSpace_batchFrom (hregs : ∀ r ∈ rest, 0 ≤ r.addr ∧ r.stop ≤ 0x10000)
    (h : 0 ≤ start ∧ start < stop ∧ stop - start ≤ 64 ∧ stop ≤ 0x10000)
    (hb : b ∈ batchFrom 64 start stop rest) : FitsSpace b := by
  induction rest generalizing start stop with
  | nil =>
    obtain rfl := List.mem_singleton.mp hb
    exact ⟨h.1, by dsimp only; omega, h.2.2.1, by dsimp only; omega⟩
  | cons r rest ih =>
    obtain ⟨⟨haddr, hstop⟩, hrest⟩ := List.forall_mem_cons.mp hregs
    rw [batchFrom] at hb
    split at hb
    · rename_i hextend
      refine ih hrest ?_ hb
      unfold RegisterDef.stop at hstop
      omega
    · rcases List.mem_cons.mp hb with rfl | hb
      · exact ⟨h.1, by dsimp only; omega, h.2.2.1, by dsimp only; omega⟩
      · exact ih hrest (fitsSpace_register haddr hstop) hb

theorem fitsSpace_batchReads (h : ∀ r ∈ regs, 0 ≤ r.addr ∧ r.stop ≤ 0x10000)
    (hb : b ∈ batchReads regs) : FitsSpace b := by
  have hsorted : ∀ r ∈ regs.insertionSort AddrLe, 0 ≤ r.addr ∧ r.stop ≤ 0x10000 :=
    fun r hr => h r (List.mem_insertionSort _ |>.mp hr)
  unfold batchReads at hb
  split at hb
  · cases hb
  · rename_i r rest hs
    rw [hs] at hsorted
    obtain ⟨⟨haddr, hstop⟩, hrest⟩ := List.forall_mem_cons.mp hsorted
    exact fitsSpace_batchFrom hrest (fitsSpace_register haddr hstop) hb

theorem RegisterMap.ReadsFit.batches {m : RegisterMap} (hfit : m.ReadsFit) (hm : m.Accepted)
    {tier : RegTier} (hb : b ∈ batchReads (m.tier tier)) : FitsSpace b := by
  refine fitsSpace_batchReads (fun r hr => ?_) hb
  have hmem := (RegisterMap.mem_tier.mp hr).1
  exact ⟨(hm.checked.registers r hmem).2.1, hfit r hmem⟩

end Batches

/-- What a poll still has to read is within the address space, and its single words are words of
the batch that failed. -/
structure Poll.Fits (p : Poll) : Prop where
  pending : ∀ b ∈ p.pending, FitsSpace b
  fanOut : ∀ fan ∈ p.fanOut, ∀ b ∈ p.pending.head?, (fan.words.length : ℤ) < b.2

namespace Poll

variable {p : Poll}

theorem fits_settle (h : ∀ b ∈ p.pending, FitsSpace b) (fan : FanOut) : (p.settle fan).1.Fits := by
  unfold settle
  split
  · rename_i hnil
    constructor
    · exact h
    · rw [hnil]
      rintro _ _ _ ⟨⟩
  · rename_i start count rest hpending
    rw [hpending, List.forall_mem_cons] at h
    split_ifs with hmore
    · constructor
      · rw [hpending]
        exact List.forall_mem_cons.mpr h
      · rintro _ ⟨⟩ b hb
        rw [hpending] at hb
        obtain rfl := Option.some.inj hb
        dsimp only
        omega
    · exact ⟨h.2, by rintro _ ⟨⟩⟩
    · exact ⟨h.2, by rintro _ ⟨⟩⟩

theorem Fits.returned (h : p.Fits) (r : ReadResult) : (p.returned r).1.Fits := by
  unfold Poll.returned
  split
  · exact h
  · exact fits_settle h.pending _
  · rename_i hpending _
    split
    · have hrest := h.pending
      rw [hpending, List.forall_mem_cons] at hrest
      exact ⟨hrest.2, by rintro _ ⟨⟩⟩
    · exact fits_settle h.pending _

theorem Fits.readRequest (h : p.Fits) {q : ReadRequest} (hq : p.readRequest = some q) :
    q.WellFormed := by
  obtain ⟨⟨addr, count⟩, hr, rfl⟩ := Option.map_eq_some_iff.mp hq
  unfold request at hr
  split at hr
  · cases hr
  · rename_i batch rest hpending _
    obtain ⟨hstart, hpos, hle, hstop⟩ :=
      h.pending batch (by rw [hpending]; exact List.mem_cons_self)
    obtain rfl := Option.some.inj hr
    constructor
    · exact hstart
    · exact hpos
    · exact hle.trans (by decide)
    · exact hstop
  · rename_i start count' rest fan hpending hfan
    obtain ⟨hstart, hpos, hle, hstop⟩ :=
      h.pending (start, count') (by rw [hpending]; exact List.mem_cons_self)
    have hword := h.fanOut fan hfan (start, count') (by rw [hpending]; rfl)
    obtain ⟨rfl, rfl⟩ := Prod.mk.inj (Option.some.inj hr)
    constructor <;> dsimp only at * <;> omega

end Poll

namespace PollLoops

def advance (s : PollLoops) (l : Label) : Option PollLoops := (s.step l).map Prod.fst

theorem step_of_advance {s s' : PollLoops} {l : Label} (h : s.advance l = some s') :
    ∃ cb, s.step l = some (s', cb) := by
  obtain ⟨⟨_, cb⟩, hstep, rfl⟩ := Option.map_eq_some_iff.mp h
  exact ⟨cb, hstep⟩

/-- Everything that the loops read, now or later, is within the address space. -/
structure Fits (s : PollLoops) : Prop where
  batches : ∀ tier, ∀ b ∈ s.poller.batches tier, FitsSpace b
  polls : ∀ tier poll, s.task tier = .reading poll → poll.Fits

section Steps

variable {s s' : PollLoops} {l : Label} {m : RegisterMap}

theorem fits_ofMap (hm : m.Accepted) (hfit : m.ReadsFit) (reading : Reading) (link : PollerHealth)
    (tier : RegTier) : ∀ b ∈ (Poller.ofMap m reading link).batches tier, FitsSpace b := by
  intro b hb
  cases tier with
  | prime => exact hfit.batches hm hb
  | base => exact hfit.batches hm hb

theorem Fits.advance (h : s.Fits) (hswap : ∀ m, l = .applyRegmap m → m.Accepted ∧ m.ReadsFit)
    (hs : s.advance l = some s') : s'.Fits := by
  obtain ⟨cb, hstep⟩ := step_of_advance hs
  constructor
  · cases l with
    | applyRegmap m =>
      obtain ⟨-, rfl⟩ := step_applyRegmap hstep
      obtain ⟨hm, hfit⟩ := hswap m rfl
      exact fits_ofMap hm hfit _ _
    | _ =>
      rw [(poller_of_step hstep rfl).2]
      exact h.batches
  · intro tier poll hpoll
    rcases reading_of_step hstep hpoll with
      ⟨-, htask⟩ | ⟨-, -, rfl⟩ | ⟨r, _, _, poll', -, htask, rfl, -⟩
    · exact h.polls tier poll htask
    · exact ⟨h.batches tier, by rintro _ ⟨⟩⟩
    · exact (h.polls tier poll' htask).returned r

end Steps

/-- In a run whose maps all have their registers in the address space, so do the reads. -/
theorem fits_of_run {m : RegisterMap} {now : ℚ} {ls : List Label} {s : PollLoops}
    (hm : m.Accepted) (hfit : m.ReadsFit)
    (hswaps : ∀ m', .applyRegmap m' ∈ ls → m'.Accepted ∧ m'.ReadsFit)
    (h : run advance (init m now) ls = some s) : s.Fits := by
  refine run_invariant (fun s l s' hl hs hstep => hs.advance ?_ hstep)
    ⟨fits_ofMap hm hfit _ _, by rintro _ _ ⟨⟩⟩ h
  rintro m' rfl
  exact hswaps m' hl

end PollLoops

end GenWatch

import Mathlib.Data.List.Chain
import GenWatch.Prelude.Runs
import GenWatch.Prelude.Transition
import GenWatch.Modbus.Decoding

/-! # The reads of a tier

Registers that share no word are read in the order of their addresses. The batches are
the reads of a division of that order into runs, each as long as the gap tolerance and
the bound on a read allow, and no division into such runs needs fewer reads.
-/

namespace GenWatch

open Runs Transition

namespace RegisterDef

variable {ν : Type}

def stop (r : RegisterDef ν) : ℤ := r.addr + r.words

/-- The words of the first register come before those of the second. -/
def Before (r r' : RegisterDef ν) : Prop := r.stop ≤ r'.addr

instance : DecidableRel (@Before ν) := fun r r' => inferInstanceAs (Decidable (r.stop ≤ r'.addr))

/-- The two registers share no word. -/
def Apart (r r' : RegisterDef ν) : Prop := r.Before r' ∨ r'.Before r

instance : DecidableRel (@Apart ν) := fun _ _ => inferInstanceAs (Decidable (_ ∨ _))

theorem addr_lt_stop (r : RegisterDef ν) : r.addr < r.stop := by
  have := r.words_pos
  unfold stop
  omega

theorem words_le_two (r : RegisterDef) : r.words ≤ 2 := by
  unfold words
  split <;> decide

theorem not_before_of_before {r r' : RegisterDef} (h : r.Before r') : ¬r'.Before r := by
  intro h'
  have := r.addr_lt_stop
  have := r'.addr_lt_stop
  unfold Before at h h'
  omega

end RegisterDef

open RegisterDef

/-- The registers of a run may be read together: neighbours are close to each other, and any two
of them lie within one read. -/
structure Within (maxWords : ℤ) (run : List RegisterDef) : Prop where
  near : run.IsChain fun r r' => r'.addr - r.stop ≤ gapTolerance
  short : ∀ r ∈ run, ∀ r' ∈ run, r'.stop - r.addr ≤ maxWords

theorem within_iff {maxWords : ℤ} {run : List RegisterDef} :
    Within maxWords run ↔ (run.IsChain fun r r' => r'.addr - r.stop ≤ gapTolerance) ∧
      ∀ r ∈ run, ∀ r' ∈ run, r'.stop - r.addr ≤ maxWords :=
  ⟨fun h => ⟨h.near, h.short⟩, fun h => ⟨h.1, h.2⟩⟩

instance (maxWords : ℤ) : DecidablePred (Within maxWords) := fun _ => decidable_of_iff' _ within_iff

/-- The read of a run, from its first register to the end of its last. -/
def readOf (run : List RegisterDef) : ℤ × ℤ :=
  match run.head?, run.getLast? with
  | some first, some last => (first.addr, last.stop - first.addr)
  | _, _ => (0, 0)

/-- What the reads of some registers are to be like. -/
structure BatchLaw (regs : List RegisterDef) (maxWords : ℤ) (batches : List (ℤ × ℤ)) : Prop where
  ordered : batches.Pairwise fun b b' => b.1 + b.2 ≤ b'.1
  sizes : ∀ b ∈ batches, 1 ≤ b.2 ∧ b.2 ≤ maxWords
  covered : ∀ r ∈ regs, ∃! b, b ∈ batches ∧ Covers b r
  ends : ∀ b ∈ batches, (∃ r ∈ regs, r.addr = b.1) ∧ ∃ r ∈ regs, r.stop = b.1 + b.2
  gaps : ∀ b ∈ batches, ∀ pre r r' post,
    regs.insertionSort AddrLe = pre ++ r :: r' :: post → Covers b r → Covers b r' →
      r'.addr - r.stop ≤ gapTolerance

section Runs

variable {maxWords : ℤ} {run rest : List RegisterDef} {runs : List (List RegisterDef)}
  {first last r : RegisterDef}

theorem hereditary_within (maxWords : ℤ) : Hereditary (Within maxWords) := by
  intro xs ys h
  obtain ⟨hxs, hys, -⟩ := List.isChain_append.mp h.near
  constructor
  · exact ⟨hxs, fun r hr r' hr' =>
      h.short r (List.mem_append_left _ hr) r' (List.mem_append_left _ hr')⟩
  · exact ⟨hys, fun r hr r' hr' =>
      h.short r (List.mem_append_right _ hr) r' (List.mem_append_right _ hr')⟩

theorem within_singleton (hmax : 2 ≤ maxWords) (r : RegisterDef) : Within maxWords [r] := by
  refine ⟨List.isChain_singleton r, ?_⟩
  have := r.words_le_two
  simp only [List.mem_singleton, forall_eq, stop]
  omega

theorem first_addr_le (hsorted : run.Pairwise Before) (hfirst : run.head? = some first)
    (hr : r ∈ run) : first.addr ≤ r.addr := by
  obtain ⟨tail, rfl⟩ := List.head?_eq_some_iff.mp hfirst
  rcases List.mem_cons.mp hr with rfl | hr
  · exact le_rfl
  · exact first.addr_lt_stop.le.trans ((List.pairwise_cons.mp hsorted).1 r hr)

theorem stop_le_last (hsorted : run.Pairwise Before) (hlast : run.getLast? = some last)
    (hr : r ∈ run) : r.stop ≤ last.stop := by
  obtain ⟨front, rfl⟩ := List.getLast?_eq_some_iff.mp hlast
  rcases List.mem_append.mp hr with hr | hr
  · have hbefore : r.Before last :=
      (List.pairwise_append.mp hsorted).2.2 r hr last (List.mem_singleton_self last)
    exact le_trans hbefore last.addr_lt_stop.le
  · rw [List.mem_singleton.mp hr]

theorem within_snoc_iff (hmax : 2 ≤ maxWords) (hrun : Within maxWords run)
    (hsorted : (run ++ [r]).Pairwise Before) (hfirst : run.head? = some first)
    (hlast : run.getLast? = some last) :
    Within maxWords (run ++ [r]) ↔
      r.addr - last.stop ≤ gapTolerance ∧ r.stop - first.addr ≤ maxWords := by
  obtain ⟨hpairs, -, hbefore⟩ := List.pairwise_append.mp hsorted
  constructor
  · intro h
    have hnear := (List.isChain_append.mp h.near).2.2 last hlast r rfl
    exact ⟨hnear, h.short first (List.mem_append_left _ (List.mem_of_head? hfirst)) r (by simp)⟩
  · rintro ⟨hnear, hshort⟩
    refine ⟨List.isChain_append.mpr ⟨hrun.near, List.isChain_singleton r, ?_⟩, ?_⟩
    · rintro x hx y hy
      obtain rfl : last = x := Option.some.inj (hlast.symm.trans hx)
      obtain rfl : r = y := Option.some.inj hy
      exact hnear
    · intro x hx y hy
      have hwords := r.words_le_two
      have hstop := r.addr_lt_stop
      rcases List.mem_append.mp hx with hx | hx <;> rcases List.mem_append.mp hy with hy | hy
      · exact hrun.short x hx y hy
      · rw [List.mem_singleton.mp hy]
        have := first_addr_le hpairs hfirst hx
        omega
      · rw [List.mem_singleton.mp hx]
        have hb : y.stop ≤ r.addr := hbefore y hy r (List.mem_singleton_self r)
        omega
      · rw [List.mem_singleton.mp hx, List.mem_singleton.mp hy]
        unfold stop
        omega

/-- The loop closes its batches where the division closes its runs. -/
theorem batchFrom_eq (hmax : 2 ≤ maxWords) (hrun : Within maxWords run)
    (hsorted : (run ++ rest).Pairwise Before) (hfirst : run.head? = some first)
    (hlast : run.getLast? = some last) :
    batchFrom maxWords first.addr last.stop rest =
      (divide (Within maxWords) run rest).map readOf := by
  induction rest generalizing run first last with
  | nil => simp [batchFrom, divide, readOf, hfirst, hlast]
  | cons r rest ih =>
    have hsplit : (run ++ [r] ++ rest).Pairwise Before := by
      rwa [List.append_assoc, List.singleton_append]
    have hfront : (run ++ [r]).Pairwise Before := (List.pairwise_append.mp hsplit).1
    have hnext : last.stop ≤ r.stop := by
      have hb : last.stop ≤ r.addr := (List.pairwise_append.mp hfront).2.2 last
        (List.mem_of_getLast? hlast) r (List.mem_singleton_self r)
      exact hb.trans r.addr_lt_stop.le
    have hiff := within_snoc_iff hmax hrun hfront hfirst hlast
    have hmaxStop : max last.stop (r.addr + r.words) = r.stop := max_eq_right hnext
    rw [batchFrom, divide, hmaxStop]
    by_cases h : Within maxWords (run ++ [r])
    · rw [if_pos h, if_pos (hiff.mp h)]
      refine ih h hsplit ?_ (by simp)
      rw [List.head?_append_of_ne_nil _ (List.ne_nil_of_mem (List.mem_of_head? hfirst))]
      exact hfirst
    · rw [if_neg h, if_neg (mt hiff.mpr h), List.map_cons]
      congr 1
      · simp [readOf, hfirst, hlast]
      · exact ih (within_singleton hmax r) (List.pairwise_append.mp hsorted).2.1 rfl rfl

variable {b : ℤ × ℤ}

theorem readOf_eq (hne : run ≠ []) :
    ∃ first last, run.head? = some first ∧ run.getLast? = some last ∧ first ∈ run ∧ last ∈ run ∧
      readOf run = (first.addr, last.stop - first.addr) := by
  obtain ⟨first, hfirst⟩ := Option.ne_none_iff_exists'.mp (mt List.head?_eq_none_iff.mp hne)
  obtain ⟨last, hlast⟩ := Option.ne_none_iff_exists'.mp (mt List.getLast?_eq_none_iff.mp hne)
  exact ⟨first, last, hfirst, hlast, List.mem_of_head? hfirst, List.mem_of_getLast? hlast,
    by simp [readOf, hfirst, hlast]⟩

theorem covers_readOf (hsorted : run.Pairwise Before) (hr : r ∈ run) : Covers (readOf run) r := by
  obtain ⟨first, last, hfirst, hlast, -, -, he⟩ := readOf_eq (List.ne_nil_of_mem hr)
  have hstart := first_addr_le hsorted hfirst hr
  have hstop := stop_le_last hsorted hlast hr
  rw [he]
  unfold stop at hstop
  exact ⟨hstart, by simpa [stop] using hstop⟩

theorem not_covers_of_after (hne : run ≠ []) (h : ∀ x ∈ run, x.Before r) :
    ¬Covers (readOf run) r := by
  rintro ⟨-, hstop⟩
  obtain ⟨first, last, -, -, -, hlast, he⟩ := readOf_eq hne
  have hb : last.stop ≤ r.addr := h last hlast
  have := r.addr_lt_stop
  rw [he] at hstop
  unfold stop at *
  omega

theorem not_covers_of_before (hne : run ≠ []) (h : ∀ x ∈ run, r.Before x) :
    ¬Covers (readOf run) r := by
  rintro ⟨hstart, -⟩
  obtain ⟨first, last, -, -, hfirst, -, he⟩ := readOf_eq hne
  have hb : r.stop ≤ first.addr := h first hfirst
  have := r.addr_lt_stop
  rw [he] at hstart
  simp only at hstart
  omega

theorem readOf_ordered (hne : ∀ run ∈ runs, run ≠ []) (hsorted : runs.flatten.Pairwise Before) :
    (runs.map readOf).Pairwise fun b b' => b.1 + b.2 ≤ b'.1 := by
  rw [List.pairwise_map]
  refine ((List.pairwise_flatten.mp hsorted).2).imp_of_mem fun {run run'} hrun hrun' hbefore => ?_
  obtain ⟨first, last, -, -, -, hlast, he⟩ := readOf_eq (hne run hrun)
  obtain ⟨first', last', -, -, hfirst', -, he'⟩ := readOf_eq (hne run' hrun')
  have hb : last.stop ≤ first'.addr := hbefore last hlast first' hfirst'
  rw [he, he']
  simp only
  omega

theorem gap_of_covers (hne : ∀ run ∈ runs, run ≠ []) (hfits : ∀ run ∈ runs, Within maxWords run)
    (hsorted : runs.flatten.Pairwise Before) (hrun : run ∈ runs) {pre post : List RegisterDef}
    {r r' : RegisterDef} (he : runs.flatten = pre ++ r :: r' :: post)
    (hr : Covers (readOf run) r) (hr' : Covers (readOf run) r') :
    r'.addr - r.stop ≤ gapTolerance := by
  induction runs generalizing pre with
  | nil => cases hrun
  | cons run₀ runs ih =>
    obtain ⟨hne₀, hne'⟩ := List.forall_mem_cons.mp hne
    obtain ⟨hfits₀, hfits'⟩ := List.forall_mem_cons.mp hfits
    rw [List.flatten_cons] at hsorted he
    obtain ⟨-, hrest, hbefore⟩ := List.pairwise_append.mp hsorted
    rcases List.mem_cons.mp hrun with rfl | hin
    · -- the second register is in this run, or the read of the run would not reach it
      have he' : run ++ runs.flatten = (pre ++ [r]) ++ r' :: post := by simpa using he
      obtain ⟨mid, rfl, -⟩ | ⟨mid, hmid, -⟩ := append_eq_append_cons he'
      · have hchain := hfits₀.near
        rw [List.append_assoc, List.singleton_append] at hchain
        exact (List.isChain_cons_cons.mp (List.isChain_append.mp hchain).2.1).1
      · have hmem : r' ∈ runs.flatten := hmid ▸ List.mem_append_right _ List.mem_cons_self
        exact absurd hr' (not_covers_of_after hne₀ fun x hx => hbefore x hx r' hmem)
    · obtain ⟨mid, rfl, -⟩ | ⟨mid, hmid, -⟩ := append_eq_append_cons he
      · refine absurd hr (not_covers_of_before (hne' run hin) fun x hx => ?_)
        exact hbefore r (List.mem_append_right _ List.mem_cons_self) x
          (List.mem_flatten.mpr ⟨run, hin, hx⟩)
      · exact ih hne' hfits' hrest hin hmid

end Runs

section Law

variable {maxWords : ℤ} {regs : List RegisterDef}

theorem pairwise_before_sorted (h : regs.Pairwise Apart) :
    (regs.insertionSort AddrLe).Pairwise Before := by
  have hperm : (regs.insertionSort AddrLe).Perm regs := List.perm_insertionSort AddrLe regs
  have happart : (regs.insertionSort AddrLe).Pairwise Apart :=
    (hperm.pairwise_iff fun h => Or.symm h).mpr h
  refine (happart.and (List.pairwise_insertionSort AddrLe regs)).imp fun {r r'} h => ?_
  obtain ⟨hb | hb, hle⟩ := h
  · exact hb
  · have := r'.addr_lt_stop
    unfold Before at hb
    unfold AddrLe at hle
    omega

/-- The batches are the reads of the greedy division of the sorted registers. -/
theorem batchReads_eq (hmax : 2 ≤ maxWords) (h : regs.Pairwise Apart) :
    ∃ runs, Divides (Within maxWords) runs (regs.insertionSort AddrLe) ∧
      batchReads regs maxWords = runs.map readOf ∧
      ∀ runs', Divides (Within maxWords) runs' (regs.insertionSort AddrLe) →
        runs.length ≤ runs'.length := by
  have hsorted := pairwise_before_sorted h
  unfold batchReads
  cases hs : regs.insertionSort AddrLe with
  | nil => exact ⟨[], ⟨rfl, by simp, by simp⟩, rfl, fun _ _ => Nat.zero_le _⟩
  | cons r rest =>
    rw [hs] at hsorted
    have hone := within_singleton hmax
    exact ⟨divide (Within maxWords) [r] rest, divide_divides hone (hone r) (by simp),
      batchFrom_eq hmax (hone r) hsorted rfl rfl,
      fun runs' => length_divide_le (hereditary_within maxWords)⟩

theorem batchLaw_of_divides {runs : List (List RegisterDef)} (hsorted : regs.Pairwise Apart)
    (hd : Divides (Within maxWords) runs (regs.insertionSort AddrLe)) :
    BatchLaw regs maxWords (runs.map readOf) := by
  have hbefore : runs.flatten.Pairwise Before := hd.flatten ▸ pairwise_before_sorted hsorted
  have hordered := readOf_ordered hd.nonempty hbefore
  have hmem : ∀ r, r ∈ regs ↔ ∃ run ∈ runs, r ∈ run := by
    intro r
    rw [← List.mem_flatten, hd.flatten, List.mem_insertionSort]
  have hsizes : ∀ b ∈ runs.map readOf, 1 ≤ b.2 ∧ b.2 ≤ maxWords := by
    intro b hb
    obtain ⟨run, hrun, rfl⟩ := List.mem_map.mp hb
    obtain ⟨first, last, hfirst, -, hf, hl, he⟩ := readOf_eq (hd.nonempty run hrun)
    have hstart := first_addr_le ((List.pairwise_flatten.mp hbefore).1 run hrun) hfirst hl
    have := last.addr_lt_stop
    rw [he]
    exact ⟨by simp only; omega, (hd.fits run hrun).short first hf last hl⟩
  refine ⟨hordered, hsizes, fun r hr => ?_, fun b hb => ?_, ?_⟩
  · obtain ⟨run, hrun, hin⟩ := (hmem r).mp hr
    have hcovers := covers_readOf ((List.pairwise_flatten.mp hbefore).1 run hrun) hin
    refine ⟨readOf run, ⟨List.mem_map_of_mem hrun, hcovers⟩, ?_⟩
    rintro b ⟨hb, hcovers'⟩
    by_contra hne
    have hwords := r.words_pos
    let R (b b' : ℤ × ℤ) : Prop := b.1 + b.2 ≤ b'.1 ∨ b'.1 + b'.2 ≤ b.1
    have hsymm : Std.Symm R := ⟨fun _ _ => Or.symm⟩
    have hpairs : (runs.map readOf).Pairwise R := hordered.imp Or.inl
    have hapart : R b (readOf run) := hpairs.forall hb (List.mem_map_of_mem hrun) hne
    unfold Covers at hcovers hcovers'
    simp only [R] at hapart
    omega
  · obtain ⟨run, hrun, rfl⟩ := List.mem_map.mp hb
    obtain ⟨first, last, -, -, hf, hl, he⟩ := readOf_eq (hd.nonempty run hrun)
    rw [he]
    exact ⟨⟨first, (hmem first).mpr ⟨run, hrun, hf⟩, rfl⟩,
      ⟨last, (hmem last).mpr ⟨run, hrun, hl⟩, by simp⟩⟩
  · intro b hb pre r r' post he hr hr'
    obtain ⟨run, hrun, rfl⟩ := List.mem_map.mp hb
    exact gap_of_covers hd.nonempty hd.fits hbefore hrun (hd.flatten.trans he) hr hr'

/-- Registers that share no word are sorted in one way only. -/
theorem insertionSort_eq_of_perm {regs' : List RegisterDef} (h : regs.Pairwise Apart)
    (hp : regs.Perm regs') : regs'.insertionSort AddrLe = regs.insertionSort AddrLe := by
  have h' : regs'.Pairwise Apart := (hp.pairwise_iff fun h => Or.symm h).mp h
  have hperm : (regs'.insertionSort AddrLe).Perm (regs.insertionSort AddrLe) :=
    (List.perm_insertionSort AddrLe regs').trans
      (hp.symm.trans (List.perm_insertionSort AddrLe regs).symm)
  exact hperm.eq_of_pairwise (fun _ _ _ _ hb hb' => absurd hb' (not_before_of_before hb))
    (pairwise_before_sorted h') (pairwise_before_sorted h)

/-- The reads of registers that share no word, for any bound of at least two words: they are in
order and disjoint, within the bound, cover each register exactly once, start and end at
registers and bridge small gaps only; they do not depend on the order in which the registers are
listed; and no division of the sorted registers under the same two limits has fewer reads. -/
theorem batch_reads_law (hmax : 2 ≤ maxWords) (h : regs.Pairwise Apart) :
    BatchLaw regs maxWords (batchReads regs maxWords) ∧
    (∀ regs', regs.Perm regs' → batchReads regs' maxWords = batchReads regs maxWords) ∧
    ∀ runs, Divides (Within maxWords) runs (regs.insertionSort AddrLe) →
      (batchReads regs maxWords).length ≤ runs.length := by
  obtain ⟨runs, hd, he, hleast⟩ := batchReads_eq hmax h
  refine ⟨he ▸ batchLaw_of_divides h hd, fun regs' hp => ?_, fun runs' hd' => ?_⟩
  · rw [batchReads, batchReads, insertionSort_eq_of_perm h hp]
  · rw [he, List.length_map]
    exact hleast runs' hd'

/-- Four registers, listed out of order: two of two words next to each other, one after a gap
that is bridged, and one after a gap that is not. -/
def scatteredRegs : List RegisterDef :=
  [.plain "far" 20, { RegisterDef.plain "hours" 2 with type := .u32 },
    { RegisterDef.plain "energy" 0 with type := .u32 }, .plain "rpm" 8]

theorem scattered_reads :
    batchReads scatteredRegs = [(0, 9), (20, 1)] ∧
      BatchLaw scatteredRegs 64 (batchReads scatteredRegs) :=
  ⟨by decide, (batch_reads_law (by decide) (by decide)).1⟩

end Law

end GenWatch

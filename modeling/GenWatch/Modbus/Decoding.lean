import Mathlib.Data.List.Sort
import GenWatch.Modbus.Registers

/-! # Words and batches

The words of a register are decoded by its type and scale. The registers of a tier
are grouped into contiguous reads: the registers sorted by address, gaps of up to
four words bridged, no read longer than its bound.
-/

namespace GenWatch

def word16 (w : ℤ) : ℤ := w % 0x10000

def word32 (hi lo : ℤ) : ℤ := word16 hi * 0x10000 + word16 lo

def RegType.rawValue (type : RegType) (words : List ℤ) : Option ℤ :=
  match type, words with
  | _, [] => none
  | .s16, w :: _ => some (if 0x8000 ≤ word16 w then word16 w - 0x10000 else word16 w)
  | .u32, hi :: lo :: _ => some (word32 hi lo)
  | .u32, [_] => none
  | .u32Lo, _ :: lo :: _ => some (word16 lo)
  | .u32Lo, [_] => none
  | .s32, hi :: lo :: _ =>
    some (if word32 hi lo < 0x80000000 then word32 hi lo else word32 hi lo - 0x100000000)
  | .s32, [_] => none
  | _, w :: _ => some (word16 w)

def decodeValue (reg : RegisterDef) (words : List ℤ) : Option ℚ :=
  (reg.type.rawValue words).map fun v =>
    if reg.scale ≠ 1 ∧ reg.type ≠ .bitfld ∧ reg.type ≠ .enum then v * reg.scale else v

/-- Registers in the order of their addresses. -/
def AddrLe (r r' : RegisterDef) : Prop := r.addr ≤ r'.addr

instance : DecidableRel AddrLe := fun r r' => inferInstanceAs (Decidable (r.addr ≤ r'.addr))

instance : Std.Total AddrLe := ⟨fun r r' => le_total r.addr r'.addr⟩

instance : IsTrans RegisterDef AddrLe := ⟨fun _ _ _ => le_trans⟩

def gapTolerance : ℤ := 4

/-- The reads that a batch under construction, from `start` up to `stop`, and the registers after
it make. -/
def batchFrom (maxWords start stop : ℤ) : List RegisterDef → List (ℤ × ℤ)
  | [] => [(start, stop - start)]
  | r :: rest =>
    let newStop := max stop (r.addr + r.words)
    if r.addr - stop ≤ gapTolerance ∧ newStop - start ≤ maxWords then
      batchFrom maxWords start newStop rest
    else (start, stop - start) :: batchFrom maxWords r.addr (r.addr + r.words) rest

/-- Group registers into contiguous reads, each a first address and a number of words. -/
def batchReads (regs : List RegisterDef) (maxWords : ℤ := 64) : List (ℤ × ℤ) :=
  match regs.insertionSort AddrLe with
  | [] => []
  | r :: rest => batchFrom maxWords r.addr (r.addr + r.words) rest

theorem RegisterDef.words_pos {ν : Type} (r : RegisterDef ν) : 0 < r.words := by
  unfold words
  split <;> decide

theorem decodeValue_isSome {reg : RegisterDef} {words : List ℤ} (h : reg.words ≤ words.length) :
    (decodeValue reg words).isSome := by
  rw [decodeValue, Option.isSome_map]
  unfold RegisterDef.words at h
  rcases words with _ | ⟨w, _ | ⟨w', rest⟩⟩
  · split at h <;> simp at h
  · cases ht : reg.type <;> simp_all [RegType.rawValue]
  · cases reg.type <;> rfl

def Covers (batch : ℤ × ℤ) (r : RegisterDef) : Prop :=
  batch.1 ≤ r.addr ∧ r.addr + r.words ≤ batch.1 + batch.2

section Batches

variable {maxWords start stop : ℤ} {regs : List RegisterDef}

theorem exists_batch_of_open (maxWords stop : ℤ) (h : ∀ r ∈ regs, start ≤ r.addr) :
    ∃ b ∈ batchFrom maxWords start stop regs, b.1 = start ∧ stop ≤ b.1 + b.2 := by
  induction regs generalizing stop with
  | nil => exact ⟨_, List.mem_singleton_self _, rfl, by simp⟩
  | cons r rest ih =>
    rw [batchFrom]
    split
    · obtain ⟨b, hb, hstart, hstop⟩ :=
        ih (max stop (r.addr + r.words)) fun r' hr' => h r' (List.mem_cons_of_mem _ hr')
      exact ⟨b, hb, hstart, (le_max_left _ _).trans hstop⟩
    · exact ⟨_, List.mem_cons_self, rfl, by simp⟩

theorem batchFrom_covers (hstart : ∀ r ∈ regs, start ≤ r.addr)
    (hsorted : regs.Pairwise AddrLe) {r : RegisterDef} (hr : r ∈ regs) :
    ∃ b ∈ batchFrom maxWords start stop regs, Covers b r := by
  induction regs generalizing start stop with
  | nil => cases hr
  | cons r₀ rest ih =>
    obtain ⟨hfirst, hrest⟩ := List.pairwise_cons.mp hsorted
    have hstart' : ∀ r' ∈ rest, start ≤ r'.addr :=
      fun r' hr' => hstart r' (List.mem_cons_of_mem _ hr')
    rw [batchFrom]
    split
    · rcases List.mem_cons.mp hr with rfl | hr
      · obtain ⟨b, hb, hb₁, hb₂⟩ := exists_batch_of_open maxWords
          (max stop (r.addr + r.words)) hstart'
        refine ⟨b, hb, ?_, (le_max_right _ _).trans hb₂⟩
        rw [hb₁]
        exact hstart r List.mem_cons_self
      · exact ih hstart' hrest hr
    · rcases List.mem_cons.mp hr with rfl | hr
      · obtain ⟨b, hb, hb₁, hb₂⟩ := exists_batch_of_open maxWords
          (r.addr + r.words) hfirst
        exact ⟨b, List.mem_cons_of_mem _ hb, hb₁.le, hb₂⟩
      · obtain ⟨b, hb, hcovers⟩ : ∃ b ∈ batchFrom maxWords r₀.addr (r₀.addr + r₀.words) rest,
            Covers b r := ih hfirst hrest hr
        exact ⟨b, List.mem_cons_of_mem _ hb, hcovers⟩

/-- Every register is covered by one of the reads. -/
theorem batchReads_covers {r : RegisterDef} (hr : r ∈ regs) :
    ∃ b ∈ batchReads regs maxWords, Covers b r := by
  have hmem : r ∈ regs.insertionSort AddrLe := (List.mem_insertionSort _).mpr hr
  have hsorted : (regs.insertionSort AddrLe).Pairwise AddrLe :=
    List.pairwise_insertionSort AddrLe regs
  unfold batchReads
  split
  · rename_i hnil
    rw [hnil] at hmem
    cases hmem
  · rename_i r₀ rest hcons
    rw [hcons] at hmem hsorted
    obtain ⟨hfirst, hrest⟩ := List.pairwise_cons.mp hsorted
    rcases List.mem_cons.mp hmem with rfl | hr
    · obtain ⟨b, hb, hb₁, hb₂⟩ := exists_batch_of_open maxWords
        (r.addr + r.words) hfirst
      exact ⟨b, hb, hb₁.le, hb₂⟩
    · exact batchFrom_covers hfirst hrest hr

end Batches

end GenWatch

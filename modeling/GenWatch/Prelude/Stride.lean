import Mathlib.Data.List.Basic
import Mathlib.Data.Nat.ModEq

/-! # Every so many elements

The elements of a list at the multiples of a stride, as a slice with a step gives them.
A list is thinned out to about a number of elements by the stride that its length is a
multiple of that number.
-/

namespace GenWatch.Stride

variable {α : Type*}

/-- Skip some elements, then take every `step`-th. -/
def strideFrom (step : ℕ) : ℕ → List α → List α
  | _, [] => []
  | 0, x :: xs => x :: strideFrom step (step - 1) xs
  | skip + 1, _ :: xs => strideFrom step skip xs

/-- `xs[::step]` -/
def stride (step : ℕ) (xs : List α) : List α := strideFrom step 0 xs

/-- Thin a list out if it has more than `n` elements. -/
def thin (n : ℕ) (xs : List α) : List α :=
  if n < xs.length then stride (max 1 (xs.length / n)) xs else xs

variable {step skip n : ℕ} {xs : List α}

theorem strideFrom_sublist : (strideFrom step skip xs).Sublist xs := by
  induction xs generalizing skip with
  | nil => exact List.nil_sublist _
  | cons x xs ih =>
    cases skip with
    | zero => exact ih.cons_cons x
    | succ skip => exact ih.cons x

theorem length_strideFrom (hskip : skip < step) :
    (strideFrom step skip xs).length = (xs.length + (step - 1) - skip) / step := by
  induction xs generalizing skip with
  | nil =>
    have hlt : 0 + (step - 1) - skip < step := by omega
    simp [strideFrom, Nat.div_eq_of_lt (by simpa using hlt)]
  | cons x xs ih =>
    cases skip with
    | zero =>
      rw [strideFrom, List.length_cons, ih (by omega), List.length_cons]
      have he : xs.length + 1 + (step - 1) - 0 = xs.length + (step - 1) - (step - 1) + step := by
        omega
      rw [he, Nat.add_div_right _ (by omega)]
    | succ skip =>
      rw [strideFrom, ih (by omega), List.length_cons]
      congr 1
      omega

theorem mem_strideFrom (hstep : 0 < step) {a : α} :
    a ∈ strideFrom step skip xs ↔ ∃ k, xs[skip + k * step]? = some a := by
  induction xs generalizing skip with
  | nil => simp [strideFrom]
  | cons x xs ih =>
    cases skip with
    | zero =>
      rw [strideFrom, List.mem_cons, ih]
      constructor
      · rintro (rfl | ⟨k, hk⟩)
        · exact ⟨0, by simp⟩
        · refine ⟨k + 1, ?_⟩
          have he : 0 + (k + 1) * step = step - 1 + k * step + 1 := by
            rw [Nat.succ_mul]
            omega
          rw [he, List.getElem?_cons_succ, hk]
      · rintro ⟨k, hk⟩
        cases k with
        | zero => exact Or.inl (by simpa using hk.symm)
        | succ k =>
          have he : 0 + (k + 1) * step = step - 1 + k * step + 1 := by
            rw [Nat.succ_mul]
            omega
          rw [he, List.getElem?_cons_succ] at hk
          exact Or.inr ⟨k, hk⟩
    | succ skip =>
      rw [strideFrom, ih]
      refine exists_congr fun k => ?_
      rw [Nat.succ_add, List.getElem?_cons_succ]

theorem mem_thin {a : α} :
    a ∈ thin n xs ↔ ∃ i, max 1 (xs.length / n) ∣ i ∧ xs[i]? = some a := by
  unfold thin
  split
  · rw [stride, mem_strideFrom (lt_of_lt_of_le Nat.one_pos (le_max_left _ _))]
    constructor
    · rintro ⟨k, hk⟩
      exact ⟨_, Dvd.intro_left k rfl, by rwa [Nat.zero_add] at hk⟩
    · rintro ⟨_, ⟨k, rfl⟩, hk⟩
      exact ⟨k, by rwa [Nat.zero_add, Nat.mul_comm]⟩
  · rename_i hshort
    have hone : max 1 (xs.length / n) = 1 := by
      refine max_eq_left (Nat.div_le_of_le_mul ?_)
      rw [Nat.mul_one]
      exact not_lt.mp hshort
    simp only [hone, one_dvd, true_and]
    exact List.mem_iff_getElem?

theorem thin_sublist : (thin n xs).Sublist xs := by
  unfold thin
  split
  · exact strideFrom_sublist
  · exact List.Sublist.refl xs

/-- Thinning out keeps the bound exactly if the list is short enough, or its length is a multiple
of the bound. -/
theorem length_thin_le_iff (hn : 0 < n) :
    (thin n xs).length ≤ n ↔ xs.length ≤ n ∨ n ∣ xs.length := by
  unfold thin
  split
  · rename_i hlong
    have hstep : 1 ≤ xs.length / n := (Nat.one_le_div_iff hn).mpr hlong.le
    rw [max_eq_right hstep, stride, length_strideFrom hstep, Nat.sub_zero]
    have hfits := Nat.mul_div_le xs.length n
    rw [← Nat.lt_succ_iff, Nat.div_lt_iff_lt_mul hstep, Nat.succ_mul]
    constructor
    · intro hlt
      exact Or.inr ⟨xs.length / n, by omega⟩
    · rintro (hle | hdvd)
      · omega
      · have he := Nat.mul_div_cancel' hdvd
        omega
  · rename_i hshort
    exact ⟨Or.inl, fun _ => not_lt.mp hshort⟩

end GenWatch.Stride

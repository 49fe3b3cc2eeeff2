import Mathlib.Data.List.Basic
import Mathlib.Data.List.Infix

/-! # Dividing a list into runs

A list is divided into consecutive runs, each of which has to fit. If what fits still
fits after its ends are cut off, then a run that is closed only when the next element no
longer fits gives a division into as few runs as possible.
-/

namespace GenWatch.Runs

variable {α : Type*}

/-- The runs make up the list, and each of them fits. -/
structure Divides (fits : List α → Prop) (runs : List (List α)) (xs : List α) : Prop where
  flatten : runs.flatten = xs
  nonempty : ∀ run ∈ runs, run ≠ []
  fits : ∀ run ∈ runs, fits run

/-- What fits still fits after its ends are cut off. -/
def Hereditary (fits : List α → Prop) : Prop := ∀ xs ys, fits (xs ++ ys) → fits xs ∧ fits ys

variable (fits : List α → Prop) [DecidablePred fits]

/-- Go on with the open run as long as it fits. -/
def divide (run : List α) : List α → List (List α)
  | [] => [run]
  | a :: rest => if fits (run ++ [a]) then divide (run ++ [a]) rest else run :: divide [a] rest

variable {fits} {run run' : List α} {a : α} {rest : List α}

theorem divide_divides (hone : ∀ a, fits [a]) (hrun : fits run) (hne : run ≠ []) :
    Divides fits (divide fits run rest) (run ++ rest) := by
  induction rest generalizing run with
  | nil => exact ⟨by simp [divide], by simpa [divide] using hne, by simpa [divide] using hrun⟩
  | cons a rest ih =>
    rw [divide]
    split
    · rename_i hfits
      have h := ih hfits (by simp)
      rwa [List.append_assoc] at h
    · obtain ⟨hflatten, hnonempty, hall⟩ := ih (hone a) (by simp)
      refine ⟨?_, List.forall_mem_cons.mpr ⟨hne, hnonempty⟩,
        List.forall_mem_cons.mpr ⟨hrun, hall⟩⟩
      rw [List.flatten_cons, hflatten]
      rfl

theorem length_divide_suffix (hh : Hereditary fits) (hs : run' <:+ run) (rest : List α) :
    (divide fits run' rest).length ≤ (divide fits run rest).length ∧
      (divide fits run rest).length ≤ (divide fits run' rest).length + 1 := by
  induction rest generalizing run run' with
  | nil => simp [divide]
  | cons a rest ih =>
    obtain ⟨front, rfl⟩ := hs
    have hs' : run' ++ [a] <:+ front ++ run' ++ [a] := ⟨front, by simp⟩
    have hlast : [a] <:+ run' ++ [a] := List.suffix_append _ _
    rw [divide, divide]
    by_cases hfits : fits (front ++ run' ++ [a])
    · have hfits' : fits (run' ++ [a]) := (hh front _ (by rwa [← List.append_assoc])).2
      rw [if_pos hfits, if_pos hfits']
      exact ih hs'
    · rw [if_neg hfits]
      by_cases hfits' : fits (run' ++ [a])
      · rw [if_pos hfits', List.length_cons]
        have := ih hlast
        omega
      · rw [if_neg hfits', List.length_cons, List.length_cons]
        omega

/-- A list that fits as a whole is not cut. -/
theorem divide_append (hh : Hereditary fits) {tail : List α} (hfits : fits (run ++ tail)) :
    divide fits run (tail ++ rest) = divide fits (run ++ tail) rest := by
  induction tail generalizing run with
  | nil => simp
  | cons a tail ih =>
    have he : run ++ a :: tail = run ++ [a] ++ tail := by simp
    rw [he] at hfits
    rw [List.cons_append, divide, if_pos (hh _ _ hfits).1, ih hfits, he]

/-- No division into runs that fit has fewer runs. -/
theorem length_divide_le (hh : Hereditary fits) {runs : List (List α)}
    (h : Divides fits runs (a :: rest)) : (divide fits [a] rest).length ≤ runs.length := by
  induction runs generalizing a rest with
  | nil => cases h.flatten
  | cons run runs ih =>
    have hflatten := h.flatten
    obtain ⟨hne, hnonempty⟩ := List.forall_mem_cons.mp h.nonempty
    obtain ⟨hrun, hfits⟩ := List.forall_mem_cons.mp h.fits
    rcases run with _ | ⟨b, tail⟩
    · exact absurd rfl hne
    rw [List.flatten_cons, List.cons_append] at hflatten
    obtain ⟨rfl, rfl⟩ := List.cons.inj hflatten
    have hwhole : fits ([b] ++ tail) := hrun
    rw [divide_append hh hwhole]
    cases hrest : runs.flatten with
    | nil => simp [divide]
    | cons c rest =>
      have hle := ih ⟨hrest, hnonempty, hfits⟩
      have hsuffix := length_divide_suffix hh (List.suffix_append ([b] ++ tail) [c]) rest
      rw [divide, List.length_cons]
      split
      · omega
      · rw [List.length_cons]
        omega

end GenWatch.Runs

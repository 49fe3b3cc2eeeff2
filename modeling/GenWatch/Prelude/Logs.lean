import Mathlib.Data.List.Chain

/-! # Logs that settle a value

Some entries of a log settle a matter, and the last of them has the say. A state that every
entry either overwrites or leaves alone is a function of the log: it is the last word, or
what it was to begin with. A log of flips says for each the value it leaves a switch at:
every flip changes the value, and the last one leaves it at the final value.
-/

namespace GenWatch

section LastWord

variable {ℓ α : Type*} (f : ℓ → Option α)

/-- What the last entry says that settles the matter. -/
def lastWord (log : List ℓ) : Option α := (log.filterMap f).getLast?

variable {f} {log log' : List ℓ} {l : ℓ}

@[simp] theorem lastWord_nil : lastWord f [] = none := rfl

theorem lastWord_append : lastWord f (log ++ log') = (lastWord f log').or (lastWord f log) := by
  rw [lastWord, List.filterMap_append, List.getLast?_append]
  rfl

theorem lastWord_singleton : lastWord f [l] = f l := by
  unfold lastWord
  cases h : f l <;> simp [h]

theorem lastWord_snoc : lastWord f (log ++ [l]) = (f l).or (lastWord f log) := by
  rw [lastWord_append, lastWord_singleton]

end LastWord

/-- The flips lead the switch from `a` to `b`, each to the value that it says. -/
def Toggles : Bool → List Bool → Bool → Prop
  | a, [], b => a = b
  | a, x :: xs, b => x ≠ a ∧ Toggles x xs b

namespace Toggles

variable {a b c : Bool} {xs ys : List Bool}

theorem append (h : Toggles a xs b) (h' : Toggles b ys c) : Toggles a (xs ++ ys) c := by
  induction xs generalizing a with
  | nil =>
    obtain rfl : a = b := h
    exact h'
  | cons x xs ih => exact ⟨h.1, ih h.2⟩

/-- The flips alternate, starting away from the first value. -/
theorem isChain (h : Toggles a xs b) : (a :: xs).IsChain (· ≠ ·) := by
  induction xs generalizing a with
  | nil => exact List.isChain_singleton a
  | cons x xs ih => exact List.isChain_cons_cons.mpr ⟨h.1.symm, ih h.2⟩

theorem getLast (h : Toggles a xs b) : xs.getLast?.getD a = b := by
  induction xs generalizing a with
  | nil => exact h
  | cons x xs ih =>
    rw [List.getLast?_cons, Option.getD_some]
    exact ih h.2

theorem mem_of_ne (h : Toggles a xs b) (hne : a ≠ b) : b ∈ xs := by
  have hlast := h.getLast
  cases hx : xs.getLast? with
  | none =>
    rw [hx] at hlast
    exact absurd hlast hne
  | some x =>
    rw [hx, Option.getD_some] at hlast
    exact hlast ▸ List.mem_of_getLast? hx

end Toggles

end GenWatch

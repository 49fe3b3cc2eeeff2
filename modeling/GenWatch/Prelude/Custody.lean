import Mathlib.Data.List.Count

/-! # Custody of single-use items

Items are issued into a store under a key and leave it once: burnt or used. The
account balances when every key has left the store, or is still held, at most as
often as it was issued. If no key is issued twice, then no key is used twice, none
is both used and burnt, and none that has left is still held.
-/

namespace GenWatch.Custody

variable {κ : Type*} [DecidableEq κ]

inductive Fate (κ : Type*) where
  | issued (k : κ)
  | burnt (k : κ)
  | used (k : κ)
  deriving DecidableEq

/-- The history of the items accounts for those held. -/
def Balanced (history : List (Fate κ)) (held : List κ) : Prop :=
  ∀ k, history.count (.burnt k) + history.count (.used k) + held.count k ≤
    history.count (.issued k)

variable {history : List (Fate κ)} {held held' ks : List κ} {k : κ}

theorem balanced_nil : Balanced ([] : List (Fate κ)) [] := fun _ => by simp

theorem Balanced.issue (h : Balanced history held) (hp : held'.Perm (k :: held)) :
    Balanced (history ++ [.issued k]) held' := by
  intro j
  have hj := h j
  by_cases hjk : k = j
  · subst hjk
    simp [List.count_append, hp.count_eq]
    omega
  · simp [List.count_append, hp.count_eq, hjk]
    omega

theorem Balanced.burnAll (h : Balanced history held) (hp : held.Perm (ks ++ held')) :
    Balanced (history ++ ks.map .burnt) held' := by
  intro j
  have hj := h j
  rw [hp.count_eq, List.count_append] at hj
  have hburnt : (ks.map Fate.burnt).count (.burnt j) = ks.count j :=
    List.count_map_of_injective ks _ (fun _ _ he => by injection he) j
  have hused : (ks.map Fate.burnt).count (.used j) = 0 := List.count_eq_zero.mpr (by simp)
  have hissued : (ks.map Fate.burnt).count (.issued j) = 0 := List.count_eq_zero.mpr (by simp)
  simp only [List.count_append, hburnt, hused, hissued]
  omega

theorem Balanced.burn (h : Balanced history held) (hp : held.Perm (k :: held')) :
    Balanced (history ++ [.burnt k]) held' := by
  have hks : held.Perm ([k] ++ held') := hp
  exact h.burnAll hks

theorem Balanced.use (h : Balanced history held) (hp : held.Perm (k :: held')) :
    Balanced (history ++ [.used k]) held' := by
  intro j
  have hj := h j
  rw [hp.count_eq] at hj
  by_cases hjk : k = j
  · subst hjk
    simp_all [List.count_append]
    omega
  · simp_all [List.count_append]

section Unique

variable (hu : ∀ k, history.count (.issued k) ≤ 1)

include hu

/-- No item is used twice. -/
theorem Balanced.count_used_le (h : Balanced history held) (k : κ) :
    history.count (.used k) ≤ 1 := by
  have := h k
  have := hu k
  omega

theorem Balanced.of_burnt (h : Balanced history held) (hb : .burnt k ∈ history) :
    .used k ∉ history ∧ k ∉ held := by
  have hk := h k
  have hone := hu k
  have hpos : 0 < history.count (.burnt k) := List.count_pos_iff.mpr hb
  constructor
  · exact List.count_eq_zero.mp (by omega)
  · exact List.count_eq_zero.mp (by omega)

end Unique

end GenWatch.Custody

import Mathlib.Data.List.TakeWhile
import Mathlib.Data.List.Infix
import Mathlib.Data.List.Perm.Basic
import Mathlib.Order.MinMax

/-! # Bounded queues

A queue with a limit takes an item at its end, or refuses it when it is full. A producer
that prefers the new item to the oldest one takes the first item off a full queue and tries
again. Such a queue keeps a window of the history, a list with its newest entry first; what
a decision reads from the window is compared with the whole history.
-/

namespace GenWatch

namespace Fifo

variable {α : Type*} (cap : ℕ)

def putNowait (q : List α) (x : α) : Option (List α) :=
  if q.length < cap then some (q ++ [x]) else none

variable {cap} {q q' : List α} {x : α}

theorem putNowait_eq_some :
    putNowait cap q x = some q' ↔ q.length < cap ∧ q' = q ++ [x] := by
  unfold putNowait
  split <;> simp [*, eq_comm]

theorem putNowait_eq_none : putNowait cap q x = none ↔ cap ≤ q.length := by
  simp [putNowait]

theorem putNowait_tail (hpos : 0 < cap) (hle : q.length ≤ cap) :
    putNowait cap q.tail x = some (q.tail ++ [x]) := by
  refine putNowait_eq_some.mpr ⟨?_, rfl⟩
  rw [List.length_tail]
  omega

end Fifo

namespace Window

variable {α : Type*}

theorem drop_reverse_take (n : ℕ) (x : α) (xs : List α) :
    ((xs.take n).reverse ++ [x]).drop ((xs.take n).reverse.length + 1 - n) =
      ((x :: xs).take n).reverse := by
  have hcons : (xs.take n).reverse ++ [x] = (x :: xs.take n).reverse := by simp
  rw [hcons, List.drop_reverse]
  congr 1
  simp only [List.length_cons, List.length_reverse]
  cases n with
  | zero => simp
  | succ n =>
    rw [List.take_succ_cons]
    rcases Nat.lt_or_ge n xs.length with h | h
    · have hlen : (xs.take (n + 1)).length = n + 1 := by
        rw [List.length_take]
        omega
      rw [hlen, List.take_cons (by omega), List.take_take]
      congr 2
      omega
    · have htake : xs.take (n + 1) = xs := List.take_of_length_le (by omega)
      rw [htake, List.take_of_length_le (by simp only [List.length_cons]; omega),
        List.take_of_length_le h]

/-- A test that the newer entries pass first counts the same in a window, up to its size. -/
theorem countP_take {p : α → Bool} {xs : List α} (hp : xs.Pairwise fun a b => p b → p a) (n : ℕ) :
    (xs.take n).countP p = min n (xs.countP p) := by
  induction xs generalizing n with
  | nil => simp
  | cons x xs ih =>
    obtain ⟨hx, hxs⟩ := List.pairwise_cons.mp hp
    cases n with
    | zero => simp
    | succ n =>
      rw [List.take_succ_cons]
      by_cases h : p x
      · rw [List.countP_cons_of_pos h, List.countP_cons_of_pos h, ih hxs]
        omega
      · have hnone : xs.countP p = 0 := List.countP_eq_zero.mpr fun y hy hpy => h (hx y hy hpy)
        rw [List.countP_cons_of_neg h, List.countP_cons_of_neg h, ih hxs, hnone]
        simp

theorem take_filter {p : α → Bool} {xs : List α} {n : ℕ} (h : ∀ x ∈ xs.take n, p x)
    (hn : n ≤ xs.length) : (xs.filter p).take n = xs.take n ∧ n ≤ (xs.filter p).length := by
  have hsplit : xs.filter p = xs.take n ++ (xs.drop n).filter p := by
    conv_lhs => rw [← List.take_append_drop n xs]
    rw [List.filter_append, List.filter_eq_self.mpr h]
  have hlen : (xs.take n).length = n := List.length_take_of_le hn
  rw [hsplit]
  refine ⟨List.take_left' hlen, ?_⟩
  rw [List.length_append, hlen]
  exact Nat.le_add_right _ _

end Window

end GenWatch

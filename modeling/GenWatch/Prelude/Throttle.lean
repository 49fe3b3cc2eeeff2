import Mathlib.Algebra.Order.Field.Rat
import Mathlib.Tactic.Linarith
import GenWatch.Prelude.Table

/-! # Throttled sends

A throttle keeps the time of the last send of each key and skips a key that was sent
less than a window ago. When its table grows past a bound it forgets the entries
older than a horizon, which is at least the window. So what it skips is decided by
the log of all sends, whatever it has forgotten.
-/

namespace GenWatch.Throttle

variable {κ : Type*} [DecidableEq κ]

/-- Times of the last sends, under their keys. -/
abbrev Sends (κ : Type*) := Table (Prod.fst : κ × ℚ → κ)

structure Policy where
  window : ℚ
  bound : ℕ
  horizon : ℚ
  window_pos : 0 < window
  window_le : window ≤ horizon

variable (p : Policy)

namespace Policy

/-- Forget the entries past the horizon, if the table has grown past its bound. -/
def trim (sends : Sends κ) (now : ℚ) : Sends κ :=
  if p.bound < sends.rows.length then
    sends.deleteWhere fun e => !decide (now - p.horizon < e.2)
  else sends

/-- Whether the key was sent inside the window; a miss records the time. -/
def skip (sends : Sends κ) (key : κ) (now : ℚ) : Bool × Sends κ :=
  match (p.trim sends now).find? key with
  | some last =>
    if now - last.2 < p.window then (true, p.trim sends now)
    else (false, (p.trim sends now).insertReplace (key, now))
  | none => (false, (p.trim sends now).insertReplace (key, now))

end Policy

/-- The table stands for the log of all sends, oldest first. -/
structure Tracks (sends : Sends κ) (log : List (κ × ℚ)) (clock : ℚ) : Prop where
  stored : ∀ e ∈ sends.rows, (log.filter fun x => x.1 = e.1).getLast? = some e
  kept : ∀ e ∈ log, clock - e.2 < p.horizon → e.1 ∈ sends.keys
  past : ∀ e ∈ log, e.2 ≤ clock
  spaced : log.Pairwise fun a b => a.1 = b.1 → a.2 + p.window ≤ b.2

variable {p} {sends : Sends κ} {log : List (κ × ℚ)} {clock now : ℚ} {key : κ}

theorem tracks_empty : Tracks p (∅ : Sends κ) [] clock :=
  ⟨by simp, by simp, by simp, List.Pairwise.nil⟩

theorem Tracks.mono (h : Tracks p sends log clock) (hnow : clock ≤ now) : Tracks p sends log now :=
  ⟨h.stored, fun e he hyoung => h.kept e he (by linarith), fun e he => (h.past e he).trans hnow,
    h.spaced⟩

theorem Tracks.mem (h : Tracks p sends log clock) {e : κ × ℚ} (he : e ∈ sends.rows) : e ∈ log :=
  List.mem_of_mem_filter (List.mem_of_getLast? (h.stored e he))

theorem Tracks.le_stored (h : Tracks p sends log clock) {e x : κ × ℚ} (he : e ∈ sends.rows)
    (hx : x ∈ log) (hk : x.1 = e.1) : x.2 ≤ e.2 := by
  obtain ⟨init, hinit⟩ := List.getLast?_eq_some_iff.mp (h.stored e he)
  have hmem : x ∈ init ++ [e] := hinit ▸ List.mem_filter.mpr ⟨hx, by simpa using hk⟩
  rcases List.mem_append.mp hmem with hx | hx
  · have hpair : (init ++ [e]).Pairwise fun a b => a.1 = b.1 → a.2 + p.window ≤ b.2 :=
      hinit ▸ h.spaced.sublist List.filter_sublist
    have hle := (List.pairwise_append.mp hpair).2.2 x hx e (List.mem_singleton_self e) hk
    linarith [p.window_pos]
  · rw [List.mem_singleton.mp hx]

theorem Tracks.trim (h : Tracks p sends log clock) (hnow : clock ≤ now) :
    Tracks p (p.trim sends now) log now := by
  have hmono := h.mono hnow
  unfold Policy.trim
  split
  · refine ⟨fun e he => h.stored e (Table.mem_deleteWhere.mp he).1, fun e he hyoung => ?_,
      hmono.past, h.spaced⟩
    obtain ⟨x, hx, hk⟩ := Table.mem_keys.mp (hmono.kept e he hyoung)
    refine Table.mem_keys.mpr ⟨x, Table.mem_deleteWhere.mpr ⟨hx, ?_⟩, hk⟩
    have hle := h.le_stored hx he hk.symm
    simp only [Bool.not_eq_false', decide_eq_true_eq]
    linarith
  · exact hmono

/-- A key is skipped exactly when the log has a send of it inside the window. -/
theorem Tracks.skip_iff (h : Tracks p sends log clock) (hnow : clock ≤ now) :
    (p.skip sends key now).1 = true ↔ ∃ e ∈ log, e.1 = key ∧ now - e.2 < p.window := by
  have ht := h.trim hnow
  have hyoung : ∀ e ∈ log, now - e.2 < p.window → e.1 ∈ (p.trim sends now).keys :=
    fun e he hin => ht.kept e he (hin.trans_le p.window_le)
  unfold Policy.skip
  cases hf : (p.trim sends now).find? key with
  | none =>
    refine iff_of_false (by simp) ?_
    rintro ⟨e, he, rfl, hin⟩
    exact Table.find?_eq_none.mp hf (hyoung e he hin)
  | some last =>
    obtain ⟨hlast, rfl⟩ := Table.find?_eq_some.mp hf
    have hle : ∀ e ∈ log, e.1 = last.1 → e.2 ≤ last.2 := fun e he hk => ht.le_stored hlast he hk
    by_cases hin : now - last.2 < p.window
    · simp only [if_pos hin, true_iff]
      exact ⟨last, ht.mem hlast, rfl, hin⟩
    · simp only [if_neg hin, Bool.false_eq_true, false_iff]
      rintro ⟨e, he, hk, hine⟩
      have := hle e he hk
      exact hin (by linarith)

theorem Tracks.skip_of_hit (h : Tracks p sends log clock) (hnow : clock ≤ now)
    (hskip : (p.skip sends key now).1 = true) : Tracks p (p.skip sends key now).2 log now := by
  have ht := h.trim hnow
  unfold Policy.skip at hskip ⊢
  cases hf : (p.trim sends now).find? key with
  | none =>
    rw [hf] at hskip
    cases hskip
  | some last =>
    rw [hf] at hskip
    by_cases hin : now - last.2 < p.window
    · simpa only [if_pos hin] using ht
    · simp only [if_neg hin] at hskip
      cases hskip

theorem Tracks.skip_of_miss (h : Tracks p sends log clock) (hnow : clock ≤ now)
    (hskip : (p.skip sends key now).1 = false) :
    Tracks p (p.skip sends key now).2 (log ++ [(key, now)]) now := by
  have ht := h.trim hnow
  have hspace : ∀ e ∈ log, e.1 = key → e.2 + p.window ≤ now := by
    intro e he hk
    by_contra hlt
    have hhit : (p.skip sends key now).1 = true :=
      (h.skip_iff hnow).mpr ⟨e, he, hk, by linarith⟩
    rw [hhit] at hskip
    cases hskip
  have hstate : (p.skip sends key now).2 = (p.trim sends now).insertReplace (key, now) := by
    unfold Policy.skip at hskip ⊢
    cases hf : (p.trim sends now).find? key with
    | none => rfl
    | some last =>
      rw [hf] at hskip
      by_cases hin : now - last.2 < p.window
      · simp only [if_pos hin] at hskip
        cases hskip
      · simp only [if_neg hin]
  rw [hstate]
  constructor
  · intro e he
    rcases Table.mem_insertReplace.mp he with rfl | ⟨he, hne⟩
    · simp
    · rw [List.filter_append, List.filter_cons_of_neg (by simpa using Ne.symm hne),
        List.filter_nil, List.append_nil]
      exact ht.stored e he
  · intro e he hyoung
    rw [Table.mem_keys_insertReplace]
    rcases List.mem_append.mp he with he | he
    · exact Or.inl (ht.kept e he hyoung)
    · exact Or.inr (congrArg Prod.fst (List.mem_singleton.mp he))
  · intro e he
    rcases List.mem_append.mp he with he | he
    · exact ht.past e he
    · rw [List.mem_singleton.mp he]
  · refine List.pairwise_append.mpr ⟨ht.spaced, List.pairwise_singleton _ _, ?_⟩
    intro a ha b hb hk
    obtain rfl := List.mem_singleton.mp hb
    exact hspace a ha hk

end GenWatch.Throttle

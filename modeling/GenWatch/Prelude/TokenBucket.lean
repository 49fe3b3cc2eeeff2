import Mathlib.Algebra.Order.Field.Basic
import Mathlib.Tactic.Linarith
import Mathlib.Tactic.Positivity
import Mathlib.Tactic.Ring

/-! # Token buckets

A bucket holds up to a capacity of tokens and is refilled at a constant rate, lazily:
it keeps its level and the time of the last take. A take succeeds if a whole token is
there. Whatever the times of the takes, no window of time has more successes than the
capacity and what is refilled over the window.
-/

namespace GenWatch.TokenBucket

variable {K : Type*} [Field K] [LinearOrder K]

structure Policy (K : Type*) where
  capacity : K
  refill : K

structure Bucket (K : Type*) where
  tokens : K
  last : K

namespace Policy

variable (p : Policy K)

def level (b : Bucket K) (now : K) : K := min p.capacity (b.tokens + (now - b.last) * p.refill)

/-- A take from a bucket; one that has not been used is full. -/
def take (b : Option (Bucket K)) (now : K) : Bool × Bucket K :=
  match b with
  | none => (true, ⟨p.capacity - 1, now⟩)
  | some b =>
    if 1 ≤ p.level b now then (true, ⟨p.level b now - 1, now⟩) else (false, ⟨p.level b now, now⟩)

/-- The takes at some times, each with its outcome. -/
def takes (b : Option (Bucket K)) : List K → List (K × Bool)
  | [] => []
  | now :: rest => (now, (p.take b now).1) :: takes (some (p.take b now).2) rest

/-- The bucket that takes at some times leave. -/
def after (b : Option (Bucket K)) (times : List K) : Option (Bucket K) :=
  times.foldl (fun b now => some (p.take b now).2) b

end Policy

def granted (start stop : K) (log : List (K × Bool)) : ℕ :=
  log.countP fun v => start ≤ v.1 ∧ v.1 ≤ stop ∧ v.2 = true

section Level

variable {p : Policy K} {b : Bucket K} {now : K}

theorem level_le_capacity : p.level b now ≤ p.capacity := min_le_left _ _

theorem level_le : p.level b now ≤ b.tokens + (now - b.last) * p.refill := min_le_right _ _

variable (p) in
theorem take_last (b : Option (Bucket K)) (now : K) : (p.take b now).2.last = now := by
  unfold Policy.take
  split
  · rfl
  · split <;> rfl

theorem take_some_iff : (p.take (some b) now).1 = true ↔ 1 ≤ p.level b now := by
  unfold Policy.take
  by_cases h : 1 ≤ p.level b now <;> simp [h]

theorem take_refused {b : Option (Bucket K)} (h : (p.take b now).1 = false) :
    ∃ b₀, b = some b₀ ∧ p.level b₀ now < 1 ∧ (p.take b now).2 = ⟨p.level b₀ now, now⟩ := by
  cases b with
  | none => cases h
  | some b₀ =>
    have hlt : ¬1 ≤ p.level b₀ now := by
      intro hle
      rw [take_some_iff.mpr hle] at h
      cases h
    exact ⟨b₀, rfl, not_le.mp hlt, by simp [Policy.take, hlt]⟩

variable (p) in
theorem tokens_take (b : Bucket K) (now : K) :
    (p.take (some b) now).2.tokens + (if (p.take (some b) now).1 = true then 1 else 0) =
      p.level b now := by
  unfold Policy.take
  by_cases h : 1 ≤ p.level b now <;> simp [h]

theorem take_none (hcap : 1 ≤ p.capacity) (now : K) :
    p.take none now = p.take (some ⟨p.capacity, now⟩) now := by
  have hfull : p.level ⟨p.capacity, now⟩ now = p.capacity := by simp [Policy.level]
  simp [Policy.take, hfull, hcap]

def Holds (p : Policy K) (b : Bucket K) : Prop := 0 ≤ b.tokens ∧ b.tokens ≤ p.capacity

variable [IsStrictOrderedRing K]

theorem level_nonneg (hcap : 1 ≤ p.capacity) (hrefill : 0 ≤ p.refill) (hb : Holds p b)
    (hnow : b.last ≤ now) : 0 ≤ p.level b now := by
  have hgain : 0 ≤ (now - b.last) * p.refill := mul_nonneg (sub_nonneg.mpr hnow) hrefill
  exact le_min (zero_le_one.trans hcap) (add_nonneg hb.1 hgain)

theorem holds_take (hcap : 1 ≤ p.capacity) (hrefill : 0 ≤ p.refill) {b : Option (Bucket K)}
    (hb : ∀ b₀ ∈ b, Holds p b₀ ∧ b₀.last ≤ now) : Holds p (p.take b now).2 := by
  cases b with
  | none => exact ⟨by simp [Policy.take, hcap], by simp [Policy.take]⟩
  | some b₀ =>
    obtain ⟨hholds, hlast⟩ := hb b₀ rfl
    have hlevel := level_nonneg hcap hrefill hholds hlast
    have hle : p.level b₀ now ≤ p.capacity := level_le_capacity
    unfold Policy.take Holds
    by_cases h : 1 ≤ p.level b₀ now
    · simp only [h, if_true]
      constructor <;> linarith
    · simp only [h, if_false]
      exact ⟨hlevel, hle⟩

theorem holds_after (hcap : 1 ≤ p.capacity) (hrefill : 0 ≤ p.refill) {b : Option (Bucket K)}
    {times : List K} (hsorted : times.Pairwise (· ≤ ·))
    (hb : ∀ b₀ ∈ b, Holds p b₀ ∧ ∀ now ∈ times, b₀.last ≤ now) :
    ∀ b₁ ∈ p.after b times, Holds p b₁ := by
  induction times generalizing b with
  | nil => exact fun b₁ hb₁ => (hb b₁ hb₁).1
  | cons now rest ih =>
    obtain ⟨hfirst, hrest⟩ := List.pairwise_cons.mp hsorted
    refine ih hrest ?_
    rintro b₁ hb₁
    obtain rfl := Option.some.inj hb₁
    constructor
    · apply holds_take hcap hrefill
      intro b₀ hb₀
      exact ⟨(hb b₀ hb₀).1, (hb b₀ hb₀).2 now List.mem_cons_self⟩
    · rw [take_last]
      exact hfirst

end Level

section Window

variable {p : Policy K} {b : Bucket K} {times : List K} {start stop : K}

omit [Field K] in
theorem granted_cons (v : K × Bool) (log : List (K × Bool)) :
    granted start stop (v :: log) =
      granted start stop log + if start ≤ v.1 ∧ v.1 ≤ stop ∧ v.2 = true then 1 else 0 := by
  simp [granted, List.countP_cons]

theorem granted_of_after {b : Option (Bucket K)} (h : ∀ now ∈ times, stop < now) :
    granted start stop (p.takes b times) = 0 := by
  induction times generalizing b with
  | nil => rfl
  | cons now rest ih =>
    obtain ⟨hnow, hrest⟩ := List.forall_mem_cons.mp h
    rw [Policy.takes, granted_cons, ih hrest, if_neg]
    rintro ⟨-, hle, -⟩
    exact absurd hle (not_le.mpr hnow)

variable [IsStrictOrderedRing K]

theorem granted_le_of_within (hcap : 1 ≤ p.capacity) (hrefill : 0 ≤ p.refill)
    (hsorted : times.Pairwise (· ≤ ·)) (hholds : Holds p b) (hlast : ∀ now ∈ times, b.last ≤ now)
    (hstop : b.last ≤ stop) :
    (granted start stop (p.takes (some b) times) : K) ≤
      b.tokens + (stop - b.last) * p.refill := by
  induction times generalizing b with
  | nil =>
    have hgain : 0 ≤ (stop - b.last) * p.refill := mul_nonneg (sub_nonneg.mpr hstop) hrefill
    simpa [Policy.takes, granted] using add_nonneg hholds.1 hgain
  | cons now rest ih =>
    obtain ⟨hfirst, hrest⟩ := List.pairwise_cons.mp hsorted
    have hnow := hlast now List.mem_cons_self
    rcases lt_or_ge stop now with hafter | hin
    · have hall : ∀ t ∈ now :: rest, stop < t :=
        List.forall_mem_cons.mpr ⟨hafter, fun t ht => hafter.trans_le (hfirst t ht)⟩
      have hgain : 0 ≤ (stop - b.last) * p.refill := mul_nonneg (sub_nonneg.mpr hstop) hrefill
      rw [granted_of_after hall, Nat.cast_zero]
      exact add_nonneg hholds.1 hgain
    · have htaken : Holds p (p.take (some b) now).2 :=
        holds_take hcap hrefill fun b₀ hb₀ => Option.some.inj hb₀ ▸ ⟨hholds, hnow⟩
      have hused := take_last p (some b) now
      have hle := ih hrest htaken (by rwa [hused]) (by rwa [hused])
      have htokens := tokens_take p b now
      have hlevel : p.level b now ≤ b.tokens + (now - b.last) * p.refill := level_le
      rw [hused] at hle
      rw [Policy.takes, granted_cons]
      by_cases hok : (p.take (some b) now).1 = true
      · rw [if_pos hok] at htokens
        split <;> push_cast <;> nlinarith
      · rw [if_neg hok] at htokens
        rw [if_neg fun h => hok h.2.2]
        push_cast
        nlinarith

/-- No window has more successful takes than the capacity and what is refilled over it. -/
theorem granted_le (hcap : 1 ≤ p.capacity) (hrefill : 0 ≤ p.refill)
    (hsorted : times.Pairwise (· ≤ ·)) (hholds : Holds p b) (hlast : ∀ now ∈ times, b.last ≤ now)
    (hwindow : start ≤ stop) :
    (granted start stop (p.takes (some b) times) : K) ≤
      p.capacity + p.refill * (stop - start) := by
  have hgain : 0 ≤ p.refill * (stop - start) := mul_nonneg hrefill (sub_nonneg.mpr hwindow)
  have hempty : (0 : K) ≤ p.capacity + p.refill * (stop - start) := by linarith
  induction times generalizing b with
  | nil => simpa [Policy.takes, granted] using hempty
  | cons now rest ih =>
    obtain ⟨hfirst, hrest⟩ := List.pairwise_cons.mp hsorted
    have hnow := hlast now List.mem_cons_self
    have htaken : Holds p (p.take (some b) now).2 :=
      holds_take hcap hrefill fun b₀ hb₀ => Option.some.inj hb₀ ▸ ⟨hholds, hnow⟩
    have hused := take_last p (some b) now
    rw [Policy.takes, granted_cons]
    rcases lt_or_ge now start with hbefore | hin
    · rw [if_neg fun h => absurd h.1 (not_le.mpr hbefore), Nat.add_zero]
      exact ih hrest htaken (by rwa [hused])
    rcases lt_or_ge stop now with hafter | hstop
    · rw [if_neg fun h => absurd h.2.1 (not_le.mpr hafter), Nat.add_zero,
        granted_of_after fun t ht => hafter.trans_le (hfirst t ht), Nat.cast_zero]
      exact hempty
    · have hle : (granted start stop (p.takes (some (p.take (some b) now).2) rest) : K) ≤ _ :=
        granted_le_of_within hcap hrefill hrest htaken (by rwa [hused]) (by rwa [hused])
      have htokens := tokens_take p b now
      have hlevel : p.level b now ≤ p.capacity := level_le_capacity
      rw [hused] at hle
      by_cases hok : (p.take (some b) now).1 = true
      · rw [if_pos hok] at htokens
        split <;> push_cast <;> nlinarith
      · rw [if_neg hok] at htokens
        rw [if_neg fun h => hok h.2.2]
        push_cast
        nlinarith

theorem granted_le_of_unused (hcap : 1 ≤ p.capacity) (hrefill : 0 ≤ p.refill)
    (hsorted : times.Pairwise (· ≤ ·)) (hwindow : start ≤ stop) :
    (granted start stop (p.takes none times) : K) ≤
      p.capacity + p.refill * (stop - start) := by
  cases times with
  | nil =>
    have hgain : 0 ≤ p.refill * (stop - start) := mul_nonneg hrefill (sub_nonneg.mpr hwindow)
    simp only [Policy.takes, granted, List.countP_nil, Nat.cast_zero]
    linarith
  | cons now rest =>
    have hfirst := (List.pairwise_cons.mp hsorted).1
    have hsame : p.takes none (now :: rest) = p.takes (some ⟨p.capacity, now⟩) (now :: rest) := by
      simp only [Policy.takes, take_none hcap]
    rw [hsame]
    refine granted_le hcap hrefill hsorted ⟨zero_le_one.trans hcap, le_rfl⟩ ?_ hwindow
    exact List.forall_mem_cons.mpr ⟨le_rfl, hfirst⟩

end Window

/-! ### Buckets that are forgotten

A successful take may have the bucket forgotten, so that the next one finds it full. A window has
then another capacity of successes for each time that this happened in it. -/

namespace Policy

variable (p : Policy K)

/-- The tokens that a take at a time would find. -/
def found (b : Option (Bucket K)) (now : K) : K :=
  match b with
  | none => p.capacity
  | some b => p.level b now

/-- A take; if it succeeds, the bucket may be forgotten. -/
def use (b : Option (Bucket K)) (now : K) (forget : Bool) : Bool × Option (Bucket K) :=
  let r := p.take b now
  (r.1, if r.1 = true ∧ forget = true then none else some r.2)

def afterUses (b : Option (Bucket K)) (calls : List (K × Bool)) : Option (Bucket K) :=
  calls.foldl (fun b c => (p.use b c.1 c.2).2) b

/-- The successful uses, each with its time and with what became of the bucket. -/
def uses (b : Option (Bucket K)) : List (K × Bool) → List (K × Bool)
  | [] => []
  | c :: rest =>
    (if (p.use b c.1 c.2).1 = true then [c] else []) ++ uses (p.use b c.1 c.2).2 rest

end Policy

/-- The successful uses of a window of time. -/
def usedIn (start stop : K) (log : List (K × Bool)) : ℕ :=
  log.countP fun v => start ≤ v.1 ∧ v.1 ≤ stop

/-- Those after which the bucket was forgotten. -/
def forgottenIn (start stop : K) (log : List (K × Bool)) : ℕ :=
  log.countP fun v => start ≤ v.1 ∧ v.1 ≤ stop ∧ v.2 = true

section Forgetting

variable {p : Policy K} {b : Option (Bucket K)} {calls : List (K × Bool)} {start stop now t : K}

theorem afterUses_append (rest : List (K × Bool)) :
    p.afterUses b (calls ++ rest) = p.afterUses (p.afterUses b calls) rest :=
  List.foldl_append

theorem uses_append (rest : List (K × Bool)) :
    p.uses b (calls ++ rest) = p.uses b calls ++ p.uses (p.afterUses b calls) rest := by
  induction calls generalizing b with
  | nil => rfl
  | cons c calls ih =>
    rw [List.cons_append, Policy.uses, Policy.uses, ih, List.append_assoc]
    rfl

theorem mem_of_mem_uses {v : K × Bool} (hv : v ∈ p.uses b calls) : v ∈ calls := by
  induction calls generalizing b with
  | nil => cases hv
  | cons c calls ih =>
    rw [Policy.uses] at hv
    rcases List.mem_append.mp hv with hv | hv
    · split at hv
      · rw [List.mem_singleton.mp hv]
        exact List.mem_cons_self
      · cases hv
    · exact List.mem_cons_of_mem _ (ih hv)

omit [Field K] in
theorem usedIn_append (log log' : List (K × Bool)) :
    usedIn start stop (log ++ log') = usedIn start stop log + usedIn start stop log' :=
  List.countP_append

omit [Field K] in
theorem forgottenIn_append (log log' : List (K × Bool)) :
    forgottenIn start stop (log ++ log') =
      forgottenIn start stop log + forgottenIn start stop log' :=
  List.countP_append

theorem found_le_capacity : p.found b now ≤ p.capacity := by
  cases b with
  | none => exact le_rfl
  | some b => exact level_le_capacity

theorem found_of_refused (h : (p.take b now).1 = false) :
    p.found (some (p.take b now).2) now = p.found b now := by
  obtain ⟨b₀, rfl, -, htake⟩ := take_refused h
  have hle : p.level b₀ now ≤ p.capacity := level_le_capacity
  rw [htake, Policy.found, Policy.found, Policy.level]
  simp [hle]

variable [IsStrictOrderedRing K]

theorem found_of_taken (hcap : 1 ≤ p.capacity) (h : (p.take b now).1 = true) :
    1 ≤ p.found b now ∧ p.found (some (p.take b now).2) now = p.found b now - 1 := by
  have hfull : ∀ x, x ≤ p.capacity → p.level ⟨x - 1, now⟩ now = x - 1 := by
    intro x hx
    have hle : x - 1 ≤ p.capacity := by linarith
    simp [Policy.level, hle]
  cases b with
  | none =>
    refine ⟨hcap, ?_⟩
    simpa [Policy.found, Policy.take] using hfull p.capacity le_rfl
  | some b =>
    have hone := take_some_iff.mp h
    refine ⟨hone, ?_⟩
    have htake : (p.take (some b) now).2 = ⟨p.level b now - 1, now⟩ := by
      simp [Policy.take, hone]
    rw [htake]
    exact hfull _ level_le_capacity

theorem found_later (hrefill : 0 ≤ p.refill) (ht : t ≤ now) :
    p.found b t ≤ p.found b now ∧ p.found b now ≤ p.found b t + (now - t) * p.refill := by
  have hgain : 0 ≤ (now - t) * p.refill := mul_nonneg (sub_nonneg.mpr ht) hrefill
  cases b with
  | none => exact ⟨le_rfl, by simpa [Policy.found] using hgain⟩
  | some b =>
    simp only [Policy.found, Policy.level]
    have hsplit : b.tokens + (now - b.last) * p.refill =
        b.tokens + (t - b.last) * p.refill + (now - t) * p.refill := by ring
    rw [hsplit]
    constructor
    · exact min_le_min le_rfl (by linarith)
    · rw [← min_add_add_right]
      exact min_le_min (by linarith) le_rfl

theorem found_use_nonneg (hcap : 1 ≤ p.capacity) (hnonneg : 0 ≤ p.found b now) (forget : Bool) :
    0 ≤ p.found (p.use b now forget).2 now := by
  cases hok : (p.take b now).1 with
  | true =>
    obtain ⟨hone, hleft⟩ := found_of_taken hcap hok
    cases forget with
    | true =>
      have hgone : (p.use b now true).2 = none := by simp [Policy.use, hok]
      rw [hgone]
      exact zero_le_one.trans hcap
    | false =>
      have hkept : (p.use b now false).2 = some (p.take b now).2 := by simp [Policy.use]
      rw [hkept, hleft]
      linarith
  | false =>
    have hkept : (p.use b now forget).2 = some (p.take b now).2 := by simp [Policy.use, hok]
    rw [hkept, found_of_refused hok]
    exact hnonneg

theorem use_balance (hcap : 1 ≤ p.capacity) (hwindow : start ≤ now ∧ now ≤ stop) (forget : Bool) :
    (usedIn start stop (if (p.use b now forget).1 = true then [(now, forget)] else []) : K) +
        p.found (p.use b now forget).2 now ≤
      p.found b now + p.capacity *
        forgottenIn start stop (if (p.use b now forget).1 = true then [(now, forget)] else []) := by
  cases hok : (p.take b now).1 with
  | true =>
    obtain ⟨hone, hleft⟩ := found_of_taken hcap hok
    have huse : (p.use b now forget).1 = true := hok
    have hused : usedIn start stop [(now, forget)] = 1 := by simp [usedIn, hwindow]
    rw [if_pos huse, hused]
    cases forget with
    | true =>
      have hgone : (p.use b now true).2 = none := by simp [Policy.use, hok]
      have hforgotten : forgottenIn start stop [(now, true)] = 1 := by
        simp [forgottenIn, hwindow]
      have hfull : p.found none now = p.capacity := rfl
      rw [hgone, hforgotten, hfull]
      push_cast
      linarith
    | false =>
      have hkept : (p.use b now false).2 = some (p.take b now).2 := by simp [Policy.use]
      have hforgotten : forgottenIn start stop [(now, false)] = 0 := by simp [forgottenIn]
      rw [hkept, hforgotten, hleft]
      push_cast
      linarith
  | false =>
    have hkept : (p.use b now forget).2 = some (p.take b now).2 := by simp [Policy.use, hok]
    have huse : ¬(p.use b now forget).1 = true := by simp [Policy.use, hok]
    rw [if_neg huse, hkept, found_of_refused hok]
    simp [usedIn, forgottenIn]

omit [IsStrictOrderedRing K] in
theorem usedIn_of_after (h : ∀ c ∈ calls, stop < c.1) : usedIn start stop (p.uses b calls) = 0 := by
  rw [usedIn, List.countP_eq_zero]
  intro v hv hin
  exact absurd (of_decide_eq_true hin).2 (not_le.mpr (h v (mem_of_mem_uses hv)))

theorem capacity_mul_forgottenIn_nonneg (hcap : 1 ≤ p.capacity) (start stop : K)
    (log : List (K × Bool)) :
    0 ≤ p.capacity * (forgottenIn start stop log : K) :=
  mul_nonneg (zero_le_one.trans hcap) (Nat.cast_nonneg _)

theorem usedIn_le_of_within (hcap : 1 ≤ p.capacity) (hrefill : 0 ≤ p.refill)
    (hsorted : (calls.map Prod.fst).Pairwise (· ≤ ·)) (hfirst : ∀ c ∈ calls, t ≤ c.1)
    (hnonneg : 0 ≤ p.found b t) (hstart : start ≤ t) (hstop : t ≤ stop) :
    (usedIn start stop (p.uses b calls) : K) ≤
      p.found b t + (stop - t) * p.refill +
        p.capacity * forgottenIn start stop (p.uses b calls) := by
  have hgain : 0 ≤ (stop - t) * p.refill := mul_nonneg (sub_nonneg.mpr hstop) hrefill
  induction calls generalizing b t with
  | nil => simpa [Policy.uses, usedIn, forgottenIn] using add_nonneg hnonneg hgain
  | cons c calls ih =>
    obtain ⟨now, forget⟩ := c
    obtain ⟨hlater, hrest⟩ := List.pairwise_cons.mp hsorted
    have hlater' : ∀ c ∈ calls, now ≤ c.1 := fun c hc => hlater _ (List.mem_map_of_mem hc)
    have hnow : t ≤ now := hfirst _ List.mem_cons_self
    rcases lt_or_ge stop now with hafter | hin
    · have hall : ∀ c ∈ (now, forget) :: calls, stop < c.1 :=
        List.forall_mem_cons.mpr ⟨hafter, fun c hc => hafter.trans_le (hlater' c hc)⟩
      rw [usedIn_of_after hall, Nat.cast_zero]
      have := capacity_mul_forgottenIn_nonneg hcap start stop
        (p.uses b ((now, forget) :: calls))
      linarith
    · obtain ⟨hkeeps, hgains⟩ := found_later (b := b) hrefill hnow
      have hnext := found_use_nonneg hcap (hnonneg.trans hkeeps) forget
      have hleft : 0 ≤ (stop - now) * p.refill := mul_nonneg (sub_nonneg.mpr hin) hrefill
      have hle := ih hrest hlater' hnext (hstart.trans hnow) hin hleft
      have hbalance := use_balance (b := b) hcap ⟨hstart.trans hnow, hin⟩ forget
      have hsplit : (stop - t) * p.refill = (stop - now) * p.refill + (now - t) * p.refill := by
        ring
      rw [Policy.uses, usedIn_append, forgottenIn_append]
      push_cast
      rw [mul_add]
      linarith

/-- No window has more successful uses than the capacity, what is refilled over it, and another
capacity for each time that the bucket was forgotten in it. -/
theorem usedIn_le (hcap : 1 ≤ p.capacity) (hrefill : 0 ≤ p.refill)
    (hsorted : (calls.map Prod.fst).Pairwise (· ≤ ·)) (hfirst : ∀ c ∈ calls, t ≤ c.1)
    (hnonneg : 0 ≤ p.found b t) (hwindow : start ≤ stop) :
    (usedIn start stop (p.uses b calls) : K) ≤
      p.capacity * (1 + forgottenIn start stop (p.uses b calls)) + p.refill * (stop - start) := by
  have hgain : 0 ≤ p.refill * (stop - start) := mul_nonneg hrefill (sub_nonneg.mpr hwindow)
  induction calls generalizing b t with
  | nil =>
    simp only [Policy.uses, usedIn, forgottenIn, List.countP_nil, Nat.cast_zero]
    linarith
  | cons c calls ih =>
    obtain ⟨now, forget⟩ := c
    obtain ⟨hlater, hrest⟩ := List.pairwise_cons.mp hsorted
    have hlater' : ∀ c ∈ calls, now ≤ c.1 := fun c hc => hlater _ (List.mem_map_of_mem hc)
    have hkeeps := (found_later (b := b) hrefill (hfirst _ List.mem_cons_self)).1
    rcases lt_or_ge now start with hbefore | hin
    · have hnext := found_use_nonneg hcap (hnonneg.trans hkeeps) forget
      have hnotin : ∀ v ∈ if (p.use b now forget).1 = true then [(now, forget)] else [],
          ¬start ≤ v.1 := by
        intro v hv
        split at hv
        · rw [List.mem_singleton.mp hv]
          exact not_le.mpr hbefore
        · cases hv
      have hused : usedIn start stop
          (if (p.use b now forget).1 = true then [(now, forget)] else []) = 0 := by
        rw [usedIn, List.countP_eq_zero]
        exact fun v hv hin => hnotin v hv (of_decide_eq_true hin).1
      have hforgotten : forgottenIn start stop
          (if (p.use b now forget).1 = true then [(now, forget)] else []) = 0 := by
        rw [forgottenIn, List.countP_eq_zero]
        exact fun v hv hin => hnotin v hv (of_decide_eq_true hin).1
      rw [Policy.uses, usedIn_append, forgottenIn_append, hused, hforgotten, Nat.zero_add,
        Nat.zero_add]
      exact ih hrest hlater' hnext
    · rcases lt_or_ge stop now with hafter | hstop
      · have hall : ∀ c ∈ (now, forget) :: calls, stop < c.1 :=
          List.forall_mem_cons.mpr ⟨hafter, fun c hc => hafter.trans_le (hlater' c hc)⟩
        rw [usedIn_of_after hall, Nat.cast_zero, mul_add, mul_one]
        have := capacity_mul_forgottenIn_nonneg hcap start stop
          (p.uses b ((now, forget) :: calls))
        linarith
      · have hle := usedIn_le_of_within (b := b) (t := now) hcap hrefill hsorted
          (List.forall_mem_cons.mpr ⟨le_rfl, hlater'⟩) (hnonneg.trans hkeeps) hin hstop
        have hfull : p.found b now ≤ p.capacity := found_le_capacity
        have hshort : (stop - now) * p.refill ≤ p.refill * (stop - start) := by
          rw [mul_comm]
          exact mul_le_mul_of_nonneg_left (by linarith) hrefill
        linarith

end Forgetting

end GenWatch.TokenBucket

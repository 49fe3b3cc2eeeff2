import Mathlib.Data.Rat.Floor
import GenWatch.Prelude.TokenBucket
import GenWatch.Modbus.Registers

/-! # The rate limiter

Login attempts and transfer-switch commands are limited by a token bucket for each
client. A bucket comes into being with the first check of its key. A refused client is
told how many seconds to wait: the time until its bucket holds a token again, cut off to
whole seconds and at least one.
-/

namespace GenWatch

open TokenBucket

structure RateLimiter where
  capacity : ℚ
  refill : ℚ
  buckets : String → Option (Bucket ℚ)

namespace RateLimiter

def new (capacity refill : ℚ) : RateLimiter := ⟨capacity, refill, fun _ => none⟩

def login : RateLimiter := new 5 (1 / 180)

def command : RateLimiter := new 3 (1 / 5)

variable (l : RateLimiter)

def put (key : String) (b : Bucket ℚ) : RateLimiter :=
  { l with buckets := Function.update l.buckets key (some b) }

/-- Whether the key may go on; it pays with one token. -/
def check (key : String) (now : ℚ) : Bool × RateLimiter :=
  match l.buckets key with
  | none => (true, l.put key ⟨l.capacity - 1, now⟩)
  | some b =>
    let tokens := min l.capacity (b.tokens + (now - b.last) * l.refill)
    if 1 ≤ tokens then (true, l.put key ⟨tokens - 1, now⟩) else (false, l.put key ⟨tokens, now⟩)

/-- Whole seconds until the key may go on. -/
def retryAfterS (key : String) : ℤ :=
  match l.buckets key with
  | none => 0
  | some b =>
    if 1 ≤ b.tokens then 0 else max 1 (truncInt ((1 - b.tokens) / max l.refill (1 / 10 ^ 9)))

/-- The checks of some keys, each at its time, with their outcomes. -/
def checks (l : RateLimiter) : List (String × ℚ) → List (String × ℚ × Bool)
  | [] => []
  | (key, now) :: rest => (key, now, (l.check key now).1) :: checks (l.check key now).2 rest

def after (calls : List (String × ℚ)) : RateLimiter :=
  calls.foldl (fun l c => (l.check c.1 c.2).2) l

def timesOf (key : String) (calls : List (String × ℚ)) : List ℚ :=
  (calls.filter fun c => c.1 = key).map Prod.snd

/-- How often a key was let through between two times. -/
def passed (key : String) (start stop : ℚ) (log : List (String × ℚ × Bool)) : ℕ :=
  log.countP fun v => v.1 = key ∧ start ≤ v.2.1 ∧ v.2.1 ≤ stop ∧ v.2.2 = true

/-- What a check at that time finds missing of a whole token. -/
def deficit (key : String) (now : ℚ) : ℚ :=
  match l.buckets key with
  | none => 0
  | some b => 1 - min l.capacity (b.tokens + (now - b.last) * l.refill)

/-- What the answer to a refusal at a time is to be like: the key may go on once it has waited,
and it does not wait a whole second longer than it has to, one second apart. -/
structure RetryLaw (l : RateLimiter) (key : String) (refusedAt : ℚ) : Prop where
  sufficient : ∀ now, refusedAt + l.retryAfterS key ≤ now → (l.check key now).1 = true
  tight : l.retryAfterS key = 1 ∨ ∀ wait, 0 ≤ wait →
    (l.check key (refusedAt + wait)).1 = true → (l.retryAfterS key : ℚ) < wait + 1

/-! ### Each key has its own bucket -/

def policy : Policy ℚ := ⟨l.capacity, l.refill⟩

variable {l} {key : String} {now : ℚ} {calls : List (String × ℚ)}

theorem check_eq : l.check key now =
    ((l.policy.take (l.buckets key) now).1, l.put key (l.policy.take (l.buckets key) now).2) := by
  unfold check Policy.take
  cases l.buckets key with
  | none => rfl
  | some b =>
    have hlevel : min l.capacity (b.tokens + (now - b.last) * l.refill) = l.policy.level b now :=
      rfl
    by_cases h : 1 ≤ l.policy.level b now <;> simp [hlevel, h]

@[simp] theorem policy_check : (l.check key now).2.policy = l.policy := by
  rw [check_eq]
  rfl

theorem buckets_check (k : String) : (l.check key now).2.buckets k =
    if k = key then some (l.policy.take (l.buckets key) now).2 else l.buckets k := by
  rw [check_eq, put]
  simp [Function.update_apply]

theorem timesOf_cons (k : String) : timesOf k ((key, now) :: calls) =
    if key = k then now :: timesOf k calls else timesOf k calls := by
  by_cases h : key = k <;> simp [timesOf, h]

theorem filter_checks (l : RateLimiter) (k : String) (calls : List (String × ℚ)) :
    (l.checks calls).filter (fun v => v.1 = k) =
      (l.policy.takes (l.buckets k) (timesOf k calls)).map (k, ·) := by
  induction calls generalizing l with
  | nil => rfl
  | cons c rest ih =>
    obtain ⟨key, now⟩ := c
    rw [checks, timesOf_cons]
    by_cases h : key = k
    · subst h
      rw [List.filter_cons_of_pos (by simp), ih, policy_check, buckets_check, if_pos rfl,
        if_pos rfl, Policy.takes, List.map_cons, check_eq]
    · rw [List.filter_cons_of_neg (by simpa using h), ih, policy_check, buckets_check,
        if_neg (Ne.symm h), if_neg h]

theorem policy_after (l : RateLimiter) (calls : List (String × ℚ)) :
    (l.after calls).policy = l.policy := by
  induction calls generalizing l with
  | nil => rfl
  | cons c rest ih => exact (ih _).trans policy_check

theorem buckets_after (l : RateLimiter) (k : String) (calls : List (String × ℚ)) :
    (l.after calls).buckets k = l.policy.after (l.buckets k) (timesOf k calls) := by
  induction calls generalizing l with
  | nil => rfl
  | cons c rest ih =>
    obtain ⟨key, now⟩ := c
    have hrest : (l.after ((key, now) :: rest)).buckets k = _ := ih (l.check key now).2
    rw [hrest, policy_check, buckets_check, timesOf_cons]
    by_cases h : key = k
    · subst h
      rw [if_pos rfl, if_pos rfl]
      rfl
    · rw [if_neg (Ne.symm h), if_neg h]

theorem passed_eq_granted (l : RateLimiter) (k : String) (start stop : ℚ)
    (calls : List (String × ℚ)) :
    passed k start stop (l.checks calls) =
      granted start stop (l.policy.takes (l.buckets k) (timesOf k calls)) := by
  have hsplit : passed k start stop (l.checks calls) =
      ((l.checks calls).filter fun v => v.1 = k).countP
        fun v => start ≤ v.2.1 ∧ v.2.1 ≤ stop ∧ v.2.2 = true := by
    rw [passed, List.countP_filter]
    refine List.countP_congr fun v _ => ?_
    simp only [Bool.and_eq_true, decide_eq_true_eq]
    exact and_comm
  rw [hsplit, filter_checks, List.countP_map]
  rfl

theorem key_of_mem_checks (l : RateLimiter) {v : String × ℚ × Bool} (hv : v ∈ l.checks calls) :
    ∃ c ∈ calls, c.1 = v.1 := by
  induction calls generalizing l with
  | nil => cases hv
  | cons c rest ih =>
    rw [checks] at hv
    rcases List.mem_cons.mp hv with rfl | hv
    · exact ⟨c, List.mem_cons_self, rfl⟩
    · obtain ⟨c', hc', he⟩ := ih _ hv
      exact ⟨c', List.mem_cons_of_mem _ hc', he⟩

theorem pairwise_timesOf (k : String) (h : (calls.map Prod.snd).Pairwise (· ≤ ·)) :
    (timesOf k calls).Pairwise (· ≤ ·) :=
  h.sublist (List.filter_sublist.map Prod.snd)

/-- Whatever checks are made, at times that do not go back: in no window of time is a key let
through more often than the capacity and the refill over the window allow, its outcomes are those
of its own checks alone, and every bucket holds between no token and the capacity. -/
theorem token_bucket_bound {capacity refill : ℚ} (hcap : 1 ≤ capacity) (hrefill : 0 ≤ refill)
    (calls : List (String × ℚ)) (hsorted : (calls.map Prod.snd).Pairwise (· ≤ ·)) :
    (∀ key start T, 0 ≤ T →
      (passed key start (start + T) ((new capacity refill).checks calls) : ℚ) ≤
        capacity + refill * T) ∧
    (∀ key, ((new capacity refill).checks calls).filter (fun v => v.1 = key) =
      (new capacity refill).checks (calls.filter fun c => c.1 = key)) ∧
    ∀ key, ∀ b ∈ ((new capacity refill).after calls).buckets key,
      0 ≤ b.tokens ∧ b.tokens ≤ capacity := by
  refine ⟨fun key start T hT => ?_, fun key => ?_, fun key b hb => ?_⟩
  · rw [passed_eq_granted]
    have hle := granted_le_of_unused (p := ⟨capacity, refill⟩) hcap hrefill
      (pairwise_timesOf key hsorted) (le_add_of_nonneg_right hT : start ≤ start + T)
    rwa [add_sub_cancel_left] at hle
  · have hown : ((new capacity refill).checks (calls.filter fun c => c.1 = key)).filter
        (fun v => v.1 = key) = (new capacity refill).checks (calls.filter fun c => c.1 = key) := by
      rw [List.filter_eq_self]
      intro v hv
      obtain ⟨c, hc, he⟩ := key_of_mem_checks _ hv
      exact decide_eq_true (he.symm.trans (of_decide_eq_true (List.mem_filter.mp hc).2))
    rw [← hown, filter_checks, filter_checks]
    congr 2
    simp [timesOf]
  · rw [buckets_after] at hb
    exact holds_after (p := ⟨capacity, refill⟩) hcap hrefill (pairwise_timesOf key hsorted)
      (by simp [new]) b hb

/-- Three commands at once and a fourth one that is refused, of two operators. -/
theorem burst_of_commands :
    (passed "ann" 0 (0 + 1)
      (command.checks [("ann", 0), ("ann", 0), ("bob", 0), ("ann", 0), ("ann", 1)]) : ℚ) ≤
        3 + 1 / 5 * 1 :=
  (token_bucket_bound (by norm_num) (by norm_num)
    [("ann", 0), ("ann", 0), ("bob", 0), ("ann", 0), ("ann", 1)] (by decide)).1 "ann" 0 1
    (by norm_num)

/-! ### The answer to a refusal -/

section Retry

variable {t : ℚ}

theorem bucket_of_refused (h : (l.check key t).1 = false) :
    0 < l.deficit key t ∧ (l.check key t).2.buckets key = some ⟨1 - l.deficit key t, t⟩ := by
  rw [check_eq] at h
  obtain ⟨b, hb, hlevel, htake⟩ := take_refused h
  have hdeficit : l.deficit key t = 1 - l.policy.level b t := by
    simp [deficit, hb, Policy.level, policy]
  rw [buckets_check, if_pos rfl, htake, hdeficit, sub_sub_cancel]
  exact ⟨sub_pos.mpr hlevel, rfl⟩

theorem check_iff {d : ℚ} (hb : l.buckets key = some ⟨1 - d, t⟩) :
    (l.check key now).1 = true ↔ 1 ≤ l.capacity ∧ d ≤ (now - t) * l.refill := by
  rw [check_eq, hb, take_some_iff, Policy.level, le_min_iff]
  refine and_congr_right fun _ => ?_
  constructor
  · intro h
    simp only [policy] at h
    linarith
  · intro h
    simp only [policy]
    linarith

theorem retryAfterS_eq {d : ℚ} (hd : 0 < d) (hb : l.buckets key = some ⟨1 - d, t⟩) :
    l.retryAfterS key = max 1 ⌊d / max l.refill (1 / 10 ^ 9)⌋ := by
  have hlt : ¬1 ≤ 1 - d := by linarith
  have hnonneg : 0 ≤ d / max l.refill (1 / 10 ^ 9) := by positivity
  simp only [retryAfterS, hb, if_neg hlt, sub_sub_cancel]
  rw [truncInt_of_nonneg hnonneg]

theorem deficit_le_iff {d refill : ℚ} (hd : 0 < d) (hrefill : 0 < refill) :
    d ≤ (max 1 ⌊d / max refill (1 / 10 ^ 9)⌋ : ℤ) * refill ↔
      d ≤ refill ∨ 1 / 10 ^ 9 ≤ refill ∧ ∃ n : ℤ, d = n * refill := by
  have hrate : 0 < max refill (1 / 10 ^ 9 : ℚ) := lt_max_of_lt_left hrefill
  constructor
  · intro h
    rcases le_total ⌊d / max refill (1 / 10 ^ 9)⌋ 1 with hone | hmore
    · rw [max_eq_left hone, Int.cast_one, one_mul] at h
      exact Or.inl h
    · rw [max_eq_right hmore] at h
      have hfloor := Int.floor_le (d / max refill (1 / 10 ^ 9))
      rw [le_div_iff₀ hrate] at hfloor
      have hpos : (0 : ℚ) < ⌊d / max refill (1 / 10 ^ 9)⌋ := by exact_mod_cast hmore
      have hmax : max refill (1 / 10 ^ 9 : ℚ) ≤ refill :=
        le_of_mul_le_mul_left (hfloor.trans h) hpos
      rw [max_eq_left ((le_max_right _ _).trans hmax)] at h hfloor
      exact Or.inr ⟨(le_max_right _ _).trans hmax, _, le_antisymm h hfloor⟩
  · rintro (hone | ⟨hmin, n, rfl⟩)
    · have hle : (1 : ℚ) ≤ (max 1 ⌊d / max refill (1 / 10 ^ 9)⌋ : ℤ) := by
        exact_mod_cast le_max_left _ _
      nlinarith
    · rw [max_eq_left hmin, mul_div_cancel_right₀ _ hrefill.ne', Int.floor_intCast]
      have hle : (n : ℚ) ≤ (max 1 n : ℤ) := by exact_mod_cast le_max_right _ _
      exact mul_le_mul_of_nonneg_right hle hrefill.le

/-- The wait is never a whole second too long, one second apart. -/
theorem retry_tight {d : ℚ} (hd : 0 < d) (hrefill : 0 < l.refill)
    (hb : l.buckets key = some ⟨1 - d, t⟩) :
    l.retryAfterS key = 1 ∨ ∀ wait, 0 ≤ wait → (l.check key (t + wait)).1 = true →
      (l.retryAfterS key : ℚ) < wait + 1 := by
  rw [retryAfterS_eq hd hb]
  have hrate : 0 < max l.refill (1 / 10 ^ 9 : ℚ) := lt_max_of_lt_left hrefill
  rcases le_total ⌊d / max l.refill (1 / 10 ^ 9)⌋ 1 with hone | hmore
  · exact Or.inl (max_eq_left hone)
  · right
    intro wait hwait hok
    have hneeds := ((check_iff hb).mp hok).2
    rw [add_sub_cancel_left] at hneeds
    have hfloor := Int.floor_le (d / max l.refill (1 / 10 ^ 9))
    have hbound : d / max l.refill (1 / 10 ^ 9) ≤ wait := by
      rw [div_le_iff₀ hrate]
      exact hneeds.trans (mul_le_mul_of_nonneg_left (le_max_left _ _) hwait)
    rw [max_eq_right hmore]
    linarith

/-- After any checks that end in a refusal, the wait that is announced keeps its law exactly if
the bucket can hold a whole token, and what the refused check found missing is refilled within
one second, or in a whole number of seconds at a rate that is not below one in a billion. -/
theorem retry_after_iff {capacity refill : ℚ} (hrefill : 0 < refill)
    (calls : List (String × ℚ)) (key : String) (t : ℚ)
    (hrefused : (((new capacity refill).after calls).check key t).1 = false) :
    RetryLaw (((new capacity refill).after calls).check key t).2 key t ↔
      1 ≤ capacity ∧ (((new capacity refill).after calls).deficit key t ≤ refill ∨
        1 / 10 ^ 9 ≤ refill ∧
          ∃ n : ℤ, ((new capacity refill).after calls).deficit key t = n * refill) := by
  have hpolicy := policy_after (new capacity refill) calls
  generalize (new capacity refill).after calls = l at hrefused hpolicy ⊢
  obtain ⟨hcap, hrate⟩ : l.capacity = capacity ∧ l.refill = refill := by
    simpa [policy, new] using hpolicy
  obtain ⟨hd, hb⟩ := bucket_of_refused hrefused
  have hcheck : (l.check key t).2.policy = l.policy := policy_check
  obtain ⟨hcap', hrate'⟩ : (l.check key t).2.capacity = capacity ∧
      (l.check key t).2.refill = refill := by
    simpa [policy, hcap, hrate] using hcheck
  rw [← deficit_le_iff hd hrefill]
  have hwait := retryAfterS_eq hd hb
  rw [hrate'] at hwait
  constructor
  · intro hlaw
    have hok := (check_iff hb).mp (hlaw.sufficient _ le_rfl)
    rwa [hcap', hrate', add_sub_cancel_left, hwait] at hok
  · rintro ⟨hone, hle⟩
    refine ⟨fun now hnow => (check_iff hb).mpr ⟨hcap' ▸ hone, ?_⟩, retry_tight hd ?_ hb⟩
    · rw [hrate']
      rw [hwait] at hnow
      refine hle.trans (mul_le_mul_of_nonneg_right ?_ hrefill.le)
      linarith
    · rw [hrate']
      exact hrefill

/-- The fourth command at once: the deficit is a whole token, five seconds' refill. -/
theorem fourth_command_waits :
    RetryLaw ((command.after [("ann", 0), ("ann", 0), ("ann", 0)]).check "ann" 0).2 "ann" 0 :=
  (retry_after_iff (by norm_num) [("ann", 0), ("ann", 0), ("ann", 0)] "ann" 0
    (by decide +kernel)).mpr ⟨by norm_num, Or.inr ⟨by norm_num, 5, by decide +kernel⟩⟩

/-- Half a second later a tenth of a token is there. Four and a half seconds are needed, four are
announced, and a check after four seconds is refused again. -/
theorem told_too_early :
    ((command.after [("ann", 0), ("ann", 0), ("ann", 0)]).check "ann" (1 / 2)).1 = false ∧
      ¬RetryLaw ((command.after [("ann", 0), ("ann", 0), ("ann", 0)]).check "ann" (1 / 2)).2
        "ann" (1 / 2) := by
  constructor
  · decide +kernel
  · intro hlaw
    have hok := hlaw.sufficient (1 / 2 + 4) (by decide +kernel)
    revert hok
    decide +kernel

end Retry

end RateLimiter

end GenWatch

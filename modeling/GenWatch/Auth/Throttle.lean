import Mathlib.Data.List.ReduceOption
import GenWatch.Auth.Gateway

/-! # How many passwords an address may try

The limiter lets an address through to the password, and forgets the address once it has given
the right one. The passwords that are looked at are then the successful uses of a bucket that the
right password makes forgotten.
-/

namespace GenWatch

open Transition TokenBucket

namespace Gateway

def Label.restarts : Label → Bool
  | .restart .. => true
  | _ => false

def loginOf (lib : AuthLibrary) (auth : AuthConfig) (ip : String) : Label → Option (ℚ × Bool)
  | .login ip' password _ mono _ =>
    if ip' = ip ∧ auth.adminPasswordHash ≠ "" then
      some (mono, lib.verifyPassword password auth.adminPasswordHash)
    else none
  | _ => none

def loginsOf (lib : AuthLibrary) (auth : AuthConfig) (ip : String) (ls : List Label) :
    List (ℚ × Bool) :=
  ls.filterMap (loginOf lib auth ip)

def verifiedOf (ip : String) (log : List AccessEvent) : List (ℚ × Bool) :=
  log.filterMap fun e =>
    match e with
    | .verified ip' mono ok => if ip' = ip then some (mono, ok) else none
    | _ => none

/-- The limiter and the log agree with the uses of the address's bucket. -/
structure Throttled (lib : AuthLibrary) (auth : AuthConfig) (ip : String) (start : ℚ)
    (ls : List Label) (g : Gateway) : Prop where
  auth_eq : g.auth = auth
  policy : g.loginLimiter.policy = RateLimiter.login.policy
  bucket : g.loginLimiter.buckets ip =
    RateLimiter.login.policy.afterUses none (loginsOf lib auth ip ls)
  verified : verifiedOf ip g.log = RateLimiter.login.policy.uses none (loginsOf lib auth ip ls)
  sorted : ((loginsOf lib auth ip ls).map Prod.fst).Pairwise (· ≤ ·)
  past : ∀ c ∈ loginsOf lib auth ip ls, start ≤ c.1 ∧ c.1 ≤ g.mono
  start_le : start ≤ g.mono

section Throttled

variable {lib : AuthLibrary} {auth : AuthConfig} {ip : String} {start : ℚ} {ls : List Label}
  {g g' : Gateway} {l : Label}

@[simp] theorem verifiedOf_append (log log' : List AccessEvent) :
    verifiedOf ip (log ++ log') = verifiedOf ip log ++ verifiedOf ip log' :=
  List.filterMap_append

theorem loginsOf_snoc : loginsOf lib auth ip (ls ++ [l]) =
    loginsOf lib auth ip ls ++ (loginOf lib auth ip l).toList := by
  rw [loginsOf, List.filterMap_append]
  cases h : loginOf lib auth ip l <;> simp [loginsOf, h]

theorem Throttled.other (h : Throttled lib auth ip start ls g) (hl : loginOf lib auth ip l = none)
    (hauth : g'.auth = g.auth) (hpolicy : g'.loginLimiter.policy = g.loginLimiter.policy)
    (hbucket : g'.loginLimiter.buckets ip = g.loginLimiter.buckets ip)
    (hlog : verifiedOf ip g'.log = verifiedOf ip g.log) (hmono : g.mono ≤ g'.mono) :
    Throttled lib auth ip start (ls ++ [l]) g' := by
  have hsame : loginsOf lib auth ip (ls ++ [l]) = loginsOf lib auth ip ls := by
    rw [loginsOf_snoc, hl]
    exact List.append_nil _
  refine ⟨hauth.trans h.auth_eq, hpolicy.trans h.policy, ?_, ?_, ?_, ?_, h.start_le.trans hmono⟩
  · rw [hbucket, hsame]
    exact h.bucket
  · rw [hlog, hsame]
    exact h.verified
  · rw [hsame]
    exact h.sorted
  · rw [hsame]
    exact fun c hc => ⟨(h.past c hc).1, (h.past c hc).2.trans hmono⟩

/-- What a login does to the limiter and to the log, for its own address and for another. -/
structure Logs (lib : AuthLibrary) (g : Gateway) (ip password : String) (mono : ℚ)
    (r : LoginOutcome) : Prop where
  policy : r.limiter.policy = g.loginLimiter.policy
  own : r.limiter.buckets ip = (g.loginLimiter.policy.use (g.loginLimiter.buckets ip) mono
    (lib.verifyPassword password g.auth.adminPasswordHash)).2
  others : ∀ k ≠ ip, r.limiter.buckets k = g.loginLimiter.buckets k
  verified : r.verified = if (g.loginLimiter.policy.take (g.loginLimiter.buckets ip) mono).1 = true
    then some (lib.verifyPassword password g.auth.adminPasswordHash) else none

variable (lib) in
theorem logs_login (hhash : g.auth.adminPasswordHash ≠ "") (ip password scheme : String)
    (mono wall : ℚ) :
    Logs lib g ip password mono
      (lib.login g.auth g.loginLimiter ip password scheme mono wall) := by
  have hcheck : g.loginLimiter.check ip mono = _ := RateLimiter.check_eq
  have hput : ∀ (r : RateLimiter) (b : Bucket ℚ), (r.put ip b).buckets ip = some b :=
    fun r b => Function.update_self ..
  have hputs : ∀ (r : RateLimiter) (b : Bucket ℚ), ∀ k ≠ ip,
      (r.put ip b).buckets k = r.buckets k :=
    fun r b k hk => Function.update_of_ne hk ..
  unfold AuthLibrary.login
  rw [if_neg hhash]
  dsimp only
  rw [hcheck]
  dsimp only
  cases htake : (g.loginLimiter.policy.take (g.loginLimiter.buckets ip) mono).1 with
  | false =>
    rw [if_pos rfl]
    exact ⟨rfl, by simp [hput, Policy.use, htake], hputs _ _, by simp [htake]⟩
  | true =>
    rw [if_neg Bool.true_eq_false_eq_False]
    cases hverify : lib.verifyPassword password g.auth.adminPasswordHash with
    | false =>
      rw [if_pos rfl]
      exact ⟨rfl, by simp [hput, Policy.use, hverify], hputs _ _, by simp [htake, hverify]⟩
    | true =>
      rw [if_neg Bool.true_eq_false_eq_False]
      have hgone : ∀ r : RateLimiter, (r.reset ip).buckets ip = none :=
        fun r => Function.update_self ..
      have hkeeps : ∀ (r : RateLimiter) (b : Bucket ℚ), ∀ k ≠ ip,
          ((r.put ip b).reset ip).buckets k = r.buckets k :=
        fun r b k hk => (Function.update_of_ne hk ..).trans (hputs r b k hk)
      split
      · exact ⟨rfl, by simp [hgone, Policy.use, htake, hverify], hkeeps _ _,
          by simp [htake, hverify]⟩
      · exact ⟨rfl, by simp [hgone, Policy.use, htake, hverify], hkeeps _ _,
          by simp [htake, hverify]⟩

theorem verifiedOf_login (k ip password scheme : String) (mono wall : ℚ) :
    verifiedOf k (g.login lib ip password scheme mono wall).log = verifiedOf k g.log ++
      if ip = k then
        (lib.login g.auth g.loginLimiter ip password scheme mono wall).verified.toList.map (mono, ·)
      else [] := by
  unfold Gateway.login
  dsimp only
  generalize lib.login g.auth g.loginLimiter ip password scheme mono wall = r
  have hreply : ∀ e : AccessEvent, (∀ ip mono ok, e ≠ .verified ip mono ok) →
      verifiedOf k [e] = [] := by
    intro e he
    cases e with
    | verified ip mono ok => exact absurd rfl (he ip mono ok)
    | _ => rfl
  have hverdict : verifiedOf k (r.verified.map (AccessEvent.verified ip mono)).toList =
      if ip = k then r.verified.toList.map (mono, ·) else [] := by
    cases r.verified with
    | none => simp [verifiedOf]
    | some ok => by_cases hk : ip = k <;> simp [verifiedOf, hk]
  rw [verifiedOf_append, verifiedOf_append, hverdict]
  cases r.reply <;> simp [hreply]

/-- A login of the address is a use of its bucket. -/
theorem Throttled.login_own (h : Throttled lib auth ip start ls g)
    (hhash : auth.adminPasswordHash ≠ "") (password scheme : String) (wall : ℚ) :
    Throttled lib auth ip start (ls ++ [.login ip password scheme g.mono wall])
      (g.login lib ip password scheme g.mono wall) := by
  obtain ⟨rfl, hpolicy, hbucket, hverified, hsorted, hpast, hstart⟩ := h
  obtain ⟨hpolicy', hown, -, hverdict⟩ :=
    logs_login lib hhash ip password scheme g.mono wall
  have hlogins : loginsOf lib g.auth ip (ls ++ [.login ip password scheme g.mono wall]) =
      loginsOf lib g.auth ip ls ++
        [(g.mono, lib.verifyPassword password g.auth.adminPasswordHash)] := by
    rw [loginsOf_snoc]
    simp [loginOf, hhash]
  refine ⟨rfl, hpolicy'.trans hpolicy, ?_, ?_, ?_, ?_, hstart⟩
  · rw [hlogins, afterUses_append, ← hbucket, ← hpolicy]
    exact hown
  · rw [hlogins, uses_append, verifiedOf_login, hverified, hverdict, if_pos rfl, ← hbucket,
      ← hpolicy]
    congr 1
    simp only [Policy.uses, Policy.use, List.append_nil]
    split <;> rfl
  · rw [hlogins, List.map_append]
    refine List.pairwise_append.mpr ⟨hsorted, List.pairwise_singleton _ _, ?_⟩
    intro t ht t' ht'
    obtain ⟨c, hc, rfl⟩ := List.mem_map.mp ht
    rw [List.mem_singleton.mp ht']
    exact (hpast c hc).2
  · rw [hlogins]
    intro c hc
    rcases List.mem_append.mp hc with hc | hc
    · exact hpast c hc
    · rw [List.mem_singleton.mp hc]
      exact ⟨hstart, le_rfl⟩

theorem Throttled.login (h : Throttled lib auth ip start ls g) (ip' password scheme : String)
    (wall : ℚ) :
    Throttled lib auth ip start (ls ++ [.login ip' password scheme g.mono wall])
      (g.login lib ip' password scheme g.mono wall) := by
  by_cases hhash : auth.adminPasswordHash = ""
  · have hreply : lib.login g.auth g.loginLimiter ip' password scheme g.mono wall =
        ⟨g.loginLimiter, none, none,
          .refused (.plain 503 "auth not initialized — set admin_password_hash in config")⟩ := by
      rw [h.auth_eq, AuthLibrary.login, if_pos hhash]
    refine h.other (by simp [loginOf, hhash]) rfl ?_ ?_ ?_ le_rfl
    · rw [Gateway.login, hreply]
    · rw [Gateway.login, hreply]
    · rw [verifiedOf_login, hreply]
      simp
  · by_cases hip : ip' = ip
    · subst hip
      exact h.login_own hhash password scheme wall
    · obtain ⟨hpolicy, -, hothers, -⟩ :=
        logs_login lib (h.auth_eq ▸ hhash) ip' password scheme g.mono wall
      refine h.other (by simp [loginOf, hip]) rfl hpolicy (hothers ip (Ne.symm hip)) ?_ le_rfl
      rw [verifiedOf_login, if_neg hip, List.append_nil]

/-- The login limiter and what is known of passwords are left alone. -/
structure Keeps (ip : String) (g g' : Gateway) : Prop where
  auth : g'.auth = g.auth
  limiter : g'.loginLimiter = g.loginLimiter
  verified : verifiedOf ip g'.log = verifiedOf ip g.log
  mono : g'.mono = g.mono

variable (ip) in
theorem keeps_note (events : List AccessEvent) (h : verifiedOf ip events = []) :
    Keeps ip g (g.note events) :=
  ⟨rfl, rfl, by rw [note, verifiedOf_append, h, List.append_nil], rfl⟩

variable (ip) in
theorem keeps_letIn {p : Principal} {token : String} {now : ℚ} {k : GenWatch.Label}
    (h : g.letIn p token now k = some g') : Keeps ip g g' := by
  obtain ⟨s, -, rfl⟩ := Option.map_eq_some_iff.mp h
  exact ⟨rfl, rfl, by simp [note, verifiedOf], rfl⟩

variable (ip) in
theorem keeps_request {cred : Credentials} {now mono : ℚ} {route : Route} {fresh : String}
    {at_ : Clock} (h : g.request lib cred now mono route fresh at_ = some g') : Keeps ip g g' := by
  have hrefused : ∀ e, verifiedOf ip [.refused e] = [] := fun _ => rfl
  unfold Gateway.request at h
  split at h
  · obtain rfl := Option.some.inj h
    exact keeps_note ip _ (hrefused _)
  split at h
  · obtain rfl := Option.some.inj h
    exact keeps_note ip _ (hrefused _)
  split at h
  · exact keeps_letIn ip h
  split at h
  · obtain rfl := Option.some.inj h
    exact keeps_note ip _ (hrefused _)
  unfold limitCommand at h
  dsimp only at h
  split at h
  · rename_i g₁ hlimit
    obtain rfl := Option.some.inj h
    split at hlimit
    · cases hlimit
    · obtain rfl := Sum.inl.inj hlimit
      obtain ⟨hauth, hlimiter, hverified, hmono⟩ := keeps_note (g := g) ip _ (hrefused _)
      exact ⟨hauth, hlimiter, hverified, hmono⟩
  · rename_i g₁ hlimit
    split at hlimit
    · obtain rfl := Sum.inr.inj hlimit
      obtain ⟨hauth, hlimiter, hverified, hmono⟩ := keeps_letIn ip h
      exact ⟨hauth, hlimiter, hverified, hmono⟩
    · cases hlimit

theorem Throttled.step (h : Throttled lib auth ip start ls g) (hl : l.restarts = false)
    (hs : g.step lib l = some g') : Throttled lib auth ip start (ls ++ [l]) g' := by
  cases l with
  | login ip' password scheme mono wall =>
    obtain ⟨g₁, ht, rfl⟩ := Option.map_eq_some_iff.mp hs
    obtain ⟨hmono, ht⟩ := Option.ite_none_right_eq_some.mp ht
    obtain rfl := Option.some.inj ht
    have hlater : Throttled lib auth ip start ls { g with mono := mono } :=
      ⟨h.auth_eq, h.policy, h.bucket, h.verified, h.sorted,
        fun c hc => ⟨(h.past c hc).1, (h.past c hc).2.trans hmono⟩, h.start_le.trans hmono⟩
    exact hlater.login ip' password scheme wall
  | request cred now mono route fresh at_ =>
    obtain ⟨g₁, ht, hr⟩ := Option.bind_eq_some_iff.mp hs
    obtain ⟨hmono, ht⟩ := Option.ite_none_right_eq_some.mp ht
    obtain rfl := Option.some.inj ht
    obtain ⟨hauth, hlimiter, hverified, hmono'⟩ := keeps_request ip hr
    exact h.other rfl hauth (by rw [hlimiter]) (by rw [hlimiter]) hverified (hmono'.symm ▸ hmono)
  | within k =>
    obtain ⟨-, hr⟩ := Option.ite_none_right_eq_some.mp hs
    obtain ⟨s, -, rfl⟩ := Option.map_eq_some_iff.mp hr
    exact h.other rfl rfl rfl rfl rfl le_rfl
  | restart => cases hl

variable (ip) in
theorem throttled_of_run {m : RegisterMap} {ats : Option (RegisterMap × Option ℤ)} {db : Database}
    {now mono : ℚ} (hrun : run (step lib) (Gateway.start auth m ats db now mono) ls = some g)
    (hlife : ∀ l ∈ ls, l.restarts = false) : Throttled lib auth ip mono ls g := by
  induction ls using List.reverseRecOn generalizing g with
  | nil =>
    obtain rfl := Option.some.inj hrun
    exact ⟨rfl, rfl, rfl, rfl, List.Pairwise.nil, by simp [loginsOf], le_rfl⟩
  | append_singleton ls l ih =>
    obtain ⟨g₁, hrun₁, hstep⟩ := run_snoc_iff.mp hrun
    refine (ih hrun₁ fun k hk => hlife k (List.mem_append_left _ hk)).step ?_ hstep
    exact hlife l (List.mem_append_right _ (List.mem_singleton_self l))

end Throttled

/-- While the process runs, whatever else is going on: of the passwords that an address sends, no
more than five are looked at in a window of time, and one for every three minutes of it, and
another five each time that one of them was right. -/
theorem passwords_looked_at_bounded (lib : AuthLibrary) (auth : AuthConfig) {m : RegisterMap}
    {ats : Option (RegisterMap × Option ℤ)} {db : Database} {now mono : ℚ} {ls : List Label}
    {g : Gateway} (hrun : run (step lib) (start auth m ats db now mono) ls = some g)
    (hlife : ∀ l ∈ ls, l.restarts = false) (ip : String) (from_ : ℚ) {T : ℚ} (hT : 0 ≤ T) :
    (usedIn from_ (from_ + T) (verifiedOf ip g.log) : ℚ) ≤
      5 * (1 + forgottenIn from_ (from_ + T) (verifiedOf ip g.log)) + 1 / 180 * T := by
  have h := throttled_of_run ip hrun hlife
  have hle := usedIn_le (p := RateLimiter.login.policy) (b := none) (by decide +kernel)
    (by decide +kernel) h.sorted (fun c hc => (h.past c hc).1) (show (0 : ℚ) ≤ 5 by norm_num)
    (le_add_of_nonneg_right hT : from_ ≤ from_ + T)
  rw [← h.verified, add_sub_cancel_left] at hle
  exact hle

section Example

def noPassword : AuthLibrary := ⟨fun _ _ => some false, fun _ _ => "", fun _ _ _ => .error .expired⟩

def guarded : AuthConfig := ⟨"$2b$12$hash", "ann", "secret", 12, none, "strict"⟩

/-- Six guesses at once, of which the last is not looked at. -/
theorem sixth_guess_refused :
    ∃ g, run (step noPassword) (start guarded .bare none .empty 0 0)
        (List.replicate 6 (.login "10.0.0.9" "guess" "http" 0 0)) = some g ∧
      (verifiedOf "10.0.0.9" g.log).length = 5 ∧
      (usedIn 0 (0 + 60) (verifiedOf "10.0.0.9" g.log) : ℚ) ≤
        5 * (1 + forgottenIn 0 (0 + 60) (verifiedOf "10.0.0.9" g.log)) + 1 / 180 * 60 := by
  have heval : (run (step noPassword) (start guarded .bare none .empty 0 0)
      (List.replicate 6 (.login "10.0.0.9" "guess" "http" 0 0))).any (fun g =>
        (verifiedOf "10.0.0.9" g.log).length = 5) = true := by
    decide +kernel
  obtain ⟨g, hg, hlength⟩ := (Option.any_eq_true _ _).mp heval
  exact ⟨g, hg, of_decide_eq_true hlength,
    passwords_looked_at_bounded _ _ hg (by decide) "10.0.0.9" 0 (by norm_num)⟩

end Example

end Gateway

end GenWatch

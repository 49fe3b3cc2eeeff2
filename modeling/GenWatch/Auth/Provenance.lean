import GenWatch.Auth.Gateway
import GenWatch.System.Gate

/-! # Where a write comes from

A coroutine is under way for one request, from its arrival to its write. The request was let in on
the token of a login that gave the password, and the token had not expired. So every write on the
hardware goes back to a password.
-/

namespace GenWatch

open Transition

def Task.onBehalf : Task → Option Request
  | .queued r => some (.execute r)
  | .ackQueued r _ => some (.ack r)
  | .atsQueued r | .atsToken r _ => some (.atsExecute r)
  | .writing req _ => some req
  | .done | .issueQueued .. | .reloadQueued .. => none

def Label.arrives : Label → Option Request
  | .execute r _ => some (.execute r)
  | .atsExecute r _ => some (.atsExecute r)
  | .ack r _ => some (.ack r)
  | _ => none

namespace World

/-- Every coroutine is under way for a request it may be under way for. -/
def Backed (P : ℕ → Request → Prop) (w : World) : Prop :=
  ∀ i req, (w.tasks i).onBehalf = some req → P i req

/-- What a step leaves and writes is for such requests. -/
structure Answers (P : ℕ → Request → Prop) (r : World × List Obs) : Prop where
  backed : r.1.Backed P
  writes : ∀ i req call, .write i req call ∈ r.2 → P i req

section Backed

variable {P : ℕ → Request → Prop} {w v u : World} {l : Label} {i : ℕ} {at_ : Clock}
  {fresh : String} {t : Task} {r : World × List Obs}

theorem Backed.update (h : v.Backed P) (htasks : u.tasks = Function.update v.tasks i t)
    (ht : ∀ req, t.onBehalf = some req → P i req) : u.Backed P := by
  intro j req hreq
  rw [htasks] at hreq
  by_cases hji : j = i
  · subst hji
    rw [Function.update_self] at hreq
    exact ht req hreq
  · rw [Function.update_of_ne hji] at hreq
    exact h j req hreq

theorem Backed.congr (h : v.Backed P) (htasks : u.tasks = v.tasks) : u.Backed P := by
  intro j req hreq
  rw [htasks] at hreq
  exact h j req hreq

theorem Backed.answers (h : v.Backed P) {os : List Obs}
    (htasks : u.tasks = Function.update v.tasks i t)
    (ht : ∀ req, t.onBehalf = some req → P i req)
    (hos : ∀ i req call, .write i req call ∉ os) : Answers P (u, os) where
  backed := h.update htasks ht
  writes i req call hmem := absurd hmem (hos i req call)

theorem onBehalf_of_pursues {req : Request} {ctl : ControlDef} (h : Pursues v at_ t req ctl) :
    t.onBehalf = some req := by
  cases h <;> rfl

theorem Backed.locked (h : v.Backed P) (hr : v.locked i at_ fresh t = some r)
    (ht : ∀ req, t.onBehalf = some req → P i req) : Answers P r := by
  have hsec := locked_section hr
  cases hsec with
  | @writes u req ctl ct c _ hp hl _ =>
    have hreq := ht req (onBehalf_of_pursues hp)
    refine ⟨h.update hl.tasks fun q hq => Option.some.inj hq ▸ hreq, fun j q call hmem => ?_⟩
    obtain ⟨rfl, rfl, -⟩ : j = i ∧ q = req ∧ call = _ := by simpa [tokenObs] using hmem
    exact hreq
  | acks _ _ hl _ | refused _ hl _ | denied _ _ _ hl _ | issued _ _ hl _ | reloaded _ hl _ =>
    exact h.answers hl.tasks (by rintro _ ⟨⟩) (by simp [tokenObs])

theorem Backed.acquire (h : v.Backed P) (hr : v.acquire i at_ fresh t = some r)
    (ht : ∀ req, t.onBehalf = some req → P i req) : Answers P r := by
  unfold World.acquire at hr
  split at hr
  · have hb : Backed P { v with lock := v.lock.take i } := h.congr rfl
    exact hb.locked hr ht
  · obtain rfl := Option.some.inj hr
    exact h.answers rfl ht (by simp)

theorem Backed.atsLocked (h : v.Backed P) {ats : AtsService} {q : AtsRequest}
    {spec : AtsCommandSpec} (hr : v.atsLocked i at_ ats q spec = some r)
    (hq : P i (.atsExecute q)) : Answers P r := by
  unfold World.atsLocked at hr
  split at hr
  · obtain rfl := Option.some.inj hr
    exact h.answers rfl (by rintro _ ⟨⟩) (by simp)
  · exact h.acquire hr fun _ he => Option.some.inj he ▸ hq

theorem Backed.execute (h : v.Backed P) {q : ControlRequest} (hr : v.execute i at_ q = some r)
    (hq : P i (.execute q)) : Answers P r := by
  unfold World.execute at hr
  split at hr
  · obtain rfl := Option.some.inj hr
    exact h.answers rfl (by rintro _ ⟨⟩) (by simp)
  split at hr
  · obtain rfl := Option.some.inj hr
    exact h.answers rfl (by rintro _ ⟨⟩) (by simp)
  · exact h.acquire hr fun _ he => Option.some.inj he ▸ hq

theorem Backed.atsExecute (h : v.Backed P) {ats : AtsService} {q : AtsRequest}
    (hr : v.atsExecute i at_ ats q = some r) (hq : P i (.atsExecute q)) : Answers P r := by
  unfold World.atsExecute at hr
  split at hr
  · obtain rfl := Option.some.inj hr
    exact h.answers rfl (fun _ hq => nomatch hq) (by simp)
  split at hr
  · unfold acquireAts at hr
    split at hr
    · have hb : Backed P { v with atsLock := v.atsLock.take i } := h.congr rfl
      exact hb.atsLocked hr hq
    · obtain rfl := Option.some.inj hr
      exact h.answers rfl (fun _ he => Option.some.inj he ▸ hq) (by simp)
  · obtain rfl := Option.some.inj hr
    exact h.answers rfl (fun _ hq => nomatch hq) (by simp)

theorem Backed.ack (h : v.Backed P) {q : AckRequest} (hr : v.ack i at_ q = some r)
    (hq : P i (.ack q)) : Answers P r := by
  unfold World.ack at hr
  split at hr
  · split at hr
    · obtain rfl := Option.some.inj hr
      exact h.answers rfl (fun _ hq => nomatch hq) (by simp)
    · exact h.acquire hr fun _ he => Option.some.inj he ▸ hq
  · obtain rfl := Option.some.inj hr
    exact h.answers rfl (fun _ hq => nomatch hq) (by simp)

theorem Backed.returned (h : v.Backed P) {req : Request} {ctl : ControlDef}
    {error : Option String} : Answers P (v.returned i at_ req ctl error) := by
  have hdone : ∀ req, Task.done.onBehalf = some req → P i req := fun _ hq => nomatch hq
  unfold World.returned
  cases req with
  | execute q => exact h.answers rfl hdone (by simp)
  | atsExecute q =>
    cases error with
    | none => exact h.answers rfl hdone (by simp)
    | some e => exact h.answers rfl hdone (by simp)
  | ack q => exact h.answers rfl hdone (by simp)

theorem Backed.spawned (h : w.Backed P) (hv : w.spawn at_ = some v) : v.Backed P := by
  obtain ⟨-, rfl⟩ := spawn_eq_some.mp hv
  exact h

theorem Backed.ticked (h : w.Backed P) (hv : w.tick at_ = some v) : v.Backed P := by
  obtain ⟨-, rfl⟩ := tick_eq_some.mp hv
  exact h

/-- Whoever may be under way after a step was so before, or has arrived in it. -/
theorem Backed.step (h : w.Backed P)
    (harrives : ∀ req, l.arrives = some req → P w.next req) (hr : w.step l = some r) :
    Answers P r := by
  cases l with
  | execute q at_ =>
    obtain ⟨v, hv, hr⟩ := Option.bind_eq_some_iff.mp hr
    exact (h.spawned hv).execute hr (harrives _ rfl)
  | atsExecute q at_ =>
    obtain ⟨v, hv, hr⟩ := Option.bind_eq_some_iff.mp hr
    obtain ⟨ats, -, hr⟩ := Option.bind_eq_some_iff.mp hr
    exact (h.spawned hv).atsExecute hr (harrives _ rfl)
  | ack q at_ =>
    obtain ⟨v, hv, hr⟩ := Option.bind_eq_some_iff.mp hr
    exact (h.spawned hv).ack hr (harrives _ rfl)
  | issue operator verb fresh at_ =>
    obtain ⟨v, hv, hr⟩ := Option.bind_eq_some_iff.mp hr
    exact (h.spawned hv).acquire hr fun _ hq => nomatch hq
  | reload m operator at_ =>
    obtain ⟨v, hv, hr⟩ := Option.bind_eq_some_iff.mp hr
    have hb : Backed P { v with mon := v.mon.applyRegmap m } := Backed.congr (h.spawned hv) rfl
    exact hb.acquire hr fun _ hq => nomatch hq
  | wake i fresh at_ =>
    obtain ⟨v, hv, hr⟩ := Option.bind_eq_some_iff.mp hr
    obtain ⟨lock, -, hr⟩ := Option.bind_eq_some_iff.mp hr
    have hb : Backed P { v with lock := lock } := Backed.congr (h.ticked hv) rfl
    exact hb.locked hr (hb i)
  | wakeAts i at_ =>
    obtain ⟨v, hv, hr⟩ := Option.bind_eq_some_iff.mp hr
    obtain ⟨lock, -, hr⟩ := Option.bind_eq_some_iff.mp hr
    obtain ⟨ats, -, hr⟩ := Option.bind_eq_some_iff.mp hr
    split at hr
    · rename_i q htask
      obtain ⟨spec, -, hr⟩ := Option.bind_eq_some_iff.mp hr
      have hq := h.ticked hv i (.atsExecute q) (by rw [htask]; rfl)
      have hb : Backed P { v with atsLock := lock } := Backed.congr (h.ticked hv) rfl
      exact hb.atsLocked hr hq
    · cases hr
  | returned i error at_ =>
    obtain ⟨v, hv, hr⟩ := Option.bind_eq_some_iff.mp hr
    split at hr
    · obtain rfl := Option.some.inj hr
      exact (h.ticked hv).returned
    · cases hr
  | input i faults =>
    obtain ⟨mon, -, rfl⟩ := Option.map_eq_some_iff.mp hr
    refine ⟨h, fun j req call hmem => ?_⟩
    split at hmem <;> simp at hmem

end Backed

end World

theorem Service.Backed.step {P : ℕ → Request → Prop} {s s' : Service} {l : Label}
    (hs : s.step l = some s') (hbacked : s.world.Backed P)
    (hwrites : ∀ i req call, .write i req call ∈ s.trace → P i req)
    (harrives : ∀ req, l.arrives = some req → P s.world.next req) :
    s'.world.Backed P ∧ ∀ i req call, .write i req call ∈ s'.trace → P i req := by
  obtain ⟨r, hr, rfl⟩ := Service.step_eq_some.mp hs
  have hanswers := World.Backed.step hbacked harrives hr
  refine ⟨hanswers.backed, fun i req call hmem => ?_⟩
  rcases List.mem_append.mp hmem with hold | hnew
  · exact hwrites i req call hold
  · exact hanswers.writes i req call hnew

namespace Gateway

/-- The coroutine is that of a request that was let in, since the last restart, on a token that says
what a login with the password had handed out, before it expired. -/
def Vouched (lib : AuthLibrary) (log : List AccessEvent) (i : ℕ) (req : Request) : Prop :=
  ∃ (before mid after : List AccessEvent) (auth : AuthConfig) (ip password issued token : String)
    (since now : ℚ),
    log = before ++ .loggedIn auth ip password issued since :: mid ++
      .admitted i ⟨auth.operatorName, .admin⟩ token now :: after ∧
    .restarted ∉ after ∧ lib.verifyPassword password auth.adminPasswordHash = true ∧
    lib.decode issued auth.jwtSecret now = lib.decode token auth.jwtSecret now ∧
    now < (truncInt since + auth.sessionHours * 3600 : ℤ) ∧ req.operator = auth.operatorName

/-- Nobody presents a token that is accepted, unless a login under the present secret has handed out
one that says the same. -/
def Unforged (lib : AuthLibrary) (g : Gateway) : Label → Prop
  | .request cred now _ _ _ _ => ∀ token q, AuthLibrary.presented cred = some token →
      lib.decode token g.auth.jwtSecret now = .ok q →
      ∃ auth ip password issued since, .loggedIn auth ip password issued since ∈ g.log ∧
        auth.jwtSecret = g.auth.jwtSecret ∧ lib.decode issued g.auth.jwtSecret now = .ok q
  | _ => True

/-- Logins have given the password, and whatever is under way or written is vouched for. -/
structure Kept (lib : AuthLibrary) (g : Gateway) : Prop where
  issued : ∀ auth ip password token since, .loggedIn auth ip password token since ∈ g.log →
    lib.verifyPassword password auth.adminPasswordHash = true ∧
      token = lib.encode ⟨some auth.operatorName, some .admin, some (truncInt since),
        some (truncInt since + auth.sessionHours * 3600)⟩ auth.jwtSecret
  backed : g.service.world.Backed (Vouched lib g.log)
  writes : ∀ i req call, .write i req call ∈ g.service.trace → Vouched lib g.log i req

section Kept

variable {lib : AuthLibrary} {g g' : Gateway} {l : Label} {i : ℕ} {req : Request}
  {log events : List AccessEvent} {cred : Credentials} {p : Principal} {token : String} {now : ℚ}

theorem Vouched.append (h : Vouched lib log i req) (hevents : .restarted ∉ events) :
    Vouched lib (log ++ events) i req := by
  obtain ⟨before, mid, after, auth, ip, password, issued, token, since, now, rfl, hlast, hrest⟩ := h
  refine ⟨before, mid, after ++ events, auth, ip, password, issued, token, since, now, by simp, ?_,
    hrest⟩
  intro hmem
  rcases List.mem_append.mp hmem with hmem | hmem
  · exact hlast hmem
  · exact hevents hmem

def plain : AccessEvent → Bool
  | .loggedIn .. | .restarted => false
  | _ => true

theorem restarted_not_mem (h : ∀ e ∈ events, plain e = true) : .restarted ∉ events :=
  fun hmem => nomatch h _ hmem

theorem Kept.note (h : g.Kept lib) (events : List AccessEvent) (hauth : g'.service = g.service)
    (hlog : g'.log = g.log ++ events) (hevents : ∀ e ∈ events, plain e = true) :
    g'.Kept lib := by
  have hlast := restarted_not_mem hevents
  refine ⟨fun auth ip password token since hmem => ?_, ?_, ?_⟩
  · rw [hlog] at hmem
    rcases List.mem_append.mp hmem with hold | hnew
    · exact h.issued auth ip password token since hold
    · cases hevents _ hnew
  · rw [hauth, hlog]
    exact fun j q hq => (h.backed j q hq).append hlast
  · rw [hauth, hlog]
    exact fun j q call hq => (h.writes j q call hq).append hlast

theorem Kept.serve (h : g.Kept lib) (events : List AccessEvent) {k : GenWatch.Label} {s : Service}
    (hs : g.service.step k = some s) (hservice : g'.service = s) (hlog : g'.log = g.log ++ events)
    (hevents : ∀ e ∈ events, plain e = true)
    (harrives : ∀ req, k.arrives = some req →
      Vouched lib (g.log ++ events) g.service.world.next req) : g'.Kept lib := by
  have hlast := restarted_not_mem hevents
  obtain ⟨hbacked, hwrites⟩ := Service.Backed.step hs
    (fun j q hq => (h.backed j q hq).append hlast)
    (fun j q call hq => (h.writes j q call hq).append hlast) harrives
  refine ⟨fun auth ip password token since hmem => ?_, ?_, ?_⟩
  · rw [hlog] at hmem
    rcases List.mem_append.mp hmem with hold | hnew
    · exact h.issued auth ip password token since hold
    · cases hevents _ hnew
  · rw [hservice, hlog]
    exact hbacked
  · rw [hservice, hlog]
    exact hwrites

theorem operator_of_arrives {route : Route} {fresh : String} {at_ : Clock}
    (h : (route.label p fresh at_).arrives = some req) : req.operator = p.operator := by
  cases route <;> cases h <;> rfl

/-- A request that is let in has the token of a login. -/
theorem Kept.vouched (h : g.Kept lib) (hlib : lib.Lawful) {mono : ℚ} {route : Route}
    {fresh : String} {at_ : Clock} (hun : Unforged lib g (.request cred now mono route fresh at_))
    (hp : lib.principal g.auth cred now = .ok (p, token)) (hreq : req.operator = p.operator) :
    Vouched lib (g.log ++ [.admitted i p token now]) i req := by
  obtain ⟨hpresented, q, hdecode, -⟩ := decode_of_principal hp
  obtain ⟨auth, ip, password, issued, since, hmem, hsecret, hmeans⟩ :=
    hun token q hpresented hdecode
  obtain ⟨hverified, hissued⟩ := h.issued _ _ _ _ _ hmem
  rw [hsecret] at hissued
  have hsame : lib.decode issued g.auth.jwtSecret now = lib.decode token g.auth.jwtSecret now :=
    hmeans.trans hdecode.symm
  obtain ⟨rfl, hexp⟩ := principal_of_issued hlib hp hissued fun q' hq' => hsame.trans hq'
  obtain ⟨before, mid, hlog⟩ := List.append_of_mem hmem
  exact ⟨before, mid, [], auth, ip, password, issued, token, since, now, by rw [hlog], by simp,
    hverified, by rw [hsecret]; exact hsame, hexp, hreq⟩

theorem Kept.letIn (h : g.Kept lib) {k : GenWatch.Label}
    (hvouched : ∀ req, k.arrives = some req →
      Vouched lib (g.log ++ [.admitted g.service.world.next p token now]) g.service.world.next req)
    (hin : g.letIn p token now k = some g') : g'.Kept lib := by
  obtain ⟨s, hs, rfl⟩ := Option.map_eq_some_iff.mp hin
  exact h.serve _ hs rfl rfl (by simp [plain]) hvouched

theorem Kept.login (h : g.Kept lib) (ip password scheme : String) (mono wall : ℚ) :
    (g.login lib ip password scheme mono wall).Kept lib := by
  have hreply : ∀ cookie,
      (lib.login g.auth g.loginLimiter ip password scheme mono wall).reply = .loggedIn cookie → _ :=
    fun cookie hcookie => login_loggedIn hcookie
  unfold Gateway.login
  dsimp only
  generalize lib.login g.auth g.loginLimiter ip password scheme mono wall = r at hreply ⊢
  have hverified : ∀ e ∈ (r.verified.map (AccessEvent.verified ip mono)).toList,
      plain e = true := by
    intro e he
    obtain ⟨ok, -, rfl⟩ := Option.map_eq_some_iff.mp (Option.mem_toList.mp he)
    rfl
  cases hcase : r.reply with
  | refused e =>
    refine h.note (_ ++ [.refused e]) rfl (List.append_assoc _ _ _) fun x hx => ?_
    rcases List.mem_append.mp hx with hx | hx
    · exact hverified x hx
    · rw [List.mem_singleton.mp hx]
      rfl
  | failed reason =>
    refine h.note (_ ++ [.failed reason]) rfl (List.append_assoc _ _ _) fun x hx => ?_
    rcases List.mem_append.mp hx with hx | hx
    · exact hverified x hx
    · rw [List.mem_singleton.mp hx]
      rfl
  | loggedIn cookie =>
    obtain ⟨hpassword, htoken⟩ := hreply cookie hcase
    have hlast : .restarted ∉ (r.verified.map (AccessEvent.verified ip mono)).toList ++
        [.loggedIn g.auth ip password cookie.token wall] := by
      intro hmem
      rcases List.mem_append.mp hmem with hmem | hmem
      · cases hverified _ hmem
      · cases List.mem_singleton.mp hmem
    refine ⟨fun auth ip' password' token since hmem => ?_, ?_, ?_⟩
    · rw [List.append_assoc] at hmem
      rcases List.mem_append.mp hmem with hold | hnew
      · exact h.issued auth ip' password' token since hold
      rcases List.mem_append.mp hnew with hnew | hnew
      · cases hverified _ hnew
      · cases List.mem_singleton.mp hnew
        exact ⟨hpassword, htoken⟩
    · rw [List.append_assoc]
      exact fun j q hq => (h.backed j q hq).append hlast
    · rw [List.append_assoc]
      exact fun j q call hq => (h.writes j q call hq).append hlast

theorem Kept.request (h : g.Kept lib) (hlib : lib.Lawful) {mono : ℚ} {route : Route}
    {fresh : String} {at_ : Clock} (hun : Unforged lib g (.request cred now mono route fresh at_))
    (hr : g.request lib cred now mono route fresh at_ = some g') : g'.Kept lib := by
  unfold Gateway.request at hr
  split at hr
  · obtain rfl := Option.some.inj hr
    exact h.note _ rfl rfl (by simp [plain])
  rename_i p token hp
  have hvouched : ∀ j req, (route.label p fresh at_).arrives = some req →
      Vouched lib (g.log ++ [.admitted j p token now]) j req :=
    fun j req hreq => h.vouched hlib hun hp (operator_of_arrives hreq)
  split at hr
  · obtain rfl := Option.some.inj hr
    exact h.note _ rfl rfl (by simp [plain])
  split at hr
  · exact h.letIn (hvouched _) hr
  split at hr
  · obtain rfl := Option.some.inj hr
    exact h.note _ rfl rfl (by simp [plain])
  split at hr
  · rename_i g₁ hlimit
    obtain rfl := Option.some.inj hr
    unfold limitCommand at hlimit
    dsimp only at hlimit
    split at hlimit
    · cases hlimit
    · obtain rfl := Sum.inl.inj hlimit
      exact h.note _ rfl rfl (by simp [plain])
  · rename_i g₁ hlimit
    unfold limitCommand at hlimit
    dsimp only at hlimit
    split at hlimit
    · obtain rfl := Sum.inr.inj hlimit
      have hsame : ∀ limiter, Kept lib { g with commandLimiter := limiter } :=
        fun _ => h.note [] rfl (List.append_nil _).symm (by simp)
      refine Kept.letIn ?_ ?_ hr
      · exact hsame _
      · exact hvouched _
    · cases hlimit

theorem Kept.tick (h : g.Kept lib) {mono : ℚ} (ht : g.tick mono = some g') :
    g'.Kept lib ∧ g'.log = g.log ∧ g'.auth = g.auth := by
  obtain ⟨-, ht⟩ := Option.ite_none_right_eq_some.mp ht
  obtain rfl := Option.some.inj ht
  exact ⟨h.note [] rfl (List.append_nil _).symm (by simp), rfl, rfl⟩

theorem kept_fresh {m : RegisterMap} {ats : Option (RegisterMap × Option ℤ)}
    {db : Database} {mono : ℚ} (hservice : g.service = .start m ats db now mono)
    (hissued : ∀ auth ip password token since, .loggedIn auth ip password token since ∈ g.log →
      lib.verifyPassword password auth.adminPasswordHash = true ∧
        token = lib.encode ⟨some auth.operatorName, some .admin, some (truncInt since),
          some (truncInt since + auth.sessionHours * 3600)⟩ auth.jwtSecret) : g.Kept lib := by
  refine ⟨hissued, ?_, ?_⟩
  · rw [hservice]
    exact fun j q hq => nomatch hq
  · rw [hservice]
    exact fun j q call hq => nomatch hq

theorem Kept.step (h : g.Kept lib) (hlib : lib.Lawful) (hun : Unforged lib g l)
    (hs : g.step lib l = some g') : g'.Kept lib := by
  cases l with
  | login ip password scheme mono wall =>
    obtain ⟨g₁, ht, rfl⟩ := Option.map_eq_some_iff.mp hs
    exact (h.tick ht).1.login ip password scheme mono wall
  | request cred now mono route fresh at_ =>
    obtain ⟨g₁, ht, hr⟩ := Option.bind_eq_some_iff.mp hs
    obtain ⟨h₁, hlog, hauth⟩ := h.tick ht
    refine h₁.request hlib ?_ hr
    unfold Unforged
    rw [hlog, hauth]
    exact hun
  | within k =>
    obtain ⟨hgoes, hr⟩ := Option.ite_none_right_eq_some.mp hs
    obtain ⟨s, hservice, rfl⟩ := Option.map_eq_some_iff.mp hr
    have hnobody : k.arrives = none := by cases k <;> first | rfl | cases hgoes
    refine h.serve [] hservice rfl (List.append_nil _).symm (by simp) fun req hreq => ?_
    rw [hnobody] at hreq
    cases hreq
  | restart auth m ats db now mono =>
    obtain rfl := Option.some.inj hs
    refine kept_fresh rfl fun auth ip password token since hmem => ?_
    rcases List.mem_append.mp hmem with hold | hnew
    · exact h.issued auth ip password token since hold
    · cases List.mem_singleton.mp hnew

end Kept

/-- In every run in which nobody forges a token, restarts and changes of the settings included:
whatever is written on the hardware is written for a request that was let in on a token that says
what that of a login says, one that had given the password, less than the hours of a session
before. -/
theorem writes_trace_to_a_login {lib : AuthLibrary} (hlib : lib.Lawful) {auth : AuthConfig}
    {m : RegisterMap} {ats : Option (RegisterMap × Option ℤ)} {db : Database} {now mono : ℚ}
    {ls : List Label} {g : Gateway}
    (hrun : run (step lib) (start auth m ats db now mono) ls = some g)
    (hun : ∀ g₁ l g₂, Takes (step lib) (start auth m ats db now mono) ls g₁ l g₂ →
      Unforged lib g₁ l) :
    ∀ i req call, .write i req call ∈ g.service.trace → Vouched lib g.log i req := by
  have hkept : g.Kept lib := run_invariant_of_takes hrun hun
    (kept_fresh rfl fun _ _ _ _ _ hmem => nomatch hmem)
    fun g₁ l g₂ h hl hs => h.step hlib hl hs
  exact hkept.writes

section Example

open Service (siteMap siteReading clockAt)

def oneSession : AuthLibrary where
  checkpw plain _ := some (plain = [112, 119])
  encode p _ := if p = ⟨some "ann", some .admin, some 0, some 43200⟩ then "session" else "none"
  decode token _ now :=
    if token = "session" ∧ now < 43200 then .ok ⟨some "ann", some .admin, some 0, some 43200⟩
    else .error .expired

theorem oneSession_lawful : oneSession.Lawful where
  decode_encode p secret now q h := by
    simp only [oneSession] at h
    by_cases hp : p = ⟨some "ann", some .admin, some 0, some 43200⟩
    · subst hp
      simp only [if_pos, true_and] at h
      split at h
      · rename_i hnow
        obtain rfl := Except.ok.inj h
        exact ⟨rfl, fun e he => by obtain rfl := Option.some.inj he; exact_mod_cast hnow⟩
      · cases h
    · rw [if_neg hp, if_neg fun hsession => absurd hsession.1 (by decide)] at h
      cases h

def siteAuth : AuthConfig :=
  ⟨"$2b$12$hash", "ann", "0123456789abcdef0123456789abcdef", 12, none, "strict"⟩

/-- The operator logs in, the engine is seen stopped, and the operator starts it. -/
def startFromBrowser : List Label :=
  [.login "10.0.0.7" "pw" "https" 0 0, .within (.input (.poll 1 (siteReading 1 1)) []),
    .request ⟨some "session", ""⟩ 2 2 (.confirm (some .start)) "T1" (clockAt 2),
    .request ⟨some "session", ""⟩ 3 3 (.start "T1") "" (clockAt 3)]

def afterLogin (g : Gateway) (l : Label) (_ : Gateway) : Bool :=
  match l with
  | .request cred _ _ _ _ _ => AuthLibrary.presented cred = some "session" ∧
      g.log.any fun e =>
        match e with
        | .loggedIn auth _ _ token _ => token = "session" ∧ auth.jwtSecret = g.auth.jwtSecret
        | _ => false
  | _ => true

theorem unforged_of_afterLogin {g g' : Gateway} {l : Label} (h : afterLogin g l g' = true) :
    Unforged oneSession g l := by
  cases l with
  | request cred now mono route fresh at_ =>
    obtain ⟨hpresented, hlog⟩ := of_decide_eq_true h
    intro token q htoken hdecode
    obtain rfl := Option.some.inj (hpresented.symm.trans htoken)
    obtain ⟨e, he, htest⟩ := List.any_eq_true.mp hlog
    cases e with
    | loggedIn auth ip password token since =>
      obtain ⟨rfl, hsecret⟩ := of_decide_eq_true htest
      exact ⟨auth, ip, password, _, since, he, hsecret, hdecode⟩
    | _ => cases htest
  | _ => trivial

/-- The start that is written goes back to the login. -/
theorem start_goes_back_to_login :
    ∃ g i req call,
      run (step oneSession) (start siteAuth siteMap none .empty 0 0) startFromBrowser = some g ∧
      .write i req call ∈ g.service.trace ∧ Vouched oneSession g.log i req := by
  have heval : (run (step oneSession) (start siteAuth siteMap none .empty 0 0)
      startFromBrowser).any (fun g => .write 1 (.execute ⟨.start, "T1", "ann", .admin⟩)
        (.single 0x0130 1) ∈ g.service.trace) = true := by
    decide +kernel
  obtain ⟨g, hg, hmem⟩ := (Option.any_eq_true _ _).mp heval
  refine ⟨g, _, _, _, hg, of_decide_eq_true hmem, ?_⟩
  refine writes_trace_to_a_login oneSession_lawful hg (fun g₁ l g₂ ht => ?_) _ _ _
    (of_decide_eq_true hmem)
  exact unforged_of_afterLogin (ht.test_of_everyStep afterLogin (by decide +kernel))

end Example

end Gateway

end GenWatch

import GenWatch.Prelude.Custody
import GenWatch.System.Gate

/-! # The confirm-token protocol

Three surfaces share one token store. Every token that was issued has at most one
fate: it is still stored, it was evicted or refused, or it was consumed. A write
follows the consumption of its token within one step. So with tokens that do not
collide no token backs two writes, and a token that was refused backs none.
-/

namespace GenWatch

open Transition Custody

/-- An evicted or refused token is gone without having been accepted. -/
def TokenEvent.fate : TokenEvent → Fate String
  | .issued ct _ => .issued ct.token
  | .evicted ct | .refused ct _ => .burnt ct.token
  | .consumed ct _ => .used ct.token

namespace Obs

def tokenEvent : Obs → Option TokenEvent
  | .token _ e => some e
  | _ => none

def writeToken : Obs → Option String
  | .write _ req _ => some req.token
  | _ => none

def issuedToken : Obs → Option String
  | .token _ (.issued ct _) => some ct.token
  | _ => none

end Obs

/-- The store against the history of its tokens. -/
structure TokensKept (events : List TokenEvent) (tokens : Table ConfirmToken.token) : Prop where
  balanced : Balanced (events.map TokenEvent.fate) tokens.keys
  sourced : ∀ ct ∈ tokens.rows, .issued ct (ct.expiresMonotonic - tokenTtlS) ∈ events

namespace TokensKept

open ControlService

variable {events : List TokenEvent} {tokens : Table ConfirmToken.token} {ct : ConfirmToken}

theorem evict (h : TokensKept events tokens) (mono : ℚ) :
    TokensKept (events ++ evictions tokens mono) (unexpired tokens mono) := by
  refine ⟨?_, fun ct hct => List.mem_append_left _ (h.sourced ct (Table.mem_deleteWhere.mp hct).1)⟩
  have hfates : (evictions tokens mono).map TokenEvent.fate =
      ((tokens.rows.filter fun ct => ct.expiresMonotonic < mono).map ConfirmToken.token).map
        .burnt := by
    simp [evictions, TokenEvent.fate]
  rw [List.map_append, hfates]
  exact h.balanced.burnAll (tokens.perm_deleteWhere _)

theorem refuse (h : TokensKept events tokens) (hct : ct ∈ tokens.rows) (e : ControlError) :
    TokensKept (events ++ [.refused ct e]) (tokens.delete ct.token) := by
  refine ⟨?_, fun ct' hct' => List.mem_append_left _ (h.sourced ct' (Table.mem_delete.mp hct').1)⟩
  rw [List.map_append]
  exact h.balanced.burn (Table.perm_delete hct)

theorem consume (h : TokensKept events tokens) (hct : ct ∈ tokens.rows) (mono : ℚ) :
    TokensKept (events ++ [.consumed ct mono]) (tokens.delete ct.token) := by
  refine ⟨?_, fun ct' hct' => List.mem_append_left _ (h.sourced ct' (Table.mem_delete.mp hct').1)⟩
  rw [List.map_append]
  exact h.balanced.use (Table.perm_delete hct)

theorem issue (h : TokensKept events tokens) (hfresh : ct.token ∉ tokens.keys) {mono : ℚ}
    (hexp : ct.expiresMonotonic = mono + tokenTtlS) :
    TokensKept (events ++ [.issued ct mono]) (tokens.insertReplace ct) := by
  constructor
  · rw [List.map_append]
    refine h.balanced.issue ?_
    rw [Table.keys_insertReplace_of_not_mem hfresh]
    exact List.perm_append_singleton _ _
  · intro ct' hct'
    rcases Table.mem_insertReplace.mp hct' with rfl | ⟨hmem, -⟩
    · rw [hexp, add_sub_cancel_right]
      exact List.mem_append_right _ (List.mem_singleton_self _)
    · exact List.mem_append_left _ (h.sourced ct' hmem)

theorem consumeTokenLocked {token operator : String} {verb : Option Action} {at_ : Clock}
    {c : ControlCtx} (h : TokensKept events c.self.tokens) (hlog : c.log = []) :
    TokensKept
      (events ++ (Handler.finalState
        ((consumeTokenLocked token operator verb at_).run c)).log)
      (Handler.finalState ((consumeTokenLocked token operator verb at_).run c)).self.tokens := by
  obtain ⟨db, ⟨-, hr⟩ | ⟨ct, d, hf, -, hr⟩ | ⟨ct, hf, -, hr⟩⟩ :=
    consumeTokenLocked_cases token operator verb at_ c
  · simpa only [hr, Handler.finalState, hlog, List.nil_append] using h.evict at_.evict
  · simpa only [hr, Handler.finalState, hlog, List.nil_append, List.append_assoc] using
      (h.evict at_.evict).refuse (Table.find?_eq_some.mp hf).1 d.error
  · simpa only [hr, Handler.finalState, hlog, List.nil_append, List.append_assoc] using
      (h.evict at_.evict).consume (Table.find?_eq_some.mp hf).1 at_.expiry

end TokensKept

namespace ControlService

theorem consumeTokenLocked_ok {token operator : String} {verb : Action} {at_ : Clock}
    {c c' : ControlCtx} {ct : ConfirmToken}
    (h : (consumeTokenLocked token operator (some verb) at_).run c = .ok ct c') :
    ct ∈ c.self.tokens.rows ∧ ct.token = token ∧ at_.expiry ≤ ct.expiresMonotonic ∧
      ct.operator = operator ∧ (ct.verb = none ∨ ct.verb = some verb) ∧
      c'.log = c.log ++ evictions c.self.tokens at_.evict ++ [.consumed ct at_.expiry] := by
  obtain ⟨db, ⟨-, hr⟩ | ⟨ct', d, -, -, hr⟩ | ⟨ct', hf, hd, hr⟩⟩ :=
    consumeTokenLocked_cases token operator (some verb) at_ c
  · rw [hr] at h
    cases h
  · rw [hr] at h
    cases h
  · rw [hr] at h
    cases h
    obtain ⟨hmem, htoken⟩ := Table.find?_eq_some.mp hf
    obtain ⟨hexp, hop, hverb⟩ := tokenDenial_eq_none hd
    exact ⟨(Table.mem_deleteWhere.mp hmem).1, htoken, hexp, hop, hverb, rfl⟩

theorem consumeTokenLocked_refused {token operator : String} {verb : Option Action} {at_ : Clock}
    {c c' : ControlCtx} {e : ControlError}
    (h : (consumeTokenLocked token operator verb at_).run c = .error e c')
    (he : e.byToken = true) : ∃ ct, .refused ct e ∈ c'.log := by
  obtain ⟨db, ⟨-, hr⟩ | ⟨ct, d, -, -, hr⟩ | ⟨ct, -, -, hr⟩⟩ :=
    consumeTokenLocked_cases token operator verb at_ c
  · rw [hr] at h
    cases h
    cases he
  · rw [hr] at h
    cases h
    exact ⟨ct, by simp⟩
  · rw [hr] at h
    cases h

end ControlService

namespace World

variable {w v : World} {l : Label} {i : ℕ} {at_ : Clock} {t : Task} {r : World × List Obs}
  {events : List TokenEvent}

@[simp] theorem filterMap_tokenObs (i : ℕ) (c : ControlCtx) :
    (tokenObs i c).filterMap Obs.tokenEvent = c.log := by
  simp [tokenObs, Obs.tokenEvent, List.filterMap_map, Function.comp_def]

theorem Section.kept (h : Section v i at_ t r) (hk : TokensKept events v.control.tokens) :
    TokensKept (events ++ r.2.filterMap Obs.tokenEvent) r.1.control.tokens := by
  have hconsume : ∀ {token operator verb c res},
      (ControlService.consumeTokenLocked token operator verb at_).run v.ctx = res →
      Handler.finalState res = c → TokensKept (events ++ c.log) c.self.tokens := by
    rintro token operator verb c res rfl rfl
    exact hk.consumeTokenLocked (c := v.ctx) rfl
  cases h with
  | @writes _ _ _ _ c hrun _ hl _ =>
    have hc : TokensKept (events ++ c.log) c.self.tokens := hconsume hrun rfl
    simpa [hl.control, Obs.tokenEvent, List.filterMap_cons] using hc
  | @refused _ _ _ c hrun hl _ =>
    have hc : TokensKept (events ++ c.log) c.self.tokens := hconsume hrun rfl
    simpa [hl.control, Obs.tokenEvent, List.filterMap_cons] using hc
  | @acks _ _ _ _ c hrun _ hl _ =>
    have hc : TokensKept (events ++ c.log) c.self.tokens := hconsume hrun rfl
    simpa [hl.control] using hc
  | @issued _ operator fresh verb _ _ hrun hfresh hl _ =>
    obtain ⟨db, hrun'⟩ := ControlService.issueToken_run operator verb fresh at_ v.ctx
    rw [hrun'] at hrun
    cases hrun
    have hnew : (ControlService.freshToken operator verb fresh at_).token ∉
        (ControlService.unexpired v.control.tokens at_.evict).keys := hfresh
    have hissue := (hk.evict at_.evict).issue hnew rfl
    simpa [hl.control, ctx] using hissue
  | denied _ _ _ hl _ => simpa [hl.control, Obs.tokenEvent, List.filterMap_cons] using hk
  | reloaded _ hl _ => simpa [hl.control] using hk

theorem Outcome.kept (h : Outcome w l r) (hk : TokensKept events w.control.tokens) :
    TokensKept (events ++ r.2.filterMap Obs.tokenEvent) r.1.control.tokens := by
  cases h with
  | enters he hlocked => exact (locked_section hlocked).kept (he.control ▸ hk)
  | denies _ _ hctl _ _ _ _ | waits _ _ hctl _ _ _ _ | returns _ hctl _ _ _ _ =>
    simpa [hctl, Obs.tokenEvent, List.filterMap_cons] using hk
  | input _ _ => split <;> simpa [Obs.tokenEvent, List.filterMap_cons] using hk

/-- A step that shows a write shows just before it the consumption of the token, which fits. -/
theorem Outcome.of_write (h : Outcome w l r) {req : Request} {call : WriteCall}
    (hw : .write i req call ∈ r.2) :
    ∃ os ct mono, r.2 = os ++ [.token i (.consumed ct mono), .write i req call] ∧
      (∀ o ∈ os, o.writeToken = none) ∧ ct ∈ w.control.tokens.rows ∧ ct.token = req.token ∧
      mono ≤ ct.expiresMonotonic ∧ ct.operator = req.operator ∧
      (ct.verb = none ∨ ct.verb = some req.action) := by
  obtain ⟨v, at_, t, ctl, ct, c, he, hrun, -, -, -, hobs⟩ := h.writes_of_mem hw
  obtain ⟨hmem, htoken, hexp, hop, hverb, hlog⟩ := ControlService.consumeTokenLocked_ok hrun
  simp only [ctx, he.control] at hmem hlog
  refine ⟨(ControlService.evictions w.control.tokens at_.evict).map (.token i), ct, at_.expiry,
    ?_, ?_, hmem, htoken, hexp, hop, hverb⟩
  · simp [hobs, tokenObs, hlog]
  · simp [Obs.writeToken]

theorem Outcome.refused_of_denied (h : Outcome w l r) {e : ControlError} (hd : .denied i e ∈ r.2)
    (he : e.byToken = true) : ∃ ct, .token i (.refused ct e) ∈ r.2 := by
  have hne : ∀ {e'}, e = e' → e'.byToken = false → False := by
    rintro _ rfl hf
    rw [he] at hf
    cases hf
  cases h with
  | enters _ hlocked =>
    cases locked_section hlocked with
    | refused hrun _ _ =>
      obtain ⟨rfl, rfl⟩ : i = _ ∧ e = _ := by simpa [tokenObs] using hd
      obtain ⟨ct, hct⟩ := ControlService.consumeTokenLocked_refused hrun he
      exact ⟨ct, List.mem_append_left _ (List.mem_map_of_mem hct)⟩
    | denied _ _ hgate _ _ =>
      obtain ⟨-, heq⟩ : i = _ ∧ e = _ := by simpa using hd
      exact (hne heq (ControlService.gate_byToken hgate)).elim
    | writes _ _ _ _ | acks _ _ _ _ | issued _ _ _ _ | reloaded _ _ _ => simp [tokenObs] at hd
  | denies _ _ _ _ _ _ hf =>
    obtain ⟨-, heq⟩ : i = _ ∧ e = _ := by simpa using hd
    exact (hne heq hf).elim
  | waits _ _ _ _ _ _ _ | returns _ _ _ _ _ _ => simp at hd
  | input _ _ => split at hd <;> simp at hd

theorem Outcome.used (h : Outcome w l r) (k : String) :
    (r.2.filterMap Obs.writeToken).count k ≤
      ((r.2.filterMap Obs.tokenEvent).map TokenEvent.fate).count (.used k) := by
  by_cases hw : ∃ i req call, .write i req call ∈ r.2
  · obtain ⟨i, req, call, hw⟩ := hw
    obtain ⟨os, ct, mono, hos, hnone, -, htoken, -⟩ := h.of_write hw
    have hwrites : os.filterMap Obs.writeToken = [] := List.filterMap_eq_nil_iff.mpr hnone
    rw [hos]
    simp [hwrites, List.filterMap_cons, Obs.writeToken, Obs.tokenEvent, TokenEvent.fate, ← htoken,
      List.count_singleton, List.count_append]
  · have hnone : r.2.filterMap Obs.writeToken = [] := by
      rw [List.filterMap_eq_nil_iff]
      intro o ho
      cases o with
      | write i req call => exact absurd ⟨i, req, call, ho⟩ hw
      | token _ _ | denied _ _ | returned _ _ _ | updated => rfl
    rw [hnone]
    exact Nat.zero_le _

end World

namespace Service

variable {s s' : Service} {l : Label}

/-- What is known before the write of a request: a token was issued to its operator, for its
action or for any, and consumed for it within the lifetime of tokens. -/
def Authorised (before : List Obs) (i : ℕ) (req : Request) : Prop :=
  ∃ ct issuedAt consumedAt j l₁ l₂ l₃,
    before = l₁ ++ .token j (.issued ct issuedAt) :: l₂ ++
      .token i (.consumed ct consumedAt) :: l₃ ∧
    ct.token = req.token ∧ ct.operator = req.operator ∧ consumedAt - issuedAt ≤ tokenTtlS ∧
    (ct.verb = none ∨ ct.verb = some req.action)

/-- Everything that has happened to tokens so far. -/
def fates (s : Service) : List (Fate String) :=
  (s.trace.filterMap Obs.tokenEvent).map TokenEvent.fate

def writeTokens (s : Service) : List String := s.trace.filterMap Obs.writeToken

structure Accounted (s : Service) : Prop where
  kept : TokensKept (s.trace.filterMap Obs.tokenEvent) s.world.control.tokens
  authorised : ∀ before i req call after, s.trace = before ++ .write i req call :: after →
    Authorised before i req
  used : ∀ k, s.writeTokens.count k ≤ s.fates.count (.used k)
  refused : ∀ i e, .denied i e ∈ s.trace → e.byToken = true →
    ∃ ct, .token i (.refused ct e) ∈ s.trace

theorem accounted_start (m : RegisterMap) (ats : Option (RegisterMap × Option ℤ)) (db : Database)
    (now mono : ℚ) : Accounted (start m ats db now mono) where
  kept := ⟨balanced_nil, fun _ h => by cases h⟩
  authorised := fun before i req call after h => by simp [start] at h
  used := fun _ => le_rfl
  refused := fun _ _ h => by cases h

/-- The write of this step is authorised by what was observed before it. -/
theorem Accounted.authorised_step (hs : Accounted s) {r : World × List Obs}
    (ho : World.Outcome s.world l r) {before after : List Obs} {i : ℕ} {req : Request}
    {call : WriteCall} (h : r.2 = before ++ .write i req call :: after) :
    Authorised (s.trace ++ before) i req := by
  obtain ⟨os, ct, mono, hos, hnone, hmem, htoken, hexp, hop, hverb⟩ :=
    ho.of_write (show .write i req call ∈ r.2 by simp [h])
  have hsplit : before = os ++ [.token i (.consumed ct mono)] := by
    have hwrite : Obs.write i req call ∉ os ++ [.token i (.consumed ct mono)] := by
      simp only [List.mem_append, List.mem_singleton, reduceCtorEq, or_false]
      exact fun hm => by simpa [Obs.writeToken] using hnone _ hm
    have heq : (os ++ [.token i (.consumed ct mono)]) ++ .write i req call :: [] =
        before ++ .write i req call :: after := by
      rw [← h, hos]
      simp
    exact ((List.append_cons_inj_of_notMem hwrite List.not_mem_nil).mp heq).1.symm
  obtain ⟨o, ho', hissued⟩ := List.mem_filterMap.mp (hs.kept.sourced ct hmem)
  obtain ⟨j, rfl⟩ : ∃ j, o = .token j (.issued ct (ct.expiresMonotonic - tokenTtlS)) := by
    cases o with
    | token j e => exact ⟨j, congrArg _ (Option.some.inj hissued)⟩
    | _ => cases hissued
  obtain ⟨l₁, l₂, htrace⟩ := List.append_of_mem ho'
  refine ⟨ct, ct.expiresMonotonic - tokenTtlS, mono, j, l₁, l₂ ++ os, [], ?_, htoken, hop,
    by linarith, hverb⟩
  rw [hsplit, htrace]
  simp

theorem Accounted.step (hs : Accounted s) (h : s.step l = some s') : Accounted s' := by
  obtain ⟨r, hr, rfl⟩ := step_eq_some.mp h
  have ho := World.step_outcome hr
  refine ⟨?_, fun before i req call after heq => ?_, fun k => ?_, fun i e hd he => ?_⟩
  · rw [List.filterMap_append]
    exact ho.kept hs.kept
  · rcases append_eq_append_cons heq with ⟨mid, htrace, -⟩ | ⟨mid, hr2, rfl⟩
    · exact hs.authorised before i req call mid htrace
    · exact hs.authorised_step ho hr2
  · have hold := hs.used k
    have hnew := ho.used k
    simp only [writeTokens, fates, List.filterMap_append, List.map_append, List.count_append] at *
    omega
  · rcases List.mem_append.mp hd with hd | hd
    · obtain ⟨ct, hct⟩ := hs.refused i e hd he
      exact ⟨ct, List.mem_append_left _ hct⟩
    · obtain ⟨ct, hct⟩ := ho.refused_of_denied hd he
      exact ⟨ct, List.mem_append_right _ hct⟩

section Run

variable {m : RegisterMap} {ats : Option (RegisterMap × Option ℤ)} {db : Database} {now mono : ℚ}
  {ls : List Label}

theorem accounted_of_run (h : run step (start m ats db now mono) ls = some s) : Accounted s :=
  run_invariant (fun _ _ _ _ hs hstep => hs.step hstep) (accounted_start m ats db now mono) h

def issuedTokens (s : Service) : List String := s.trace.filterMap Obs.issuedToken

theorem count_issued (s : Service) (k : String) :
    s.fates.count (.issued k) = s.issuedTokens.count k := by
  obtain ⟨w, trace⟩ := s
  simp only [fates, issuedTokens]
  induction trace with
  | nil => rfl
  | cons o trace ih =>
    cases o with
    | token i e => cases e <;> simp [List.filterMap_cons, Obs.tokenEvent, Obs.issuedToken,
        TokenEvent.fate, List.count_cons, ih]
    | denied _ _ | write _ _ _ | returned _ _ _ | updated =>
      simpa [List.filterMap_cons, Obs.tokenEvent, Obs.issuedToken] using ih

theorem fate_mem_fates {i : ℕ} {e : TokenEvent} (h : .token i e ∈ s.trace) : e.fate ∈ s.fates :=
  List.mem_map_of_mem (List.mem_filterMap.mpr ⟨_, h, rfl⟩)

/-- When no token is issued twice, every write is authorised by a token of its own, and a token that
was refused or evicted is gone and authorises nothing. -/
theorem confirm_tokens_single_use (h : run step (start m ats db now mono) ls = some s)
    (hfresh : s.issuedTokens.Nodup) :
    (∀ before i req call after, s.trace = before ++ .write i req call :: after →
      Authorised before i req) ∧
    s.writeTokens.Nodup ∧
    (∀ i e, .denied i e ∈ s.trace → e.byToken = true → ∃ ct, .token i (.refused ct e) ∈ s.trace) ∧
    ∀ i ct, (.token i (.evicted ct) ∈ s.trace ∨ ∃ e, .token i (.refused ct e) ∈ s.trace) →
      ct.token ∉ s.world.control.tokens.keys ∧ ct.token ∉ s.writeTokens := by
  have hs := accounted_of_run h
  have hu : ∀ k, s.fates.count (.issued k) ≤ 1 := fun k => by
    rw [count_issued]
    exact List.nodup_iff_count_le_one.mp hfresh k
  refine ⟨hs.authorised, ?_, hs.refused, fun i ct hburnt => ?_⟩
  · rw [List.nodup_iff_count_le_one]
    exact fun k => (hs.used k).trans (hs.kept.balanced.count_used_le hu k)
  · have hmem : .burnt ct.token ∈ s.fates := by
      rcases hburnt with hev | ⟨e, hev⟩
      · exact fate_mem_fates hev
      · exact fate_mem_fates hev
    obtain ⟨hused, hheld⟩ := hs.kept.balanced.of_burnt hu hmem
    refine ⟨hheld, fun hw => ?_⟩
    have hpos := (List.count_pos_iff.mpr hw).trans_le (hs.used ct.token)
    exact hused (List.count_pos_iff.mp hpos)

/-- One operator starts the engine with a token, another tries a token that is not theirs. -/
def twoOperators : List Label :=
  [.input (.poll 1 (siteReading 1 1)) [], .issue "ann" (some .start) "T1" (clockAt 2),
    .issue "ann" none "T2" (clockAt 2), .execute ⟨.start, "T1", "ann", .operator⟩ (clockAt 3),
    .execute ⟨.start, "T2", "bob", .operator⟩ (clockAt 3), .returned 2 none (clockAt 4),
    .wake 3 "" (clockAt 4)]

theorem foreign_token_refused :
    ∃ s, run step (start siteMap none .empty 0 0) twoOperators = some s ∧
      s.writeTokens = ["T1"] ∧ s.writeTokens.Nodup ∧
      "T2" ∉ s.world.control.tokens.keys ∧ "T2" ∉ s.writeTokens := by
  have heval : (run step (start siteMap none .empty 0 0) twoOperators).any (fun s =>
      s.issuedTokens.Nodup ∧ s.writeTokens = ["T1"] ∧
        .token 3 (.refused ⟨"T2", "ann", 2, 32, 32, none⟩ .tokenMismatch) ∈ s.trace) = true := by
    decide +kernel
  obtain ⟨s, hs, htest⟩ := (Option.any_eq_true _ _).mp heval
  obtain ⟨hfresh, hwrites, hrefused⟩ := of_decide_eq_true htest
  obtain ⟨-, hnodup, -, hgone⟩ := confirm_tokens_single_use hs hfresh
  exact ⟨s, hs, hwrites, hnodup, hgone 3 _ (Or.inr ⟨_, hrefused⟩)⟩

end Run

end Service

end GenWatch

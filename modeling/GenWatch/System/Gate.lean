import GenWatch.System.Steps

/-! # The control gate

A command is gated, consumes its token and hands its write to the client within one
step, so the gates hold of the very state in which the write is made. A coroutine
that is refused has shown nothing before and shows nothing afterwards: it makes no
write, and where a gate refused it, none of its steps touches the token store.
-/

namespace GenWatch

open Transition

/-- A command is refused before its token is looked at. -/
def ControlError.byGate : ControlError → Bool
  | .forbidden | .unknownVerb _ | .noRegister _ | .commsLost _ _ | .staleData _ _
  | .panelModeLocked _ _ | .invalidState _ _ => true
  | _ => false

/-- The coroutine an observation belongs to. -/
def Obs.coroutine : Obs → Option ℕ
  | .token i _ | .denied i _ | .write i _ _ | .returned i _ _ => some i
  | .updated => none

namespace ControlService

theorem tokenDenial_byGate {ct : ConfirmToken} {operator : String} {verb : Option Action}
    {mono : ℚ} {d : Denial} (h : tokenDenial ct operator verb mono = some d) :
    d.error.byGate = false := by
  unfold tokenDenial at h
  split at h
  · cases h; rfl
  split at h
  · cases h; rfl
  split at h
  · split at h
    · cases h; rfl
    · cases h
  · cases h

theorem consumeTokenLocked_byGate {token operator : String} {verb : Option Action} {at_ : Clock}
    {c c' : ControlCtx} {e : ControlError}
    (h : (consumeTokenLocked token operator verb at_).run c = .error e c') : e.byGate = false := by
  obtain ⟨db, ⟨-, hr⟩ | ⟨ct, d, -, hd, hr⟩ | ⟨ct, -, -, hr⟩⟩ :=
    consumeTokenLocked_cases token operator verb at_ c
  · rw [hr] at h
    cases h; rfl
  · rw [hr] at h
    cases h
    exact tokenDenial_byGate hd
  · rw [hr] at h
    cases h

theorem consumeTokenLocked_quiet {token operator : String} {verb : Option Action} {at_ : Clock}
    {c : ControlCtx}
    (h : (Handler.finalState ((consumeTokenLocked token operator verb at_).run c)).log = []) :
    (Handler.finalState ((consumeTokenLocked token operator verb at_).run c)).self.tokens =
      c.self.tokens := by
  obtain ⟨db, ⟨-, hr⟩ | ⟨ct, d, -, -, hr⟩ | ⟨ct, -, -, hr⟩⟩ :=
    consumeTokenLocked_cases token operator verb at_ c
  · rw [hr] at h ⊢
    have hnone : evictions c.self.tokens at_.evict = [] := (List.append_eq_nil_iff.mp h).2
    rw [evictions, List.map_eq_nil_iff, List.filter_eq_nil_iff] at hnone
    have hkeep : (unexpired c.self.tokens at_.evict).rows = c.self.tokens.rows :=
      List.filter_eq_self.mpr fun ct hct => by simpa using hnone ct hct
    exact Table.ext hkeep
  · rw [hr] at h
    simp [Handler.finalState] at h
  · rw [hr] at h
    simp [Handler.finalState] at h

end ControlService

namespace World

variable {w v : World} {l : Label} {i : ℕ} {at_ : Clock} {t : Task} {r : World × List Obs}

theorem Section.coroutine (h : Section v i at_ t r) {o : Obs} (ho : o ∈ r.2) :
    o.coroutine = some i := by
  have htoken : ∀ c, o ∈ tokenObs i c → o.coroutine = some i := by
    intro c hc
    obtain ⟨e, -, rfl⟩ := List.mem_map.mp hc
    rfl
  cases h with
  | writes _ _ _ _ | refused _ _ _ =>
    rcases List.mem_append.mp ho with hc | hlast
    · exact htoken _ hc
    · rw [List.mem_singleton.mp hlast]; rfl
  | acks _ _ _ _ | issued _ _ _ _ => exact htoken _ ho
  | denied _ _ _ _ _ => rw [List.mem_singleton.mp ho]; rfl
  | reloaded _ _ _ => cases ho

theorem Section.tasks (h : Section v i at_ t r) :
    ∃ t', t'.waiting = false ∧ r.1.tasks = Function.update v.tasks i t' ∧ r.1.next = v.next := by
  cases h with
  | writes _ _ hl _ | acks _ _ hl _ | refused _ hl _ | denied _ _ _ hl _ | issued _ _ hl _
  | reloaded _ hl _ => exact ⟨_, rfl, hl.tasks, hl.next⟩

theorem Section.mon (h : Section v i at_ t r) : ∃ db, r.1.mon = { v.mon with db := db } := by
  cases h with
  | writes _ _ hl _ | acks _ _ hl _ | refused _ hl _ | denied _ _ _ hl _ | issued _ _ hl _
  | reloaded _ hl _ => exact hl.mon

theorem log_eq_nil_of_quiet {c : ControlCtx} (hq : ∀ ev, .token i ev ∉ tokenObs i c) :
    c.log = [] := by
  rw [List.eq_nil_iff_forall_not_mem]
  intro ev hev
  exact hq ev (List.mem_map_of_mem hev)

theorem Section.tokens_of_quiet (h : Section v i at_ t r) (hq : ∀ ev, .token i ev ∉ r.2) :
    r.1.control.tokens = v.control.tokens := by
  have hconsume : ∀ {token operator verb c res},
      (ControlService.consumeTokenLocked token operator verb at_).run v.ctx = res →
      Handler.finalState res = c → c.log = [] → c.self.tokens = v.control.tokens := by
    rintro token operator verb c res rfl rfl hlog
    exact ControlService.consumeTokenLocked_quiet hlog
  cases h with
  | writes hrun _ hl _ =>
    rw [hl.control]
    exact hconsume hrun rfl
      (log_eq_nil_of_quiet fun ev hev => hq ev (List.mem_append_left _ hev))
  | refused hrun hl _ =>
    rw [hl.control]
    exact hconsume hrun rfl
      (log_eq_nil_of_quiet fun ev hev => hq ev (List.mem_append_left _ hev))
  | acks hrun _ hl _ =>
    rw [hl.control]
    exact hconsume hrun rfl (log_eq_nil_of_quiet hq)
  | issued hrun _ hl _ =>
    have hlog := log_eq_nil_of_quiet hq
    obtain ⟨db, hrun'⟩ := ControlService.issueToken_run _ _ _ at_ v.ctx
    rw [hrun'] at hrun
    cases hrun
    simp at hlog
  | denied _ _ _ hl _ => rw [hl.control]
  | reloaded _ hl _ => rw [hl.control]

theorem Outcome.moves (h : Outcome w l r) :
    (∃ i t', Runs w r.1 i ∧ r.1.tasks = Function.update w.tasks i t' ∧
      (∀ o ∈ r.2, o.coroutine = some i) ∧ (t'.waiting = true → r.2 = [])) ∨
    (∃ i req ctl error, w.tasks i = .writing req ctl ∧
      r.1.tasks = Function.update w.tasks i .done ∧ r.1.next = w.next ∧
      r.2 = [.returned i req error]) ∨
    (r.1.tasks = w.tasks ∧ r.1.next = w.next ∧ ∀ o ∈ r.2, o = .updated) := by
  cases h with
  | enters he hlocked =>
    have hsec := locked_section hlocked
    obtain ⟨t', hwait, htasks, hnext⟩ := hsec.tasks
    refine Or.inl ⟨_, t', ?_, by rw [htasks, he.tasks], fun o => hsec.coroutine, by simp [hwait]⟩
    simpa only [Runs, hnext] using he.runs
  | denies _ _ _ _ htasks hruns _ =>
    exact Or.inl ⟨_, .done, hruns, htasks, by simp [Obs.coroutine], by simp [Task.waiting]⟩
  | waits _ _ _ _ htasks hruns _ => exact Or.inl ⟨_, _, hruns, htasks, by simp, fun _ => rfl⟩
  | returns _ _ _ htasks hnext hi => exact Or.inr (Or.inl ⟨_, _, _, _, hi, htasks, hnext, rfl⟩)
  | input _ _ =>
    refine Or.inr (Or.inr ⟨rfl, rfl, fun o ho => ?_⟩)
    split at ho
    · exact List.mem_singleton.mp ho
    · cases ho

/-- A step that shows a refusal ends the coroutine and shows no write of it, and where a gate
refused it, nothing about tokens. -/
theorem Outcome.of_denied (h : Outcome w l r) {e : ControlError} (hd : .denied i e ∈ r.2) :
    r.1.tasks i = .done ∧ (∀ req call, .write i req call ∉ r.2) ∧
      (e.byGate = true → ∀ ev, .token i ev ∉ r.2) := by
  have htoken : ∀ {j c}, .denied i e ∉ tokenObs j c := by simp [tokenObs]
  cases h with
  | enters he hlocked =>
    cases locked_section hlocked with
    | writes _ _ _ _ => simp [htoken] at hd
    | acks _ _ _ _ | issued _ _ _ _ => exact absurd hd htoken
    | refused hrun hl _ =>
      obtain ⟨rfl, rfl⟩ : i = _ ∧ e = _ := by simpa [htoken] using hd
      refine ⟨by simp [hl.tasks], by simp [tokenObs], fun hg => ?_⟩
      rw [ControlService.consumeTokenLocked_byGate hrun] at hg
      cases hg
    | denied _ _ _ hl _ =>
      obtain ⟨rfl, rfl⟩ : i = _ ∧ e = _ := by simpa using hd
      exact ⟨by simp [hl.tasks], by simp, by simp⟩
    | reloaded _ _ _ => cases hd
  | denies _ _ _ _ htasks _ _ =>
    obtain ⟨rfl, rfl⟩ : i = _ ∧ e = _ := by simpa using hd
    exact ⟨by simp [htasks], by simp, by simp⟩
  | waits _ _ _ _ _ _ _ => cases hd
  | returns _ _ _ _ _ _ => simp at hd
  | input _ _ =>
    split at hd
    · simp at hd
    · cases hd

theorem Outcome.writing_of_write (h : Outcome w l r) {req : Request} {call : WriteCall}
    (hw : .write i req call ∈ r.2) : ∃ ctl, r.1.tasks i = .writing req ctl := by
  obtain ⟨v, at_, t, ctl, ct, c, hwrites⟩ := h.writes_of_mem hw
  exact ⟨ctl, by rw [hwrites.leaves.tasks, Function.update_self]⟩

end World

namespace Service

variable {s s' : Service} {l : Label}

theorem step_eq_some :
    s.step l = some s' ↔ ∃ r, s.world.step l = some r ∧ s' = ⟨r.1, s.trace ++ r.2⟩ := by
  simp [step, eq_comm]

/-- New and waiting coroutines have shown nothing; refused ones have ended without a write, and
those refused by a gate without touching a token. -/
structure Orderly (s : Service) : Prop where
  unborn : ∀ i, s.world.next ≤ i → s.world.tasks i = .done ∧ ∀ o ∈ s.trace, o.coroutine ≠ some i
  waiting : ∀ i, (s.world.tasks i).waiting = true → ∀ o ∈ s.trace, o.coroutine ≠ some i
  denied : ∀ i e, .denied i e ∈ s.trace → s.world.tasks i = .done ∧
    (∀ req call, .write i req call ∉ s.trace) ∧ (e.byGate = true → ∀ ev, .token i ev ∉ s.trace)

theorem orderly_start (m : RegisterMap) (ats : Option (RegisterMap × Option ℤ)) (db : Database)
    (now mono : ℚ) : Orderly (start m ats db now mono) :=
  ⟨fun _ _ => ⟨rfl, fun _ ho => by cases ho⟩, fun _ hw => (by cases hw),
    fun _ _ ho => (by cases ho)⟩

theorem Orderly.unseen (hs : Orderly s) {v : World} {i : ℕ} (hr : World.Runs s.world v i) :
    ∀ o ∈ s.trace, o.coroutine ≠ some i := by
  rcases hr with ⟨rfl, -⟩ | ⟨hw, -⟩
  · exact (hs.unborn _ le_rfl).2
  · exact hs.waiting i hw

theorem Orderly.step_denied (hs : Orderly s) {r : World × List Obs}
    (ho : World.Outcome s.world l r) {i : ℕ} {e : ControlError} (hd : .denied i e ∈ s.trace) :
    r.1.tasks i = .done ∧ ∀ o ∈ r.2, o.coroutine ≠ some i := by
  obtain ⟨hdone, -, -⟩ := hs.denied i e hd
  have hne : ∀ {j}, (∀ o ∈ s.trace, o.coroutine ≠ some j) → j ≠ i :=
    fun hj hji => hj _ hd (by rw [hji]; rfl)
  rcases ho.moves with ⟨j, t', hruns, htasks, hobs, -⟩ | ⟨j, req, ctl, error, hj, htasks, -, hobs⟩ |
    ⟨htasks, -, hobs⟩
  · have hji := hne (hs.unseen hruns)
    rw [htasks, Function.update_of_ne hji.symm, hdone]
    exact ⟨rfl, fun o ho' hi => hji (Option.some.inj ((hobs o ho').symm.trans hi))⟩
  · have hji : j ≠ i := by
      rintro rfl
      rw [hdone] at hj
      cases hj
    rw [htasks, Function.update_of_ne hji.symm, hdone, hobs]
    exact ⟨rfl, by simpa [Obs.coroutine] using hji⟩
  · rw [htasks, hdone]
    exact ⟨rfl, fun o ho' => by rw [hobs o ho']; simp [Obs.coroutine]⟩

theorem Orderly.lt_next (hs : Orderly s) {v : World} {i : ℕ} (hr : World.Runs s.world v i) :
    i < v.next ∧ s.world.next ≤ v.next := by
  rcases hr with ⟨rfl, hnext⟩ | ⟨hw, hnext⟩
  · omega
  · refine ⟨?_, hnext.ge⟩
    by_contra hge
    rw [(hs.unborn i (by omega)).1] at hw
    cases hw

section Step

variable {r : World × List Obs} {i : ℕ}

theorem unseen_append (hold : ∀ o ∈ s.trace, o.coroutine ≠ some i)
    (hnew : ∀ o ∈ r.2, o.coroutine ≠ some i) : ∀ o ∈ s.trace ++ r.2, o.coroutine ≠ some i :=
  fun o hm => (List.mem_append.mp hm).elim (hold o) (hnew o)

theorem Orderly.unborn_step (hs : Orderly s) (ho : World.Outcome s.world l r) (hi : r.1.next ≤ i) :
    r.1.tasks i = .done ∧ ∀ o ∈ s.trace ++ r.2, o.coroutine ≠ some i := by
  rcases ho.moves with ⟨j, t', hruns, htasks, hobs, -⟩ |
    ⟨j, req, ctl, error, hj, htasks, hnext, hobs⟩ | ⟨htasks, hnext, hobs⟩
  · obtain ⟨hlt, hle⟩ := hs.lt_next hruns
    have hji : i ≠ j := by omega
    obtain ⟨hdone, hold⟩ := hs.unborn i (by omega)
    exact ⟨by simp [htasks, hji, hdone],
      unseen_append hold fun o hm => by simp [hobs o hm, hji.symm]⟩
  · obtain ⟨hdone, hold⟩ := hs.unborn i (by omega)
    have hji : i ≠ j := by
      rintro rfl
      rw [hdone] at hj
      cases hj
    exact ⟨by simp [htasks, hji, hdone],
      unseen_append hold (by simp [hobs, Obs.coroutine, hji.symm])⟩
  · obtain ⟨hdone, hold⟩ := hs.unborn i (by omega)
    exact ⟨by simp [htasks, hdone],
      unseen_append hold fun o hm => by simp [hobs o hm, Obs.coroutine]⟩

theorem Orderly.waiting_step (hs : Orderly s) (ho : World.Outcome s.world l r)
    (hw : (r.1.tasks i).waiting = true) : ∀ o ∈ s.trace ++ r.2, o.coroutine ≠ some i := by
  rcases ho.moves with ⟨j, t', hruns, htasks, hobs, hwait⟩ |
    ⟨j, req, ctl, error, hj, htasks, hnext, hobs⟩ | ⟨htasks, hnext, hobs⟩
  · by_cases hji : i = j
    · subst hji
      rw [htasks, Function.update_self] at hw
      exact unseen_append (hs.unseen hruns) (by simp [hwait hw])
    · rw [htasks, Function.update_of_ne hji] at hw
      exact unseen_append (hs.waiting i hw) fun o hm => by simp [hobs o hm, Ne.symm hji]
  · by_cases hji : i = j
    · subst hji
      rw [htasks, Function.update_self] at hw
      cases hw
    · rw [htasks, Function.update_of_ne hji] at hw
      exact unseen_append (hs.waiting i hw) (by simp [hobs, Obs.coroutine, Ne.symm hji])
  · rw [htasks] at hw
    exact unseen_append (hs.waiting i hw) fun o hm => by simp [hobs o hm, Obs.coroutine]

theorem Orderly.unseen_of_denied (hs : Orderly s) (ho : World.Outcome s.world l r)
    {e : ControlError} (hd : .denied i e ∈ r.2) : ∀ o ∈ s.trace, o.coroutine ≠ some i := by
  rcases ho.moves with ⟨j, t', hruns, -, hobs, -⟩ | ⟨j, req, ctl, error, -, -, -, hobs⟩ |
    ⟨-, -, hobs⟩
  · obtain rfl : i = j := Option.some.inj (hobs _ hd)
    exact hs.unseen hruns
  · simp [hobs] at hd
  · exact absurd (hobs _ hd) (by simp)

theorem Orderly.step (hs : Orderly s) (h : s.step l = some s') : Orderly s' := by
  obtain ⟨r, hr, rfl⟩ := step_eq_some.mp h
  have ho := World.step_outcome hr
  refine ⟨fun i => hs.unborn_step ho, fun i => hs.waiting_step ho, fun i e hd => ?_⟩
  rcases List.mem_append.mp hd with hd | hd
  · obtain ⟨-, hwrite, htoken⟩ := hs.denied i e hd
    obtain ⟨hdone, hnew⟩ := hs.step_denied ho hd
    refine ⟨hdone, fun req call hm => ?_, fun hg ev hm => ?_⟩
    · exact (List.mem_append.mp hm).elim (hwrite req call) fun hm => hnew _ hm rfl
    · exact (List.mem_append.mp hm).elim (htoken hg ev) fun hm => hnew _ hm rfl
  · obtain ⟨hdone, hwrite, htoken⟩ := ho.of_denied hd
    have hold := hs.unseen_of_denied ho hd
    refine ⟨hdone, fun req call hm => ?_, fun hg ev hm => ?_⟩
    · exact (List.mem_append.mp hm).elim (fun hm => hold _ hm rfl) (hwrite req call)
    · exact (List.mem_append.mp hm).elim (fun hm => hold _ hm rfl) (htoken hg ev)

end Step

/-- What holds where a command hands its write to the client, with the clock read at the gate. -/
structure Gated (w : World) (at_ : Clock) (verb : Action) (call : WriteCall) : Prop where
  comms : w.comms = .healthy
  fresh : ∀ name, ((∃ rule ∈ w.control.regmap.engineStateBits, rule.register = name) ∨
      ∃ rule ∈ w.control.regmap.panelModeBits, rule.register = name) →
    ∃ ts, w.snap.lastReading.valueAges name = some ts ∧
      at_.gate - ts ≤ 2 * max (w.control.regmap.primePollMs : ℚ) 1 / 1000
  panel : w.snap.panelMode = .auto
  state : w.snap.engineState ∈ allowed verb
  words : ∃ name ctl, verbToControl verb = some name ∧
    w.control.regmap.controls.find? name = some ctl ∧ call = .ofControl ctl ∧
    call.words = ctl.writeValues

theorem gated_of_gate {w : World} {at_ : Clock} {verb : Action} {name : String} {ctl : ControlDef}
    (hname : verbToControl verb = some name)
    (h : ControlService.gate w.control.regmap w.snap w.comms verb name at_.gate = .ok ctl) :
    Gated w at_ verb (.ofControl ctl) := by
  obtain ⟨hctl, hcomms, hstale, hpanel, hstate⟩ := ControlService.gate_eq_ok.mp h
  have hverb : verb ∈ panelAutoRequired := by
    cases verb <;> first | decide | cases hname
  refine ⟨hcomms, fun name' hsrc => ?_, hpanel hverb, hstate, name, ctl, hname, hctl, rfl, by simp⟩
  obtain ⟨ts, hts, hage⟩ := ControlService.staleControlRegisters_eq_nil.mp hstale name'
    (ControlService.mem_controlSources.mpr hsrc)
  refine ⟨ts, hts, hage.trans_eq ?_⟩
  rw [ControlService.maxAgeS, ControlService.controlFreshMultiplier]
  push_cast
  ring

section Run

variable (m : RegisterMap) (ats : Option (RegisterMap × Option ℤ)) (db : Database) (now mono : ℚ)
  (ls : List Label)

variable {m ats db now mono ls} in
theorem orderly_of_run (h : run step (start m ats db now mono) ls = some s) : Orderly s :=
  run_invariant (fun _ _ _ _ hs hstep => hs.step hstep) (orderly_start m ats db now mono) h

theorem trace_subset {ls : List Label} (h : run step s ls = some s') : s.trace ⊆ s'.trace := by
  refine run_invariant (I := fun t => s.trace ⊆ t.trace) (fun t l t' _ ht hstep => ?_)
    (List.Subset.refl _) h
  obtain ⟨r, -, rfl⟩ := step_eq_some.mp hstep
  exact List.subset_append_of_subset_left r.2 ht

theorem gated_of_shows {i : ℕ} {q : ControlRequest} {call : WriteCall}
    (h : s.Shows l (.write i (.execute q) call)) :
    ∃ at_, l.clock = some at_ ∧ Gated s.world at_ q.verb call := by
  obtain ⟨r, hr, hmem⟩ := h
  obtain ⟨v, at_, t, ctl, ct, c, he, -, hp, -, rfl, -⟩ := (World.step_outcome hr).writes_of_mem hmem
  obtain ⟨hname, hgate⟩ | _ := hp
  refine ⟨at_, he.clock, gated_of_gate hname ?_⟩
  simpa only [he.control, he.unmoved.snap, World.comms, he.unmoved.heap he.not_reload] using hgate

theorem tokens_of_quiet {i : ℕ} (h : s.step l = some s') (hi : l.coroutine s.world.next = some i)
    (hq : ∀ ev, .token i ev ∉ s'.trace) : s'.world.control.tokens = s.world.control.tokens := by
  obtain ⟨r, hr, rfl⟩ := step_eq_some.mp h
  cases World.step_outcome hr with
  | enters he hlocked =>
    obtain rfl := Option.some.inj (hi.symm.trans he.coroutine)
    rw [(World.locked_section hlocked).tokens_of_quiet fun ev hev =>
      hq ev (List.mem_append_right _ hev), he.control]
  | denies _ _ hctl _ _ _ _ | waits _ _ hctl _ _ _ _ | returns _ hctl _ _ _ _ => rw [hctl]
  | input _ _ => rfl

/-- Every command is gated in the state in which it writes; a command that a gate refuses makes no
write, and none of its steps touches the token store. -/
theorem commands_gated_at_write :
    (∀ s l s' i q call, Takes step (start m ats db now mono) ls s l s' →
      s.Shows l (.write i (.execute q) call) →
      ∃ at_, l.clock = some at_ ∧ Gated s.world at_ q.verb call) ∧
    ∀ s i e, run step (start m ats db now mono) ls = some s → .denied i e ∈ s.trace →
      e.byGate = true →
      (∀ req call, .write i req call ∉ s.trace) ∧
      ∀ t l t', Takes step (start m ats db now mono) ls t l t' →
        l.coroutine t.world.next = some i →
        t'.world.control.tokens = t.world.control.tokens := by
  refine ⟨fun s l s' i q call _ hshows => gated_of_shows hshows, fun s i e hrun hd hgate => ?_⟩
  obtain ⟨-, hwrite, htoken⟩ := (orderly_of_run hrun).denied i e hd
  refine ⟨hwrite, fun t l t' ht hi => tokens_of_quiet ht.step_eq hi fun ev hev => ?_⟩
  obtain ⟨post, hpost⟩ := ht.rest hrun
  exact htoken hgate ev (trace_subset hpost hev)

/-- A start is gated where it is written, and a viewer's start comes to nothing. -/
theorem start_gated_viewer_denied :
    (∃ s s' at_, Takes step (start siteMap none .empty 0 0)
        [.input (.poll 1 (siteReading 1 1)) [], .issue "ann" (some .start) "T1" (clockAt 2),
          .execute ⟨.start, "T1", "ann", .operator⟩ (clockAt 3)]
        s (.execute ⟨.start, "T1", "ann", .operator⟩ (clockAt 3)) s' ∧
      Gated s.world at_ .start (.single 0x0130 1)) ∧
    ∃ s, run step (start siteMap none .empty 0 0)
        [.execute ⟨.start, "T1", "ann", .viewer⟩ (clockAt 1)] = some s ∧
      .denied 0 .forbidden ∈ s.trace ∧ ∀ req call, .write 0 req call ∉ s.trace := by
  refine ⟨?_, ?_⟩
  · obtain ⟨s, s', ht, hshows⟩ := takes_of_lastStep step (start siteMap none .empty 0 0)
      [.input (.poll 1 (siteReading 1 1)) [], .issue "ann" (some .start) "T1" (clockAt 2)]
      (.execute ⟨.start, "T1", "ann", .operator⟩ (clockAt 3))
      (fun s l _ => s.Shows l
        (.write 1 (.execute ⟨.start, "T1", "ann", .operator⟩) (.single 0x0130 1)))
      (by decide +kernel)
    obtain ⟨at_, -, hgated⟩ := (commands_gated_at_write _ _ _ _ _ _).1 s _ s' 1 _ _ ht
      (of_decide_eq_true hshows)
    exact ⟨s, s', at_, ht, hgated⟩
  · have heval : (run step (start siteMap none .empty 0 0)
        [.execute ⟨.start, "T1", "ann", .viewer⟩ (clockAt 1)]).any
          (fun s => .denied 0 .forbidden ∈ s.trace) = true := by
      decide +kernel
    obtain ⟨s, hs, hd⟩ := (Option.any_eq_true _ _).mp heval
    have hdenied := of_decide_eq_true hd
    exact ⟨s, hs, hdenied, ((commands_gated_at_write _ _ _ _ _ _).2 s 0 _ hs hdenied rfl).1⟩

end Run

end Service

end GenWatch

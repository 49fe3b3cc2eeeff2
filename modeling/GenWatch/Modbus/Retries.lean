import Mathlib.Algebra.Order.BigOperators.Group.Finset
import Mathlib.Algebra.Order.Field.Rat
import GenWatch.Modbus.Wire

/-! # What a call comes to

The history of one call, among all those that share the link, is a run of failed attempts and
then one answer. A read returns the words of its last attempt, which has the length it asked
for, or the reason of its last failure once its attempts are used up. A write is put on the wire
once at most.
-/

namespace GenWatch

open Transition

/-- Failed attempts at one request: each may not have reached the wire. -/
inductive Tries (req : WireRequest) : List String → List CallEvent → Prop where
  | none : Tries req [] []
  | kept {errs : List String} {past : List CallEvent} (h : Tries req errs past) (e : String) :
    Tries req (errs ++ [e]) (past ++ [.attempted (.failed e)])
  | lost {errs : List String} {past : List CallEvent} (h : Tries req errs past) (e : String) :
    Tries req (errs ++ [e]) (past ++ [.sent req, .attempted (.failed e)])

/-- What lies between the call and what it returns. -/
inductive Concludes (cfg : ClientConfig) : ModbusCall → List CallEvent → ModbusResult → Prop where
  | refused {c : ModbusCall} {reason : String}
    (h : reason = "not_connected" ∨ ∃ addr value fc values, c = .write addr value fc values ∧
      coerceWriteArgs value values fc = .error reason) :
    Concludes cfg c [] (.failure reason 0)
  | answered {addr count fc : ℤ} {errs : List String} {past : List CallEvent} {words : List ℤ}
    {ms : ℚ} (htries : Tries (.read addr count fc) errs past) (hlt : errs.length < cfg.attempts)
    (hwords : (words.length : ℤ) = count) :
    Concludes cfg (.read addr count fc)
      (past ++ [.sent (.read addr count fc), .attempted (.got words)]) (.success words ms)
  | exhausted {addr count fc : ℤ} {errs : List String} {past : List CallEvent} {e : String} {ms : ℚ}
    (htries : Tries (.read addr count fc) errs past) (hlength : errs.length = cfg.attempts)
    (hlast : errs.getLast? = some e) : Concludes cfg (.read addr count fc) past (.failure e ms)
  | written {addr fc : ℤ} {value : Option ℤ} {values : Option (List ℤ)} {words : List ℤ} {ms : ℚ}
    (hwords : coerceWriteArgs value values fc = .ok words) :
    Concludes cfg (.write addr value fc values)
      [.sent (.write addr fc words), .attempted (.got words)] (.success words ms)
  | notWritten {addr fc : ℤ} {value : Option ℤ} {values : Option (List ℤ)} {words : List ℤ}
    {past : List CallEvent} {e : String} {ms : ℚ}
    (hwords : coerceWriteArgs value values fc = .ok words)
    (htries : Tries (.write addr fc words) [e] past) :
    Concludes cfg (.write addr value fc values) past (.failure e ms)

namespace Job

/-- The call and the failed attempts that a job is left of. -/
def Pending (cfg : ClientConfig) (job : Job) (history : List CallEvent) : Prop :=
  match job with
  | .read r => ∃ errs past, history = .called (.read r.addr r.count r.fc) :: past ∧
      Tries (.read r.addr r.count r.fc) errs past ∧ r.attempt = errs.length ∧
      r.lastErr = errs.getLastD "unknown" ∧ errs.length < cfg.attempts
  | .write w => ∃ value values, coerceWriteArgs value values w.fc = .ok w.words ∧
      history = [.called (.write w.addr value w.fc values)]

/-- The answer is one the job accepts. -/
def Answered : Job → Attempt → Prop
  | .read r, .got words => (words.length : ℤ) = r.count
  | .write w, .got words => words = w.words
  | _, .failed _ => True

section Pending

variable {cfg : ClientConfig} {job job' : Job} {history : List CallEvent}

theorem Pending.enter (now : ℚ) (h : job.Pending cfg history) :
    (job.enter now).Pending cfg history := by
  cases job with
  | read r => exact h
  | write w => exact h

theorem Pending.alike (h : job.Pending cfg history) (hjob : job.Alike job') :
    job'.Pending cfg history := by
  rcases hjob with rfl | ⟨now, rfl⟩
  · exact h
  · exact h.enter now

theorem answered_failed (job : Job) (e : String) : job.Answered (.failed e) := by
  cases job <;> trivial

theorem answered_attempt (job : Job) (reply : Reply) : job.Answered (job.attempt reply) := by
  unfold attempt
  split
  case h_4 =>
    split
    · assumption
    · trivial
  case h_7 => rfl
  all_goals exact answered_failed _ _

theorem OfCall.pending {c : ModbusCall} (h : job.OfCall c) : job.Pending cfg [.called c] := by
  cases c with
  | read addr count fc =>
    obtain ⟨t0, rfl⟩ := h
    exact ⟨[], [], rfl, .none, rfl, rfl, Nat.succ_pos _⟩
  | write addr value fc values =>
    obtain ⟨words, t0, hwords, rfl⟩ := h
    exact ⟨value, values, hwords, rfl⟩

end Pending

end Job

/-- A call has shown what the place where it stands says. -/
def CallState.Told (cfg : ClientConfig) (c : CallState) (history : List CallEvent) : Prop :=
  match c with
  | .done => history = [] ∨
      ∃ call past res, history = .called call :: past ++ [.returned res] ∧
        Concludes cfg call past res
  | .queued job | .connecting job => job.Pending cfg history
  | .onWire job => ∃ past, history = past ++ [.sent job.wire] ∧ job.Pending cfg past
  | .sleeping r _ => (Job.read r).Pending cfg history

section Told

variable {cfg : ClientConfig} {job : Job} {history : List CallEvent}

/-- A failed attempt, whether or not the request was sent, and what becomes of the call. -/
theorem told_failed (h : job.Pending cfg history) (now : ℚ) (reason : String)
    {mid : List CallEvent} (hmid : mid = [] ∨ mid = [.sent job.wire]) :
    (cfg.ended now job (.failed reason)).1.Told cfg
      (history ++
        (mid ++ .attempted (.failed reason) :: (cfg.ended now job (.failed reason)).2)) := by
  have htry : ∀ {errs past}, Tries job.wire errs past →
      Tries job.wire (errs ++ [reason]) (past ++ (mid ++ [.attempted (.failed reason)])) := by
    intro errs past htries
    rcases hmid with rfl | rfl
    · exact htries.kept reason
    · exact htries.lost reason
  cases job with
  | read r =>
    obtain ⟨errs, past, rfl, htries, hattempt, -, hlt⟩ := h
    have hlength : r.attempt + 1 = (errs ++ [reason]).length := by simp [hattempt]
    unfold ClientConfig.ended
    dsimp only
    by_cases hmore : r.attempt + 1 < cfg.attempts
    · rw [if_pos hmore]
      exact ⟨errs ++ [reason], _, by simp, htry htries, hlength, by simp, hlength ▸ hmore⟩
    · rw [if_neg hmore]
      refine Or.inr ⟨.read r.addr r.count r.fc, past ++ (mid ++ [.attempted (.failed reason)]),
        .failure reason ((now - r.t0) * 1000), by simp, ?_⟩
      exact .exhausted (htry htries) (by rw [← hlength]; omega) (by simp)
  | write w =>
    obtain ⟨value, values, hwords, rfl⟩ := h
    refine Or.inr ⟨.write w.addr value w.fc values, mid ++ [.attempted (.failed reason)],
      .failure reason ((now - w.t0) * 1000), by simp [ClientConfig.ended], ?_⟩
    exact .notWritten hwords (htry .none)

theorem told_got (h : job.Pending cfg history) (now : ℚ) {words : List ℤ}
    (hanswered : job.Answered (.got words)) :
    (cfg.ended now job (.got words)).1.Told cfg
      (history ++ ([.sent job.wire] ++
        .attempted (.got words) :: (cfg.ended now job (.got words)).2)) := by
  cases job with
  | read r =>
    obtain ⟨errs, past, rfl, htries, -, -, hlt⟩ := h
    refine Or.inr ⟨.read r.addr r.count r.fc,
      past ++ [.sent (.read r.addr r.count r.fc), .attempted (.got words)],
      .success words ((now - r.t0) * 1000), by simp [ClientConfig.ended, Job.wire], ?_⟩
    exact .answered htries hlt hanswered
  | write w =>
    obtain ⟨value, values, hwords, rfl⟩ := h
    obtain rfl : words = w.words := hanswered
    exact Or.inr ⟨_, _, _, rfl, .written hwords⟩

theorem told_replied (h : job.Pending cfg history) (now : ℚ) {a : Attempt}
    (hanswered : job.Answered a) :
    (cfg.ended now job a).1.Told cfg
      (history ++ ([.sent job.wire] ++ .attempted a :: (cfg.ended now job a).2)) := by
  cases a with
  | failed reason => exact told_failed h now reason (Or.inr rfl)
  | got words => exact told_got h now hanswered

end Told

def Job.left (cfg : ClientConfig) : Job → ℕ
  | .read r => cfg.attempts - r.attempt
  | .write _ => 0

/-- How many steps a call may still take. -/
def CallState.rank (cfg : ClientConfig) : CallState → ℕ
  | .done => 0
  | .onWire job => 4 * job.left cfg + 1
  | .connecting job => 4 * job.left cfg + 2
  | .queued job => 4 * job.left cfg + 3
  | .sleeping r _ => 4 * (Job.read r).left cfg + 4

theorem rank_ended_le (cfg : ClientConfig) (now : ℚ) (job : Job) (a : Attempt) :
    (cfg.ended now job a).1.rank cfg ≤ 4 * job.left cfg := by
  unfold ClientConfig.ended
  split
  · dsimp only
    split
    · simp only [CallState.rank, Job.left]
      omega
    · exact Nat.zero_le _
  all_goals exact Nat.zero_le _

namespace ModbusLink

variable {s t : ModbusLink} {l : Label} {i : ℕ} {job : Job} {history : List CallEvent}

theorem Tenure.next {r : ModbusLink × List CallEvent} (h : Tenure t i job r) :
    r.1.next = t.next := by
  cases h <;> rfl

theorem Tenure.rank_lt {r : ModbusLink × List CallEvent} (h : Tenure t i job r) :
    (r.1.calls i).rank t.cfg < 4 * job.left t.cfg + 3 ∧
      ((∀ job', r.1.calls i ≠ .connecting job') →
        (r.1.calls i).rank t.cfg < 4 * job.left t.cfg + 2) := by
  have hleft : ∀ {job'}, job.Alike job' → job'.left t.cfg = job.left t.cfg := by
    rintro job' (rfl | ⟨now, rfl⟩)
    · rfl
    · cases job <;> rfl
  cases h with
  | connecting hjob => simp [setCall, CallState.rank, hleft hjob]
  | onWire hjob => simp [setCall, CallState.rank, hleft hjob]
  | @fails job' hjob now reason =>
    have hended := rank_ended_le t.cfg now job' (.failed reason)
    rw [hleft hjob] at hended
    simp only [attemptEnds, setCall, Function.update_self, release]
    omega

theorem Tenure.moves {r : ModbusLink × List CallEvent} (h : Tenure t i job r) (hcfg : t.cfg = s.cfg)
    (hcalls : t.calls = s.calls) :
    ∃ c, r.1.calls = Function.update s.calls i c ∧ r.1.cfg = s.cfg ∧
      (c.rank s.cfg < 4 * job.left s.cfg + 3 ∧ ((∀ job', r.1.calls i ≠ .connecting job') →
        c.rank s.cfg < 4 * job.left s.cfg + 2)) ∧
      ∀ history, job.Pending s.cfg history → c.Told s.cfg (history ++ r.2) := by
  have hrank := h.rank_lt
  rw [hcfg] at hrank
  cases h with
  | connecting hjob =>
    refine ⟨_, congrArg (Function.update · i _) hcalls, hcfg, ?_, fun history hpending => ?_⟩
    · simpa [setCall] using hrank
    · rw [List.append_nil]
      exact hpending.alike hjob
  | onWire hjob =>
    refine ⟨_, congrArg (Function.update · i _) hcalls, hcfg, ?_, fun history hpending => ?_⟩
    · simpa [setCall] using hrank
    · exact ⟨history, rfl, hpending.alike hjob⟩
  | fails hjob now reason =>
    refine ⟨_, congrArg (Function.update · i _) hcalls, hcfg, ?_, fun history hpending => ?_⟩
    · simpa [attemptEnds, release, setCall] using hrank
    · simp only [attemptEnds, release, hcfg]
      exact told_failed (hpending.alike hjob) now reason (Or.inl rfl)

theorem Origin.pending {evs : List CallEvent} {n : ℕ} (h : Origin s l i job evs n)
    (htold : (s.calls i).Told s.cfg history) (hfresh : i = s.next → history = []) :
    job.Pending s.cfg (history ++ evs) := by
  cases h with
  | new hl hjob =>
    rw [hfresh rfl]
    exact hjob.pending
  | again hcall =>
    rw [hcall] at htold
    rw [List.append_nil]
    exact htold

/-- A call is new, or goes on with fewer steps left. -/
def Advances (s : ModbusLink) (l : Label) (i : ℕ) (c : CallState) (n : ℕ) : Prop :=
  (l.isCall = true ∧ i = s.next ∧ n = s.next + 1 ∧ c.rank s.cfg ≤ 4 * s.cfg.attempts + 3) ∨
    n = s.next ∧ c.rank s.cfg < (s.calls i).rank s.cfg

theorem left_le (cfg : ClientConfig) (job : Job) : job.left cfg ≤ cfg.attempts := by
  cases job with
  | read r => exact Nat.sub_le _ _
  | write w => exact Nat.zero_le _

theorem Origin.advances {evs : List CallEvent} {n : ℕ} {c : CallState} (h : Origin s l i job evs n)
    (hrank : c.rank s.cfg ≤ 4 * job.left s.cfg + 3) : s.Advances l i c n := by
  cases h with
  | new hl =>
    have hleft := left_le s.cfg job
    exact Or.inl ⟨hl, rfl, rfl, by omega⟩
  | again hcall => exact Or.inr ⟨rfl, by rw [hcall]; exact Nat.lt_succ_of_le hrank⟩

theorem Advances.lt {c : CallState} {n : ℕ} (h : s.Advances l i c n) (hs : s.Orderly) :
    i < n ∧ s.next ≤ n := by
  rcases h with ⟨-, rfl, rfl, -⟩ | ⟨rfl, hrank⟩
  · exact ⟨Nat.lt_succ_self _, Nat.le_succ _⟩
  · refine ⟨?_, le_rfl⟩
    by_contra hge
    rw [hs.fresh i (not_lt.mp hge)] at hrank
    exact Nat.not_lt_zero _ hrank

/-- A step moves one call, and only that call shows something. -/
theorem Outcome.moves {r : ModbusLink × List (ℕ × CallEvent)} (h : Outcome s l r) :
    r.1.cfg = s.cfg ∧
    ((l.internal = false ∧ r.2 = [] ∧ r.1.calls = s.calls ∧ r.1.next = s.next) ∨
      ∃ i c evs, r.1.calls = Function.update s.calls i c ∧ r.2 = evs.map (i, ·) ∧
        s.Advances l i c r.1.next ∧
        ∀ history, (s.calls i).Told s.cfg history → (i = s.next → history = []) →
          c.Told s.cfg (history ++ evs)) := by
  cases h with
  | environment hl hcfg hlock hcalls hnext => exact ⟨hcfg, Or.inl ⟨hl, rfl, hcalls, hnext⟩⟩
  | @refused v c reason hl hcfg hlock hcalls hnext hreason =>
    refine ⟨hcfg, Or.inr ⟨s.next, .done, [.called c, .returned (.failure reason 0)], hcalls, rfl,
      Or.inl ⟨hl, rfl, hnext, Nat.zero_le _⟩, fun history _ hfresh => ?_⟩⟩
    rw [hfresh rfl]
    exact Or.inr ⟨c, [], _, rfl, .refused hreason⟩
  | @queues v i job evs n horigin hopen hcfg hlock hcalls hnext =>
    subst hnext
    exact ⟨hcfg, Or.inr ⟨i, .queued job, evs, hcalls, rfl,
      horigin.advances le_rfl, fun history => horigin.pending⟩⟩
  | @enters t i job evs n r horigin hopen hcfg hlock hcalls hnext htenure =>
    obtain ⟨c, hcalls', hcfg', hrank, htold⟩ := htenure.moves hcfg hcalls
    rw [← hnext, ← htenure.next] at horigin
    refine ⟨hcfg', Or.inr ⟨i, c, evs ++ r.2, hcalls', List.map_append.symm,
      horigin.advances hrank.1.le, fun history hi hfresh => ?_⟩⟩
    rw [← List.append_assoc]
    exact htold _ (horigin.pending hi hfresh)
  | @wakes t i now job r hl hcall hcfg hlock hcalls hnext htenure =>
    obtain ⟨c, hcalls', hcfg', hrank, htold⟩ := htenure.moves hcfg hcalls
    refine ⟨hcfg', Or.inr ⟨i, c, r.2, hcalls', rfl, Or.inr ⟨htenure.next.trans hnext, ?_⟩,
      fun history hi _ => ?_⟩⟩
    · rw [hcall]
      exact hrank.1
    · rw [hcall] at hi
      exact htold history hi
  | @reconnected t i job r hcall hcfg hlock hcalls hnext htenure hopened =>
    obtain ⟨c, hcalls', hcfg', hrank, htold⟩ := htenure.moves hcfg hcalls
    refine ⟨hcfg', Or.inr ⟨i, c, r.2, hcalls', rfl, Or.inr ⟨htenure.next.trans hnext, ?_⟩,
      fun history hi _ => ?_⟩⟩
    · rw [hcall]
      exact hrank.2 hopened
    · rw [hcall] at hi
      exact htold history hi
  | @replied t i job reply now hl hcall hcfg hlock hcalls hnext =>
    refine ⟨hcfg, Or.inr ⟨i, _, _, congrArg (Function.update · i _) hcalls, rfl,
      Or.inr ⟨hnext, ?_⟩, fun history hi _ => ?_⟩⟩
    · rw [hcall, hcfg]
      exact Nat.lt_succ_of_le (rank_ended_le _ _ _ _)
    · rw [hcall] at hi
      obtain ⟨past, rfl, hpending⟩ := hi
      simp only [attemptEnds, hcfg, List.append_assoc]
      exact told_replied hpending now (Job.answered_attempt job reply)

end ModbusLink

namespace Wire

/-- What one call has shown, in order. -/
def history (i : ℕ) (trace : List (ℕ × CallEvent)) : List CallEvent :=
  trace.filterMap fun e => if e.1 = i then some e.2 else none

section History

variable {i j : ℕ} {trace trace' : List (ℕ × CallEvent)} {evs : List CallEvent} {e : CallEvent}

@[simp] theorem history_append :
    history i (trace ++ trace') = history i trace ++ history i trace' :=
  List.filterMap_append

@[simp] theorem history_map_self : history i (evs.map (i, ·)) = evs := by
  induction evs with
  | nil => rfl
  | cons e evs ih => simp [history]

theorem history_map_ne (h : j ≠ i) : history i (evs.map (j, ·)) = [] := by
  induction evs with
  | nil => rfl
  | cons e evs ih => simp [history, h]

theorem mem_history : e ∈ history i trace ↔ (i, e) ∈ trace := by
  simp [history, List.mem_filterMap]

end History

/-- Every call has shown what the place where it stands says. -/
structure Told (w : Wire) : Prop where
  told : ∀ i, (w.link.calls i).Told w.link.cfg (history i w.trace)
  fresh : ∀ i, w.link.next ≤ i → history i w.trace = []

variable {w w' : Wire} {l : ModbusLink.Label} {ls : List ModbusLink.Label} {cfg : ClientConfig}
  {clock : ℚ}

theorem told_start (cfg : ClientConfig) (clock : ℚ) : (start cfg clock).Told where
  told _ := Or.inl rfl
  fresh _ _ := rfl

theorem Told.step (hw : w.Told) (horderly : w.link.Orderly) (h : w.step l = some w') :
    w'.link.cfg = w.link.cfg ∧ w'.Told := by
  obtain ⟨r, hr, hlink, htrace⟩ := step_eq_some.mp h
  obtain ⟨hcfg, hsame | ⟨i, c, evs, hcalls, hevs, hadvances, htold⟩⟩ :=
    (ModbusLink.step_outcome hr).moves
  · obtain ⟨-, hevs, hcalls, hnext⟩ := hsame
    rw [hevs, List.append_nil] at htrace
    refine ⟨by rw [hlink, hcfg], fun j => ?_, fun j hj => ?_⟩
    · rw [hlink, hcfg, hcalls, htrace]
      exact hw.told j
    · rw [htrace]
      rw [hlink, hnext] at hj
      exact hw.fresh j hj
  · refine ⟨by rw [hlink, hcfg], fun j => ?_, fun j hj => ?_⟩
    · rw [hlink, hcfg, hcalls, htrace, hevs, history_append]
      by_cases hji : j = i
      · subst hji
        rw [Function.update_self, history_map_self]
        exact htold _ (hw.told j) fun hj => hw.fresh j (by omega)
      · rw [Function.update_of_ne hji, history_map_ne (Ne.symm hji), List.append_nil]
        exact hw.told j
    · obtain ⟨hlt, hle⟩ := hadvances.lt horderly
      rw [hlink] at hj
      rw [htrace, hevs, history_append, history_map_ne (by omega), List.append_nil]
      exact hw.fresh j (by omega)

theorem told_of_run (h : run step (start cfg clock) ls = some w) :
    w.link.cfg = cfg ∧ w.Told := by
  refine (run_invariant (I := fun w => w.link.Orderly ∧ w.link.cfg = cfg ∧ w.Told)
    (fun w l w' _ hw hstep => ?_)
    ⟨ModbusLink.orderly_init cfg clock, rfl, told_start cfg clock⟩ h).2
  obtain ⟨horderly, hcfg, htold⟩ := hw
  obtain ⟨hcfg', htold'⟩ := htold.step horderly hstep
  have hrun : run step w [l] = some w' := by
    rw [run_cons, hstep]
    rfl
  exact ⟨Orderly.of_run horderly hrun, hcfg'.trans hcfg, htold'⟩

end Wire

/-! ### What a history says -/

/-- The attempts of a call. -/
def attemptsIn (history : List CallEvent) : List Attempt :=
  history.filterMap fun e =>
    match e with
    | .attempted a => some a
    | _ => none

/-- What a call has put on the wire. -/
def sentIn (history : List CallEvent) : List WireRequest :=
  history.filterMap fun e =>
    match e with
    | .sent req => some req
    | _ => none

@[simp] theorem attemptsIn_append (past past' : List CallEvent) :
    attemptsIn (past ++ past') = attemptsIn past ++ attemptsIn past' :=
  List.filterMap_append

@[simp] theorem sentIn_append (past past' : List CallEvent) :
    sentIn (past ++ past') = sentIn past ++ sentIn past' :=
  List.filterMap_append

/-- Neither a call nor a result. -/
def CallEvent.inner : CallEvent → Bool
  | .sent _ | .attempted _ => true
  | .called _ | .returned _ => false

section Reading

variable {cfg : ClientConfig} {req : WireRequest} {errs : List String} {past : List CallEvent}
  {c : ModbusCall} {res : ModbusResult} {e : CallEvent} {job : Job} {state : CallState}
  {history : List CallEvent}

theorem Tries.attempts (h : Tries req errs past) : attemptsIn past = errs.map .failed := by
  induction h with
  | none => rfl
  | kept h e ih =>
    rw [attemptsIn_append, ih, List.map_append]
    rfl
  | lost h e ih =>
    rw [attemptsIn_append, ih, List.map_append]
    rfl

theorem Tries.sent (h : Tries req errs past) :
    (sentIn past).length ≤ errs.length ∧ ∀ r ∈ sentIn past, r = req := by
  induction h with
  | none => exact ⟨le_rfl, by simp [sentIn]⟩
  | kept h e ih =>
    refine ⟨?_, ?_⟩
    · simpa [sentIn] using ih.1.trans (Nat.le_succ _)
    · simpa [sentIn] using ih.2
  | lost h e ih =>
    refine ⟨?_, ?_⟩
    · simpa [sentIn] using ih.1
    · intro r hr
      rw [sentIn_append] at hr
      rcases List.mem_append.mp hr with hr | hr
      · exact ih.2 r hr
      · exact List.mem_singleton.mp hr

theorem Tries.inner (h : Tries req errs past) : ∀ e ∈ past, e.inner = true := by
  induction h with
  | none => simp
  | kept h e ih =>
    intro x hx
    rcases List.mem_append.mp hx with hx | hx
    · exact ih x hx
    · rw [List.mem_singleton.mp hx]
      rfl
  | lost h e ih =>
    intro x hx
    rcases List.mem_append.mp hx with hx | hx
    · exact ih x hx
    · rcases List.mem_pair.mp hx with rfl | rfl <;> rfl

theorem Concludes.inner (h : Concludes cfg c past res) : ∀ e ∈ past, e.inner = true := by
  cases h with
  | refused => simp
  | answered htries =>
    intro x hx
    rcases List.mem_append.mp hx with hx | hx
    · exact htries.inner x hx
    · rcases List.mem_pair.mp hx with rfl | rfl <;> rfl
  | exhausted htries => exact htries.inner
  | written =>
    intro x hx
    rcases List.mem_pair.mp hx with rfl | rfl <;> rfl
  | notWritten _ htries => exact htries.inner

theorem Job.Pending.called (h : job.Pending cfg history) :
    ∃ c past, history = .called c :: past ∧ ∀ e ∈ past, e.inner = true := by
  cases job with
  | read r =>
    obtain ⟨errs, past, rfl, htries, -⟩ := h
    exact ⟨_, past, rfl, htries.inner⟩
  | write w =>
    obtain ⟨value, values, -, rfl⟩ := h
    exact ⟨_, [], rfl, by simp⟩

theorem Job.Pending.not_returned (h : job.Pending cfg history) : .returned res ∉ history := by
  obtain ⟨c, past, rfl, hinner⟩ := h.called
  intro hmem
  rcases List.mem_cons.mp hmem with he | he
  · cases he
  · cases hinner _ he

theorem CallState.Told.returned (h : state.Told cfg history) (hcalled : .called c ∈ history)
    (hres : .returned res ∈ history) :
    ∃ past, history = .called c :: past ++ [.returned res] ∧ Concludes cfg c past res := by
  cases state with
  | done =>
    rcases h with rfl | ⟨call, past, result, rfl, hconcludes⟩
    · cases hcalled
    · have hinner := hconcludes.inner
      have hcall : call = c := by
        rcases List.mem_append.mp hcalled with he | he
        · rcases List.mem_cons.mp he with he | he
          · exact (CallEvent.called.inj he).symm
          · cases hinner _ he
        · cases List.mem_singleton.mp he
      have hresult : result = res := by
        rcases List.mem_append.mp hres with he | he
        · rcases List.mem_cons.mp he with he | he
          · cases he
          · cases hinner _ he
        · exact (CallEvent.returned.inj (List.mem_singleton.mp he)).symm
      subst hcall hresult
      exact ⟨past, rfl, hconcludes⟩
  | queued job => exact absurd hres (Job.Pending.not_returned h)
  | connecting job => exact absurd hres (Job.Pending.not_returned h)
  | onWire job =>
    obtain ⟨past, rfl, hpending⟩ := h
    rcases List.mem_append.mp hres with he | he
    · exact absurd he hpending.not_returned
    · cases List.mem_singleton.mp he
  | sleeping r wakeAt =>
    have hpending : (Job.read r).Pending cfg history := h
    exact absurd hres hpending.not_returned

section Writing

variable {addr fc : ℤ} {value : Option ℤ} {values : Option (List ℤ)}

theorem Job.Pending.write (h : job.Pending cfg history)
    (hcalled : .called (.write addr value fc values) ∈ history) :
    sentIn history = [] ∧
      ∃ words, coerceWriteArgs value values fc = .ok words ∧ job.wire = .write addr fc words := by
  cases job with
  | read r =>
    obtain ⟨errs, past, rfl, htries, -⟩ := h
    rcases List.mem_cons.mp hcalled with he | he
    · cases he
    · cases htries.inner _ he
  | write w =>
    obtain ⟨value', values', hwords, rfl⟩ := h
    cases List.mem_singleton.mp hcalled
    exact ⟨rfl, w.words, hwords, rfl⟩

theorem Concludes.write (h : Concludes cfg (.write addr value fc values) past res) :
    sentIn past = [] ∨
      ∃ words, coerceWriteArgs value values fc = .ok words ∧
        sentIn past = [.write addr fc words] := by
  cases h with
  | refused => exact Or.inl rfl
  | @written _ _ _ _ words ms hwords => exact Or.inr ⟨words, hwords, rfl⟩
  | @notWritten _ _ _ _ words _ e ms hwords htries =>
    obtain ⟨hle, hreq⟩ := htries.sent
    rcases hput : sentIn past with _ | ⟨req, rest⟩
    · exact Or.inl rfl
    · rw [hput] at hle hreq
      have hrest : rest = [] := by simpa using hle
      exact Or.inr ⟨words, hwords, by rw [hrest, hreq req (by simp)]⟩

theorem CallState.Told.write (h : state.Told cfg history)
    (hcalled : .called (.write addr value fc values) ∈ history) :
    sentIn history = [] ∨ ∃ words, coerceWriteArgs value values fc = .ok words ∧
      sentIn history = [.write addr fc words] := by
  cases state with
  | done =>
    rcases h with rfl | ⟨call, past, result, rfl, hconcludes⟩
    · exact Or.inl rfl
    · have hcall : call = .write addr value fc values := by
        rcases List.mem_append.mp hcalled with he | he
        · rcases List.mem_cons.mp he with he | he
          · exact (CallEvent.called.inj he).symm
          · cases hconcludes.inner _ he
        · cases List.mem_singleton.mp he
      subst hcall
      have hput : sentIn (.called (.write addr value fc values) :: past ++ [.returned result]) =
          sentIn past := by
        rw [List.cons_append]
        simp [sentIn]
      rw [hput]
      exact hconcludes.write
  | queued job => exact Or.inl (Job.Pending.write h hcalled).1
  | connecting job => exact Or.inl (Job.Pending.write h hcalled).1
  | onWire job =>
    obtain ⟨past, rfl, hpending⟩ := h
    have hpast : .called (.write addr value fc values) ∈ past := by
      rcases List.mem_append.mp hcalled with he | he
      · exact he
      · cases List.mem_singleton.mp he
    obtain ⟨hnone, words, hwords, hwire⟩ := hpending.write hpast
    refine Or.inr ⟨words, hwords, ?_⟩
    rw [sentIn_append, hnone, hwire]
    rfl
  | sleeping r wakeAt =>
    have hpending : (Job.read r).Pending cfg history := h
    exact Or.inl (hpending.write hcalled).1

end Writing

end Reading

namespace Wire

variable {w : Wire} {ls : List ModbusLink.Label} {cfg : ClientConfig} {clock : ℚ}

theorem concludes_of_run (h : run step (start cfg clock) ls = some w) {i : ℕ} {c : ModbusCall}
    {res : ModbusResult} (hcalled : (i, .called c) ∈ w.trace)
    (hres : (i, .returned res) ∈ w.trace) :
    ∃ past, history i w.trace = .called c :: past ++ [.returned res] ∧
      Concludes cfg c past res := by
  obtain ⟨hcfg, htold⟩ := told_of_run h
  have hi := htold.told i
  rw [hcfg] at hi
  exact hi.returned (mem_history.mpr hcalled) (mem_history.mpr hres)

/-- A read that was answered returns the words of its last attempt, which has the length it asked
for; one that was not has used up its attempts and returns the reason of the last failure. It has
asked for the same registers each time. -/
theorem reads_return {cfg : ClientConfig} {clock : ℚ} {ls : List ModbusLink.Label} {w : Wire}
    (h : run step (start cfg clock) ls = some w) {i : ℕ} {addr count fc : ℤ} {res : ModbusResult}
    (hcalled : (i, .called (.read addr count fc)) ∈ w.trace)
    (hres : (i, .returned res) ∈ w.trace) :
    (∀ req ∈ sentIn (history i w.trace), req = .read addr count fc) ∧
    (sentIn (history i w.trace)).length ≤ (attemptsIn (history i w.trace)).length ∧
    (attemptsIn (history i w.trace) = [] ∧ res = .failure "not_connected" 0 ∨
      (∃ (errs : List String) (words : List ℤ),
        attemptsIn (history i w.trace) = errs.map .failed ++ [.got words] ∧
          errs.length ≤ cfg.retries ∧ (words.length : ℤ) = count ∧ res.ok = true ∧
          res.words = some words) ∨
      ∃ (errs : List String) (e : String),
        attemptsIn (history i w.trace) = errs.map .failed ++ [.failed e] ∧
          errs.length = cfg.retries ∧ res.ok = false ∧ res.words = none ∧ res.error = some e) := by
  obtain ⟨past, hhistory, hconcludes⟩ := concludes_of_run h hcalled hres
  have hsent : sentIn (history i w.trace) = sentIn past := by
    rw [hhistory, List.cons_append]
    simp [sentIn]
  have hattempts : attemptsIn (history i w.trace) = attemptsIn past := by
    rw [hhistory, List.cons_append]
    simp [attemptsIn]
  rw [hsent, hattempts]
  cases hconcludes with
  | refused hreason =>
    rcases hreason with rfl | ⟨_, _, _, _, hcall, -⟩
    · exact ⟨by simp [sentIn], le_rfl, Or.inl ⟨rfl, rfl⟩⟩
    · cases hcall
  | @answered _ _ _ errs tries words ms htries hlt hwords =>
    obtain ⟨hle, hreq⟩ := htries.sent
    have hgot : attemptsIn (tries ++ [.sent (.read addr count fc), .attempted (.got words)]) =
        errs.map .failed ++ [.got words] := by
      rw [attemptsIn_append, htries.attempts]
      rfl
    have hput : sentIn (tries ++ [.sent (.read addr count fc), .attempted (.got words)]) =
        sentIn tries ++ [.read addr count fc] := sentIn_append _ _
    rw [hgot, hput]
    refine ⟨fun req hmem => ?_, ?_, Or.inr (Or.inl ⟨errs, words, rfl, Nat.le_of_lt_succ hlt, hwords,
      rfl, rfl⟩)⟩
    · rcases List.mem_append.mp hmem with hmem | hmem
      · exact hreq req hmem
      · exact List.mem_singleton.mp hmem
    · simpa using hle
  | @exhausted _ _ _ errs _ e ms htries hlength hlast =>
    obtain ⟨hle, hreq⟩ := htries.sent
    obtain ⟨errs, rfl⟩ := List.getLast?_eq_some_iff.mp hlast
    rw [htries.attempts]
    refine ⟨hreq, by simpa using hle, Or.inr (Or.inr ⟨errs, e, List.map_append, ?_, rfl, rfl, rfl⟩)⟩
    simpa [ClientConfig.attempts] using hlength

/-- A write goes on the wire once at most, with the words it was called with, however long it has
been under way; it succeeds exactly if it was answered, and returns the words written. -/
theorem writes_go_out_once {cfg : ClientConfig} {clock : ℚ} {ls : List ModbusLink.Label} {w : Wire}
    (h : run step (start cfg clock) ls = some w) {i : ℕ} {addr fc : ℤ} {value : Option ℤ}
    {values : Option (List ℤ)} (hcalled : (i, .called (.write addr value fc values)) ∈ w.trace) :
    (sentIn (history i w.trace)).length ≤ 1 ∧
    (∀ req ∈ sentIn (history i w.trace), ∃ words, coerceWriteArgs value values fc = .ok words ∧
      req = .write addr fc words) ∧
    ∀ res, (i, .returned res) ∈ w.trace →
      (res.ok = true ↔ ∃ words, .got words ∈ attemptsIn (history i w.trace)) ∧
      (res.ok = true → ∃ words, coerceWriteArgs value values fc = .ok words ∧
        res.words = some words ∧ sentIn (history i w.trace) = [.write addr fc words]) := by
  obtain ⟨hcfg, htold⟩ := told_of_run h
  have hput := (htold.told i).write (mem_history.mpr hcalled)
  refine ⟨?_, ?_, fun res hres => ?_⟩
  · rcases hput with hput | ⟨words, hwords, hput⟩
    · simp [hput]
    · simp [hput]
  · intro req hreq
    rcases hput with hput | ⟨words, hwords, hput⟩
    · rw [hput] at hreq
      cases hreq
    · rw [hput] at hreq
      exact ⟨words, hwords, List.mem_singleton.mp hreq⟩
  · obtain ⟨past, hhistory, hconcludes⟩ := concludes_of_run h hcalled hres
    have hsent : sentIn (history i w.trace) = sentIn past := by
      rw [hhistory, List.cons_append]
      simp [sentIn]
    have hattempts : attemptsIn (history i w.trace) = attemptsIn past := by
      rw [hhistory, List.cons_append]
      simp [attemptsIn]
    rw [hsent, hattempts]
    cases hconcludes with
    | refused => simp [ModbusResult.failure, attemptsIn]
    | @written _ _ _ _ words ms hwords =>
      exact ⟨iff_of_true rfl ⟨words, List.mem_singleton_self _⟩, fun _ => ⟨words, hwords, rfl, rfl⟩⟩
    | notWritten hwords htries =>
      rw [htries.attempts]
      simp [ModbusResult.failure]

/-! ### Every call returns -/

end Wire

namespace ModbusLink

def potential (s : ModbusLink) : ℕ := ∑ i ∈ Finset.range s.next, (s.calls i).rank s.cfg

variable {s : ModbusLink} {l : Label}

/-- A call adds its steps, and a step of a call uses one up. -/
theorem Outcome.potential_le {r : ModbusLink × List (ℕ × CallEvent)} (h : Outcome s l r)
    (hs : s.Orderly) :
    r.1.potential + l.internal.toNat ≤
      s.potential + (4 * s.cfg.attempts + 3) * l.isCall.toNat := by
  have hexclusive : l.isCall = true → l.internal = false := by
    cases l <;> simp [Label.isCall, Label.internal]
  obtain ⟨hcfg, ⟨hl, -, hcalls, hnext⟩ | ⟨i, c, evs, hcalls, -, hadvances, -⟩⟩ := h.moves
  · simp [potential, hcfg, hcalls, hnext, hl]
  · have hlt := (hadvances.lt hs).1
    rcases hadvances with ⟨hl, rfl, hnext, hrank⟩ | ⟨hnext, hrank⟩
    · have hsame : ∑ j ∈ Finset.range s.next, (r.1.calls j).rank s.cfg = s.potential := by
        refine Finset.sum_congr rfl fun j hj => ?_
        rw [hcalls, Function.update_of_ne (Finset.mem_range.mp hj).ne]
      rw [hexclusive hl, hl, potential, hnext, hcfg, Finset.sum_range_succ, hsame, hcalls,
        Function.update_self]
      simpa using hrank
    · have hdrop : r.1.potential < s.potential := by
        rw [potential, hcfg, hnext]
        refine Finset.sum_lt_sum (fun j _ => ?_) ⟨i, by simpa [hnext] using hlt, ?_⟩
        · rw [hcalls]
          by_cases hji : j = i
          · subst hji
            rw [Function.update_self]
            exact hrank.le
          · rw [Function.update_of_ne hji]
        · rw [hcalls, Function.update_self]
          exact hrank
      have hone := Bool.toNat_le l.internal
      omega

/-- While a call is under way, some call can take a step. -/
theorem Orderly.can_step (hs : s.Orderly) {i : ℕ} (hi : s.calls i ≠ .done) :
    ∃ l, l.internal = true ∧ (s.step l).isSome = true := by
  have htick : ∀ now, s.clock ≤ now → s.tick now = some { s with clock := now } := by
    intro now hnow
    simp [tick, hnow]
  cases hholder : s.lock.holder with
  | some j =>
    have hj := (hs.holder j).mp hholder
    cases hcall : s.calls j with
    | connecting job =>
      refine ⟨.reconnected j false s.clock, rfl, ?_⟩
      simp [step, htick s.clock le_rfl, hcall]
    | onWire job =>
      refine ⟨.replied j .none s.clock, rfl, ?_⟩
      simp [step, htick s.clock le_rfl, hcall]
    | _ => simp [hcall, CallState.holds] at hj
  | none =>
    cases hwaiters : s.lock.waiters with
    | cons j rest =>
      have hj := (hs.waiting j).mp (by rw [hwaiters]; exact List.mem_cons_self)
      cases hcall : s.calls j with
      | queued job =>
        refine ⟨.wake j s.clock, rfl, ?_⟩
        have hlock : s.lock.wake? j = some ⟨some j, rest⟩ :=
          Mutex.wake?_eq_some.mpr ⟨hholder, hwaiters, rfl⟩
        simp [step, htick s.clock le_rfl, hlock, hcall]
      | _ => simp [hcall, CallState.isQueued] at hj
    | nil =>
      have hholds := hs.holder i
      have hqueued := hs.waiting i
      rw [hholder] at hholds
      rw [hwaiters] at hqueued
      cases hcall : s.calls i with
      | sleeping r wakeAt =>
        refine ⟨.slept i (max s.clock wakeAt), rfl, ?_⟩
        simp [step, htick _ (le_max_left _ _), hcall]
      | done => exact absurd hcall hi
      | _ => simp [hcall, CallState.holds, CallState.isQueued] at hholds hqueued

end ModbusLink

namespace Wire

variable {w : Wire} {ls : List ModbusLink.Label} {cfg : ClientConfig} {clock : ℚ}

theorem potential_of_run (h : run step (start cfg clock) ls = some w) :
    w.link.potential + ls.countP ModbusLink.Label.internal ≤
      (4 * cfg.attempts + 3) * ls.countP ModbusLink.Label.isCall := by
  induction ls using List.reverseRecOn generalizing w with
  | nil =>
    obtain rfl := Option.some.inj h
    simp [start, ModbusLink.init, ModbusLink.potential]
  | append_singleton ls l ih =>
    obtain ⟨u, hu, hstep⟩ := run_snoc_iff.mp h
    obtain ⟨r, hr, hlink, -⟩ := step_eq_some.mp hstep
    have hle := (ModbusLink.step_outcome hr).potential_le (orderly_of_run hu)
    have hcfg := (told_of_run hu).1
    have hu' := ih hu
    rw [hcfg] at hle
    rw [List.countP_append, List.countP_append, Nat.mul_add, hlink]
    have hinternal : [l].countP ModbusLink.Label.internal = l.internal.toNat := by
      cases hl : l.internal <;> simp [hl]
    have hcall : [l].countP ModbusLink.Label.isCall = l.isCall.toNat := by
      cases hl : l.isCall <;> simp [hl]
    rw [hinternal, hcall]
    omega

/-- The calls take boundedly many steps, a constant number for each call made; and when none of
them can take another, each has returned one result. -/
theorem calls_return {cfg : ClientConfig} {clock : ℚ} {ls : List ModbusLink.Label} {w : Wire}
    (h : run step (start cfg clock) ls = some w) :
    ls.countP ModbusLink.Label.internal ≤
      (4 * cfg.attempts + 3) * ls.countP ModbusLink.Label.isCall ∧
    ((∀ l : ModbusLink.Label, l.internal = true → w.link.step l = none) →
      ∀ i c, (i, .called c) ∈ w.trace → ∃ past res,
        history i w.trace = .called c :: past ++ [.returned res] ∧ Concludes cfg c past res) := by
  have horderly := orderly_of_run h
  refine ⟨?_, fun hstuck i c hcalled => ?_⟩
  · have hle := potential_of_run h
    omega
  · have hdone : w.link.calls i = .done := by
      by_contra hi
      obtain ⟨l, hl, hsome⟩ := horderly.can_step hi
      rw [hstuck l hl] at hsome
      cases hsome
    obtain ⟨hcfg, htold⟩ := told_of_run h
    have hi := htold.told i
    rw [hdone, hcfg] at hi
    have hmem := mem_history.mpr hcalled
    rcases hi with hnil | ⟨call, past, res, hhistory, hconcludes⟩
    · rw [hnil] at hmem
      cases hmem
    · have hres : (i, .returned res) ∈ w.trace := by
        rw [← mem_history, hhistory]
        simp
      obtain ⟨past, hhistory, hconcludes⟩ := concludes_of_run h hcalled hres
      exact ⟨past, res, hhistory, hconcludes⟩

section Example

/-- The read times out; the write goes next, and then the second attempt of the read. -/
def readAfterWrite : List ModbusLink.Label :=
  readThenWrite ++ [.replied 0 .timeout 1, .wake 1 1, .replied 1 (.registers none) 2, .slept 0 3,
    .replied 0 (.registers (some (List.replicate 10 7))) 4]

theorem run_readAfterWrite : ∃ w, run step (start twice 0) readAfterWrite = some w ∧
    (0, .called (.read 0x0080 10 3)) ∈ w.trace ∧
    (0, .returned (.success (List.replicate 10 7) 4000)) ∈ w.trace ∧
    (1, .called (.write 0x019C none 16 (some [128, 0, 0]))) ∈ w.trace := by
  have hrun : (run step (start twice 0) readAfterWrite).any (fun w =>
      (0, .called (.read 0x0080 10 3)) ∈ w.trace ∧
        (0, .returned (.success (List.replicate 10 7) 4000)) ∈ w.trace ∧
        (1, .called (.write 0x019C none 16 (some [128, 0, 0]))) ∈ w.trace) = true := by
    decide +kernel
  obtain ⟨w, hw, hmem⟩ := (Option.any_eq_true _ _).mp hrun
  exact ⟨w, hw, of_decide_eq_true hmem⟩

/-- The read returns after two attempts. -/
theorem read_retried : ∃ w res, run step (start twice 0) readAfterWrite = some w ∧
    (0, .returned res) ∈ w.trace ∧
    (sentIn (history 0 w.trace)).length ≤ (attemptsIn (history 0 w.trace)).length := by
  obtain ⟨w, hw, hcalled, hres, -⟩ := run_readAfterWrite
  exact ⟨w, _, hw, hres, (reads_return hw hcalled hres).2.1⟩

/-- The write between them is sent once. -/
theorem write_sent_once : ∃ w, run step (start twice 0) readAfterWrite = some w ∧
    (sentIn (history 1 w.trace)).length ≤ 1 := by
  obtain ⟨w, hw, -, -, hcalled⟩ := run_readAfterWrite
  exact ⟨w, hw, (writes_go_out_once hw hcalled).1⟩

/-- The two calls take five steps after they are made, of the twenty-two that they might. -/
theorem two_calls_return : readAfterWrite.countP ModbusLink.Label.internal ≤ 11 * 2 := by
  obtain ⟨w, hw, -⟩ := run_readAfterWrite
  exact (calls_return hw).1

end Example

end Wire

end GenWatch

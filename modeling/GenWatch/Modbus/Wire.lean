import Mathlib.Data.List.Nodup
import GenWatch.Modbus.Client

/-! # Calls on one link

Each step of the link lets one call queue, lets it in, or ends its attempt. What is on the
wire belongs to the call that holds the lock; a call that waits is overtaken by nobody; and
the history of a call decides what it returns.
-/

namespace GenWatch

open Transition

namespace Job

/-- The same request; a write may have read the clock again. -/
def Alike (job job' : Job) : Prop := job' = job ∨ ∃ now, job' = job.enter now

/-- The call is about the job: a read that has not been tried, or a write of its words. -/
def OfCall (job : Job) : ModbusCall → Prop
  | .read addr count fc => ∃ t0, job = .read ⟨addr, count, fc, t0, 0, "unknown"⟩
  | .write addr value fc values =>
    ∃ words t0, coerceWriteArgs value values fc = .ok words ∧ job = .write ⟨addr, words, fc, t0⟩

end Job

namespace ModbusLink

def Label.isCall : Label → Bool
  | .call .. => true
  | _ => false

def Label.internal : Label → Bool
  | .wake .. | .reconnected .. | .replied .. | .slept .. => true
  | _ => false

/-- A call that holds the lock opens the socket, goes on the wire, or fails. -/
inductive Tenure (s : ModbusLink) (i : ℕ) (job : Job) : ModbusLink × List CallEvent → Prop where
  | connecting {job' : Job} (hjob : job.Alike job') :
    Tenure s i job (s.setCall i (.connecting job'), [])
  | onWire {job' : Job} (hjob : job.Alike job') :
    Tenure s i job (s.setCall i (.onWire job'), [.sent job'.wire])
  | fails {job' : Job} (hjob : job.Alike job') (now : ℚ) (reason : String) :
    Tenure s i job (s.attemptEnds i now job' (.failed reason))

/-- Where a call comes from that goes for the lock, and what it has shown in this step. -/
inductive Origin (s : ModbusLink) (l : Label) : ℕ → Job → List CallEvent → ℕ → Prop where
  | new {c : ModbusCall} {job : Job} (hl : l.isCall = true) (hjob : job.OfCall c) :
    Origin s l s.next job [.called c] (s.next + 1)
  | again {i : ℕ} {r : ReadJob} {wakeAt : ℚ} (hcall : s.calls i = .sleeping r wakeAt) :
    Origin s l i (.read r) [] s.next

inductive Outcome (s : ModbusLink) (l : Label) : ModbusLink × List (ℕ × CallEvent) → Prop where
  | environment {v : ModbusLink} (hl : l.internal = false) (hcfg : v.cfg = s.cfg)
    (hlock : v.lock = s.lock) (hcalls : v.calls = s.calls) (hnext : v.next = s.next) :
    Outcome s l (v, [])
  | refused {v : ModbusLink} {c : ModbusCall} {reason : String} (hl : l.isCall = true)
    (hcfg : v.cfg = s.cfg) (hlock : v.lock = s.lock)
    (hcalls : v.calls = Function.update s.calls s.next .done) (hnext : v.next = s.next + 1)
    (hreason : reason = "not_connected" ∨ ∃ addr value fc values, c = .write addr value fc values ∧
      coerceWriteArgs value values fc = .error reason) :
    Outcome s l (v, [(s.next, .called c), (s.next, .returned (.failure reason 0))])
  | queues {v : ModbusLink} {i : ℕ} {job : Job} {evs : List CallEvent} {n : ℕ}
    (horigin : Origin s l i job evs n) (hopen : s.lock.open? = false) (hcfg : v.cfg = s.cfg)
    (hlock : v.lock = s.lock.enqueue i) (hcalls : v.calls = Function.update s.calls i (.queued job))
    (hnext : v.next = n) : Outcome s l (v, evs.map (i, ·))
  | enters {t : ModbusLink} {i : ℕ} {job : Job} {evs : List CallEvent} {n : ℕ}
    {r : ModbusLink × List CallEvent} (horigin : Origin s l i job evs n)
    (hopen : s.lock.open? = true) (hcfg : t.cfg = s.cfg) (hlock : t.lock = s.lock.take i)
    (hcalls : t.calls = s.calls) (hnext : t.next = n) (htenure : Tenure t i job r) :
    Outcome s l (r.1, evs.map (i, ·) ++ r.2.map (i, ·))
  | wakes {t : ModbusLink} {i : ℕ} {now : ℚ} {job : Job} {r : ModbusLink × List CallEvent}
    (hl : l = .wake i now) (hcall : s.calls i = .queued job) (hcfg : t.cfg = s.cfg)
    (hlock : s.lock.wake? i = some t.lock) (hcalls : t.calls = s.calls) (hnext : t.next = s.next)
    (htenure : Tenure t i job r) : Outcome s l (r.1, r.2.map (i, ·))
  | reconnected {t : ModbusLink} {i : ℕ} {job : Job} {r : ModbusLink × List CallEvent}
    (hcall : s.calls i = .connecting job) (hcfg : t.cfg = s.cfg) (hlock : t.lock = s.lock)
    (hcalls : t.calls = s.calls) (hnext : t.next = s.next) (htenure : Tenure t i job r)
    (hopened : ∀ job', r.1.calls i ≠ .connecting job') : Outcome s l (r.1, r.2.map (i, ·))
  | replied {t : ModbusLink} {i : ℕ} {job : Job} {reply : Reply} {now : ℚ}
    (hl : l = .replied i reply now)
    (hcall : s.calls i = .onWire job) (hcfg : t.cfg = s.cfg) (hlock : t.lock = s.lock)
    (hcalls : t.calls = s.calls) (hnext : t.next = s.next) :
    Outcome s l ((t.attemptEnds i now job (job.attempt reply)).1,
      (t.attemptEnds i now job (job.attempt reply)).2.map (i, ·))

section Inversion

variable {s t : ModbusLink} {l : Label} {i : ℕ} {now : ℚ} {job : Job}

theorem tick_eq_some : s.tick now = some t ↔ s.clock ≤ now ∧ { s with clock := now } = t := by
  simp [tick]

theorem attemptEnds_ne_connecting (s : ModbusLink) (i : ℕ) (now : ℚ) (job : Job) (a : Attempt)
    (job' : Job) : (s.attemptEnds i now job a).1.calls i ≠ .connecting job' := by
  have hended : (s.cfg.ended now job a).1 ≠ .connecting job' := by
    unfold ClientConfig.ended
    split
    · dsimp only
      split <;> simp
    all_goals simp
  simpa [attemptEnds, setCall] using hended

theorem transact_ne_connecting (s : ModbusLink) (i : ℕ) (now : ℚ) (job job' : Job) :
    (s.transact i now job).1.calls i ≠ .connecting job' := by
  unfold transact
  split
  · exact attemptEnds_ne_connecting s i now _ _ job'
  · simp [setCall]

theorem transact_tenure (s : ModbusLink) (i : ℕ) (now : ℚ) (job : Job) :
    Tenure s i job (s.transact i now job) := by
  unfold transact
  split
  · by_cases hsupported : job.supported = true
    · rw [if_pos hsupported]
      exact .fails (Or.inl rfl) now _
    · rw [if_neg hsupported]
      exact .fails (Or.inr ⟨now, rfl⟩) now _
  · exact .onWire (Or.inl rfl)

theorem Tenure.of_enter {r : ModbusLink × List CallEvent} (h : Tenure s i (job.enter now) r) :
    Tenure s i job r := by
  have halike : ∀ job', (job.enter now).Alike job' → job.Alike job' := by
    rintro job' (rfl | ⟨now', rfl⟩)
    · exact Or.inr ⟨now, rfl⟩
    · exact Or.inr ⟨now', by cases job <;> rfl⟩
  cases h with
  | connecting hjob => exact .connecting (halike _ hjob)
  | onWire hjob => exact .onWire (halike _ hjob)
  | fails hjob now' reason => exact .fails (halike _ hjob) now' reason

theorem locked_tenure (s : ModbusLink) (i : ℕ) (now : ℚ) (job : Job) :
    Tenure s i job (s.locked i now job) := by
  refine Tenure.of_enter (?_ : Tenure s i (job.enter now) _)
  unfold locked
  dsimp only
  split
  · exact transact_tenure s i now _
  · split
    · exact .fails (Or.inl rfl) now _
    · split
      · exact transact_tenure s i now _
      · exact .connecting (Or.inl rfl)

theorem acquire_outcome {evs : List CallEvent} {n : ℕ} (horigin : Origin s l i job evs n)
    (hcfg : t.cfg = s.cfg) (hlock : t.lock = s.lock) (hcalls : t.calls = s.calls)
    (hnext : t.next = n) :
    Outcome s l ((t.acquire i now job).1,
      evs.map (i, ·) ++ (t.acquire i now job).2.map (i, ·)) := by
  unfold acquire
  by_cases hopen : t.lock.open? = true
  · rw [if_pos hopen]
    rw [hlock] at hopen
    exact .enters (t := { t with lock := t.lock.take i }) horigin hopen hcfg
      (congrArg (Mutex.take · i) hlock) hcalls hnext (locked_tenure _ i now job)
  · rw [if_neg hopen, List.map_nil, List.append_nil]
    rw [hlock] at hopen
    refine .queues horigin (by simpa using hopen) hcfg ?_ ?_ hnext
    · rw [← hlock]
      rfl
    · rw [← hcalls]
      rfl

theorem spawn_outcome {c : ModbusCall} (hl : l.isCall = true) (hcfg : t.cfg = s.cfg)
    (hlock : t.lock = s.lock) (hcalls : t.calls = s.calls) (hnext : t.next = s.next + 1) :
    Outcome s l ((t.spawn s.next now c).1,
      (s.next, .called c) :: (t.spawn s.next now c).2.map (s.next, ·)) := by
  have hupdate : (t.setCall s.next .done).calls = Function.update s.calls s.next .done := by
    rw [← hcalls]
    rfl
  unfold spawn
  dsimp only
  split
  · exact .refused hl hcfg hlock hupdate hnext (Or.inl rfl)
  · split
    · rename_i addr count fc
      have hjob : Job.OfCall (.read ⟨addr, count, fc, now, 0, "unknown"⟩) (.read addr count fc) :=
        ⟨now, rfl⟩
      exact acquire_outcome (.new hl hjob) hcfg hlock hcalls hnext
    · rename_i addr value fc values
      split
      · rename_i reason hargs
        exact .refused hl hcfg hlock hupdate hnext (Or.inr ⟨addr, value, fc, values, rfl, hargs⟩)
      · rename_i words hargs
        have hjob : Job.OfCall (.write ⟨addr, words, fc, now⟩) (.write addr value fc values) :=
          ⟨words, now, hargs, rfl⟩
        exact acquire_outcome (.new hl hjob) hcfg hlock hcalls hnext

theorem step_outcome {r : ModbusLink × List (ℕ × CallEvent)} (h : s.step l = some r) :
    Outcome s l r := by
  cases l with
  | connect ok =>
    obtain rfl := Option.some.inj h
    exact .environment rfl rfl rfl rfl rfl
  | close =>
    obtain rfl := Option.some.inj h
    exact .environment rfl rfl rfl rfl rfl
  | socket up =>
    obtain rfl := Option.some.inj h
    exact .environment rfl rfl rfl rfl rfl
  | call c now =>
    obtain ⟨t, ht, rfl⟩ := Option.map_eq_some_iff.mp h
    obtain ⟨-, rfl⟩ := tick_eq_some.mp ht
    exact spawn_outcome rfl rfl rfl rfl rfl
  | wake i now =>
    obtain ⟨t, ht, h⟩ := Option.bind_eq_some_iff.mp h
    obtain ⟨-, rfl⟩ := tick_eq_some.mp ht
    obtain ⟨lock, hlock, h⟩ := Option.bind_eq_some_iff.mp h
    split at h
    · rename_i job hcall
      obtain rfl := Option.some.inj h
      exact .wakes (t := { s with clock := now, lock := lock }) rfl hcall rfl hlock rfl rfl
        (locked_tenure _ i now job)
    · cases h
  | reconnected i ok now =>
    obtain ⟨t, ht, h⟩ := Option.bind_eq_some_iff.mp h
    obtain ⟨-, rfl⟩ := tick_eq_some.mp ht
    split at h
    · rename_i job hcall
      obtain rfl := Option.some.inj h
      cases ok with
      | true =>
        exact .reconnected (t := { s with clock := now, connected := true }) hcall rfl rfl rfl rfl
          (transact_tenure _ i now job) (transact_ne_connecting _ i now job)
      | false =>
        exact .reconnected (t := { s with clock := now, connected := false }) hcall rfl rfl rfl rfl
          (.fails (Or.inl rfl) now _) (attemptEnds_ne_connecting _ i now job _)
    · cases h
  | replied i reply now =>
    obtain ⟨t, ht, h⟩ := Option.bind_eq_some_iff.mp h
    obtain ⟨-, rfl⟩ := tick_eq_some.mp ht
    split at h
    · rename_i job hcall
      obtain rfl := Option.some.inj h
      exact .replied (t := { s with clock := now }) rfl hcall rfl rfl rfl rfl
    · cases h
  | slept i now =>
    obtain ⟨t, ht, h⟩ := Option.bind_eq_some_iff.mp h
    obtain ⟨-, rfl⟩ := tick_eq_some.mp ht
    split at h
    · rename_i r wakeAt hcall
      obtain ⟨-, h⟩ := Option.ite_none_right_eq_some.mp h
      obtain rfl := Option.some.inj h
      exact acquire_outcome (s := s) (t := { s with clock := now }) (.again hcall) rfl rfl rfl rfl
    · cases h

end Inversion

/-! ### The lock and the calls -/

/-- The lock is held by the call that the socket or the wire is busy with, and the calls that wait
for it are in its queue. -/
structure Orderly (s : ModbusLink) : Prop where
  holder : ∀ i, s.lock.holder = some i ↔ (s.calls i).holds = true
  waiting : ∀ i, i ∈ s.lock.waiters ↔ (s.calls i).isQueued = true
  nodup : s.lock.waiters.Nodup
  fresh : ∀ i, s.next ≤ i → s.calls i = .done

/-- The call `i` has got the lock, and its state is about to be set. -/
structure Entered (s : ModbusLink) (i : ℕ) : Prop where
  holder : s.lock.holder = some i
  others : ∀ j ≠ i, (s.calls j).holds = false
  waiting : ∀ j ≠ i, j ∈ s.lock.waiters ↔ (s.calls j).isQueued = true
  absent : i ∉ s.lock.waiters
  nodup : s.lock.waiters.Nodup
  fresh : ∀ j, s.next ≤ j → j ≠ i ∧ s.calls j = .done

section Order

variable {s t : ModbusLink} {l : Label} {i : ℕ} {job : Job}

theorem orderly_init (cfg : ClientConfig) (clock : ℚ) : (init cfg clock).Orderly where
  holder _ := by simp [init, Mutex.free, CallState.holds]
  waiting _ := by simp [init, Mutex.free, CallState.isQueued]
  nodup := List.nodup_nil
  fresh _ _ := rfl

/-- Only the call whose turn it is holds the lock. -/
theorem Orderly.others (h : s.Orderly) (hi : (s.calls i).holds = true) :
    ∀ j ≠ i, (s.calls j).holds = false := by
  intro j hj
  by_contra hne
  have hjh := (h.holder j).mpr (by simpa using hne)
  rw [(h.holder i).mpr hi] at hjh
  exact hj (Option.some.inj hjh).symm

theorem Entered.setCall_holds (h : t.Entered i) {c : CallState} (hc : c.holds = true) :
    (t.setCall i c).Orderly := by
  have hqueued : c.isQueued = false := by cases c <;> first | rfl | cases hc
  refine ⟨fun j => ?_, fun j => ?_, h.nodup, fun j hj => ?_⟩
  · by_cases hji : j = i
    · subst hji
      simp [setCall, h.holder, hc]
    · simp [setCall, h.holder, hji, Ne.symm hji, h.others j hji]
  · by_cases hji : j = i
    · subst hji
      simp [setCall, h.absent, hqueued]
    · simp [setCall, hji, h.waiting j hji]
  · simp [setCall, (h.fresh j hj).1, (h.fresh j hj).2]

theorem Entered.release_setCall (h : t.Entered i) {c : CallState} (hc : c.holds = false)
    (hqueued : c.isQueued = false) : (t.release.setCall i c).Orderly := by
  refine ⟨fun j => ?_, fun j => ?_, h.nodup, fun j hj => ?_⟩
  · by_cases hji : j = i
    · subst hji
      simp [setCall, release, Mutex.release, hc]
    · simp [setCall, release, Mutex.release, hji, h.others j hji]
  · by_cases hji : j = i
    · subst hji
      simp [setCall, release, Mutex.release, h.absent, hqueued]
    · simp [setCall, release, Mutex.release, hji, h.waiting j hji]
  · exact (Function.update_of_ne (h.fresh j hj).1 _ _).trans (h.fresh j hj).2

theorem ended_free (cfg : ClientConfig) (now : ℚ) (job : Job) (a : Attempt) :
    (cfg.ended now job a).1.holds = false ∧ (cfg.ended now job a).1.isQueued = false := by
  unfold ClientConfig.ended
  split
  · dsimp only
    split <;> exact ⟨rfl, rfl⟩
  all_goals exact ⟨rfl, rfl⟩

theorem Entered.attemptEnds (h : t.Entered i) (now : ℚ) (job : Job) (a : Attempt) :
    (t.attemptEnds i now job a).1.Orderly :=
  h.release_setCall (ended_free _ _ _ _).1 (ended_free _ _ _ _).2

theorem Tenure.orderly {r : ModbusLink × List CallEvent} (h : Tenure t i job r) (ht : t.Entered i) :
    r.1.Orderly := by
  cases h with
  | connecting => exact ht.setCall_holds rfl
  | onWire => exact ht.setCall_holds rfl
  | fails _ now reason => exact ht.attemptEnds now _ _

theorem Orderly.entered (h : s.Orderly) (hi : (s.calls i).holds = true) (hlock : t.lock = s.lock)
    (hcalls : t.calls = s.calls) (hnext : t.next = s.next) : t.Entered i := by
  have hne : ∀ j, s.calls j = .done → j ≠ i := by
    rintro j hj rfl
    rw [hj] at hi
    cases hi
  refine ⟨?_, ?_, ?_, ?_, ?_, ?_⟩
  · rw [hlock]
    exact (h.holder i).mpr hi
  · rw [hcalls]
    exact h.others hi
  · rw [hlock, hcalls]
    exact fun j _ => h.waiting j
  · rw [hlock, h.waiting i]
    cases hc : s.calls i with
    | queued job => simp [hc, CallState.holds] at hi
    | _ => simp [CallState.isQueued]
  · rw [hlock]
    exact h.nodup
  · rw [hcalls, hnext]
    exact fun j hj => ⟨hne j (h.fresh j hj), h.fresh j hj⟩

theorem Origin.idle {evs : List CallEvent} {n : ℕ} (h : Origin s l i job evs n)
    (hs : s.Orderly) : (s.calls i).holds = false ∧ (s.calls i).isQueued = false ∧
      s.next ≤ n ∧ i < n := by
  cases h with
  | new =>
    rw [hs.fresh s.next le_rfl]
    exact ⟨rfl, rfl, Nat.le_succ _, Nat.lt_succ_self _⟩
  | again hcall =>
    have hlt : i < s.next := by
      by_contra hge
      rw [hs.fresh i (not_lt.mp hge)] at hcall
      cases hcall
    rw [hcall]
    exact ⟨rfl, rfl, le_rfl, hlt⟩

theorem Origin.queued {v : ModbusLink} {evs : List CallEvent} {n : ℕ} (h : Origin s l i job evs n)
    (hs : s.Orderly) (hlock : v.lock = s.lock.enqueue i)
    (hcalls : v.calls = Function.update s.calls i (.queued job)) (hnext : v.next = n) :
    v.Orderly := by
  obtain ⟨hholds, hqueued, hle, hlt⟩ := h.idle hs
  have habsent : i ∉ s.lock.waiters := by
    rw [hs.waiting i, hqueued]
    exact Bool.false_ne_true
  refine ⟨fun j => ?_, fun j => ?_, ?_, fun j hj => ?_⟩
  · rw [hlock, hcalls]
    by_cases hji : j = i
    · subst hji
      rw [Function.update_self]
      refine iff_of_false ?_ Bool.false_ne_true
      rw [Mutex.enqueue, hs.holder, hholds]
      exact Bool.false_ne_true
    · simp [Mutex.enqueue, hs.holder, hji]
  · rw [hlock, hcalls]
    by_cases hji : j = i
    · subst hji
      simp [Mutex.enqueue, CallState.isQueued]
    · simp [Mutex.enqueue, hs.waiting, hji]
  · rw [hlock]
    simpa [Mutex.enqueue] using List.Nodup.concat habsent hs.nodup
  · rw [hcalls, Function.update_of_ne (by omega)]
    exact hs.fresh j (by omega)

theorem Origin.entered {evs : List CallEvent} {n : ℕ} (h : Origin s l i job evs n)
    (hs : s.Orderly) (hopen : s.lock.open? = true) (hlock : t.lock = s.lock.take i)
    (hcalls : t.calls = s.calls) (hnext : t.next = n) : t.Entered i := by
  obtain ⟨hholds, hqueued, hle, hlt⟩ := h.idle hs
  obtain ⟨hfree, hempty⟩ := Mutex.open?_iff.mp hopen
  refine ⟨?_, fun j _ => ?_, fun j _ => ?_, ?_, ?_, fun j hj => ⟨by omega, ?_⟩⟩
  · rw [hlock]
    rfl
  · have hj := hs.holder j
    rw [hfree] at hj
    rw [hcalls]
    simpa using hj
  · rw [hlock, hcalls]
    exact hs.waiting j
  · simp [hlock, Mutex.take, hempty]
  · simp [hlock, Mutex.take, hempty]
  · rw [hcalls]
    exact hs.fresh j (by omega)

theorem Orderly.entered_of_wake (hs : s.Orderly) (hcall : s.calls i = .queued job)
    (hlock : s.lock.wake? i = some t.lock) (hcalls : t.calls = s.calls)
    (hnext : t.next = s.next) : t.Entered i := by
  obtain ⟨hfree, hfirst, hholder⟩ := Mutex.wake?_eq_some.mp hlock
  have hnodup := hs.nodup
  rw [hfirst] at hnodup
  obtain ⟨habsent, hrest⟩ := List.nodup_cons.mp hnodup
  refine ⟨hholder, fun j _ => ?_, fun j hj => ?_, habsent, hrest, fun j hj => ⟨?_, ?_⟩⟩
  · have hjh := hs.holder j
    rw [hfree] at hjh
    rw [hcalls]
    simpa using hjh
  · rw [hcalls, ← hs.waiting j, hfirst]
    simp [hj]
  · rintro rfl
    rw [hs.fresh j (by omega)] at hcall
    cases hcall
  · rw [hcalls]
    exact hs.fresh j (by omega)

theorem Outcome.orderly {r : ModbusLink × List (ℕ × CallEvent)} (h : Outcome s l r)
    (hs : s.Orderly) :
    r.1.Orderly := by
  cases h with
  | environment hl hcfg hlock hcalls hnext =>
    exact ⟨by simpa [hlock, hcalls] using hs.holder, by simpa [hlock, hcalls] using hs.waiting,
      by simpa [hlock] using hs.nodup, by simpa [hcalls, hnext] using hs.fresh⟩
  | refused hl hcfg hlock hcalls hnext =>
    have hsame : Function.update s.calls s.next .done = s.calls := by
      rw [← hs.fresh s.next le_rfl, Function.update_eq_self]
    rw [hsame] at hcalls
    refine ⟨by simpa [hlock, hcalls] using hs.holder, by simpa [hlock, hcalls] using hs.waiting,
      by simpa [hlock] using hs.nodup, fun j hj => ?_⟩
    rw [hcalls]
    exact hs.fresh j (by rw [hnext] at hj; omega)
  | queues horigin hopen hcfg hlock hcalls hnext => exact horigin.queued hs hlock hcalls hnext
  | enters horigin hopen hcfg hlock hcalls hnext htenure =>
    exact htenure.orderly (horigin.entered hs hopen hlock hcalls hnext)
  | wakes hl hcall hcfg hlock hcalls hnext htenure =>
    exact htenure.orderly (hs.entered_of_wake hcall hlock hcalls hnext)
  | reconnected hcall hcfg hlock hcalls hnext htenure =>
    exact htenure.orderly (hs.entered (by rw [hcall]; rfl) hlock hcalls hnext)
  | replied hl hcall hcfg hlock hcalls hnext =>
    exact (hs.entered (by rw [hcall]; rfl) hlock hcalls hnext).attemptEnds _ _ _

end Order

end ModbusLink

/-- The link with everything its calls have shown. -/
structure Wire where
  link : ModbusLink
  trace : List (ℕ × CallEvent)

namespace Wire

def start (cfg : ClientConfig) (clock : ℚ) : Wire := ⟨.init cfg clock, []⟩

def step (w : Wire) (l : ModbusLink.Label) : Option Wire :=
  (w.link.step l).map fun r => ⟨r.1, w.trace ++ r.2⟩

/-- The calls that have put a request on the wire, each time they did. -/
def senders (trace : List (ℕ × CallEvent)) : List ℕ :=
  trace.filterMap fun e =>
    match e.2 with
    | .sent _ => some e.1
    | _ => none

variable {w w' : Wire} {l : ModbusLink.Label} {cfg : ClientConfig} {clock : ℚ}

theorem step_eq_some :
    w.step l = some w' ↔
      ∃ r, w.link.step l = some r ∧ w'.link = r.1 ∧ w'.trace = w.trace ++ r.2 := by
  unfold step
  constructor
  · intro h
    obtain ⟨r, hr, rfl⟩ := Option.map_eq_some_iff.mp h
    exact ⟨r, hr, rfl, rfl⟩
  · rintro ⟨r, hr, hlink, htrace⟩
    rw [hr, Option.map_some, ← hlink, ← htrace]

@[simp] theorem senders_append (trace trace' : List (ℕ × CallEvent)) :
    senders (trace ++ trace') = senders trace ++ senders trace' :=
  List.filterMap_append

theorem senders_ended (i : ℕ) (now : ℚ) (job : Job) (a : Attempt) :
    senders ((cfg.ended now job a).2.map (i, ·)) = [] := by
  unfold ClientConfig.ended
  split
  · dsimp only
    split <;> rfl
  all_goals rfl

theorem senders_attemptEnds (s : ModbusLink) (i : ℕ) (now : ℚ) (job : Job) (a : Attempt) :
    senders ((s.attemptEnds i now job a).2.map (i, ·)) = [] :=
  senders_ended i now job a

theorem Orderly.of_run {ls : List ModbusLink.Label} (hw : w.link.Orderly)
    (h : run step w ls = some w') : w'.link.Orderly := by
  refine run_invariant (I := fun w => w.link.Orderly) (fun w l w' _ hw hstep => ?_) hw h
  obtain ⟨r, hr, hlink, -⟩ := step_eq_some.mp hstep
  rw [hlink]
  exact (ModbusLink.step_outcome hr).orderly hw

theorem orderly_of_run {ls : List ModbusLink.Label} (h : run step (start cfg clock) ls = some w) :
    w.link.Orderly :=
  Orderly.of_run (ModbusLink.orderly_init cfg clock) h

/-! ### Nobody is overtaken on the wire -/

section Overtaking

open Mutex (Op entrants)

/-- The calls that have held the lock since a state, beginning with the one that held it there. -/
def tenants (s : ModbusLink) (ops : List (Op ℕ)) : List ℕ := s.lock.holder.toList ++ entrants ops

/-- From `s` the lock has been used in these ways, and these calls have gone on the wire: each call
that has held the lock at most once, one that is still opening the socket not yet. -/
structure Watched (s s' : ModbusLink) (ops : List (Op ℕ)) (sent : List ℕ) : Prop where
  lock : run Mutex.step s.lock ops = some s'.lock
  last : ∀ i, s'.lock.holder = some i → (tenants s ops).getLast? = some i
  senders : sent.Sublist (tenants s ops)
  opening : ∀ i job, s'.calls i = .connecting job → sent.Sublist (tenants s ops).dropLast

variable {s t : ModbusLink} {ops : List (Op ℕ)} {sent : List ℕ} {i : ℕ} {job : Job}

theorem watched_refl (s : ModbusLink) : Watched s s [] [] where
  lock := rfl
  last i hi := by simp [tenants, hi, entrants]
  senders := List.nil_sublist _
  opening _ _ _ := List.nil_sublist _

theorem tenants_snoc (s : ModbusLink) (ops : List (Op ℕ)) (op : Op ℕ) :
    tenants s (ops ++ [op]) = tenants s ops ++ op.entrant?.toList := by
  cases h : op.entrant? <;> simp [tenants, entrants, List.filterMap_append, h]

theorem watched_release (hlock : run Mutex.step s.lock ops = some t.lock)
    (hsent : sent.Sublist (tenants s ops)) {v : ModbusLink} (hv : v.Orderly)
    (hrelease : v.lock = t.lock.release) : Watched s v (ops ++ [.release]) sent := by
  have hnone : v.lock.holder = none := by rw [hrelease]; rfl
  refine ⟨?_, ?_, ?_, fun i job hi => ?_⟩
  · rw [run_snoc_iff]
    exact ⟨t.lock, hlock, by rw [hrelease]; rfl⟩
  · simp [hnone]
  · simpa [tenants_snoc, Op.entrant?] using hsent
  · have hholder := (hv.holder i).mpr (by rw [hi]; rfl)
    rw [hnone] at hholder
    cases hholder

theorem watched_tenure {r : ModbusLink × List CallEvent} (h : ModbusLink.Tenure t i job r)
    (ht : t.Entered i) (hlock : run Mutex.step s.lock ops = some t.lock)
    (hlast : (tenants s ops).getLast? = some i) (hsent : sent.Sublist (tenants s ops).dropLast) :
    ∃ ops', Watched s r.1 (ops ++ ops') (sent ++ senders (r.2.map (i, ·))) ∧
      ∀ op ∈ ops', op = .release := by
  have hr := h.orderly ht
  cases h with
  | connecting =>
    refine ⟨[], ?_, by simp⟩
    rw [List.append_nil]
    refine ⟨hlock, fun j hj => ?_, ?_, fun _ _ _ => ?_⟩
    · rw [← Option.some.inj (ht.holder.symm.trans hj)]
      exact hlast
    · simpa [Wire.senders] using hsent.trans (List.dropLast_sublist _)
    · simpa [Wire.senders] using hsent
  | @onWire job' hjob =>
    refine ⟨[], ?_, by simp⟩
    rw [List.append_nil]
    refine ⟨hlock, fun j hj => ?_, ?_, fun j job hj => ?_⟩
    · rw [← Option.some.inj (ht.holder.symm.trans hj)]
      exact hlast
    · obtain ⟨init, hinit⟩ := List.getLast?_eq_some_iff.mp hlast
      rw [hinit, List.dropLast_concat] at hsent
      rw [hinit]
      exact hsent.append (List.Sublist.refl [i])
    · have hholder := (hr.holder j).mpr (by rw [hj]; rfl)
      obtain rfl : i = j := Option.some.inj (ht.holder.symm.trans hholder)
      simp [ModbusLink.setCall] at hj
  | fails hjob now reason =>
    refine ⟨[.release], ?_, by simp⟩
    rw [senders_attemptEnds, List.append_nil]
    exact watched_release hlock (hsent.trans (List.dropLast_sublist _)) hr rfl

theorem Watched.congr (hw : Watched s t ops sent) {v : ModbusLink} (hlock : v.lock = t.lock)
    (hcalls : v.calls = t.calls) : Watched s v ops sent where
  lock := by rw [hlock]; exact hw.lock
  last := by rw [hlock]; exact hw.last
  senders := hw.senders
  opening := by rw [hcalls]; exact hw.opening

theorem Watched.queues (hw : Watched s t ops sent) (hopen : t.lock.open? = false)
    {v : ModbusLink} (hlock : v.lock = t.lock.enqueue i)
    (hcalls : v.calls = Function.update t.calls i (.queued job)) :
    Watched s v (ops ++ [.enqueue i]) sent := by
  refine ⟨?_, fun j hj => ?_, ?_, fun j job' hj => ?_⟩
  · rw [run_snoc_iff]
    refine ⟨t.lock, hw.lock, ?_⟩
    rw [hlock]
    simp [Mutex.step, hopen]
  · rw [tenants_snoc]
    rw [hlock] at hj
    simpa [Op.entrant?] using hw.last j hj
  · simpa [tenants_snoc, Op.entrant?] using hw.senders
  · rw [hcalls] at hj
    by_cases hji : j = i
    · subst hji
      simp at hj
    · rw [Function.update_of_ne hji] at hj
      simpa [tenants_snoc, Op.entrant?] using hw.opening j job' hj

theorem senders_of_origin {l : ModbusLink.Label} {evs : List CallEvent} {n : ℕ}
    (h : ModbusLink.Origin t l i job evs n) : senders (evs.map (i, ·)) = [] := by
  cases h <;> rfl

/-- What a step adds: a call is resumed only under its own label. -/
theorem watched_outcome {l : ModbusLink.Label} {r : ModbusLink × List (ℕ × CallEvent)}
    (h : ModbusLink.Outcome t l r) (ht : t.Orderly) (hw : Watched s t ops sent) :
    ∃ ops', Watched s r.1 (ops ++ ops') (sent ++ senders r.2) ∧
      ∀ i, .wake i ∈ ops' → ∃ now, l = .wake i now := by
  have hr := h.orderly ht
  cases h with
  | environment hl hcfg hlock hcalls hnext =>
    refine ⟨[], ?_, by simp⟩
    rw [List.append_nil]
    simpa [Wire.senders] using hw.congr hlock hcalls
  | refused hl hcfg hlock hcalls hnext =>
    have hsame : Function.update t.calls t.next .done = t.calls := by
      rw [← ht.fresh t.next le_rfl, Function.update_eq_self]
    refine ⟨[], ?_, by simp⟩
    rw [List.append_nil]
    simpa [Wire.senders] using hw.congr hlock (hcalls.trans hsame)
  | @queues v i job evs n horig hopen hcfg hlock hcalls hnext =>
    refine ⟨[.enqueue i], ?_, by simp⟩
    rw [senders_of_origin horig, List.append_nil]
    exact hw.queues hopen hlock hcalls
  | @enters u i job evs n r horig hopen hcfg hlock hcalls hnext htenure =>
    have hrun : run Mutex.step s.lock (ops ++ [.take i]) = some u.lock := by
      rw [run_snoc_iff]
      refine ⟨t.lock, hw.lock, ?_⟩
      rw [hlock]
      simp [Mutex.step, hopen]
    have htenants : tenants s (ops ++ [.take i]) = tenants s ops ++ [i] := tenants_snoc ..
    obtain ⟨ops', hw', hrelease⟩ := watched_tenure htenure
      (horig.entered ht hopen hlock hcalls hnext) hrun (by simp [htenants])
      (by simpa [htenants] using hw.senders)
    refine ⟨.take i :: ops', ?_, fun j hj => ?_⟩
    · rw [senders_append, senders_of_origin horig, List.nil_append]
      simpa using hw'
    · rcases List.mem_cons.mp hj with he | he
      · cases he
      · cases hrelease _ he
  | @wakes u i now job r hl hcall hcfg hlock hcalls hnext htenure =>
    have hrun : run Mutex.step s.lock (ops ++ [.wake i]) = some u.lock :=
      run_snoc_iff.mpr ⟨t.lock, hw.lock, hlock⟩
    have htenants : tenants s (ops ++ [.wake i]) = tenants s ops ++ [i] := tenants_snoc ..
    obtain ⟨ops', hw', hrelease⟩ := watched_tenure htenure
      (ht.entered_of_wake hcall hlock hcalls hnext) hrun (by simp [htenants])
      (by simpa [htenants] using hw.senders)
    refine ⟨.wake i :: ops', by simpa using hw', fun j hj => ?_⟩
    rcases List.mem_cons.mp hj with he | he
    · obtain rfl : j = i := by injection he
      exact ⟨now, hl⟩
    · cases hrelease _ he
  | @reconnected u i job r hcall hcfg hlock hcalls hnext htenure =>
    have hentered := ht.entered (by rw [hcall]; rfl) hlock hcalls hnext
    have hlast := hw.last i (by rw [← hlock]; exact hentered.holder)
    obtain ⟨ops', hw', hrelease⟩ := watched_tenure htenure hentered (by rw [hlock]; exact hw.lock)
      hlast (hw.opening i job hcall)
    exact ⟨ops', hw', fun j hj => by cases hrelease _ hj⟩
  | @replied u i job reply now hl hcall hcfg hlock hcalls hnext =>
    refine ⟨[.release], ?_, by simp⟩
    rw [senders_attemptEnds, List.append_nil]
    exact watched_release (by rw [hlock]; exact hw.lock) hw.senders hr rfl

theorem watched_of_run {w w' : Wire} {ls : List ModbusLink.Label} (hw : w.link.Orderly)
    (h : run step w ls = some w') :
    ∃ ops evs, Watched w.link w'.link ops (senders evs) ∧ w'.trace = w.trace ++ evs ∧
      ∀ i, .wake i ∈ ops → ∃ now, .wake i now ∈ ls := by
  induction ls using List.reverseRecOn generalizing w' with
  | nil =>
    obtain rfl := Option.some.inj h
    exact ⟨[], [], watched_refl _, by simp, by simp⟩
  | append_singleton ls l ih =>
    obtain ⟨u, hu, hstep⟩ := run_snoc_iff.mp h
    obtain ⟨ops, evs, hwatched, htrace, hwakes⟩ := ih hu
    obtain ⟨r, hr, hlink, htrace'⟩ := step_eq_some.mp hstep
    obtain ⟨ops', hwatched', hwakes'⟩ :=
      watched_outcome (ModbusLink.step_outcome hr) (Orderly.of_run hw hu) hwatched
    refine ⟨ops ++ ops', evs ++ r.2, ?_, ?_, fun i hi => ?_⟩
    · rw [hlink, senders_append]
      exact hwatched'
    · rw [htrace', htrace, List.append_assoc]
    · rcases List.mem_append.mp hi with hi | hi
      · obtain ⟨now, hnow⟩ := hwakes i hi
        exact ⟨now, List.mem_append_left _ hnow⟩
      · obtain ⟨now, rfl⟩ := hwakes' i hi
        exact ⟨now, List.mem_append_right _ (List.mem_singleton_self _)⟩

end Overtaking

/-- One call at a time is busy with the socket or the wire. Until a call that waits is resumed, only
the call that held the lock and those ahead of it go on the wire, in that order and each once: a
read that fails meanwhile has its next attempt behind it. -/
theorem calls_take_turns {cfg : ClientConfig} {clock : ℚ} {ls : List ModbusLink.Label} {w : Wire}
    (h : run step (start cfg clock) ls = some w) :
    (∀ i j, (w.link.calls i).holds = true → (w.link.calls j).holds = true → i = j) ∧
    ∀ i ahead behind, w.link.lock.waiters = ahead ++ i :: behind →
      ∀ ls' w', run step w ls' = some w' → (∀ now, .wake i now ∉ ls') →
        ∃ evs rest behind', w'.trace = w.trace ++ evs ∧
          (senders evs).Sublist (w.link.lock.holder.toList ++ ahead) ∧
          w'.link.lock.waiters = rest ++ i :: behind' ∧ rest.IsSuffix ahead := by
  have horderly := orderly_of_run h
  constructor
  · intro i j hi hj
    by_contra hne
    rw [horderly.others hj i hne] at hi
    cases hi
  · intro i ahead behind hwaiters ls' w' hrun hno
    obtain ⟨ops, evs, hwatched, htrace, hwakes⟩ := watched_of_run horderly hrun
    have hops : Mutex.Op.wake i ∉ ops := fun hi => (hwakes i hi).elim hno
    obtain ⟨rest, behind', hahead, hrest⟩ := Mutex.run_waiting hwatched.lock hwaiters hops
    refine ⟨evs, rest, behind', htrace, ?_, hrest, ⟨_, hahead.symm⟩⟩
    rw [hahead]
    exact hwatched.senders.trans
      ((List.Sublist.refl _).append (List.sublist_append_left _ _))

section Example

def twice : ClientConfig := .new true 1 []

def readThenWrite : List ModbusLink.Label :=
  [.connect true, .call (.read 0x0080 10 3) 0, .call (.write 0x019C none 16 (some [128, 0, 0])) 0]

/-- The write waits for one transaction of the read, not for its second attempt. -/
theorem write_goes_next : ∃ w, run step (start twice 0) readThenWrite = some w ∧
    w.link.lock.waiters = [1] ∧ ∀ ls' w', run step w ls' = some w' →
      (∀ now, .wake 1 now ∉ ls') → ∃ evs rest behind', w'.trace = w.trace ++ evs ∧
        (senders evs).Sublist [0] ∧ w'.link.lock.waiters = rest ++ 1 :: behind' ∧
        rest.IsSuffix [] := by
  refine ⟨_, rfl, by decide, ?_⟩
  have hrun : run step (start twice 0) readThenWrite = some _ := rfl
  exact (calls_take_turns hrun).2 1 [] [] (by decide)

end Example

end Wire

end GenWatch

import GenWatch.Polling.Interleaving

/-! # What the callback drives

A service sits behind the poller's callback and changes with every poll, and now and then
on its own. The monotonic clock never runs backwards. Before every callback the reading
holds the last decodes, and none of them lies in the future.
-/

namespace GenWatch

open Transition

/-- The loops, the service behind the callback, and the monotonic clock. -/
structure Polled (σ : Type) where
  journal : PollJournal
  consumer : σ
  clock : ℚ

namespace Polled

/-- What can happen: a step of the loops, with what the callback gets from elsewhere, or anything
else that the service does. -/
inductive Label (ι κ : Type) where
  | loop (l : PollLoops.Label) (input : ι)
  | other (k : κ)

variable {σ ι κ : Type}

def start (m : RegisterMap) (now mono : ℚ) (a : σ) : Polled σ := ⟨.start m now, a, mono⟩

def callback (s : Polled σ) (l : PollLoops.Label) : Option Callback :=
  (s.journal.advance l).bind Prod.snd

variable (onPoll : σ → CommsHealth → Callback → ι → σ) (onOther : σ → κ → σ)

def serve (a : σ) (j : PollJournal) (cb : Option Callback) (input : ι) : σ :=
  match cb with
  | some cb => onPoll a j.loops.poller.link.health cb input
  | none => a

def step (s : Polled σ) : Label ι κ → Option (Polled σ)
  | .loop l input =>
    if ∃ mono ∈ l.mono?, mono < s.clock then none
    else (s.journal.advance l).map fun r =>
      ⟨r.1, serve onPoll s.consumer r.1 r.2 input, l.mono?.getD s.clock⟩
  | .other k => some { s with consumer := onOther s.consumer k }

variable {onPoll onOther} {m : RegisterMap} {s s' : Polled σ} {l : PollLoops.Label} {input : ι}

theorem step_loop (h : step onPoll onOther s (.loop l input) = some s') :
    (∀ mono ∈ l.mono?, s.clock ≤ mono) ∧ ∃ j cb, s.journal.advance l = some (j, cb) ∧
      s' = ⟨j, serve onPoll s.consumer j cb input, l.mono?.getD s.clock⟩ := by
  simp only [step] at h
  split at h
  · cases h
  · rename_i hclock
    obtain ⟨⟨j, cb⟩, hadvance, rfl⟩ := Option.map_eq_some_iff.mp h
    refine ⟨fun mono hmono => ?_, j, cb, hadvance, rfl⟩
    by_contra hback
    exact hclock ⟨mono, hmono, not_le.mp hback⟩

theorem step_other {k : κ} (h : step onPoll onOther s (.other k : Label ι κ) = some s') :
    s' = { s with consumer := onOther s.consumer k } :=
  (Option.some.inj h).symm

structure Timely (m : RegisterMap) (s : Polled σ) : Prop where
  consistent : s.journal.Consistent m
  past : ∀ c ∈ s.journal.done, c.mono ≤ s.clock

theorem timely_start (m : RegisterMap) (now mono : ℚ) (a : σ) : (start m now mono a).Timely m where
  consistent := PollJournal.consistent_start m now
  past _ hc := by cases hc

theorem mono_of_completed {loops : PollLoops} {c : Completion} (h : c ∈ loops.completed l) :
    l.mono? = some c.mono := by
  obtain ⟨tier, r, now, mono, poll, rfl, -, rfl⟩ := PollLoops.completed_eq_some h
  rfl

theorem Timely.step (hm : m.Accepted) (h : s.Timely m) {k : Label ι κ}
    (hs : step onPoll onOther s k = some s') : s'.Timely m := by
  cases k with
  | other k =>
    obtain rfl := step_other hs
    exact ⟨h.consistent, h.past⟩
  | loop l input =>
    obtain ⟨hclock, j, cb, hadvance, rfl⟩ := step_loop hs
    refine ⟨h.consistent.advance hm hadvance, fun c hc => ?_⟩
    obtain ⟨-, s₁, -, rfl⟩ := PollJournal.advance_eq_some hadvance
    have hforward : s.clock ≤ l.mono?.getD s.clock := by
      cases hmono : l.mono? with
      | none => exact le_rfl
      | some mono => exact hclock mono hmono
    rcases List.mem_append.mp hc with hnew | hold
    · rw [mono_of_completed (Option.mem_toList.mp hnew)]
      exact le_rfl
    · exact (h.past c hold).trans hforward

theorem step_callback (hs : step onPoll onOther s (.loop l input : Label ι κ) = some s')
    {cb : Callback} (hcb : s.callback l = some cb) :
    s'.consumer = onPoll s.consumer s'.journal.loops.poller.link.health cb input ∧
      cb.reading = s'.journal.loops.poller.reading ∧ cb.mono = s'.clock ∧
      ∃ poll, s'.journal.done = ⟨poll, cb.now, cb.mono⟩ :: s.journal.done := by
  obtain ⟨-, j, cb', hadvance, rfl⟩ := step_loop hs
  obtain rfl : cb' = some cb := by
    rw [callback, hadvance] at hcb
    exact hcb
  obtain ⟨-, s₁, hstep, rfl⟩ := PollJournal.advance_eq_some hadvance
  rcases PollLoops.step_completed hstep with
    ⟨tier, r, now, mono, poll, rfl, -, hcompleted, -, -, -, hcallback⟩ | ⟨-, -, hcallback⟩
  · obtain rfl := Option.some.inj hcallback
    exact ⟨rfl, rfl, rfl, (poll.returned r).1, by simp [hcompleted]⟩
  · cases hcallback

theorem step_quiet (hs : step onPoll onOther s (.loop l input : Label ι κ) = some s')
    (hcb : s.callback l = none) :
    s'.consumer = s.consumer ∧ s'.journal.done = s.journal.done := by
  obtain ⟨-, j, cb, hadvance, rfl⟩ := step_loop hs
  obtain rfl : cb = none := by
    rw [callback, hadvance] at hcb
    exact hcb
  obtain ⟨-, s₁, hstep, rfl⟩ := PollJournal.advance_eq_some hadvance
  rcases PollLoops.step_completed hstep with
    ⟨_, _, _, _, _, _, _, _, _, _, _, hcallback⟩ | ⟨hcompleted, -, -⟩
  · cases hcallback
  · exact ⟨rfl, by simp [hcompleted]⟩

theorem step_consumer {I : σ → Prop}
    (hpoll : ∀ a health cb input, I a → I (onPoll a health cb input))
    (hother : ∀ a k, I a → I (onOther a k)) {k : Label ι κ} (h : I s.consumer)
    (hs : step onPoll onOther s k = some s') : I s'.consumer := by
  cases k with
  | other k =>
    obtain rfl := step_other hs
    exact hother _ _ h
  | loop l input =>
    cases hcb : s.callback l with
    | none =>
      rw [(step_quiet hs hcb).1]
      exact h
    | some cb =>
      rw [(step_callback hs hcb).1]
      exact hpoll _ _ _ _ h

theorem Timely.read (h : s.Timely m) {name : String} {v : ℚ}
    (hv : s.journal.loops.poller.reading.values name = some v) :
    ∃ reg ∈ m.registers, reg.name = name ∧ ∃ c, lastRead reg s.journal.done = some (v, c) ∧
      s.journal.loops.poller.reading.valueAges name = some c.mono := by
  by_cases hname : name ∈ m.names
  · obtain ⟨reg, hreg, rfl⟩ := List.mem_map.mp hname
    have hentry := h.consistent.entries reg hreg
    obtain ⟨hvalue, hage⟩ := Prod.mk.inj hentry
    rw [hv] at hvalue
    obtain ⟨⟨v', age⟩, hdecode, rfl⟩ := Option.map_eq_some_iff.mp hvalue.symm
    obtain ⟨c, hread, rfl⟩ := lastRead_of_lastDecode hdecode
    exact ⟨reg, hreg, rfl, c, hread, by rw [hage, hdecode]; rfl⟩
  · have hnone := (Prod.mk.inj (h.consistent.others name hname)).1
    rw [hv] at hnone
    cases hnone

/-- A register read within the threshold of its tier has its value in the reading. -/
theorem Timely.present (h : s.Timely m) {reg : RegisterDef} (hreg : reg ∈ m.registers) {v : ℚ}
    {c : Completion} (hread : lastRead reg s.journal.done = some (v, c))
    (hfresh : s.clock - c.mono < m.staleThresholdS reg.tier) :
    s.journal.loops.poller.reading.entry reg.name = (some v, some c.mono) := by
  rw [h.consistent.entries reg hreg, lastDecode_of_lastRead hread h.past hfresh]
  rfl

end Polled

end GenWatch

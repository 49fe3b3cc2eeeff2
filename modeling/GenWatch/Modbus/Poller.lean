import GenWatch.Modbus.CommsHealth
import GenWatch.Modbus.Decoding

/-! # The two-tier poller

A poll captures the register map and the reads of its tier, awaits the reads one after
the other, and falls back to single words where a read fails. When the last one has
returned it decodes its registers into a copy of the current reading, drops the values
of its tier that have grown stale, and enters the callback, all before anything else can
run. The prime loop, the base loop and the watchdog interleave where they await.
-/

namespace GenWatch

/-- The outcome of a read: its words, or none if it failed, and how long it took. -/
structure ReadResult where
  words : Option (List ℤ)
  elapsedMs : ℚ

/-- The words of a batch, with the offsets that could not be read. -/
structure BatchResult where
  start : ℤ
  words : List ℤ
  failed : List ℕ

/-- The single-word reads of a failed batch, as far as they have returned. -/
structure FanOut where
  words : List ℤ
  failed : List ℕ
  anyOk : Bool
  elapsedMs : ℚ

/-- A poll in progress: the batches still to be read, the first of them under way. -/
structure Poll where
  tier : RegTier
  regmap : RegisterMap
  pending : List (ℤ × ℤ)
  fanOut : Option FanOut
  results : List BatchResult
  anyBatchOk : Bool

/-- Record a single word, or a zero in its place. -/
def FanOut.push (fan : FanOut) (r : ReadResult) : FanOut :=
  match r.words with
  | some (w :: _) => { fan with words := fan.words ++ [w], anyOk := true }
  | _ => { fan with words := fan.words ++ [0], failed := fan.failed ++ [fan.words.length] }

def tierStaleMultiplier : ℚ := 3

/-- The age at which a value of a tier is dropped. -/
def RegisterMap.staleThresholdS (m : RegisterMap) (tier : RegTier) : ℚ :=
  m.pollMs tier / 1000 * tierStaleMultiplier

namespace BatchResult

variable (b : BatchResult) (reg : RegisterDef)

def covers : Bool :=
  b.start ≤ reg.addr ∧ reg.addr + reg.words ≤ b.start + b.words.length

/-- The value of a register that the batch covers, unless one of its words failed. -/
def read : Option ℚ :=
  let offset := (reg.addr - b.start).toNat
  if ∃ o ∈ b.failed, offset ≤ o ∧ o < offset + reg.words then none
  else decodeValue reg ((b.words.drop offset).take reg.words)

end BatchResult

/-- What the batches say of a register: the first one that covers it decides. -/
def readRegister (results : List BatchResult) (reg : RegisterDef) : Option ℚ :=
  (results.find? (·.covers reg)).bind (·.read reg)

namespace Reading

/-- Decode a register; one that cannot be decoded keeps its value. -/
def stamp (results : List BatchResult) (mono : ℚ) (r : Reading) (reg : RegisterDef) : Reading :=
  match readRegister results reg with
  | some v =>
    { r with
      values := Function.update r.values reg.name (some v)
      valueAges := Function.update r.valueAges reg.name (some mono) }
  | none => r

/-- Drop a value that has grown stale, and its age with it. -/
def evict (threshold mono : ℚ) (r : Reading) (reg : RegisterDef) : Reading :=
  match r.valueAges reg.name with
  | none => r
  | some age =>
    if threshold ≤ mono - age then
      { r with
        values := Function.update r.values reg.name none
        valueAges := Function.update r.valueAges reg.name none }
    else r

end Reading

namespace Poll

variable (p : Poll)

def request : Option (ℤ × ℤ) :=
  match p.pending, p.fanOut with
  | [], _ => none
  | batch :: _, none => some batch
  | (start, _) :: _, some fan => some (start + fan.words.length, 1)

/-- Go on with the single words of the current batch, or close it; a closed batch is one
comms-health sample. -/
def settle (fan : FanOut) : Poll × Option (Bool × ℚ) :=
  match p.pending with
  | [] => (p, none)
  | (start, count) :: rest =>
    if fan.words.length < count.toNat then ({ p with fanOut := some fan }, none)
    else if fan.anyOk then
      ({ p with
        pending := rest
        fanOut := none
        results := p.results ++ [⟨start, fan.words, fan.failed⟩]
        anyBatchOk := true }, some (true, fan.elapsedMs))
    else ({ p with pending := rest, fanOut := none }, some (false, fan.elapsedMs))

def returned (r : ReadResult) : Poll × Option (Bool × ℚ) :=
  match p.pending, p.fanOut with
  | [], _ => (p, none)
  | _ :: _, some fan => p.settle (fan.push r)
  | (start, _) :: rest, none =>
    match r.words with
    | some words =>
      ({ p with
        pending := rest
        fanOut := none
        results := p.results ++ [⟨start, words, []⟩]
        anyBatchOk := true }, some (true, r.elapsedMs))
    | none => p.settle ⟨[], [], false, r.elapsedMs⟩

def reading (current : Reading) (now mono : ℚ) : Reading :=
  let regs := p.regmap.tier p.tier
  let decoded := regs.foldl (Reading.stamp p.results mono) current
  { regs.foldl (Reading.evict (p.regmap.staleThresholdS p.tier) mono) decoded with ts := now }

/-- Every register of the engine-state rules was decoded by this poll; a map without such rules
asks for any batch. -/
def stateFresh (r : Reading) (mono : ℚ) : Bool :=
  if p.regmap.engineStateBits = [] then p.anyBatchOk
  else p.regmap.engineStateBits.all fun rule => r.valueAges rule.register = some mono

end Poll

namespace Poll

variable {p : Poll} {start count : ℤ} {rest : List (ℤ × ℤ)} {fan : FanOut} {r : ReadResult}

theorem settle_eq (h : p.pending = (start, count) :: rest) :
    p.settle fan =
      if fan.words.length < count.toNat then ({ p with fanOut := some fan }, none)
      else if fan.anyOk then
        ({ p with
          pending := rest
          fanOut := none
          results := p.results ++ [⟨start, fan.words, fan.failed⟩]
          anyBatchOk := true }, some (true, fan.elapsedMs))
      else ({ p with pending := rest, fanOut := none }, some (false, fan.elapsedMs)) := by
  unfold settle
  split
  · rename_i hnil
    rw [h] at hnil
    cases hnil
  · rename_i hcons
    rw [h] at hcons
    cases hcons
    rfl

theorem returned_of_nil (h : p.pending = []) : p.returned r = (p, none) := by
  unfold returned
  split
  · rfl
  · rename_i hcons _
    rw [h] at hcons
    cases hcons
  · rename_i hcons _
    rw [h] at hcons
    cases hcons

theorem returned_of_fanOut (h : p.pending = (start, count) :: rest) (hfan : p.fanOut = some fan) :
    p.returned r = p.settle (fan.push r) := by
  unfold returned
  split
  · rename_i hnil
    rw [h] at hnil
    cases hnil
  · rename_i hfan'
    rw [hfan] at hfan'
    cases hfan'
    rfl
  · rename_i hnone
    rw [hfan] at hnone
    cases hnone

theorem returned_of_words (h : p.pending = (start, count) :: rest) (hfan : p.fanOut = none)
    {words : List ℤ} {ms : ℚ} :
    p.returned ⟨some words, ms⟩ =
      ({ p with
        pending := rest
        fanOut := none
        results := p.results ++ [⟨start, words, []⟩]
        anyBatchOk := true }, some (true, ms)) := by
  unfold returned
  split
  · rename_i hnil
    rw [h] at hnil
    cases hnil
  · rename_i hsome
    rw [hfan] at hsome
    cases hsome
  · rename_i hcons _
    rw [h] at hcons
    cases hcons
    rfl

theorem returned_of_failed (h : p.pending = (start, count) :: rest) (hfan : p.fanOut = none)
    {ms : ℚ} : p.returned ⟨none, ms⟩ = p.settle ⟨[], [], false, ms⟩ := by
  unfold returned
  split
  · rename_i hnil
    rw [h] at hnil
    cases hnil
  · rename_i hsome
    rw [hfan] at hsome
    cases hsome
  · rfl

theorem settle_same (p : Poll) (fan : FanOut) :
    (p.settle fan).1.tier = p.tier ∧ (p.settle fan).1.regmap = p.regmap := by
  unfold settle
  split
  · exact ⟨rfl, rfl⟩
  · split_ifs <;> exact ⟨rfl, rfl⟩

theorem returned_same (p : Poll) (r : ReadResult) :
    (p.returned r).1.tier = p.tier ∧ (p.returned r).1.regmap = p.regmap := by
  unfold returned
  split
  · exact ⟨rfl, rfl⟩
  · exact settle_same _ _
  · split
    · exact ⟨rfl, rfl⟩
    · exact settle_same _ _

end Poll

structure Poller where
  regmap : RegisterMap
  primeBatches : List (ℤ × ℤ)
  baseBatches : List (ℤ × ℤ)
  reading : Reading
  link : PollerHealth

namespace Poller

def ofMap (m : RegisterMap) (reading : Reading) (link : PollerHealth) : Poller where
  regmap := m
  primeBatches := batchReads (m.tier .prime)
  baseBatches := batchReads (m.tier .base)
  reading := reading
  link := link

def init (m : RegisterMap) (now : ℚ) : Poller :=
  ofMap m { Reading.empty with ts := now } (.initial m.primePollMs)

variable (p : Poller)

def batches : RegTier → List (ℤ × ℤ)
  | .prime => p.primeBatches
  | .base => p.baseBatches

/-- Swap the register map; a poll in progress keeps the one it captured. -/
def applyRegmap (m : RegisterMap) : Poller :=
  ofMap m p.reading { p.link with health := { p.link.health with rateMs := m.primePollMs } }

def capture (tier : RegTier) : Poll := ⟨tier, p.regmap, p.batches tier, none, [], false⟩

def recordSample (sample : Option (Bool × ℚ)) (now mono : ℚ) : Poller :=
  match sample with
  | some (ok, elapsedMs) => { p with link := p.link.record ok elapsedMs now mono }
  | none => p

@[simp] theorem recordSample_reading (sample : Option (Bool × ℚ)) (now mono : ℚ) :
    (p.recordSample sample now mono).reading = p.reading := by
  unfold recordSample
  split <;> rfl

@[simp] theorem recordSample_regmap (sample : Option (Bool × ℚ)) (now mono : ℚ) :
    (p.recordSample sample now mono).regmap = p.regmap := by
  unfold recordSample
  split <;> rfl

@[simp] theorem recordSample_batches (sample : Option (Bool × ℚ)) (now mono : ℚ) :
    (p.recordSample sample now mono).batches = p.batches := by
  unfold recordSample
  split <;> rfl

/-- The end of a poll: its reading becomes the current one, and a prime poll with fresh state
registers is the heartbeat. -/
def finish (poll : Poll) (now mono : ℚ) : Poller :=
  let reading := poll.reading p.reading now mono
  { p with
    reading := reading
    link := if poll.tier = .prime ∧ poll.stateFresh reading mono then p.link.primeGood mono
      else p.link }

end Poller

/-- Where the loop of a tier stands: between polls, waiting for a read, or in the callback. -/
inductive TierTask where
  | idle
  | reading (poll : Poll)
  | calling

def TierTask.isCalling : TierTask → Bool
  | calling => true
  | _ => false

theorem TierTask.isCalling_iff {t : TierTask} : t.isCalling = true ↔ t = calling := by
  cases t <;> simp [isCalling]

/-- The callback entered at the end of a poll, with the two clocks at that moment. -/
structure Callback where
  tier : RegTier
  reading : Reading
  now : ℚ
  mono : ℚ

/-- A completed poll, with the two clocks when it was completed. -/
structure Completion where
  poll : Poll
  now : ℚ
  mono : ℚ

/-- The poller with its loops; the watchdog has read its cadence before it went to sleep. -/
structure PollLoops where
  poller : Poller
  task : RegTier → TierTask
  watchMs : ℤ

namespace PollLoops

/-- What can happen at an await: a loop begins a poll, the read it waits for returns, its callback
returns, the watchdog wakes up, the map is swapped. -/
inductive Label where
  | begin (tier : RegTier)
  | returned (tier : RegTier) (r : ReadResult) (now mono : ℚ)
  | callbackDone (tier : RegTier)
  | wake (mono : ℚ)
  | applyRegmap (m : RegisterMap)

def init (m : RegisterMap) (now : ℚ) : PollLoops := ⟨.init m now, fun _ => .idle, m.primePollMs⟩

variable (s : PollLoops)

/-- A read returns to its poll; the last one ends the poll and enters the callback. -/
def returned (tier : RegTier) (poll : Poll) (r : ReadResult) (now mono : ℚ) :
    PollLoops × Option Callback :=
  let (poll, sample) := poll.returned r
  let poller := s.poller.recordSample sample now mono
  if poll.pending = [] then
    let poller := poller.finish poll now mono
    (⟨poller, Function.update s.task tier .calling, s.watchMs⟩,
      some ⟨tier, poller.reading, now, mono⟩)
  else (⟨poller, Function.update s.task tier (.reading poll), s.watchMs⟩, none)

/-- One step of a loop, with the callback it enters. -/
def step : Label → Option (PollLoops × Option Callback)
  | .begin tier =>
    match s.task tier with
    | .idle =>
      if s.poller.batches tier = [] then some (s, none)
      else
        some ({ s with task := Function.update s.task tier (.reading (s.poller.capture tier)) },
          none)
    | _ => none
  | .returned tier r now mono =>
    match s.task tier with
    | .reading poll => some (s.returned tier poll r now mono)
    | _ => none
  | .callbackDone tier =>
    match s.task tier with
    | .calling => some ({ s with task := Function.update s.task tier .idle }, none)
    | _ => none
  | .wake mono =>
    some (⟨{ s.poller with link := s.poller.link.watchdog s.watchMs mono }, s.task,
      s.poller.regmap.primePollMs⟩, none)
  | .applyRegmap m => some ({ s with poller := s.poller.applyRegmap m }, none)

section Steps

variable {s} {s' : PollLoops} {cb : Option Callback} {tier : RegTier} {r : ReadResult}
  {now mono : ℚ} {m : RegisterMap}

theorem step_begin (h : s.step (.begin tier) = some (s', cb)) :
    s.task tier = .idle ∧ cb = none ∧ (s.poller.batches tier = [] ∧ s' = s ∨
      s.poller.batches tier ≠ [] ∧
        s' =
          { s with task := Function.update s.task tier (.reading (s.poller.capture tier)) }) := by
  simp only [step] at h
  split at h
  · split at h
    · cases h
      exact ⟨‹_›, rfl, Or.inl ⟨‹_›, rfl⟩⟩
    · cases h
      exact ⟨‹_›, rfl, Or.inr ⟨‹_›, rfl⟩⟩
  · cases h

theorem step_returned (h : s.step (.returned tier r now mono) = some (s', cb)) :
    ∃ poll, s.task tier = .reading poll ∧ s.returned tier poll r now mono = (s', cb) := by
  simp only [step] at h
  split at h
  · exact ⟨_, ‹_›, Option.some.inj h⟩
  · cases h

theorem step_callbackDone (h : s.step (.callbackDone tier) = some (s', cb)) :
    s.task tier = .calling ∧ cb = none ∧
      s' = { s with task := Function.update s.task tier .idle } := by
  simp only [step] at h
  split at h
  · cases h
    exact ⟨‹_›, rfl, rfl⟩
  · cases h

theorem step_wake (h : s.step (.wake mono) = some (s', cb)) :
    cb = none ∧ s' = ⟨{ s.poller with link := s.poller.link.watchdog s.watchMs mono }, s.task,
      s.poller.regmap.primePollMs⟩ := by
  cases h
  exact ⟨rfl, rfl⟩

theorem step_applyRegmap (h : s.step (.applyRegmap m) = some (s', cb)) :
    cb = none ∧ s' = { s with poller := s.poller.applyRegmap m } := by
  cases h
  exact ⟨rfl, rfl⟩

end Steps

def completed : Label → Option Completion
  | .returned tier r now mono =>
    match s.task tier with
    | .reading poll =>
      if (poll.returned r).1.pending = [] then some ⟨(poll.returned r).1, now, mono⟩ else none
    | _ => none
  | _ => none

theorem completed_eq_some {s : PollLoops} {l : Label} {c : Completion}
    (h : s.completed l = some c) :
    ∃ tier r now mono poll, l = .returned tier r now mono ∧ s.task tier = .reading poll ∧
      c = ⟨(poll.returned r).1, now, mono⟩ := by
  unfold completed at h
  split at h
  · split at h
    · rename_i poll htask
      split at h
      · exact ⟨_, _, _, _, poll, rfl, htask, (Option.some.inj h).symm⟩
      · cases h
    · cases h
  · cases h

variable {poll : Poll} {r : ReadResult} (tier : RegTier) (now mono : ℚ)

theorem returned_last (h : (poll.returned r).1.pending = []) :
    s.returned tier poll r now mono =
      (⟨(s.poller.recordSample (poll.returned r).2 now mono).finish (poll.returned r).1 now mono,
        Function.update s.task tier .calling, s.watchMs⟩,
      some ⟨tier, ((s.poller.recordSample (poll.returned r).2 now mono).finish (poll.returned r).1
        now mono).reading, now, mono⟩) := by
  simp [returned, h]

theorem returned_more (h : (poll.returned r).1.pending ≠ []) :
    s.returned tier poll r now mono =
      (⟨s.poller.recordSample (poll.returned r).2 now mono,
        Function.update s.task tier (.reading (poll.returned r).1), s.watchMs⟩, none) := by
  simp [returned, h]

/-- A step that completes a poll assigns its reading and enters the callback with it; any other
step leaves the reading alone. -/
theorem step_completed {s s' : PollLoops} {l : Label} {cb : Option Callback}
    (h : s.step l = some (s', cb)) :
    (∃ tier r now mono poll, l = .returned tier r now mono ∧ s.task tier = .reading poll ∧
      s.completed l = some ⟨(poll.returned r).1, now, mono⟩ ∧
      s'.poller.reading = (poll.returned r).1.reading s.poller.reading now mono ∧
      s'.task = Function.update s.task tier .calling ∧ s'.poller.regmap = s.poller.regmap ∧
      cb = some ⟨tier, s'.poller.reading, now, mono⟩) ∨
    (s.completed l = none ∧ s'.poller.reading = s.poller.reading ∧ cb = none) := by
  cases l with
  | begin tier =>
    obtain ⟨-, rfl, ⟨-, rfl⟩ | ⟨-, rfl⟩⟩ := step_begin h
    · exact Or.inr ⟨rfl, rfl, rfl⟩
    · exact Or.inr ⟨rfl, rfl, rfl⟩
  | returned tier r now mono =>
    obtain ⟨poll, htask, hreturned⟩ := step_returned h
    by_cases hdone : (poll.returned r).1.pending = []
    · rw [returned_last s tier now mono hdone] at hreturned
      obtain ⟨rfl, rfl⟩ := Prod.mk.inj hreturned
      refine Or.inl ⟨tier, r, now, mono, poll, rfl, htask, ?_, ?_, rfl, ?_, rfl⟩
      · simp [completed, htask, hdone]
      · simp [Poller.finish]
      · simp [Poller.finish]
    · rw [returned_more s tier now mono hdone] at hreturned
      obtain ⟨rfl, rfl⟩ := Prod.mk.inj hreturned
      refine Or.inr ⟨?_, by simp, rfl⟩
      simp [completed, htask, hdone]
  | callbackDone tier =>
    obtain ⟨-, rfl, rfl⟩ := step_callbackDone h
    exact Or.inr ⟨rfl, rfl, rfl⟩
  | wake mono =>
    obtain ⟨rfl, rfl⟩ := step_wake h
    exact Or.inr ⟨rfl, rfl, rfl⟩
  | applyRegmap m =>
    obtain ⟨rfl, rfl⟩ := step_applyRegmap h
    exact Or.inr ⟨rfl, rfl, rfl⟩

/-- The poller is on this map, and so are the polls under way. -/
structure OnMap (m : RegisterMap) (s : PollLoops) : Prop where
  regmap : s.poller.regmap = m
  polls : ∀ tier poll, s.task tier = .reading poll → poll.regmap = m ∧ poll.tier = tier

def Label.mono? : Label → Option ℚ
  | .returned _ _ _ mono => some mono
  | .wake mono => some mono
  | _ => none

def Label.isSwap : Label → Bool
  | .applyRegmap _ => true
  | _ => false

theorem onMap_init (m : RegisterMap) (now : ℚ) : OnMap m (init m now) where
  regmap := rfl
  polls := by simp [init]

/-- The tier whose loop takes the step. -/
def Label.tier? : Label → Option RegTier
  | .begin tier | .returned tier _ _ _ | .callbackDone tier => some tier
  | .wake _ | .applyRegmap _ => none

section Polls

variable {s s' : PollLoops} {l : Label} {cb : Option Callback} {tier : RegTier} {poll : Poll}

theorem reading_of_update {task : RegTier → TierTask} {tier' : RegTier} {t : TierTask}
    (h : Function.update task tier' t tier = .reading poll) :
    tier = tier' ∧ t = .reading poll ∨ some tier' ≠ some tier ∧ task tier = .reading poll := by
  by_cases he : tier = tier'
  · subst he
    rw [Function.update_self] at h
    exact Or.inl ⟨rfl, h⟩
  · rw [Function.update_of_ne he] at h
    exact Or.inr ⟨fun hsome => he (Option.some.inj hsome).symm, h⟩

/-- A poll that is under way after a step has been left alone by it, or has begun, or goes on after
the read that has returned. -/
theorem reading_of_step (h : s.step l = some (s', cb)) (hpoll : s'.task tier = .reading poll) :
    l.tier? ≠ some tier ∧ s.task tier = .reading poll ∨
      l = .begin tier ∧ s.poller.batches tier ≠ [] ∧ poll = s.poller.capture tier ∨
      ∃ r now mono poll', l = .returned tier r now mono ∧ s.task tier = .reading poll' ∧
        poll = (poll'.returned r).1 ∧ poll.pending ≠ [] := by
  cases l with
  | begin tier' =>
    obtain ⟨hidle, -, ⟨-, rfl⟩ | ⟨hbatches, rfl⟩⟩ := step_begin h
    · left
      refine ⟨?_, hpoll⟩
      rintro ⟨⟩
      rw [hidle] at hpoll
      cases hpoll
    · rcases reading_of_update hpoll with ⟨rfl, ⟨⟩⟩ | hother
      · exact Or.inr (Or.inl ⟨rfl, hbatches, rfl⟩)
      · exact Or.inl hother
  | returned tier' r now mono =>
    obtain ⟨poll', htask, hreturned⟩ := step_returned h
    by_cases hdone : (poll'.returned r).1.pending = []
    · rw [returned_last s tier' now mono hdone] at hreturned
      obtain ⟨rfl, -⟩ := Prod.mk.inj hreturned
      rcases reading_of_update hpoll with ⟨-, ⟨⟩⟩ | hother
      exact Or.inl hother
    · rw [returned_more s tier' now mono hdone] at hreturned
      obtain ⟨rfl, -⟩ := Prod.mk.inj hreturned
      rcases reading_of_update hpoll with ⟨rfl, ⟨⟩⟩ | hother
      · exact Or.inr (Or.inr ⟨r, now, mono, poll', rfl, htask, rfl, hdone⟩)
      · exact Or.inl hother
  | callbackDone tier' =>
    obtain ⟨-, -, rfl⟩ := step_callbackDone h
    rcases reading_of_update hpoll with ⟨-, ⟨⟩⟩ | hother
    exact Or.inl hother
  | wake mono =>
    obtain ⟨-, rfl⟩ := step_wake h
    exact Or.inl ⟨by rintro ⟨⟩, hpoll⟩
  | applyRegmap m =>
    obtain ⟨-, rfl⟩ := step_applyRegmap h
    exact Or.inl ⟨by rintro ⟨⟩, hpoll⟩

/-- Only a swap changes the map and its batches. -/
theorem poller_of_step (h : s.step l = some (s', cb)) (hl : l.isSwap = false) :
    s'.poller.regmap = s.poller.regmap ∧ s'.poller.batches = s.poller.batches := by
  cases l with
  | begin tier =>
    obtain ⟨-, -, ⟨-, rfl⟩ | ⟨-, rfl⟩⟩ := step_begin h
    · exact ⟨rfl, rfl⟩
    · exact ⟨rfl, rfl⟩
  | returned tier r now mono =>
    obtain ⟨poll, -, hreturned⟩ := step_returned h
    by_cases hdone : (poll.returned r).1.pending = []
    · rw [returned_last s tier now mono hdone] at hreturned
      obtain ⟨rfl, -⟩ := Prod.mk.inj hreturned
      exact ⟨s.poller.recordSample_regmap _ _ _, s.poller.recordSample_batches _ _ _⟩
    · rw [returned_more s tier now mono hdone] at hreturned
      obtain ⟨rfl, -⟩ := Prod.mk.inj hreturned
      exact ⟨s.poller.recordSample_regmap _ _ _, s.poller.recordSample_batches _ _ _⟩
  | callbackDone tier =>
    obtain ⟨-, -, rfl⟩ := step_callbackDone h
    exact ⟨rfl, rfl⟩
  | wake mono =>
    obtain ⟨-, rfl⟩ := step_wake h
    exact ⟨rfl, rfl⟩
  | applyRegmap m => cases hl

theorem OnMap.step {m : RegisterMap} (h : OnMap m s) (hl : l.isSwap = false)
    (hs : s.step l = some (s', cb)) : OnMap m s' where
  regmap := (poller_of_step hs hl).1.trans h.regmap
  polls tier poll hpoll := by
    rcases reading_of_step hs hpoll with
      ⟨-, htask⟩ | ⟨-, -, rfl⟩ | ⟨r, _, _, poll', -, htask, rfl, -⟩
    · exact h.polls tier poll htask
    · exact ⟨h.regmap, rfl⟩
    · obtain ⟨htier, hmap⟩ := poll'.returned_same r
      rw [htier, hmap]
      exact h.polls tier poll' htask

end Polls

end PollLoops

end GenWatch

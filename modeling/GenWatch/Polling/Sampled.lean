import GenWatch.Polling.Consumer
import GenWatch.Polling.Slave

/-! # When the words were read

A poll reads its batches one after the other and decodes them all when the last one has
returned. So a value in the reading is older than the poll that decoded it: its words were
read when the slave answered the batch, or one by one at different moments if the batch had
to be split. The moments are kept here beside the loops, which do not know them.
-/

namespace GenWatch

open Transition

/-- A result of a batch, with the moment at which each of its words was read. -/
abbrev TimedBatch (τ : Type) := BatchResult × List τ

/-- The moments of a poll under way: of the batches closed so far, and of the single words read of
the batch that had to be split. -/
structure Moments (τ : Type) where
  closed : List (TimedBatch τ)
  singles : List τ

/-- A decoded register: its value, its words, and the moment at which each of them was read. -/
structure RegisterSample (τ : Type) where
  value : ℚ
  words : List ℤ
  moments : List τ

variable {τ : Type}

namespace Moments

def empty : Moments τ := ⟨[], []⟩

/-- The slave answered at `t` the read that returns now. A whole batch has one moment, a word read
by itself its own. -/
def returned (g : Moments τ) (p : Poll) (r : ReadResult) (t : τ) : Moments τ :=
  let singles := if p.fanOut.isSome then g.singles ++ [t] else []
  { closed := g.closed ++ ((p.returned r).1.results.drop p.results.length).map fun b =>
      (b, if p.fanOut.isSome then singles else List.replicate b.words.length t)
    singles := singles }

/-- The moments are those of the poll, word by word. -/
structure Follows (g : Moments τ) (p : Poll) : Prop where
  results : g.closed.map Prod.fst = p.results
  lengths : ∀ x ∈ g.closed, x.2.length = x.1.words.length
  singles : ∀ fan ∈ p.fanOut, g.singles.length = fan.words.length

theorem follows_empty (p : Poller) (tier : RegTier) :
    (empty : Moments τ).Follows (p.capture tier) where
  results := rfl
  lengths _ hx := by cases hx
  singles _ hfan := by cases hfan

end Moments

theorem FanOut.length_push (fan : FanOut) (r : ReadResult) :
    (fan.push r).words.length = fan.words.length + 1 := by
  unfold FanOut.push
  split <;> simp

namespace Poll

variable {p : Poll}

/-- What a read that returns adds to the results, and how many single words there are then. -/
structure Adds (p p' : Poll) (words : ℕ) : Prop where
  results : ∃ new, p'.results = p.results ++ new ∧
    ∀ b ∈ new, p.fanOut.isSome = true → b.words.length = words
  fanOut : ∀ fan ∈ p'.fanOut, fan.words.length = words

theorem adds_settle (hp : p.pending ≠ []) (fan : FanOut) :
    p.Adds (p.settle fan).1 fan.words.length := by
  obtain ⟨⟨start, count⟩, rest, hpending⟩ := List.exists_cons_of_ne_nil hp
  rw [settle_eq hpending]
  split
  · constructor
    · exact ⟨[], by simp, by rintro b ⟨⟩⟩
    · rintro fan' ⟨⟩
      rfl
  · split
    · constructor
      · exact ⟨[_], rfl, fun b hb _ => by rw [List.mem_singleton.mp hb]⟩
      · rintro fan' ⟨⟩
    · constructor
      · exact ⟨[], by simp, by rintro b ⟨⟩⟩
      · rintro fan' ⟨⟩

theorem adds_returned (hp : p.pending ≠ []) (r : ReadResult) :
    p.Adds (p.returned r).1 ((p.fanOut.map fun fan => fan.words.length + 1).getD 0) := by
  obtain ⟨⟨start, count⟩, rest, hpending⟩ := List.exists_cons_of_ne_nil hp
  cases hfan : p.fanOut with
  | some fan =>
    rw [returned_of_fanOut hpending hfan, Option.map_some, Option.getD_some, ← fan.length_push r]
    exact adds_settle hp _
  | none =>
    obtain ⟨_ | words, ms⟩ := r
    · rw [returned_of_failed hpending hfan]
      exact adds_settle hp _
    · rw [returned_of_words hpending hfan]
      constructor
      · exact ⟨[_], rfl, fun b _ hsome => by rw [hfan] at hsome; cases hsome⟩
      · rintro fan' ⟨⟩

end Poll

theorem Moments.Follows.returned {g : Moments τ} {p : Poll} (h : g.Follows p)
    (hp : p.pending ≠ []) (r : ReadResult) (t : τ) :
    (g.returned p r t).Follows (p.returned r).1 := by
  have hadds := p.adds_returned hp r
  obtain ⟨new, hnew, hwords⟩ := hadds.results
  have hdrop : (p.returned r).1.results.drop p.results.length = new := by
    rw [hnew, List.drop_left]
  constructor
  · rw [Moments.returned, hdrop, hnew]
    simp [h.results, Function.comp_def]
  · intro x hx
    simp only [Moments.returned, hdrop] at hx
    rcases List.mem_append.mp hx with hold | hadded
    · exact h.lengths x hold
    · obtain ⟨b, hb, rfl⟩ := List.mem_map.mp hadded
      cases hfan : p.fanOut with
      | none => simp
      | some fan =>
        have hlength := hwords b hb (by rw [hfan]; rfl)
        simp only [hfan, Option.map_some, Option.getD_some] at hlength
        simp [hlength, h.singles fan hfan]
  · intro fan' hfan'
    rw [hadds.fanOut fan' hfan']
    cases hfan : p.fanOut with
    | none => simp [Moments.returned, hfan]
    | some fan => simp [Moments.returned, hfan, h.singles fan hfan]

/-! ### Samples -/

section Samples

variable {reg : RegisterDef} {closed : List (TimedBatch τ)} {x : RegisterSample τ}

def sampleOf (closed : List (TimedBatch τ)) (reg : RegisterDef) : Option (RegisterSample τ) :=
  (closed.find? fun b => b.1.covers reg).bind fun b =>
    (b.1.slice reg).bind fun words => (decodeValue reg words).map fun v =>
      ⟨v, words, (b.2.drop (reg.addr - b.1.start).toNat).take reg.words⟩

theorem sampleOf_value (closed : List (TimedBatch τ)) (reg : RegisterDef) :
    (sampleOf closed reg).map RegisterSample.value = readRegister (closed.map Prod.fst) reg := by
  rw [readRegister_eq, registerWords, List.find?_map, sampleOf]
  change _ = ((Option.map Prod.fst (closed.find? fun b => b.1.covers reg)).bind _).bind _
  cases closed.find? fun b => b.1.covers reg with
  | none => rfl
  | some b =>
    simp only [Option.bind_some, Option.map_some]
    cases b.1.slice reg with
    | none => rfl
    | some words => cases hv : decodeValue reg words <;> simp [hv]

/-- A sample has as many words and moments as its register has words. -/
structure RegisterSample.Of (x : RegisterSample τ) (reg : RegisterDef) : Prop where
  decoded : decodeValue reg x.words = some x.value
  words : x.words.length = reg.words
  moments : x.moments.length = reg.words

theorem RegisterSample.Of.moments_ne_nil (h : x.Of reg) : x.moments ≠ [] := by
  intro hnil
  have hlength := h.moments
  rw [hnil] at hlength
  exact absurd hlength (Nat.ne_of_lt reg.words_pos)

/-- The moments of the words that decide the value; of a `u32_lo` that is the second alone. -/
def RegisterSample.valueMoments (x : RegisterSample τ) (reg : RegisterDef) : List τ :=
  if reg.type = .u32Lo then x.moments.drop 1 else x.moments

theorem RegisterSample.Of.valueMoments_ne_nil (h : x.Of reg) : x.valueMoments reg ≠ [] := by
  unfold RegisterSample.valueMoments
  split
  · rename_i htype
    have hlength : (x.moments.drop 1).length = 1 := by
      rw [List.length_drop, h.moments, RegisterDef.words, htype]
      rfl
    intro hnil
    rw [hnil] at hlength
    cases hlength
  · exact h.moments_ne_nil

theorem RegisterSample.mem_of_valueMoments {t : τ} (h : t ∈ x.valueMoments reg) :
    t ∈ x.moments := by
  unfold RegisterSample.valueMoments at h
  split at h
  · exact List.mem_of_mem_drop h
  · exact h

theorem sampleOf_spec (hlengths : ∀ b ∈ closed, b.2.length = b.1.words.length)
    (h : sampleOf closed reg = some x) :
    x.Of reg ∧ ∀ t ∈ x.moments, ∃ b ∈ closed, t ∈ b.2 := by
  obtain ⟨b, hfind, h⟩ := Option.bind_eq_some_iff.mp h
  obtain ⟨words, hslice, h⟩ := Option.bind_eq_some_iff.mp h
  obtain ⟨v, hv, rfl⟩ := Option.map_eq_some_iff.mp h
  have hmem := List.mem_of_find?_eq_some hfind
  have hcovers : b.1.covers reg = true := by simpa using List.find?_some hfind
  obtain ⟨hlow, hhigh⟩ := of_decide_eq_true hcovers
  have hfits : (reg.addr - b.1.start).toNat + reg.words ≤ b.1.words.length := by omega
  refine ⟨⟨hv, ?_, ?_⟩, fun t ht => ⟨b, hmem, List.mem_of_mem_drop (List.mem_of_mem_take ht)⟩⟩
  · unfold BatchResult.slice at hslice
    dsimp only at hslice
    split at hslice
    · cases hslice
    · obtain rfl := Option.some.inj hslice
      rw [List.length_take, List.length_drop]
      omega
  · rw [List.length_take, List.length_drop, hlengths b hmem]
    omega

/-- The last successful decode of a register in the completed polls, newest first. -/
def lastSample (reg : RegisterDef) :
    List (Completion × List (TimedBatch τ)) → Option (RegisterSample τ)
  | [] => none
  | (c, closed) :: samples =>
    if c.poll.tier = reg.tier then (sampleOf closed reg).or (lastSample reg samples)
    else lastSample reg samples

theorem lastSample_value {samples : List (Completion × List (TimedBatch τ))}
    (h : ∀ x ∈ samples, x.2.map Prod.fst = x.1.poll.results) :
    (lastSample reg samples).map RegisterSample.value =
      (lastRead reg (samples.map Prod.fst)).map Prod.fst := by
  induction samples with
  | nil => rfl
  | cons x samples ih =>
    obtain ⟨c, closed⟩ := x
    obtain ⟨hfirst, hrest⟩ := List.forall_mem_cons.mp h
    rw [List.map_cons, lastSample, lastRead]
    split
    · have hvalue := sampleOf_value closed reg
      rw [hfirst] at hvalue
      rw [← hvalue]
      cases sampleOf closed reg with
      | none => exact ih hrest
      | some y => rfl
    · exact ih hrest

theorem lastSample_spec {samples : List (Completion × List (TimedBatch τ))}
    (hlengths : ∀ y ∈ samples, ∀ b ∈ y.2, b.2.length = b.1.words.length)
    (h : lastSample reg samples = some x) :
    x.Of reg ∧ ∀ t ∈ x.moments, ∃ y ∈ samples, ∃ b ∈ y.2, t ∈ b.2 := by
  induction samples with
  | nil => cases h
  | cons y samples ih =>
    obtain ⟨c, closed⟩ := y
    obtain ⟨hfirst, hrest⟩ := List.forall_mem_cons.mp hlengths
    have hlater : lastSample reg samples = some x →
        x.Of reg ∧ ∀ t ∈ x.moments, ∃ y ∈ (c, closed) :: samples, ∃ b ∈ y.2, t ∈ b.2 := by
      intro hx
      obtain ⟨hof, hmoments⟩ := ih hrest hx
      refine ⟨hof, fun t ht => ?_⟩
      obtain ⟨y, hy, hin⟩ := hmoments t ht
      exact ⟨y, List.mem_cons_of_mem _ hy, hin⟩
    rw [lastSample] at h
    split at h
    · rcases Option.or_eq_some_iff.mp h with hx | ⟨-, hx⟩
      · obtain ⟨hof, hmoments⟩ := sampleOf_spec hfirst hx
        exact ⟨hof, fun t ht => ⟨_, List.mem_cons_self, hmoments t ht⟩⟩
      · exact hlater hx
    · exact hlater h

end Samples

/-! ### The loops with their moments -/

/-- The loops with the service behind them; the moments of the polls under way; and the completed
polls with theirs. -/
structure Sampled (τ σ : Type) where
  link : Polled σ
  moments : RegTier → Moments τ
  samples : List (Completion × List (TimedBatch τ))

namespace Sampled

variable {σ ι κ : Type}

def start (m : RegisterMap) (now mono : ℚ) (a : σ) : Sampled τ σ :=
  ⟨.start m now mono a, fun _ => .empty, []⟩

/-- The moments after a step of the loops; the slave answered at `t`. -/
def timed (s : Sampled τ σ) (t : τ) : PollLoops.Label → RegTier → Moments τ
  | .begin tier => Function.update s.moments tier .empty
  | .returned tier r _ _ =>
    match s.link.journal.loops.task tier with
    | .reading poll => Function.update s.moments tier ((s.moments tier).returned poll r t)
    | _ => s.moments
  | _ => s.moments

def complete (s : Sampled τ σ) (t : τ) (l : PollLoops.Label) :
    List (Completion × List (TimedBatch τ)) :=
  (s.link.journal.loops.completed l).toList.map (fun c => (c, (s.timed t l c.poll.tier).closed)) ++
    s.samples

variable (onPoll : σ → CommsHealth → Callback → ι → σ) (onOther : σ → κ → σ)

/-- A step, with the moment at which the slave answered if it is a read that returns. -/
def step (s : Sampled τ σ) (k : Polled.Label ι κ × τ) : Option (Sampled τ σ) :=
  (Polled.step onPoll onOther s.link k.1).map fun link =>
    match k.1 with
    | .loop l _ => ⟨link, s.timed k.2 l, s.complete k.2 l⟩
    | .other _ => { s with link := link }

variable {onPoll onOther} {m : RegisterMap} {s s' : Sampled τ σ} {k : Polled.Label ι κ} {t : τ}

theorem step_loop {l : PollLoops.Label} {input : ι}
    (h : step onPoll onOther s ((.loop l input : Polled.Label ι κ), t) = some s') :
    Polled.step onPoll onOther s.link (.loop l input : Polled.Label ι κ) = some s'.link ∧
      s'.moments = s.timed t l ∧ s'.samples = s.complete t l := by
  obtain ⟨link, hlink, rfl⟩ := Option.map_eq_some_iff.mp h
  exact ⟨hlink, rfl, rfl⟩

theorem step_other {k : κ}
    (h : step onPoll onOther s ((.other k : Polled.Label ι κ), t) = some s') :
    s' = { s with link := { s.link with consumer := onOther s.link.consumer k } } := by
  obtain ⟨link, hlink, rfl⟩ := Option.map_eq_some_iff.mp h
  rw [Polled.step_other hlink]

theorem step_link (h : step onPoll onOther s (k, t) = some s') :
    Polled.step onPoll onOther s.link k = some s'.link := by
  obtain ⟨link, hlink, rfl⟩ := Option.map_eq_some_iff.mp h
  cases k with
  | loop l input => exact hlink
  | other k => exact hlink

theorem step_callback {l : PollLoops.Label} {input : ι} {cb : Callback}
    (h : step onPoll onOther s ((.loop l input : Polled.Label ι κ), t) = some s')
    (hcb : s.link.callback l = some cb) :
    s'.link.consumer = onPoll s.link.consumer s'.link.journal.loops.poller.link.health cb input ∧
      cb.reading = s'.link.journal.loops.poller.reading ∧
      ∃ c closed, s'.samples = (c, closed) :: s.samples := by
  obtain ⟨hlink, -, hsamples⟩ := step_loop h
  obtain ⟨hconsumer, hreading, -, poll, hdone⟩ := Polled.step_callback hlink hcb
  obtain ⟨-, j, cb', hadvance, hj⟩ := Polled.step_loop hlink
  obtain ⟨-, loops, -, rfl⟩ := PollJournal.advance_eq_some hadvance
  refine ⟨hconsumer, hreading, ?_⟩
  rw [hsamples, complete]
  cases hcompleted : s.link.journal.loops.completed l with
  | some c => exact ⟨c, _, rfl⟩
  | none =>
    rw [hj] at hdone
    simp [hcompleted] at hdone

theorem step_quiet {l : PollLoops.Label} {input : ι}
    (h : step onPoll onOther s ((.loop l input : Polled.Label ι κ), t) = some s')
    (hcb : s.link.callback l = none) :
    s'.link.consumer = s.link.consumer ∧ s'.samples = s.samples := by
  obtain ⟨hlink, -, hsamples⟩ := step_loop h
  obtain ⟨hconsumer, hdone⟩ := Polled.step_quiet hlink hcb
  obtain ⟨-, j, cb', hadvance, hj⟩ := Polled.step_loop hlink
  obtain ⟨-, loops, -, rfl⟩ := PollJournal.advance_eq_some hadvance
  refine ⟨hconsumer, ?_⟩
  rw [hsamples, complete]
  cases hcompleted : s.link.journal.loops.completed l with
  | none => rfl
  | some c =>
    rw [hj] at hdone
    simp [hcompleted] at hdone

structure Sound (m : RegisterMap) (s : Sampled τ σ) : Prop where
  timely : s.link.Timely m
  under : ∀ tier poll, s.link.journal.loops.task tier = .reading poll →
    poll.pending ≠ [] ∧ (s.moments tier).Follows poll
  done : s.samples.map Prod.fst = s.link.journal.done
  results : ∀ x ∈ s.samples, x.2.map Prod.fst = x.1.poll.results
  lengths : ∀ x ∈ s.samples, ∀ b ∈ x.2, b.2.length = b.1.words.length

theorem sound_start (m : RegisterMap) (now mono : ℚ) (a : σ) :
    (start m now mono a : Sampled τ σ).Sound m where
  timely := Polled.timely_start m now mono a
  under _ _ h := by cases h
  done := rfl
  results := by rintro _ ⟨⟩
  lengths := by rintro _ ⟨⟩

theorem timed_of_ne {l : PollLoops.Label} {tier : RegTier} (h : l.tier? ≠ some tier) :
    s.timed t l tier = s.moments tier := by
  cases l with
  | begin tier' => exact Function.update_of_ne (fun he => h (congrArg some he.symm)) _ _
  | returned tier' r now mono =>
    have hne : tier ≠ tier' := fun he => h (congrArg some he.symm)
    cases htask : s.link.journal.loops.task tier' with
    | reading poll =>
      simp only [timed, htask]
      exact Function.update_of_ne hne _ _
    | _ => simp only [timed, htask]
  | _ => rfl

theorem Sound.under_step (h : s.Sound m) {l : PollLoops.Label} {loops : PollLoops}
    {cb : Option Callback} (hs : s.link.journal.loops.step l = some (loops, cb)) (tier : RegTier)
    (poll : Poll) (hpoll : loops.task tier = .reading poll) :
    poll.pending ≠ [] ∧ (s.timed t l tier).Follows poll := by
  rcases PollLoops.reading_of_step hs hpoll with
    ⟨hother, htask⟩ | ⟨rfl, hbatches, rfl⟩ | ⟨r, now, mono, poll', rfl, htask, rfl, hmore⟩
  · rw [timed_of_ne hother]
    exact h.under tier poll htask
  · rw [timed, Function.update_self]
    exact ⟨hbatches, Moments.follows_empty _ _⟩
  · obtain ⟨hpending, hfollows⟩ := h.under tier poll' htask
    simp only [timed, htask, Function.update_self]
    exact ⟨hmore, hfollows.returned hpending r t⟩

/-- The poll that a step completes comes with its moments. -/
theorem Sound.complete_follows (h : s.Sound m) {l : PollLoops.Label} {c : Completion}
    (hc : s.link.journal.loops.completed l = some c) :
    (s.timed t l c.poll.tier).Follows c.poll := by
  obtain ⟨tier, r, now, mono, poll, rfl, htask, rfl⟩ := PollLoops.completed_eq_some hc
  obtain ⟨hpending, hfollows⟩ := h.under tier poll htask
  have htier : (poll.returned r).1.tier = tier :=
    (poll.returned_same r).1.trans (h.timely.consistent.onMap.polls tier poll htask).2
  simp only [timed, htask, htier, Function.update_self]
  exact hfollows.returned hpending r t

theorem Sound.step (hm : m.Accepted) (h : s.Sound m)
    (hs : step onPoll onOther s (k, t) = some s') : s'.Sound m := by
  have htimely : s'.link.Timely m := h.timely.step hm (step_link hs)
  cases k with
  | other k =>
    obtain rfl := step_other hs
    exact ⟨htimely, h.under, h.done, h.results, h.lengths⟩
  | loop l input =>
    obtain ⟨hlink, hmoments, hsamples⟩ := step_loop hs
    obtain ⟨-, j, cb, hadvance, hj⟩ := Polled.step_loop hlink
    obtain ⟨-, loops, hloops, rfl⟩ := PollJournal.advance_eq_some hadvance
    have hnew : ∀ x ∈ s'.samples, x ∈ s.samples ∨
        ∃ c, s.link.journal.loops.completed l = some c ∧
          x = (c, (s.timed t l c.poll.tier).closed) := by
      intro x hx
      rw [hsamples] at hx
      rcases List.mem_append.mp hx with hadded | hold
      · obtain ⟨c, hc, rfl⟩ := List.mem_map.mp hadded
        exact Or.inr ⟨c, Option.mem_toList.mp hc, rfl⟩
      · exact Or.inl hold
    refine ⟨htimely, fun tier poll hpoll => ?_, ?_, fun x hx => ?_, fun x hx => ?_⟩
    · rw [hmoments]
      rw [hj] at hpoll
      exact h.under_step hloops tier poll hpoll
    · rw [hsamples, hj, complete]
      simp [h.done, Function.comp_def]
    · rcases hnew x hx with hold | ⟨c, hc, rfl⟩
      · exact h.results x hold
      · exact (h.complete_follows hc).results
    · rcases hnew x hx with hold | ⟨c, hc, rfl⟩
      · exact h.lengths x hold
      · exact (h.complete_follows hc).lengths

theorem Sound.sample (h : s.Sound m) {reg : RegisterDef} {v : ℚ} {c : Completion}
    (hread : lastRead reg s.link.journal.done = some (v, c)) :
    ∃ x, lastSample reg s.samples = some x ∧ x.value = v ∧ x.Of reg := by
  have hvalue : (lastSample reg s.samples).map RegisterSample.value = _ :=
    lastSample_value h.results
  rw [h.done, hread] at hvalue
  obtain ⟨x, hx, hv⟩ := Option.map_eq_some_iff.mp hvalue
  exact ⟨x, hx, hv, (lastSample_spec h.lengths hx).1⟩

/-! ### A property of the moments -/

structure Recorded (P : τ → Prop) (s : Sampled τ σ) : Prop where
  closed : ∀ tier, ∀ b ∈ (s.moments tier).closed, ∀ t ∈ b.2, P t
  singles : ∀ tier, ∀ t ∈ (s.moments tier).singles, P t
  samples : ∀ x ∈ s.samples, ∀ b ∈ x.2, ∀ t ∈ b.2, P t

variable {P : τ → Prop}

theorem recorded_start (m : RegisterMap) (now mono : ℚ) (a : σ) :
    (start m now mono a : Sampled τ σ).Recorded P where
  closed := by rintro _ _ ⟨⟩
  singles := by rintro _ _ ⟨⟩
  samples := by rintro _ ⟨⟩

theorem Moments.returned_forall {g : Moments τ} (hclosed : ∀ b ∈ g.closed, ∀ t ∈ b.2, P t)
    (hsingles : ∀ t ∈ g.singles, P t) (ht : P t) (p : Poll) (r : ReadResult) :
    (∀ b ∈ (g.returned p r t).closed, ∀ t' ∈ b.2, P t') ∧
      ∀ t' ∈ (g.returned p r t).singles, P t' := by
  have hnew : ∀ t' ∈ (g.returned p r t).singles, P t' := by
    intro t' ht'
    simp only [Moments.returned] at ht'
    split at ht'
    · rcases List.mem_append.mp ht' with hold | hadded
      · exact hsingles t' hold
      · rw [List.mem_singleton.mp hadded]
        exact ht
    · cases ht'
  refine ⟨fun b hb t' ht' => ?_, hnew⟩
  rcases List.mem_append.mp hb with hold | hadded
  · exact hclosed b hold t' ht'
  · obtain ⟨b, -, rfl⟩ := List.mem_map.mp hadded
    dsimp only at ht'
    split at ht'
    · rename_i hsome
      refine hnew t' ?_
      simp only [Moments.returned, if_pos hsome]
      simpa only [if_pos hsome] using ht'
    · rw [List.eq_of_mem_replicate ht']
      exact ht

theorem Recorded.timed (h : s.Recorded P) (ht : P t) (l : PollLoops.Label) (tier : RegTier) :
    (∀ b ∈ (s.timed t l tier).closed, ∀ t' ∈ b.2, P t') ∧
      ∀ t' ∈ (s.timed t l tier).singles, P t' := by
  have hkept := And.intro (h.closed tier) (h.singles tier)
  cases l with
  | begin tier' =>
    by_cases he : tier = tier'
    · subst he
      simp only [Sampled.timed, Function.update_self]
      exact ⟨by rintro _ ⟨⟩, by rintro _ ⟨⟩⟩
    · simpa only [Sampled.timed, Function.update_of_ne he] using hkept
  | returned tier' r now mono =>
    cases htask : s.link.journal.loops.task tier' with
    | reading poll =>
      simp only [Sampled.timed, htask]
      by_cases he : tier = tier'
      · subst he
        rw [Function.update_self]
        exact Moments.returned_forall hkept.1 hkept.2 ht poll r
      · rw [Function.update_of_ne he]
        exact hkept
    | idle =>
      simp only [Sampled.timed, htask]
      exact hkept
    | calling =>
      simp only [Sampled.timed, htask]
      exact hkept
  | callbackDone tier' => exact hkept
  | wake mono => exact hkept
  | applyRegmap m => exact hkept

theorem Recorded.step (h : s.Recorded P) (ht : P t)
    (hs : step onPoll onOther s (k, t) = some s') : s'.Recorded P := by
  cases k with
  | other k =>
    obtain rfl := step_other hs
    exact ⟨h.closed, h.singles, h.samples⟩
  | loop l input =>
    obtain ⟨-, hmoments, hsamples⟩ := step_loop hs
    constructor
    · intro tier
      rw [hmoments]
      exact (h.timed ht l tier).1
    · intro tier
      rw [hmoments]
      exact (h.timed ht l tier).2
    · intro x hx
      rw [hsamples] at hx
      rcases List.mem_append.mp hx with hadded | hold
      · obtain ⟨c, -, rfl⟩ := List.mem_map.mp hadded
        exact (h.timed ht l _).1
      · exact h.samples x hold

theorem Recorded.mono {Q : τ → Prop} (h : s.Recorded P) (hPQ : ∀ t, P t → Q t) :
    s.Recorded Q where
  closed tier b hb t ht := hPQ t (h.closed tier b hb t ht)
  singles tier t ht := hPQ t (h.singles tier t ht)
  samples x hx b hb t ht := hPQ t (h.samples x hx b hb t ht)

end Sampled

end GenWatch

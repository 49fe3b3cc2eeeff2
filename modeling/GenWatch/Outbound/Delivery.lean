import GenWatch.Prelude.Transition
import GenWatch.Prelude.Queue
import GenWatch.Services.Slack

/-! # Delivery to Slack

Messages wait in a bounded queue; one worker takes them off and sends them, one at a time. A
send that fails in transport is tried again: the message goes to a timer of its own, which
puts it back on the queue. Messages are objects that are passed by reference, and the worker
counts the attempts in the object itself. So a message must never be in two places.
-/

namespace GenWatch

open Transition

/-- What `_send` comes to: it returns, or it raises. -/
inductive SendOutcome where
  | returned (ok : Bool) (err : String)
  | raised

/-- Slack has taken the message, or has rejected it. -/
def SendOutcome.Final : SendOutcome → Prop
  | .returned ok err => ok = true ∨ err.startsWith "slack_error" = true
  | .raised => False

/-- What becomes of a message whose send has come back. -/
inductive Disposal where
  | delivered
  /-- `Slack rejected message` -/
  | rejected
  /-- `Slack send failed after {attempt} attempts` -/
  | exhausted
  /-- `Slack: abandoning message past {MAX_AGE_S}s deadline` -/
  | expired
  /-- `Slack worker error` -/
  | failed
  | retry (backoff : ℚ)

namespace SlackNotifier

def maxAttempts : ℕ := 4

def backoffS : List ℚ := [1, 4, 16]

def maxAgeS : ℚ := 300

end SlackNotifier

open SlackNotifier

namespace PendingMessage

variable (msg : PendingMessage)

/-- The message is past its deadline; a message without a time has none. -/
def Expired (now : ℚ) : Prop := msg.enqueuedAt ≠ 0 ∧ maxAgeS < now - msg.enqueuedAt

instance (now : ℚ) : Decidable (msg.Expired now) := inferInstanceAs (Decidable (_ ∧ _))

def tried : PendingMessage := { msg with attempt := msg.attempt + 1 }

def backoff : ℚ := backoffS.getD (min (msg.attempt - 1) (backoffS.length - 1)) 0

def settle (o : SendOutcome) (now : ℚ) : PendingMessage × Disposal :=
  match o with
  | .raised => (msg, .failed)
  | .returned ok err =>
    if ok then (msg, .delivered)
    else if err.startsWith "slack_error" then (msg, .rejected)
    else
      let msg := msg.tried
      if maxAttempts ≤ msg.attempt then (msg, .exhausted)
      else if msg.Expired now then (msg, .expired)
      else (msg, .retry msg.backoff)

@[simp] theorem tried_attempt : msg.tried.attempt = msg.attempt + 1 := rfl

@[simp] theorem tried_expired (now : ℚ) : msg.tried.Expired now ↔ msg.Expired now := Iff.rfl

end PendingMessage

/-- The notifier at work: the messages by reference, the queue, the message that the worker is
sending, and the retry timers with their delays. The references that the worker has begun to send
are recorded in order. -/
structure Delivery where
  cfg : SlackConfig
  siteName : String
  objects : ℕ → PendingMessage
  next : ℕ
  queue : List ℕ
  worker : Option ℕ
  timers : List (ℕ × ℚ)
  sent : List ℕ

namespace Delivery

/-- What can happen: a message is queued, the worker takes one off the queue, its send comes back,
a timer fires, the configuration is replaced. -/
inductive Label where
  | enqueue (severity : Severity) (text : SlackText) (now : ℚ)
  | take
  | sendDone (o : SendOutcome) (now : ℚ)
  | fire (i : ℕ)
  | updateConfig (cfg : SlackConfig)

def start (cfg : SlackConfig) (siteName : String) : Delivery :=
  ⟨cfg, siteName, fun _ => ⟨.info, .alarm "" (.text ""), "", 0, 0⟩, 0, [], none, [], []⟩

variable (s : Delivery)

def notifier (recentSends : Throttle.Sends (String × AlertKind)) : SlackNotifier :=
  ⟨s.cfg, s.siteName, s.queue.map s.objects, recentSends⟩

def isEnabled : Bool := (s.notifier ∅).isEnabled

/-- Queue a new message, at the cost of the oldest one if the queue is full. -/
def enqueue (severity : Severity) (text : SlackText) (now : ℚ) : Delivery :=
  if s.isEnabled then
    let ref := s.next
    let s := { s with
      objects := Function.update s.objects ref ⟨severity, text, (s.notifier ∅).site, 0, now⟩
      next := ref + 1 }
    match Fifo.putNowait maxQueue s.queue ref with
    | some queue => { s with queue := queue }
    | none =>
      match Fifo.putNowait maxQueue s.queue.tail ref with
      | some queue => { s with queue := queue }
      | none => { s with queue := s.queue.tail }
  else s

/-- The send of a message has come back to the worker. -/
def settle (ref : ℕ) (o : SendOutcome) (now : ℚ) : Delivery :=
  let (msg, disposal) := (s.objects ref).settle o now
  { s with
    objects := Function.update s.objects ref msg
    worker := none
    timers := match disposal with
      | .retry backoff => s.timers ++ [(ref, backoff)]
      | _ => s.timers }

/-- A timer puts its message back on the queue, or drops it if the queue is full. -/
def requeue (ref : ℕ) : Delivery :=
  match Fifo.putNowait maxQueue s.queue ref with
  | some queue => { s with queue := queue }
  | none => s

def step : Label → Option Delivery
  | .enqueue severity text now => some (s.enqueue severity text now)
  | .take =>
    match s.worker, s.queue with
    | none, ref :: queue =>
      some { s with queue := queue, worker := some ref, sent := s.sent ++ [ref] }
    | _, _ => none
  | .sendDone o now => s.worker.map fun ref => s.settle ref o now
  | .fire i =>
    (s.timers[i]?).map fun timer => { s with timers := s.timers.eraseIdx i }.requeue timer.1
  | .updateConfig cfg => some { s with cfg := cfg }

/-- Where messages can be: in the queue, with the worker, or with a timer. -/
def places : List ℕ := s.queue ++ s.worker.toList ++ s.timers.map Prod.fst

/-- What is left of the queue when a new message comes. -/
def kept : List ℕ := if s.queue.length < maxQueue then s.queue else s.queue.tail

section Steps

variable {s} {s' : Delivery} {severity : Severity} {text : SlackText} {now : ℚ} {o : SendOutcome}
  {i : ℕ}

theorem enqueue_of_enabled (hlen : s.queue.length ≤ maxQueue) (h : s.isEnabled = true) :
    s.enqueue severity text now =
      { s with
        objects := Function.update s.objects s.next ⟨severity, text, (s.notifier ∅).site, 0, now⟩
        next := s.next + 1
        queue := s.kept ++ [s.next] } := by
  unfold enqueue kept
  rw [if_pos h]
  by_cases hroom : s.queue.length < maxQueue
  · rw [if_pos hroom]
    simp only [Fifo.putNowait_eq_some.mpr ⟨hroom, rfl⟩]
  · rw [if_neg hroom]
    simp only [Fifo.putNowait_eq_none.mpr (not_lt.mp hroom),
      Fifo.putNowait_tail (by decide : 0 < maxQueue) hlen]

theorem enqueue_of_disabled (h : s.isEnabled = false) : s.enqueue severity text now = s := by
  simp [enqueue, h]

theorem step_take (h : s.step .take = some s') :
    ∃ ref queue, s.worker = none ∧ s.queue = ref :: queue ∧
      s' = { s with queue := queue, worker := some ref, sent := s.sent ++ [ref] } := by
  simp only [step] at h
  split at h
  · rename_i ref queue hworker hqueue
    cases h
    exact ⟨ref, queue, hworker, hqueue, rfl⟩
  · cases h

theorem step_fire (h : s.step (.fire i) = some s') :
    ∃ ref backoff, s.timers[i]? = some (ref, backoff) ∧
      (s.queue.length < maxQueue ∧
          s' = { s with timers := s.timers.eraseIdx i, queue := s.queue ++ [ref] } ∨
        maxQueue ≤ s.queue.length ∧ s' = { s with timers := s.timers.eraseIdx i }) := by
  obtain ⟨⟨ref, backoff⟩, htimer, rfl⟩ := Option.map_eq_some_iff.mp h
  refine ⟨ref, backoff, htimer, ?_⟩
  by_cases hroom : s.queue.length < maxQueue
  · refine Or.inl ⟨hroom, ?_⟩
    simp only [requeue, Fifo.putNowait_eq_some.mpr ⟨hroom, rfl⟩]
  · refine Or.inr ⟨not_lt.mp hroom, ?_⟩
    simp only [requeue, Fifo.putNowait_eq_none.mpr (not_lt.mp hroom)]

/-- Why the worker does not try again. -/
def GivesUp (msg : PendingMessage) (o : SendOutcome) (now : ℚ) : Prop :=
  o.Final ∨ o = .raised ∨ maxAttempts ≤ msg.attempt + 1 ∨ msg.Expired now

/-- A message is tried again after a backoff, with its attempt counted, or it is given up. -/
theorem settle_cases (s : Delivery) (ref : ℕ) (o : SendOutcome) (now : ℚ) :
    ¬GivesUp (s.objects ref) o now ∧
      s.settle ref o now =
        { s with
          objects := Function.update s.objects ref (s.objects ref).tried
          worker := none
          timers := s.timers ++ [(ref, (s.objects ref).tried.backoff)] } ∨
    GivesUp (s.objects ref) o now ∧ ∃ msg,
      s.settle ref o now =
        { s with objects := Function.update s.objects ref msg, worker := none } := by
  unfold settle PendingMessage.settle
  cases o with
  | raised => exact Or.inr ⟨Or.inr (Or.inl rfl), _, rfl⟩
  | returned ok err =>
    by_cases hok : ok = true
    · exact Or.inr ⟨Or.inl (Or.inl hok), s.objects ref, by simp [hok]⟩
    by_cases herr : err.startsWith "slack_error" = true
    · exact Or.inr ⟨Or.inl (Or.inr herr), s.objects ref, by simp [hok, herr]⟩
    by_cases hlimit : maxAttempts ≤ (s.objects ref).attempt + 1
    · refine Or.inr ⟨Or.inr (Or.inr (Or.inl hlimit)), (s.objects ref).tried, ?_⟩
      simp [hok, herr, hlimit]
    by_cases hold : (s.objects ref).Expired now
    · refine Or.inr ⟨Or.inr (Or.inr (Or.inr hold)), (s.objects ref).tried, ?_⟩
      simp [hok, herr, hlimit, hold]
    · refine Or.inl ⟨by simp [GivesUp, SendOutcome.Final, hok, herr, hlimit, hold], ?_⟩
      simp [hok, herr, hlimit, hold]

theorem step_sendDone (h : s.step (.sendDone o now) = some s') :
    ∃ ref, s.worker = some ref ∧ s' = s.settle ref o now := by
  obtain ⟨ref, hworker, rfl⟩ := Option.map_eq_some_iff.mp h
  exact ⟨ref, hworker, rfl⟩

theorem mem_queue_of_kept {ref : ℕ} (h : ref ∈ s.kept) : ref ∈ s.queue := by
  unfold kept at h
  split at h
  · exact h
  · exact List.mem_of_mem_tail h

theorem kept_cases (hlen : s.queue.length ≤ maxQueue) :
    s.queue.length < maxQueue ∧ s.kept = s.queue ∨
      s.queue.length = maxQueue ∧ ∃ ref, s.queue = ref :: s.kept := by
  unfold kept
  split
  · exact Or.inl ⟨‹_›, rfl⟩
  · rename_i hfull
    have hlen' : s.queue.length = maxQueue := le_antisymm hlen (not_lt.mp hfull)
    cases hqueue : s.queue with
    | nil =>
      rw [hqueue] at hlen'
      cases hlen'
    | cons ref queue => exact Or.inr ⟨hqueue ▸ hlen', ref, rfl⟩

end Steps

/-- What holds between two steps: no message is in two places, and the attempts counted in a message
are the sends that have come back. -/
structure Sound (s : Delivery) : Prop where
  length : s.queue.length ≤ maxQueue
  nodup : s.places.Nodup
  issued : ∀ ref ∈ s.places, ref < s.next
  unsent : ∀ ref, s.next ≤ ref → s.sent.count ref = 0
  waiting : ∀ ref ∈ s.queue ++ s.timers.map Prod.fst,
    s.sent.count ref = (s.objects ref).attempt ∧ (s.objects ref).attempt < maxAttempts
  sending : ∀ ref ∈ s.worker,
    s.sent.count ref = (s.objects ref).attempt + 1 ∧ (s.objects ref).attempt < maxAttempts
  bound : ∀ ref, s.sent.count ref ≤ maxAttempts

theorem sound_start (cfg : SlackConfig) (siteName : String) : (start cfg siteName).Sound where
  length := Nat.zero_le _
  nodup := List.nodup_nil
  issued _ h := by cases h
  unsent _ _ := rfl
  waiting _ h := by cases h
  sending _ h := by cases h
  bound _ := Nat.zero_le _

/-- Why a message leaves in a step: it is the oldest one in a full queue when a new one comes, its
timer finds the queue full, or its send has come back for good. -/
def Leaves (ref : ℕ) : Label → Prop
  | .enqueue _ _ _ => s.queue.length = maxQueue ∧ s.queue.head? = some ref
  | .fire i => s.queue.length = maxQueue ∧ ∃ backoff, s.timers[i]? = some (ref, backoff)
  | .sendDone o now =>
    s.worker = some ref ∧
      (o.Final ∨ o = .raised ∨ s.sent.count ref = maxAttempts ∨ (s.objects ref).Expired now)
  | _ => False

/-- The messages that come in a step, and those that leave. -/
structure Hands (s s' : Delivery) (l : Label) (new gone : List ℕ) : Prop where
  perm : (gone ++ s'.places).Perm (new ++ s.places)
  fresh : new = [] ∧ s'.next = s.next ∨ new = [s.next] ∧ s'.next = s.next + 1
  leaves : ∀ ref ∈ gone, s.Leaves ref l

section Handing

variable {s} {s' : Delivery} {l : Label} {new gone : List ℕ}

theorem timers_perm {i ref : ℕ} {backoff : ℚ} (h : s.timers[i]? = some (ref, backoff)) :
    (ref :: (s.timers.eraseIdx i).map Prod.fst).Perm (s.timers.map Prod.fst) := by
  obtain ⟨hi, hget⟩ := List.getElem?_eq_some_iff.mp h
  have hperm := (List.getElem_cons_eraseIdx_perm hi).map Prod.fst
  rwa [hget, List.map_cons] at hperm

theorem Sound.hands (h : s.Sound) (hs : s.step l = some s') :
    ∃ new gone, Hands s s' l new gone := by
  cases l with
  | enqueue severity text now =>
    obtain rfl := Option.some.inj hs
    cases henabled : s.isEnabled with
    | false =>
      rw [enqueue_of_disabled henabled]
      exact ⟨[], [], .refl _, Or.inl ⟨rfl, rfl⟩, by simp⟩
    | true =>
      rw [enqueue_of_enabled h.length henabled]
      rcases kept_cases h.length with ⟨-, hkept⟩ | ⟨hfull, ref, hqueue⟩
      · refine ⟨[s.next], [], List.perm_iff_count.mpr fun r => ?_, Or.inr ⟨rfl, rfl⟩, by simp⟩
        simp only [places, hkept, List.count_append, List.nil_append]
        omega
      · refine ⟨[s.next], [ref], List.perm_iff_count.mpr fun r => ?_, Or.inr ⟨rfl, rfl⟩, ?_⟩
        · simp only [places, hqueue, List.count_append, List.count_cons, List.count_nil]
          omega
        · intro r hr
          obtain rfl := List.mem_singleton.mp hr
          exact ⟨hfull, by rw [hqueue]; rfl⟩
  | take =>
    obtain ⟨ref, queue, hworker, hqueue, rfl⟩ := step_take hs
    refine ⟨[], [], List.perm_iff_count.mpr fun r => ?_, Or.inl ⟨rfl, rfl⟩, by simp⟩
    simp only [places, hqueue, hworker, List.count_append, List.count_cons, List.nil_append,
      Option.toList_some, Option.toList_none, List.count_nil]
    omega
  | sendDone o now =>
    obtain ⟨ref, hworker, rfl⟩ := step_sendDone hs
    rcases settle_cases s ref o now with ⟨-, hretry⟩ | ⟨hgives, msg, hdone⟩
    · refine ⟨[], [], List.perm_iff_count.mpr fun r => ?_, Or.inl ⟨rfl, by rw [hretry]⟩, by simp⟩
      simp only [hretry, places, hworker, List.count_append, List.nil_append, List.map_append,
        List.map_cons, List.map_nil, Option.toList_some, Option.toList_none, List.count_nil]
      omega
    · refine ⟨[], [ref], List.perm_iff_count.mpr fun r => ?_, Or.inl ⟨rfl, by rw [hdone]⟩, ?_⟩
      · simp only [hdone, places, hworker, List.count_append, List.nil_append,
          Option.toList_some, Option.toList_none, List.count_nil]
        omega
      · intro r hr
        obtain rfl := List.mem_singleton.mp hr
        obtain ⟨hcount, hlt⟩ := h.sending r hworker
        refine ⟨hworker, hgives.imp_right (Or.imp_right (Or.imp_left fun hlimit => ?_))⟩
        omega
  | fire i =>
    obtain ⟨ref, backoff, htimer, ⟨-, rfl⟩ | ⟨hfull, rfl⟩⟩ := step_fire hs
    · refine ⟨[], [], List.perm_iff_count.mpr fun r => ?_, Or.inl ⟨rfl, rfl⟩, by simp⟩
      have hcount := (timers_perm htimer).count_eq r
      simp only [places, List.count_append, List.count_cons, List.count_nil, List.nil_append]
        at hcount ⊢
      omega
    · refine ⟨[], [ref], List.perm_iff_count.mpr fun r => ?_, Or.inl ⟨rfl, rfl⟩, ?_⟩
      · have hcount := (timers_perm htimer).count_eq r
        simp only [places, List.count_append, List.count_cons, List.count_nil, List.nil_append]
          at hcount ⊢
        omega
      · intro r hr
        obtain rfl := List.mem_singleton.mp hr
        exact ⟨le_antisymm h.length hfull, backoff, htimer⟩
  | updateConfig cfg =>
    obtain rfl := Option.some.inj hs
    exact ⟨[], [], .refl _, Or.inl ⟨rfl, rfl⟩, by simp⟩

theorem Hands.nodup (h : Hands s s' l new gone) (hs : s.Sound) : s'.places.Nodup := by
  have hnodup : (new ++ s.places).Nodup := by
    rcases h.fresh with ⟨rfl, -⟩ | ⟨rfl, -⟩
    · exact hs.nodup
    · refine List.nodup_cons.mpr ⟨fun hmem => ?_, hs.nodup⟩
      exact absurd (hs.issued s.next hmem) (lt_irrefl _)
  exact (List.nodup_append.mp (h.perm.nodup_iff.mpr hnodup)).2.1

theorem Hands.issued (h : Hands s s' l new gone) (hs : s.Sound) :
    ∀ ref ∈ s'.places, ref < s'.next := by
  intro ref href
  have hmem : ref ∈ new ++ s.places := h.perm.subset (List.mem_append_right _ href)
  rcases h.fresh with ⟨rfl, hnext⟩ | ⟨rfl, hnext⟩
  · rw [hnext]
    exact hs.issued ref hmem
  · rw [hnext, Nat.lt_succ_iff]
    rcases List.mem_cons.mp hmem with rfl | hmem
    · exact le_rfl
    · exact (hs.issued ref hmem).le

theorem Hands.absent (h : Hands s s' l new gone) {ref : ℕ} (hlt : ref < s.next)
    (hmem : ref ∉ s.places) : ref < s'.next ∧ ref ∉ s'.places := by
  have hsub : ref ∈ s'.places → ref ∈ new ++ s.places :=
    fun href => h.perm.subset (List.mem_append_right _ href)
  rcases h.fresh with ⟨rfl, hnext⟩ | ⟨rfl, hnext⟩
  · exact ⟨hnext ▸ hlt, fun href => hmem (hsub href)⟩
  · refine ⟨by omega, fun href => ?_⟩
    rcases List.mem_cons.mp (hsub href) with rfl | href
    · exact lt_irrefl _ hlt
    · exact hmem href

theorem Hands.leaves_of_absent (h : Hands s s' l new gone) {ref : ℕ} (hmem : ref ∈ s.places)
    (habsent : ref ∉ s'.places) : s.Leaves ref l := by
  have hgone : ref ∈ gone ++ s'.places := h.perm.symm.subset (List.mem_append_right _ hmem)
  exact h.leaves ref ((List.mem_append.mp hgone).resolve_right habsent)

theorem not_waiting (hnodup : s.places.Nodup) {ref : ℕ} (hworker : s.worker = some ref) :
    ref ∉ s.queue ++ s.timers.map Prod.fst := by
  rw [places, hworker] at hnodup
  have hperm : (s.queue ++ (some ref).toList ++ s.timers.map Prod.fst).Perm
      (ref :: (s.queue ++ s.timers.map Prod.fst)) := by
    rw [Option.toList_some, List.append_assoc]
    exact List.perm_middle
  exact (List.nodup_cons.mp (hperm.nodup_iff.mp hnodup)).1

theorem mem_places {ref : ℕ} (h : ref ∈ s.queue ++ s.timers.map Prod.fst) : ref ∈ s.places := by
  simp only [places, List.mem_append] at h ⊢
  exact h.imp_left Or.inl

theorem Sound.enqueue (h : s.Sound) (severity : Severity) (text : SlackText) (now : ℚ) :
    (s.enqueue severity text now).Sound := by
  obtain ⟨new, gone, hands⟩ := h.hands (l := .enqueue severity text now) rfl
  have hnodup := hands.nodup h
  have hissued := hands.issued h
  cases henabled : s.isEnabled with
  | false => rwa [enqueue_of_disabled henabled]
  | true =>
    rw [enqueue_of_enabled h.length henabled] at hnodup hissued ⊢
    have hold : ∀ ref ∈ s.places, Function.update s.objects s.next
        ⟨severity, text, (s.notifier ∅).site, 0, now⟩ ref = s.objects ref := fun ref href =>
      Function.update_of_ne (h.issued ref href).ne _ _
    refine ⟨?_, hnodup, hissued, fun ref href => ?_, fun ref href => ?_, fun ref href => ?_,
      h.bound⟩
    · rw [List.length_append, List.length_singleton]
      rcases kept_cases h.length with ⟨hlt, hkept⟩ | ⟨hfull, r, hqueue⟩
      · rwa [hkept]
      · rw [← hfull, hqueue, List.length_cons]
    · exact h.unsent ref (Nat.le_of_succ_le href)
    · by_cases hnew : ref = s.next
      · subst hnew
        dsimp only
        rw [Function.update_self]
        exact ⟨h.unsent _ le_rfl, Nat.succ_pos 3⟩
      · have hwaits : ref ∈ s.queue ++ s.timers.map Prod.fst := by
          rcases List.mem_append.mp href with hkept | htimer
          · have hkept : ref ∈ s.kept := by simpa [hnew] using hkept
            exact List.mem_append_left _ (mem_queue_of_kept hkept)
          · exact List.mem_append_right _ htimer
        dsimp only
        rw [hold ref (mem_places hwaits)]
        exact h.waiting ref hwaits
    · have hworker : s.worker = some ref := href
      have hplace : ref ∈ s.places := by simp [places, hworker]
      dsimp only
      rw [hold ref hplace]
      exact h.sending ref href

theorem Sound.take (h : s.Sound) (hs : s.step .take = some s') : s'.Sound := by
  obtain ⟨new, gone, hands⟩ := h.hands hs
  have hnodup := hands.nodup h
  have hissued := hands.issued h
  obtain ⟨ref, queue, hworker, hqueue, rfl⟩ := step_take hs
  obtain ⟨hcount, hlt⟩ := h.waiting ref (by simp [hqueue])
  have hself : (s.sent ++ [ref]).count ref = s.sent.count ref + 1 := by simp
  have hother : ∀ r, r ≠ ref → (s.sent ++ [ref]).count r = s.sent.count r := by
    intro r hr
    simp [hr.symm]
  refine ⟨?_, hnodup, hissued, fun r hr => ?_, fun r hr => ?_, fun r hr => ?_, fun r => ?_⟩
  · have hlen := h.length
    rw [hqueue, List.length_cons] at hlen
    exact Nat.le_of_succ_le hlen
  · have hne : r ≠ ref := by
      rintro rfl
      exact absurd (h.issued r (by simp [places, hqueue])) (not_lt.mpr hr)
    dsimp only
    rw [hother r hne]
    exact h.unsent r hr
  · have hne : r ≠ ref := by
      rintro rfl
      exact not_waiting hnodup rfl hr
    dsimp only
    rw [hother r hne]
    refine h.waiting r ?_
    rw [hqueue]
    exact List.mem_cons_of_mem _ hr
  · obtain rfl := Option.some.inj hr
    dsimp only
    rw [hself]
    exact ⟨by omega, hlt⟩
  · by_cases hr : r = ref
    · subst hr
      dsimp only
      rw [hself]
      omega
    · dsimp only
      rw [hother r hr]
      exact h.bound r

theorem Sound.sendDone (h : s.Sound) {o : SendOutcome} {now : ℚ}
    (hs : s.step (.sendDone o now) = some s') : s'.Sound := by
  obtain ⟨new, gone, hands⟩ := h.hands hs
  have hnodup := hands.nodup h
  have hissued := hands.issued h
  obtain ⟨ref, hworker, rfl⟩ := step_sendDone hs
  obtain ⟨hcount, hlt⟩ := h.sending ref hworker
  have hold : ∀ (msg : PendingMessage), ∀ r ∈ s.queue ++ s.timers.map Prod.fst,
      Function.update s.objects ref msg r = s.objects r := by
    intro msg r hr
    refine Function.update_of_ne ?_ _ _
    rintro rfl
    exact not_waiting h.nodup hworker hr
  rcases settle_cases s ref o now with ⟨hagain, hretry⟩ | ⟨-, msg, hdone⟩
  · rw [hretry] at hnodup hissued ⊢
    refine ⟨h.length, hnodup, hissued, h.unsent, fun r hr => ?_, by simp, h.bound⟩
    dsimp only at hr ⊢
    by_cases hr' : r = ref
    · subst hr'
      rw [Function.update_self, PendingMessage.tried_attempt]
      refine ⟨hcount, not_le.mp fun hlimit => ?_⟩
      exact hagain (Or.inr (Or.inr (Or.inl hlimit)))
    · have hwaits : r ∈ s.queue ++ s.timers.map Prod.fst := by simpa [hr'] using hr
      rw [hold _ r hwaits]
      exact h.waiting r hwaits
  · rw [hdone] at hnodup hissued ⊢
    refine ⟨h.length, hnodup, hissued, h.unsent, fun r hr => ?_, by simp, h.bound⟩
    dsimp only at hr ⊢
    rw [hold msg r hr]
    exact h.waiting r hr

theorem Sound.fire (h : s.Sound) {i : ℕ} (hs : s.step (.fire i) = some s') : s'.Sound := by
  obtain ⟨new, gone, hands⟩ := h.hands hs
  have hnodup := hands.nodup h
  have hissued := hands.issued h
  obtain ⟨ref, backoff, htimer, ⟨hroom, rfl⟩ | ⟨-, rfl⟩⟩ := step_fire hs
  · refine ⟨?_, hnodup, hissued, h.unsent, fun r hr => h.waiting r ?_, h.sending, h.bound⟩
    · rw [List.length_append, List.length_singleton]
      exact hroom
    · have hperm : (s.queue ++ [ref] ++ (s.timers.eraseIdx i).map Prod.fst).Perm
          (s.queue ++ s.timers.map Prod.fst) := by
        rw [List.append_assoc]
        exact (timers_perm htimer).append_left _
      exact hperm.subset hr
  · refine ⟨h.length, hnodup, hissued, h.unsent, fun r hr => h.waiting r ?_, h.sending, h.bound⟩
    refine List.mem_append.mpr ((List.mem_append.mp hr).imp_right fun hr => ?_)
    exact (timers_perm htimer).subset (List.mem_cons_of_mem _ hr)

theorem Sound.step (h : s.Sound) (hs : s.step l = some s') : s'.Sound := by
  cases l with
  | enqueue severity text now =>
    obtain rfl := Option.some.inj hs
    exact h.enqueue severity text now
  | take => exact h.take hs
  | sendDone o now => exact h.sendDone hs
  | fire i => exact h.fire hs
  | updateConfig cfg =>
    obtain rfl := Option.some.inj hs
    exact ⟨h.length, h.nodup, h.issued, h.unsent, h.waiting, h.sending, h.bound⟩

theorem Sound.sent_of_step (h : s.Sound) {ref : ℕ} (hmem : ref ∉ s.places)
    (hs : s.step l = some s') : s'.sent.count ref = s.sent.count ref := by
  cases l with
  | enqueue severity text now =>
    obtain rfl := Option.some.inj hs
    cases henabled : s.isEnabled with
    | false => rw [enqueue_of_disabled henabled]
    | true => rw [enqueue_of_enabled h.length henabled]
  | take =>
    obtain ⟨r, queue, -, hqueue, rfl⟩ := step_take hs
    have hne : r ≠ ref := by
      rintro rfl
      exact hmem (by simp [places, hqueue])
    simp [hne]
  | sendDone o now =>
    obtain ⟨r, -, rfl⟩ := step_sendDone hs
    rcases settle_cases s r o now with ⟨-, hretry⟩ | ⟨-, msg, hdone⟩
    · rw [hretry]
    · rw [hdone]
  | fire i =>
    obtain ⟨r, backoff, -, ⟨-, rfl⟩ | ⟨-, rfl⟩⟩ := step_fire hs
    · rfl
    · rfl
  | updateConfig cfg =>
    obtain rfl := Option.some.inj hs
    rfl

/-- A message that has left is never sent again. -/
theorem Sound.never_again (h : s.Sound) {ref : ℕ} (hlt : ref < s.next) (hmem : ref ∉ s.places)
    {ls : List Label} {t : Delivery} (hr : run Delivery.step s ls = some t) :
    ref ∉ t.places ∧ t.sent.count ref = s.sent.count ref := by
  have hI : t.Sound ∧ (ref < t.next ∧ ref ∉ t.places) ∧ t.sent.count ref = s.sent.count ref := by
    refine run_invariant (I := fun t => t.Sound ∧ (ref < t.next ∧ ref ∉ t.places) ∧
      t.sent.count ref = s.sent.count ref) ?_ ⟨h, ⟨hlt, hmem⟩, rfl⟩ hr
    rintro t l t' - ⟨hsound, ⟨hlt, hmem⟩, hcount⟩ hs
    obtain ⟨new, gone, hands⟩ := hsound.hands hs
    exact ⟨hsound.step hs, hands.absent hlt hmem, (hsound.sent_of_step hmem hs).trans hcount⟩
  exact ⟨hI.2.1.2, hI.2.2⟩

theorem Sound.leaves_of_final (h : s.Sound) {ref : ℕ} {o : SendOutcome} {now : ℚ}
    (hworker : s.worker = some ref) (ho : o.Final) (hs : s.step (.sendDone o now) = some s') :
    ref < s'.next ∧ ref ∉ s'.places := by
  obtain ⟨ref', hworker', rfl⟩ := step_sendDone hs
  obtain rfl := Option.some.inj (hworker.symm.trans hworker')
  have hplace : ref ∈ s.places := by simp [places, hworker]
  rcases settle_cases s ref o now with ⟨hagain, -⟩ | ⟨-, msg, hdone⟩
  · exact absurd (Or.inl ho) hagain
  · rw [hdone]
    refine ⟨h.issued ref hplace, fun hmem => ?_⟩
    exact not_waiting h.nodup hworker (by simpa [places] using hmem)

end Handing

/-- In every run, the queue keeps its limit, no message is in two places, none is sent more than
four times, and none is sent again once Slack has taken or rejected it. A new message always gets
on the queue, at the cost of at most the oldest one, and a message leaves only for one of the
reasons named by `Leaves`. -/
theorem delivery_protocol (cfg : SlackConfig) (siteName : String) (ls : List Label) (s : Delivery)
    (hr : run step (start cfg siteName) ls = some s) :
    s.queue.length ≤ maxQueue ∧ s.places.Nodup ∧ (∀ ref, s.sent.count ref ≤ maxAttempts) ∧
    (∀ o now ref s', s.worker = some ref → o.Final → s.step (.sendDone o now) = some s' →
      ∀ ls' t, run step s' ls' = some t →
        ref ∉ t.places ∧ t.sent.count ref = s'.sent.count ref) ∧
    (∀ severity text now s', s.isEnabled = true →
      s.step (.enqueue severity text now) = some s' →
        s.next ∉ s.places ∧
        s'.objects s.next = ⟨severity, text, (s.notifier ∅).site, 0, now⟩ ∧
        ∃ evicted kept, s.queue = evicted ++ kept ∧ s'.queue = kept ++ [s.next] ∧
          (evicted = [] ∨ s.queue.length = maxQueue ∧ evicted.length = 1)) ∧
    ∀ l s' ref, s.step l = some s' → ref ∈ s.places → ref ∉ s'.places → s.Leaves ref l := by
  have h : s.Sound := run_invariant (fun _ _ _ _ h hs => h.step hs) (sound_start cfg siteName) hr
  refine ⟨h.length, h.nodup, h.bound, fun o now ref s' hworker ho hs ls' t hr' => ?_,
    fun severity text now s' henabled hs => ?_, fun l s' ref hs hmem habsent => ?_⟩
  · obtain ⟨hlt, hmem⟩ := h.leaves_of_final hworker ho hs
    exact (h.step hs).never_again hlt hmem hr'
  · obtain rfl := Option.some.inj hs
    rw [enqueue_of_enabled h.length henabled]
    refine ⟨fun hmem => lt_irrefl _ (h.issued s.next hmem), Function.update_self _ _ _, ?_⟩
    rcases kept_cases h.length with ⟨-, hkept⟩ | ⟨hfull, ref, hqueue⟩
    · exact ⟨[], s.kept, hkept.symm, rfl, Or.inl rfl⟩
    · exact ⟨[ref], s.kept, hqueue, rfl, Or.inr ⟨hfull, rfl⟩⟩
  · obtain ⟨new, gone, hands⟩ := h.hands hs
    exact hands.leaves_of_absent hmem habsent

/-- An alarm is queued and taken, its send times out, and its timer puts it back. -/
def timedOut : List Label :=
  [.enqueue .alarm (.alarm "HIGH_TEMP" (.text "High temperature")) 1, .take,
    .sendDone (.returned false "timeout") 2, .fire 0, .take]

/-- A message whose first send times out is sent once more, and is in one place all along. -/
theorem timed_out_message_sent_again :
    ∃ cfg s, run step (start cfg "site") timedOut = some s ∧ s.sent.count 0 = 2 ∧
      s.worker = some 0 ∧ s.places.Nodup ∧ s.sent.count 0 ≤ maxAttempts := by
  have heval : (run step
      (start ⟨true, "xoxb", "#gen", "", true, true, true, true, true, true, true⟩ "site")
      timedOut).any (fun s => s.sent.count 0 = 2 ∧ s.worker = some 0) = true := by
    decide +kernel
  obtain ⟨s, hrun, hs⟩ := (Option.any_eq_true _ _).mp heval
  obtain ⟨htwice, hworker⟩ := of_decide_eq_true hs
  obtain ⟨-, hnodup, hbound, -⟩ := delivery_protocol _ _ _ s hrun
  exact ⟨_, s, hrun, htwice, hworker, hnodup, hbound 0⟩

end Delivery

end GenWatch

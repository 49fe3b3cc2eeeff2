import Mathlib.Data.Finset.Basic
import Mathlib.Data.Rat.Defs
import GenWatch.Prelude.Transition
import GenWatch.Prelude.Queue

/-! # Live sockets

Every live connection subscribes a bounded queue to the event bus and sends what arrives
there; when nothing arrives it sends keep-alive pings. Publishing never waits: a queue that
is full loses its subscription. The connection is not told, and goes on with what is left
in its queue, and then with pings. So a live socket is a subscribed socket as long as no
message is published while its queue is full.
-/

namespace GenWatch

open Transition

def revalidateEveryS : ℚ := 60

def subscriberQueueSize : ℕ := 64

/-- Where a connection stands: sending the initial hello, waiting for a message, sending it, sending
a ping, closing after a failed re-validation, or ended. -/
inductive ConnPhase (μ : Type) where
  | greeting
  | waiting
  | sending (msg : μ)
  | pinging
  | closing
  | ended

def ConnPhase.isEnded {μ : Type} : ConnPhase μ → Bool
  | .ended => true
  | _ => false

/-- A connection with its queue, and the messages it has sent. What was published since it has
subscribed is recorded beside them. -/
structure Conn (μ : Type) where
  phase : ConnPhase μ
  queue : List μ
  lastRevalidated : ℚ
  sent : List μ
  published : List μ

namespace Conn

variable {μ : Type}

/-- What can happen to a connection: it takes a message, waits in vain, completes a send, completes
its close, or is interrupted where it awaits. -/
inductive Label where
  | take
  | timeout
  | sendDone (mono : ℚ) (authed : Bool)
  | closeDone
  | interrupt

def subscribed (mono : ℚ) : Conn μ := ⟨.greeting, [], mono, [], []⟩

variable (k : Conn μ)

/-- After a send the loop goes on, unless the session turns out to have ended. -/
def revalidate (mono : ℚ) (authed : Bool) : Conn μ :=
  if revalidateEveryS ≤ mono - k.lastRevalidated then
    if authed then { k with phase := .waiting, lastRevalidated := mono }
    else { k with phase := .closing }
  else { k with phase := .waiting }

def step : Label → Option (Conn μ)
  | .take =>
    match k.phase, k.queue with
    | .waiting, msg :: queue => some { k with phase := .sending msg, queue := queue }
    | _, _ => none
  | .timeout =>
    match k.phase with
    | .waiting => some { k with phase := .pinging }
    | _ => none
  | .sendDone mono authed =>
    match k.phase with
    | .greeting => some { k with phase := .waiting }
    | .sending msg => some ({ k with sent := k.sent ++ [msg] }.revalidate mono authed)
    | .pinging => some (k.revalidate mono authed)
    | _ => none
  | .closeDone =>
    match k.phase with
    | .closing => some { k with phase := .ended }
    | _ => none
  | .interrupt => if k.phase.isEnded then none else some { k with phase := .ended }

def inFlight : List μ :=
  match k.phase with
  | .sending msg => [msg]
  | _ => []

/-- What has been sent and what is still to be sent, in order. -/
def stream : List μ := k.sent ++ k.inFlight ++ k.queue

/-- The connection has not ended: it is still sending messages or pings. -/
def Running : Prop := k.phase.isEnded = false

instance : Decidable k.Running := inferInstanceAs (Decidable (_ = _))

/-- A message is published; a subscribed queue takes it if it has room. -/
def hear (subscribed : Bool) (msg : μ) : Conn μ :=
  { k with
    published := k.published ++ [msg]
    queue := if subscribed then (Fifo.putNowait subscriberQueueSize k.queue msg).getD k.queue
      else k.queue }

section Steps

variable {k} {k' : Conn μ} {l : Label}

inductive Outcome (k : Conn μ) : Label → Conn μ → Prop
  | taken {msg : μ} {queue : List μ} (hphase : k.phase = .waiting)
      (hqueue : k.queue = msg :: queue) :
      k.Outcome .take { k with phase := .sending msg, queue := queue }
  | waited (hphase : k.phase = .waiting) : k.Outcome .timeout { k with phase := .pinging }
  | greeted {mono : ℚ} {authed : Bool} (hphase : k.phase = .greeting) :
      k.Outcome (.sendDone mono authed) { k with phase := .waiting }
  | sent {mono : ℚ} {authed : Bool} {msg : μ} (hphase : k.phase = .sending msg) :
      k.Outcome (.sendDone mono authed)
        ({ k with sent := k.sent ++ [msg] }.revalidate mono authed)
  | pinged {mono : ℚ} {authed : Bool} (hphase : k.phase = .pinging) :
      k.Outcome (.sendDone mono authed) (k.revalidate mono authed)
  | closed (hphase : k.phase = .closing) : k.Outcome .closeDone { k with phase := .ended }
  | interrupted (hrunning : k.Running) : k.Outcome .interrupt { k with phase := .ended }

theorem outcome (h : k.step l = some k') : k.Outcome l k' := by
  cases l with
  | take =>
    simp only [step] at h
    split at h
    · rename_i msg queue hphase hqueue
      cases h
      exact .taken hphase hqueue
    · cases h
  | timeout =>
    simp only [step] at h
    split at h
    · rename_i hphase
      cases h
      exact .waited hphase
    · cases h
  | sendDone mono authed =>
    simp only [step] at h
    split at h
    · rename_i hphase
      cases h
      exact .greeted hphase
    · rename_i msg hphase
      cases h
      exact .sent hphase
    · rename_i hphase
      cases h
      exact .pinged hphase
    · cases h
  | closeDone =>
    simp only [step] at h
    split at h
    · rename_i hphase
      cases h
      exact .closed hphase
    · cases h
  | interrupt =>
    simp only [step] at h
    split at h
    · cases h
    · rename_i hended
      cases h
      exact .interrupted (Bool.eq_false_of_not_eq_true hended)

theorem revalidate_cases (mono : ℚ) (authed : Bool) :
    ∃ phase last, k.revalidate mono authed = { k with phase := phase, lastRevalidated := last } ∧
      (phase = .waiting ∨ phase = .closing) := by
  unfold revalidate
  split
  · split
    · exact ⟨.waiting, mono, rfl, Or.inl rfl⟩
    · exact ⟨.closing, k.lastRevalidated, rfl, Or.inr rfl⟩
  · exact ⟨.waiting, k.lastRevalidated, rfl, Or.inl rfl⟩

theorem revalidate_same (mono : ℚ) (authed : Bool) :
    (k.revalidate mono authed).stream = k.sent ++ k.queue ∧
      (k.revalidate mono authed).published = k.published ∧ (k.revalidate mono authed).Running := by
  obtain ⟨phase, last, he, rfl | rfl⟩ := k.revalidate_cases mono authed
  · rw [he]
    exact ⟨by simp [stream, inFlight], rfl, rfl⟩
  · rw [he]
    exact ⟨by simp [stream, inFlight], rfl, rfl⟩

/-- A step of a connection that does not end it keeps its stream. -/
theorem step_same (h : k.step l = some k') (hrunning : k'.Running) :
    k'.stream = k.stream ∧ k'.published = k.published := by
  cases outcome h with
  | taken hphase hqueue => exact ⟨by simp [stream, inFlight, hphase, hqueue], rfl⟩
  | waited hphase => exact ⟨by simp [stream, inFlight, hphase], rfl⟩
  | greeted hphase => exact ⟨by simp [stream, inFlight, hphase], rfl⟩
  | @sent mono authed msg hphase =>
    obtain ⟨hstream, hpublished, -⟩ :=
      revalidate_same (k := { k with sent := k.sent ++ [msg] }) mono authed
    exact ⟨by rw [hstream]; simp [stream, inFlight, hphase], hpublished⟩
  | @pinged mono authed hphase =>
    obtain ⟨hstream, hpublished, -⟩ := k.revalidate_same mono authed
    exact ⟨by rw [hstream]; simp [stream, inFlight, hphase], hpublished⟩
  | closed hphase => cases hrunning
  | interrupted _ => cases hrunning

theorem sent_prefix (h : k.step l = some k') : k.sent <+: k'.sent := by
  cases outcome h with
  | @sent mono authed msg _ =>
    obtain ⟨phase, last, he, -⟩ :=
      revalidate_cases (k := { k with sent := k.sent ++ [msg] }) mono authed
    rw [he]
    exact List.prefix_append _ _
  | @pinged mono authed _ =>
    obtain ⟨phase, last, he, -⟩ := k.revalidate_cases mono authed
    rw [he]
  | _ => exact List.prefix_rfl

/-- A connection that ends leaves unsent what it was sending and what is in its queue. -/
theorem step_ended (h : k.step l = some k') (hended : ¬k'.Running) :
    (l = .closeDone ∨ l = .interrupt) ∧ k'.sent = k.sent ∧ k'.stream = k.sent ++ k.queue := by
  cases outcome h with
  | closed _ => exact ⟨Or.inl rfl, rfl, by simp [stream, inFlight]⟩
  | interrupted _ => exact ⟨Or.inr rfl, rfl, by simp [stream, inFlight]⟩
  | taken _ _ => exact absurd rfl hended
  | waited _ => exact absurd rfl hended
  | greeted _ => exact absurd rfl hended
  | @sent mono authed _ _ => exact absurd (revalidate_same mono authed).2.2 hended
  | @pinged mono authed _ => exact absurd (k.revalidate_same mono authed).2.2 hended

theorem running_of_step (h : k.step l = some k') : k.Running := by
  cases outcome h with
  | interrupted hrunning => exact hrunning
  | taken hphase _ => rw [Running, hphase]; rfl
  | waited hphase => rw [Running, hphase]; rfl
  | greeted hphase => rw [Running, hphase]; rfl
  | sent hphase => rw [Running, hphase]; rfl
  | pinged hphase => rw [Running, hphase]; rfl
  | closed hphase => rw [Running, hphase]; rfl

theorem hear_stream_of_room {msg : μ} (h : k.queue.length < subscriberQueueSize) :
    (k.hear true msg).stream = k.stream ++ [msg] := by
  simp only [hear, Fifo.putNowait_eq_some.mpr ⟨h, rfl⟩, if_true, Option.getD_some, stream,
    List.append_assoc]
  rfl

end Steps

end Conn

/-- The queues that are subscribed to the bus, by the connections they belong to. -/
structure LiveBus (κ μ : Type) where
  subs : Finset κ
  conns : κ → Option (Conn μ)

namespace LiveBus

variable {κ μ : Type} [DecidableEq κ]

/-- What can happen: a connection is accepted and subscribes, a message is published, a connection
takes a step. -/
inductive Label (κ μ : Type) where
  | subscribe (c : κ) (mono : ℚ)
  | publish (msg : μ)
  | conn (c : κ) (l : Conn.Label)

def init : LiveBus κ μ := ⟨∅, fun _ => none⟩

variable (s : LiveBus κ μ)

def subscribe (c : κ) (mono : ℚ) : LiveBus κ μ where
  subs := insert c s.subs
  conns := Function.update s.conns c (some (.subscribed mono))

/-- Put a message on every subscribed queue, and drop the queues that are full. -/
def publish (msg : μ) : LiveBus κ μ where
  subs := s.subs.filter fun c =>
    ((s.conns c).bind fun k => Fifo.putNowait subscriberQueueSize k.queue msg).isSome
  conns c := (s.conns c).map fun k => k.hear (decide (c ∈ s.subs)) msg

def publishAll (msgs : List μ) : LiveBus κ μ := msgs.foldl publish s

/-- A connection that ends gives up its subscription. -/
def setConn (c : κ) (k : Conn μ) : LiveBus κ μ where
  subs := if k.phase.isEnded then s.subs.erase c else s.subs
  conns := Function.update s.conns c (some k)

def step : Label κ μ → Option (LiveBus κ μ)
  | .subscribe c mono =>
    if (s.conns c).isSome then none else some (s.subscribe c mono)
  | .publish msg => some (s.publish msg)
  | .conn c l => ((s.conns c).bind (Conn.step · l)).map (s.setConn c)

/-- The step publishes a message while the queue of the connection is subscribed and full. -/
def Overflows (c : κ) : Label κ μ → Prop
  | .publish _ => c ∈ s.subs ∧ ∀ k ∈ s.conns c, subscriberQueueSize ≤ k.queue.length
  | _ => False

instance (c : κ) : DecidablePred (s.Overflows c)
  | .publish _ => inferInstanceAs (Decidable (_ ∧ _))
  | .subscribe _ _ | .conn _ _ => inferInstanceAs (Decidable False)

def Absent (c : κ) : Prop := c ∉ s.subs ∧ s.conns c = none

/-- The connection is subscribed, and what was published is its stream. -/
def Served (c : κ) : Prop :=
  c ∈ s.subs ∧ ∃ k, s.conns c = some k ∧ k.Running ∧ k.published = k.stream

/-- The connection has lost its subscription, or has ended. -/
def Off (c : κ) : Prop := c ∉ s.subs ∧ (s.conns c).isSome

def Ended (c : κ) : Prop := ∃ k, s.conns c = some k ∧ ¬k.Running

section Steps

variable {s} {s' : LiveBus κ μ} {l : Label κ μ} {c : κ}

theorem step_subscribe {mono : ℚ} (h : s.step (.subscribe c mono) = some s') :
    s.conns c = none ∧ s' = s.subscribe c mono := by
  simp only [step] at h
  split at h
  · cases h
  · rename_i hnone
    exact ⟨by simpa using hnone, (Option.some.inj h).symm⟩

theorem step_conn {cl : Conn.Label} (h : s.step (.conn c cl) = some s') :
    ∃ k k', s.conns c = some k ∧ k.step cl = some k' ∧ s' = s.setConn c k' := by
  obtain ⟨k', hk', rfl⟩ := Option.map_eq_some_iff.mp h
  obtain ⟨k, hk, hstep⟩ := Option.bind_eq_some_iff.mp hk'
  exact ⟨k, k', hk, hstep, rfl⟩

theorem mem_subs_subscribe {c' : κ} {mono : ℚ} :
    c ∈ (s.subscribe c' mono).subs ↔ c = c' ∨ c ∈ s.subs :=
  Finset.mem_insert

theorem conns_subscribe_self {mono : ℚ} :
    (s.subscribe c mono).conns c = some (.subscribed mono) :=
  Function.update_self _ _ _

theorem conns_subscribe_of_ne {c' : κ} {mono : ℚ} (h : c ≠ c') :
    (s.subscribe c' mono).conns c = s.conns c :=
  Function.update_of_ne h _ _

theorem conns_publish {msg : μ} :
    (s.publish msg).conns c = (s.conns c).map fun k => k.hear (decide (c ∈ s.subs)) msg :=
  rfl

theorem mem_subs_setConn {c' : κ} {k : Conn μ} :
    c ∈ (s.setConn c' k).subs ↔ c ∈ s.subs ∧ (c = c' → k.Running) := by
  unfold setConn Conn.Running
  cases k.phase.isEnded with
  | true => simp [and_comm]
  | false => simp

theorem conns_setConn_self {k : Conn μ} : (s.setConn c k).conns c = some k :=
  Function.update_self _ _ _

theorem conns_setConn_of_ne {c' : κ} {k : Conn μ} (h : c ≠ c') :
    (s.setConn c' k).conns c = s.conns c :=
  Function.update_of_ne h _ _

theorem mem_subs_publish {msg : μ} :
    c ∈ (s.publish msg).subs ↔
      c ∈ s.subs ∧ ∃ k, s.conns c = some k ∧ k.queue.length < subscriberQueueSize := by
  unfold publish
  rw [Finset.mem_filter]
  refine and_congr_right fun _ => ?_
  cases s.conns c with
  | none => simp
  | some k => simp [Fifo.putNowait]

theorem conns_publishAll_of_none {msgs : List μ} (h : s.conns c = none) :
    (s.publishAll msgs).conns c = none := by
  induction msgs generalizing s with
  | nil => exact h
  | cons msg msgs ih => exact ih (by rw [conns_publish, h]; rfl)

theorem conns_publishAll_of_some (msgs : List μ) {k : Conn μ} (hk : s.conns c = some k) :
    ∃ k', (s.publishAll msgs).conns c = some k' ∧ k'.sent = k.sent := by
  induction msgs generalizing s k with
  | nil => exact ⟨k, hk, rfl⟩
  | cons msg msgs ih =>
    have hk' : (s.publish msg).conns c = some (k.hear (decide (c ∈ s.subs)) msg) := by
      rw [conns_publish, hk]
      rfl
    obtain ⟨k', hconn, hsent⟩ := ih hk'
    exact ⟨k', hconn, hsent⟩

theorem publishAll_of_not_mem (msgs : List μ) {k : Conn μ} (hc : c ∉ s.subs)
    (hk : s.conns c = some k) :
    ∃ k', (s.publishAll msgs).conns c = some k' ∧ k'.stream = k.stream ∧ k'.sent = k.sent := by
  induction msgs generalizing s k with
  | nil => exact ⟨k, hk, rfl, rfl⟩
  | cons msg msgs ih =>
    have hk' : (s.publish msg).conns c = some (k.hear false msg) := by
      simp [conns_publish, hk, hc]
    obtain ⟨k', hconn, hstream, hsent⟩ := ih (fun hmem => hc (mem_subs_publish.mp hmem).1) hk'
    exact ⟨k', hconn, hstream, hsent⟩

theorem publishAll_of_room {msgs : List μ} {k : Conn μ} (hc : c ∈ s.subs)
    (hk : s.conns c = some k) (hroom : k.queue.length + msgs.length ≤ subscriberQueueSize) :
    ∃ k', (s.publishAll msgs).conns c = some k' ∧ k'.stream = k.stream ++ msgs ∧
      k'.sent = k.sent := by
  induction msgs generalizing s k with
  | nil => exact ⟨k, hk, (List.append_nil _).symm, rfl⟩
  | cons msg msgs ih =>
    rw [List.length_cons] at hroom
    have hlt : k.queue.length < subscriberQueueSize := by omega
    have hk' : (s.publish msg).conns c = some (k.hear true msg) := by
      simp [conns_publish, hk, hc]
    have hlen : (k.hear true msg).queue.length = k.queue.length + 1 := by
      simp [Conn.hear, Fifo.putNowait, hlt]
    obtain ⟨k', hconn, hstream, hsent⟩ :=
      ih (mem_subs_publish.mpr ⟨hc, k, hk, hlt⟩) hk' (by omega)
    refine ⟨k', hconn, ?_, hsent⟩
    rw [hstream, Conn.hear_stream_of_room hlt, List.append_assoc, List.singleton_append]

/-- Only connections that have been accepted are subscribed. -/
def Registered (s : LiveBus κ μ) : Prop := ∀ c ∈ s.subs, (s.conns c).isSome

theorem Registered.publishAll (h : s.Registered) (msgs : List μ) :
    (s.publishAll msgs).Registered := by
  induction msgs generalizing s with
  | nil => exact h
  | cons msg msgs ih =>
    refine ih fun c hc => ?_
    rw [conns_publish, Option.isSome_map]
    exact h c (mem_subs_publish.mp hc).1

theorem Registered.subscribe (h : s.Registered) (c' : κ) (mono : ℚ) :
    (s.subscribe c' mono).Registered := by
  intro c hc
  by_cases he : c = c'
  · subst he
    rw [conns_subscribe_self]
    rfl
  · rw [conns_subscribe_of_ne he]
    exact h c ((mem_subs_subscribe.mp hc).resolve_left he)

theorem Registered.setConn (h : s.Registered) (c' : κ) (k : Conn μ) :
    (s.setConn c' k).Registered := by
  intro c hc
  by_cases he : c = c'
  · subst he
    rw [conns_setConn_self]
    rfl
  · rw [conns_setConn_of_ne he]
    exact h c (mem_subs_setConn.mp hc).1

theorem Off.step (h : s.Off c) (hs : s.step l = some s') : s'.Off c := by
  obtain ⟨hsubs, hconn⟩ := h
  cases l with
  | subscribe c' mono =>
    obtain ⟨hnone, rfl⟩ := step_subscribe hs
    have hne : c ≠ c' := by
      rintro rfl
      simp [hnone] at hconn
    exact ⟨by simp [mem_subs_subscribe, hne, hsubs], by rwa [conns_subscribe_of_ne hne]⟩
  | publish msg =>
    obtain rfl := Option.some.inj hs
    refine ⟨fun hmem => hsubs (mem_subs_publish.mp hmem).1, ?_⟩
    rwa [conns_publish, Option.isSome_map]
  | conn c' cl =>
    obtain ⟨k, k', -, -, rfl⟩ := step_conn hs
    refine ⟨fun hmem => hsubs (mem_subs_setConn.mp hmem).1, ?_⟩
    by_cases hc : c = c'
    · subst hc
      rw [conns_setConn_self]
      rfl
    · rwa [conns_setConn_of_ne hc]

theorem Ended.step (h : s.Ended c) (hs : s.step l = some s') : s'.Ended c := by
  obtain ⟨k, hk, hended⟩ := h
  cases l with
  | subscribe c' mono =>
    obtain ⟨hnone, rfl⟩ := step_subscribe hs
    have hne : c ≠ c' := by
      rintro rfl
      rw [hk] at hnone
      cases hnone
    exact ⟨k, by rwa [conns_subscribe_of_ne hne], hended⟩
  | publish msg =>
    obtain rfl := Option.some.inj hs
    exact ⟨k.hear _ msg, by rw [conns_publish, hk]; rfl, hended⟩
  | conn c' cl =>
    obtain ⟨k₀, k', hk₀, hstep, rfl⟩ := step_conn hs
    by_cases hc : c = c'
    · subst hc
      obtain rfl := Option.some.inj (hk.symm.trans hk₀)
      exact absurd (Conn.running_of_step hstep) hended
    · exact ⟨k, by rwa [conns_setConn_of_ne hc], hended⟩

theorem Absent.step (h : s.Absent c) (hs : s.step l = some s') : s'.Absent c ∨ s'.Served c := by
  obtain ⟨hsubs, hconn⟩ := h
  cases l with
  | subscribe c' mono =>
    obtain ⟨-, rfl⟩ := step_subscribe hs
    by_cases hc : c = c'
    · subst hc
      right
      exact ⟨mem_subs_subscribe.mpr (Or.inl rfl), _, conns_subscribe_self, rfl, rfl⟩
    · left
      exact ⟨by simp [mem_subs_subscribe, hc, hsubs], by rwa [conns_subscribe_of_ne hc]⟩
  | publish msg =>
    obtain rfl := Option.some.inj hs
    left
    exact ⟨fun hmem => hsubs (mem_subs_publish.mp hmem).1, by rw [conns_publish, hconn]; rfl⟩
  | conn c' cl =>
    obtain ⟨k, k', hk, -, rfl⟩ := step_conn hs
    have hne : c ≠ c' := by
      rintro rfl
      rw [hconn] at hk
      cases hk
    left
    exact ⟨fun hmem => hsubs (mem_subs_setConn.mp hmem).1, by rwa [conns_setConn_of_ne hne]⟩

/-- A subscribed connection goes on being served, until it ends or a message finds its queue
full. -/
theorem Served.step (h : s.Served c) (hs : s.step l = some s') :
    ¬s.Overflows c l ∧ (s'.Served c ∨ s'.Off c ∧ s'.Ended c) ∨ s.Overflows c l ∧ s'.Off c := by
  obtain ⟨hsubs, k, hk, hrunning, hstream⟩ := h
  cases l with
  | subscribe c' mono =>
    obtain ⟨hnone, rfl⟩ := step_subscribe hs
    have hne : c ≠ c' := by
      rintro rfl
      rw [hk] at hnone
      cases hnone
    refine Or.inl ⟨id, Or.inl ⟨mem_subs_subscribe.mpr (Or.inr hsubs), k, ?_, hrunning, hstream⟩⟩
    rwa [conns_subscribe_of_ne hne]
  | publish msg =>
    obtain rfl := Option.some.inj hs
    have hconn : (s.publish msg).conns c = some (k.hear true msg) := by
      simp [conns_publish, hk, hsubs]
    by_cases hroom : k.queue.length < subscriberQueueSize
    · refine Or.inl ⟨?_,
        Or.inl ⟨mem_subs_publish.mpr ⟨hsubs, k, hk, hroom⟩, _, hconn, hrunning, ?_⟩⟩
      · rintro ⟨-, hfull⟩
        exact absurd (hfull k hk) (not_le.mpr hroom)
      · rw [Conn.hear_stream_of_room hroom, ← hstream]
        rfl
    · refine Or.inr ⟨⟨hsubs, fun k₀ hk₀ => ?_⟩, fun hmem => ?_, by rw [hconn]; rfl⟩
      · obtain rfl := Option.some.inj (hk.symm.trans hk₀)
        exact not_lt.mp hroom
      · obtain ⟨-, k₀, hk₀, hlt⟩ := mem_subs_publish.mp hmem
        obtain rfl := Option.some.inj (hk.symm.trans hk₀)
        exact hroom hlt
  | conn c' cl =>
    obtain ⟨k₀, k', hk₀, hstep, rfl⟩ := step_conn hs
    left
    refine ⟨id, ?_⟩
    by_cases hc : c = c'
    · subst hc
      obtain rfl := Option.some.inj (hk.symm.trans hk₀)
      by_cases hend : k'.Running
      · obtain ⟨hstream', hpublished⟩ := Conn.step_same hstep hend
        left
        refine ⟨mem_subs_setConn.mpr ⟨hsubs, fun _ => hend⟩, k', conns_setConn_self, hend, ?_⟩
        rw [hpublished, hstream', hstream]
      · refine Or.inr ⟨⟨fun hmem => hend ((mem_subs_setConn.mp hmem).2 rfl), ?_⟩,
          k', conns_setConn_self, hend⟩
        rw [conns_setConn_self]
        rfl
    · left
      refine ⟨mem_subs_setConn.mpr ⟨hsubs, fun he => absurd he hc⟩, k, ?_, hrunning, hstream⟩
      rwa [conns_setConn_of_ne hc]

end Steps

section Run

variable {ls : List (Label κ μ)} {c : κ}

/-- No step of the run publishes to a full queue of the connection. -/
def NeverOverflows (ls : List (Label κ μ)) (c : κ) : Prop :=
  ∀ s l s', Takes step init ls s l s' → ¬s.Overflows c l

theorem neverOverflows_snoc {l : Label κ μ} {s s' : LiveBus κ μ} (hr : run step init ls = some s)
    (hs : s.step l = some s') :
    NeverOverflows (ls ++ [l]) c ↔ NeverOverflows ls c ∧ ¬s.Overflows c l := by
  constructor
  · intro h
    exact ⟨fun t k t' ht => h t k t' (takes_snoc_iff.mpr (Or.inl ht)),
      h s l s' (takes_snoc_iff.mpr (Or.inr ⟨rfl, hr, hs⟩))⟩
  · rintro ⟨h, hlast⟩ t k t' ht
    rcases takes_snoc_iff.mp ht with ht | ⟨rfl, ht, -⟩
    · exact h t k t' ht
    · obtain rfl := Option.some.inj (hr.symm.trans ht)
      exact hlast

theorem served_or_off (ls : List (Label κ μ)) (c : κ) {s : LiveBus κ μ}
    (hr : run step init ls = some s) :
    (s.Absent c ∨ s.Served c) ∧ NeverOverflows ls c ∨
      s.Off c ∧ (¬NeverOverflows ls c ∨ s.Ended c) := by
  induction ls using List.reverseRecOn generalizing s with
  | nil =>
    obtain rfl := Option.some.inj hr
    refine Or.inl ⟨Or.inl ⟨by simp [init], rfl⟩, ?_⟩
    rintro t l t' ⟨pre, post, he, -⟩
    simp at he
  | append_singleton ls l ih =>
    obtain ⟨t, ht, hs⟩ := run_snoc_iff.mp hr
    have hsnoc := neverOverflows_snoc (c := c) ht hs
    rcases ih ht with ⟨habsent | hserved, hnever⟩ | ⟨hoff, hwhy⟩
    · have hno : ¬t.Overflows c l := by
        cases l with
        | publish msg => exact fun h => habsent.1 h.1
        | _ => exact id
      exact Or.inl ⟨habsent.step hs, hsnoc.mpr ⟨hnever, hno⟩⟩
    · rcases hserved.step hs with ⟨hno, hserved | hend⟩ | ⟨hover, hoff⟩
      · exact Or.inl ⟨Or.inr hserved, hsnoc.mpr ⟨hnever, hno⟩⟩
      · exact Or.inr ⟨hend.1, Or.inr hend.2⟩
      · exact Or.inr ⟨hoff, Or.inl fun h => (hsnoc.mp h).2 hover⟩
    · refine Or.inr ⟨hoff.step hs, hwhy.imp (fun hover h => hover (hsnoc.mp h).1) fun hend => ?_⟩
      exact hend.step hs

/-- A connection that has not ended is subscribed, and its stream is what has been published since
it subscribed, if and only if no message was published while its queue was subscribed and full. -/
theorem live_socket_subscribed_iff (ls : List (Label κ μ)) (s : LiveBus κ μ)
    (hr : run step init ls = some s) (c : κ) (k : Conn μ) (hk : s.conns c = some k)
    (hrunning : k.Running) :
    (c ∈ s.subs ∧ k.published = k.sent ++ k.inFlight ++ k.queue) ↔
      ∀ t l t', Takes step init ls t l t' → ¬t.Overflows c l := by
  change (_ ∧ k.published = k.stream) ↔ NeverOverflows ls c
  rcases served_or_off ls c hr with ⟨habsent | hserved, hnever⟩ | ⟨hoff, hwhy⟩
  · rw [habsent.2] at hk
    cases hk
  · obtain ⟨hsubs, k', hk', -, hstream⟩ := hserved
    obtain rfl := Option.some.inj (hk.symm.trans hk')
    exact iff_of_true ⟨hsubs, hstream⟩ hnever
  · refine iff_of_false (fun h => hoff.1 h.1) ?_
    rcases hwhy with hover | ⟨k', hk', hended⟩
    · exact hover
    · obtain rfl := Option.some.inj (hk.symm.trans hk')
      exact absurd hrunning hended

end Run

def earlyMessage : List (Label ℕ ℕ) :=
  [.subscribe 0 0, .publish 7, .conn 0 (.sendDone 1 true), .conn 0 .take]

/-- It is sent after the hello. -/
theorem early_message_served :
    ∃ s k, run step init earlyMessage = some s ∧ s.conns 0 = some k ∧ k.inFlight = [7] ∧
      0 ∈ s.subs ∧ k.published = k.sent ++ k.inFlight ++ k.queue := by
  have heval : (run step init earlyMessage).any (fun s => (s.conns 0).any fun k =>
      k.Running ∧ k.inFlight = [7]) = true := by
    decide +kernel
  obtain ⟨s, hrun, hs⟩ := (Option.any_eq_true _ _).mp heval
  obtain ⟨k, hk, hsending⟩ := (Option.any_eq_true _ _).mp hs
  obtain ⟨hrunning, hflight⟩ := of_decide_eq_true hsending
  refine ⟨s, k, hrun, hk, hflight, ?_⟩
  refine (live_socket_subscribed_iff earlyMessage s hrun 0 k hk hrunning).mpr fun t l t' ht => ?_
  exact of_decide_eq_true (ht.test_of_everyStep (fun t l _ => ¬t.Overflows 0 l) (by decide +kernel))

/-- A burst of messages during a slow hello, then all that is left of it, then a message and a
ping. -/
def burst : List (Label ℕ ℕ) :=
  .subscribe 0 0 :: List.replicate 65 (.publish 7) ++ .conn 0 (.sendDone 1 true) ::
    (List.replicate 64 [.conn 0 .take, .conn 0 (.sendDone 2 true)]).flatten ++
    [.publish 8, .conn 0 .timeout, .conn 0 (.sendDone 3 true)]

/-- A connection that was dropped goes on with pings, and misses what is published. -/
theorem dropped_connection_pings :
    ∃ s k, run step init burst = some s ∧ s.conns 0 = some k ∧ k.Running ∧ 0 ∉ s.subs ∧
      8 ∈ k.published ∧ 8 ∉ k.sent ++ k.inFlight ++ k.queue := by
  have heval : (run step init burst).any (fun s => (s.conns 0).any fun k =>
      k.Running ∧ 0 ∉ s.subs ∧ 8 ∈ k.published ∧ 8 ∉ k.sent ++ k.inFlight ++ k.queue) = true := by
    decide +kernel
  obtain ⟨s, hrun, hs⟩ := (Option.any_eq_true _ _).mp heval
  obtain ⟨k, hk, hlost⟩ := (Option.any_eq_true _ _).mp hs
  exact ⟨s, k, hrun, hk, of_decide_eq_true hlost⟩

end LiveBus

end GenWatch

import GenWatch.Live.Dashboard
import GenWatch.History.Transfers

/-! # The live feed

The server answers the status request from its snapshots and its tables, and pushes a part of
the same data after polls of the fast tier. A page reads the status once and then follows its
socket; the messages of a connection arrive in the order in which they were published, and
none that was dropped.
-/

namespace GenWatch

open Transition Handler

section Payloads

def CommsHealth.block (h : CommsHealth) : CommsBlock :=
  ⟨h.state, h.successPct, h.lastGoodAt, h.rateMs, h.p95LatencyMs⟩

/-- A push leaves out the time of the last success. -/
def CommsHealth.push (h : CommsHealth) : CommsBlock := { h.block with lastGoodAt := none }

def panelBlock (mode : PanelMode) (values : Values) : PanelBlock where
  mode := mode
  keySwitchRaw := values "key_switch_state"
  engineStatusCode := values "engine_status_code"
  activeAlarmCountHw := values "active_alarm_count"
  quietTestStatusRaw := values "quiettest_status"

namespace StateSnapshot

variable (snap : StateSnapshot) (now : ℚ)

def timeInStateS : ℤ := truncInt (now - snap.stateStartedAt)

def timeInLoadSourceS : ℤ := truncInt (now - snap.loadSourceStartedAt)

/-- `alarm_raw`: whether any alarm is displayed. -/
def alarmRaw : ℤ := if snap.activeAlarms = ∅ then 0 else 1

variable {snap now}

theorem timeInStateS_of_now (h : snap.stateStartedAt = now) : snap.timeInStateS now = 0 := by
  rw [timeInStateS, h, sub_self]
  rfl

theorem timeInLoadSourceS_of_now (h : snap.loadSourceStartedAt = now) :
    snap.timeInLoadSourceS now = 0 := by
  rw [timeInLoadSourceS, h, sub_self]
  rfl

end StateSnapshot

/-- The companion's block as the status request has it. -/
def AtsService.block (ats : AtsService) (heap : CommsHeap) : AtsFields where
  position := ats.snap.position
  normalAvailable := ats.snap.normalAvailable
  emergencyAvailable := ats.snap.emergencyAvailable
  engineStartCalling := ats.snap.engineStartCalling
  atsMode := ats.snap.atsMode
  faultCodes := sortedCodes ats.snap.faultCodes
  lastTransferToGenTs := ats.snap.lastTransferToGenTs
  lastRetransferToUtilTs := ats.snap.lastRetransferToUtilTs
  transferCount24h := ats.snap.transferCount24h
  transferCountLifetime := ats.snap.transferCountLifetime
  icdVersion := some ats.snap.icdVersion
  atsPiFw := some ats.snap.atsPiFw
  atsPiUnitId := some ats.snap.atsPiUnitId
  atsPiUptimeS := some ats.snap.atsPiUptimeS
  cmdTestActive := ats.snap.cmdTestActive
  cmdInhibitActive := ats.snap.cmdInhibitActive
  cmdForceTransferActive := ats.snap.cmdForceTransferActive
  cmdBypassDelayActive := ats.snap.cmdBypassDelayActive
  commsState := (heap ats.snap.comms).state
  commsSuccessPct := (heap ats.snap.comms).successPct
  authoritative := ats.isAuthoritative heap

def AtsFields.anonymous (a : AtsFields) : AtsFields :=
  { a with icdVersion := none, atsPiFw := none, atsPiUnitId := none, atsPiUptimeS := none }

namespace Monitor

variable (mon : Monitor)

/-- What the status request answers; where there is no register that counts starts, the log does. -/
def statusBody (now : ℚ) : StatusBody :=
  let snap := mon.stateMachine.snap
  let values := snap.lastReading.values
  { state := snap.engineState
    alarmRaw := snap.alarmRaw
    timeInState := snap.timeInStateS now
    stateStartedAt := snap.stateStartedAt
    loadSource := snap.loadSource
    loadSourceStartedAt := snap.loadSourceStartedAt
    timeInLoadSource := snap.timeInLoadSourceS now
    comms := (mon.heap snap.comms).block
    reading := Function.update (readingToUi values) .startCount
      (some ((values "start_count").getD mon.db.countEngineStarts))
    activeAlarms := mon.db.activeAlarms
    hts :=
      { transferredToGen := snap.loadSource = .generator
        lastTransferTs := mon.db.lastTransferTs
        transfers30d := mon.db.countTransfersSince (now - 30 * 86400) }
    panel := panelBlock (mon.stateMachine.regmap.derivePanelMode values) values
    ats :=
      match mon.ats with
      | none => .disabled
      | some ats => .enabled (ats.block mon.heap)
    serverTs := now }

/-- What is pushed after a poll; `comms` is the record that the poller passed. -/
def snapshotMsg (now : ℚ) (reading : Reading) : SnapshotMsg :=
  let snap := mon.stateMachine.snap
  { ts := reading.ts
    state := snap.engineState
    timeInState := snap.timeInStateS now
    alarmRaw := snap.alarmRaw
    comms := mon.poller.health.push
    reading := fun k => some (readingToUi reading.values k)
    panel := some (panelBlock snap.panelMode reading.values)
    loadSource := some snap.loadSource
    timeInLoadSource := some (snap.timeInLoadSourceS now)
    ats := mon.ats.map fun ats => .enabled (ats.block mon.heap).anonymous }

end Monitor

end Payloads

/-- The server with its connections, and one page with the answer it waits for and the number of
messages it has received over its connection. -/
structure Feed where
  mon : Monitor
  held : Option (List Event)
  pushThrottleS : ℚ
  lastPushTs : ℚ
  bus : LiveBus ℕ LiveMessage
  nextConn : ℕ
  page : Page
  answer : Option StatusBody
  seen : ℕ

namespace Feed

inductive Label where
  /-- the generator's poller calls back -/
  | poll (tier : RegTier) (faults : List Bool) (now : ℚ) (reading : Reading)
  /-- the telemetry row has been written, and the callback goes on -/
  | telemetryWritten
  /-- the companion's poller calls back -/
  | atsPoll (faults : List Bool) (now mono : ℚ) (tier : RegTier) (reading : Reading)
  /-- what else happens on the monitoring side -/
  | other (i : Input)
  | applyRegmap (m : RegisterMap)
  | ack (code operator : String) (ctl : Option ControlDef) (now : ℚ)
  /-- another page opens a socket -/
  | connect
  | subscribe (c : ℕ) (mono : ℚ)
  | conn (c : ℕ) (l : Conn.Label)
  /-- the server answers the status request -/
  | statusRead (now : ℚ)
  | seeded (now : ℤ)
  | seedFailed (error : String)
  | onopen
  | stable
  | onmessage (now : ℤ)
  /-- a hello or a ping arrives -/
  | keepalive (hello : Bool) (now : ℤ)
  | onclose
  | reconnect

/-- A page is mounted while the server is in some state. -/
def start (mon : Monitor) (pushThrottleS lastPushTs : ℚ) : Feed :=
  ⟨mon, none, pushThrottleS, lastPushTs, .init, 0, .mounted, none, 0⟩

variable (s : Feed)

def pushes (reading : Reading) : Bool := s.pushThrottleS ≤ reading.ts - s.lastPushTs

def published : Label → List LiveMessage
  | .poll .prime faults now reading =>
    let r := s.mon.onPoll faults now reading
    (if s.pushes reading then [.snapshot (r.1.snapshotMsg now reading)] else []) ++
      r.2.map .event
  | .telemetryWritten => (s.held.getD []).map .event
  | .atsPoll faults now mono tier reading =>
    match s.mon.ats with
    | some ats => (s.mon.onAtsPoll ats faults now mono tier reading).2.map .event
    | none => []
  | _ => []

/-- The next message of the page's connection that has been sent and not received. -/
def arrival : Option LiveMessage :=
  match s.page.sock with
  | .opened c => (s.bus.conns c).bind fun k => k.sent[s.seen]?
  | _ => none

def pageLabel : Label → Option Page.Label
  | .seeded now => s.answer.map fun body => .seeded body now s.nextConn
  | .seedFailed error => some (.seedFailed error s.nextConn)
  | .onopen => some .onopen
  | .stable => some .stable
  | .onmessage now => s.arrival.map fun msg => .onmessage msg now
  | .keepalive hello now => some (.onmessage (if hello then .hello else .ping) now)
  | .onclose => some .onclose
  | .reconnect => some (.reconnect s.nextConn)
  | _ => none

/-- A new socket has a new connection, of which nothing has been received. -/
def received : Label → ℕ × ℕ
  | .seeded _ | .seedFailed _ | .reconnect => (s.nextConn + 1, 0)
  | .onmessage _ => (s.nextConn, s.seen + 1)
  | _ => (s.nextConn, s.seen)

def pageStep (l : Label) : Option Feed :=
  (s.pageLabel l).bind fun pl => (s.page.step pl).map fun page =>
    { s with page := page, nextConn := (s.received l).1, seen := (s.received l).2 }

def step (l : Label) : Option Feed :=
  match l with
  | .poll .prime faults now reading =>
    some { s with
      mon := (s.mon.onPoll faults now reading).1
      lastPushTs := if s.pushes reading then reading.ts else s.lastPushTs
      bus := s.bus.publishAll (s.published l) }
  | .poll .base faults now reading =>
    if s.held.isSome then none
    else
      some { s with
        mon := (s.mon.onPoll faults now reading).1
        held := some (s.mon.onPoll faults now reading).2 }
  | .telemetryWritten =>
    if s.held.isSome then some { s with held := none, bus := s.bus.publishAll (s.published l) }
    else none
  | .atsPoll faults now mono tier reading =>
    s.mon.ats.map fun ats =>
      { s with
        mon := (s.mon.onAtsPoll ats faults now mono tier reading).1
        bus := s.bus.publishAll (s.published l) }
  | .other i =>
    if i.callback.isSome then none
    else (s.mon.step [] i).map fun r => { s with mon := r.1 }
  | .applyRegmap m => some { s with mon := s.mon.applyRegmap m }
  | .ack code operator ctl now =>
    some { s with mon := { s.mon with db := s.mon.db.acknowledgeAlarm code operator ctl now } }
  | .connect => some { s with nextConn := s.nextConn + 1 }
  | .subscribe c mono =>
    if c < s.nextConn then (s.bus.step (.subscribe c mono)).map fun bus => { s with bus := bus }
    else none
  | .conn c cl => (s.bus.step (.conn c cl)).map fun bus => { s with bus := bus }
  | .statusRead now =>
    if s.page.seeding ∧ s.answer = none then some { s with answer := some (s.mon.statusBody now) }
    else none
  | _ => s.pageStep l

end Feed

/-! ### What a connection sends of what was published -/

namespace Conn

variable {μ : Type} {S : List μ} {k k' : Conn μ}

/-- While the connection runs its stream begins with the messages; what it has sent when it ends
agrees with them. -/
def Carries (S : List μ) (k : Conn μ) : Prop :=
  k.Running ∧ S <+: k.stream ∨ ¬k.Running ∧ (k.sent <+: S ∨ S <+: k.sent)

theorem sent_prefix_stream : k.sent <+: k.stream := by
  rw [stream, List.append_assoc]
  exact List.prefix_append _ _

theorem Carries.agrees (h : Carries S k) : k.sent <+: S ∨ S <+: k.sent := by
  rcases h with ⟨-, hS⟩ | ⟨-, h⟩
  · exact List.prefix_or_prefix_of_prefix sent_prefix_stream hS
  · exact h

theorem Carries.getElem? (h : Carries S k) {i : ℕ} {msg : μ} (hi : i < S.length)
    (hmsg : k.sent[i]? = some msg) : S[i]? = some msg := by
  obtain ⟨hlt, hget⟩ := List.getElem?_eq_some_iff.mp hmsg
  rcases h.agrees with hpre | hpre
  · rw [List.prefix_iff_getElem?.mp hpre i hlt, hget]
  · rw [List.getElem?_eq_getElem hi, ← hget, List.IsPrefix.getElem hpre hi]

theorem hear_stream (subscribed : Bool) (msg : μ) :
    k.stream <+: (k.hear subscribed msg).stream := by
  cases subscribed with
  | false => exact List.prefix_rfl
  | true =>
    by_cases hroom : k.queue.length < subscriberQueueSize
    · rw [hear_stream_of_room hroom]
      exact List.prefix_append _ _
    · have hfull : Fifo.putNowait subscriberQueueSize k.queue msg = none :=
        Fifo.putNowait_eq_none.mpr (not_lt.mp hroom)
      have hsame : (k.hear true msg).stream = k.stream := by
        simp only [hear, hfull, stream, inFlight, if_true, Option.getD_none]
      rw [hsame]

theorem Carries.hear (h : Carries S k) (subscribed : Bool) (msg : μ) :
    Carries S (k.hear subscribed msg) := by
  rcases h with ⟨hrunning, hS⟩ | ⟨hended, h⟩
  · exact Or.inl ⟨hrunning, hS.trans (hear_stream subscribed msg)⟩
  · exact Or.inr ⟨hended, h⟩

theorem step_of_ended {l : Label} (h : k.step l = some k') : k.Running := by
  unfold Running
  cases hphase : k.phase with
  | ended => cases l <;> simp [step, hphase, ConnPhase.isEnded] at h
  | _ => rfl

theorem Carries.step (h : Carries S k) {l : Label} (hs : k.step l = some k') : Carries S k' := by
  rcases h with ⟨hrunning, hS⟩ | ⟨hended, -⟩
  · by_cases hruns : k'.Running
    · left
      refine ⟨hruns, ?_⟩
      rw [(step_same hs hruns).1]
      exact hS
    · right
      refine ⟨hruns, ?_⟩
      rw [(step_ended hs hruns).2.1]
      exact List.prefix_or_prefix_of_prefix sent_prefix_stream hS
  · exact absurd (step_of_ended hs) hended

end Conn

namespace LiveBus

variable {κ μ : Type} [DecidableEq κ] {b : LiveBus κ μ} {c : κ} {S : List μ}

theorem carries_publishAll (msgs : List μ) (h : ∃ k, b.conns c = some k ∧ k.Carries S) :
    ∃ k, (b.publishAll msgs).conns c = some k ∧ k.Carries S := by
  induction msgs generalizing b with
  | nil => exact h
  | cons msg msgs ih =>
    apply ih
    obtain ⟨k, hk, hcarries⟩ := h
    exact ⟨k.hear (decide (c ∈ b.subs)) msg, by rw [conns_publish, hk]; rfl, hcarries.hear _ _⟩

/-- However the bus goes on, it carries to the connection what it has begun to carry. -/
theorem carries_step {b' : LiveBus κ μ} {l : Label κ μ}
    (h : ∃ k, b.conns c = some k ∧ k.Carries S) (hs : b.step l = some b') :
    ∃ k, b'.conns c = some k ∧ k.Carries S := by
  obtain ⟨k, hk, hcarries⟩ := h
  cases l with
  | subscribe c' mono =>
    obtain ⟨hnone, rfl⟩ := step_subscribe hs
    have hne : c ≠ c' := by
      rintro rfl
      rw [hk] at hnone
      cases hnone
    exact ⟨k, by rw [conns_subscribe_of_ne hne]; exact hk, hcarries⟩
  | publish msg =>
    obtain rfl := Option.some.inj hs
    exact carries_publishAll [msg] ⟨k, hk, hcarries⟩
  | conn c' cl =>
    obtain ⟨k₀, k', hk₀, hstep, rfl⟩ := step_conn hs
    by_cases hc : c = c'
    · subst hc
      obtain rfl := Option.some.inj (hk.symm.trans hk₀)
      exact ⟨k', conns_setConn_self, hcarries.step hstep⟩
    · exact ⟨k, by rw [conns_setConn_of_ne hc]; exact hk, hcarries⟩

end LiveBus

end GenWatch

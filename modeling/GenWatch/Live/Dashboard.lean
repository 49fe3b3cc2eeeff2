import GenWatch.Prelude.Logs
import GenWatch.Services.Control
import GenWatch.Live.Browser

/-! # What the page shows, and what it offers

The page keeps one status body. The status request fills it, and the messages of the socket
overwrite parts of it: snapshots most of it, events their own part at once. It offers a
command only while the body is fresh by the page's own clock. Two moments are kept for that:
when something last proved that the poll loop runs, and when the panel block was last seen.
-/

namespace GenWatch

open Transition

def historySize : ℕ := 40

/-- The numbers of a reading under the names that the page has for them. -/
inductive ReadingKey where
  | rpm | hz | kw | pf | oilP | oilT | coolT | coolLevel | throttle | o2 | batt | battA
  | vAB | vBC | vCA | iA | iB | iC | fuelPct | runHours | startCount
  deriving DecidableEq, Repr

def ReadingKey.register : ReadingKey → String
  | .rpm => "rpm"
  | .hz => "frequency"
  | .kw => "total_kw"
  | .pf => "power_factor"
  | .oilP => "oil_pressure"
  | .oilT => "oil_temp"
  | .coolT => "coolant_temp"
  | .coolLevel => "coolant_level"
  | .throttle => "throttle_position"
  | .o2 => "o2_sensor"
  | .batt => "battery_volts"
  | .battA => "batt_charge_current"
  | .vAB => "gen_voltage_ab"
  | .vBC => "gen_voltage_bc"
  | .vCA => "gen_voltage_ca"
  | .iA => "gen_current_a"
  | .iB => "gen_current_b"
  | .iC => "gen_current_c"
  | .fuelPct => "fuel_level_pct"
  | .runHours => "run_hours"
  | .startCount => "start_count"

abbrev UiReading := ReadingKey → Option ℚ

/-- `reading_to_ui` -/
def readingToUi (values : Values) : UiReading := fun k => values k.register

/-- The keys that a patch has are overwritten, with `null` too; the others stay. -/
def mergeReading (prev : UiReading) (patch : ReadingKey → Option (Option ℚ)) : UiReading :=
  fun k => (patch k).getD (prev k)

/-- The comms block; a push does not have the time of the last success. -/
structure CommsBlock where
  state : CommsState
  successPct : ℚ
  lastGoodAt : Option ℚ
  rateMs : ℤ
  p95LatencyMs : ℚ
  deriving DecidableEq

structure PanelBlock where
  mode : PanelMode
  keySwitchRaw : Option ℚ
  engineStatusCode : Option ℚ
  activeAlarmCountHw : Option ℚ
  quietTestStatusRaw : Option ℚ
  deriving DecidableEq

/-- The block of an enabled companion. A push has none of the four fields that identify it. -/
structure AtsFields where
  position : LoadSource
  normalAvailable : Option Bool
  emergencyAvailable : Option Bool
  engineStartCalling : Option Bool
  atsMode : AtsMode
  faultCodes : List String
  lastTransferToGenTs : Option ℚ
  lastRetransferToUtilTs : Option ℚ
  transferCount24h : ℤ
  transferCountLifetime : ℤ
  icdVersion : Option (ℤ × ℤ)
  atsPiFw : Option (ℤ × ℤ × ℤ)
  atsPiUnitId : Option ℤ
  atsPiUptimeS : Option ℤ
  cmdTestActive : Bool
  cmdInhibitActive : Bool
  cmdForceTransferActive : Bool
  cmdBypassDelayActive : Bool
  commsState : CommsState
  commsSuccessPct : ℚ
  authoritative : Bool
  deriving DecidableEq

inductive AtsBlock where
  | disabled
  | enabled (a : AtsFields)
  deriving DecidableEq

namespace AtsBlock

/-- `mergeAts` -/
def merge : AtsBlock → AtsBlock → AtsBlock
  | _, .disabled => .disabled
  | .disabled, .enabled a => .enabled a
  | .enabled p, .enabled a =>
    .enabled { a with
      icdVersion := a.icdVersion.or p.icdVersion
      atsPiFw := a.atsPiFw.or p.atsPiFw
      atsPiUnitId := a.atsPiUnitId.or p.atsPiUnitId
      atsPiUptimeS := a.atsPiUptimeS.or p.atsPiUptimeS }

def patch (f : AtsFields → AtsFields) : AtsBlock → AtsBlock
  | .disabled => .disabled
  | .enabled a => .enabled (f a)

end AtsBlock

structure HtsBlock where
  transferredToGen : Bool
  lastTransferTs : Option ℚ
  transfers30d : ℕ
  deriving DecidableEq

structure StatusBody where
  state : EngineState
  alarmRaw : ℤ
  timeInState : ℤ
  stateStartedAt : ℚ
  loadSource : LoadSource
  loadSourceStartedAt : ℚ
  timeInLoadSource : ℤ
  comms : CommsBlock
  reading : UiReading
  activeAlarms : List AlarmRow
  hts : HtsBlock
  panel : PanelBlock
  ats : AtsBlock
  serverTs : ℚ

/-- A pushed snapshot. Older servers leave out the last four fields. -/
structure SnapshotMsg where
  ts : ℚ
  state : EngineState
  timeInState : ℤ
  alarmRaw : ℤ
  comms : CommsBlock
  reading : ReadingKey → Option (Option ℚ)
  panel : Option PanelBlock
  loadSource : Option LoadSource
  timeInLoadSource : Option ℤ
  ats : Option AtsBlock

inductive LiveMessage where
  | hello
  | ping
  | snapshot (s : SnapshotMsg)
  | event (e : Event)

def LiveMessage.toMsg : LiveMessage → LiveMsg
  | .event e => .event e
  | _ => .snapshot

namespace StatusBody

variable (b : StatusBody)

def applySnapshot (m : SnapshotMsg) : StatusBody :=
  { b with
    state := m.state
    alarmRaw := m.alarmRaw
    timeInState := m.timeInState
    comms := m.comms
    reading := mergeReading b.reading m.reading
    panel := m.panel.getD b.panel
    loadSource := m.loadSource.getD b.loadSource
    timeInLoadSource := m.timeInLoadSource.getD b.timeInLoadSource
    hts :=
      match m.loadSource with
      | some source => { b.hts with transferredToGen := source = .generator }
      | none => b.hts
    ats :=
      match m.ats with
      | some ats => b.ats.merge ats
      | none => b.ats
    serverTs := m.ts }

def moveLoad (source : LoadSource) (ts : ℚ) : StatusBody :=
  { b with
    loadSource := source
    loadSourceStartedAt := ts
    timeInLoadSource := 0
    hts := { b.hts with transferredToGen := source = .generator } }

/-- An authoritative companion has the say about the load source as well. -/
def applyPosition (pos : LoadSource) (ts : ℚ) : StatusBody :=
  match b.ats with
  | .disabled => b
  | .enabled a =>
    let b := { b with ats := .enabled { a with position := pos } }
    if a.authoritative then b.moveLoad pos ts else b

theorem applyPosition_eq (pos : LoadSource) (ts : ℚ) :
    ∃ ats source started time hts, b.applyPosition pos ts =
      { b with
        ats := ats
        loadSource := source
        loadSourceStartedAt := started
        timeInLoadSource := time
        hts := hts } := by
  unfold applyPosition
  split
  · exact ⟨b.ats, b.loadSource, b.loadSourceStartedAt, b.timeInLoadSource, b.hts, rfl⟩
  · dsimp only
    split
    · exact ⟨_, pos, ts, 0, _, rfl⟩
    · exact ⟨_, b.loadSource, b.loadSourceStartedAt, b.timeInLoadSource, b.hts, rfl⟩

/-- What an event makes of the body; the alarms are seen to beside it. -/
def applyEvent : Event → StatusBody
  | .transition _ new ts => { b with state := new, stateStartedAt := ts, timeInState := 0 }
  | .loadSource _ new ts => b.moveLoad new ts
  | .atsPosition _ new ts => b.applyPosition new ts
  | .atsSource normal available _ =>
    { b with ats := b.ats.patch fun a =>
      if normal then { a with normalAvailable := some available }
      else { a with emergencyAvailable := some available } }
  | .atsMode _ new _ => { b with ats := b.ats.patch fun a => { a with atsMode := new } }
  | .atsComms _ new pct _ =>
    { b with ats := b.ats.patch fun a =>
      { a with
        commsState := new
        commsSuccessPct := pct
        authoritative := new = .healthy ∧ a.authoritative } }
  | _ => b

def apply (msg : LiveMessage) : StatusBody :=
  let b := { b with activeAlarms := Browser.applyMessage b.activeAlarms msg.toMsg }
  match msg with
  | .snapshot m => b.applySnapshot m
  | .event e => b.applyEvent e
  | _ => b

/-- The flag of the transfer switch says what the load source says. -/
def Lockstep : Prop := b.hts.transferredToGen = decide (b.loadSource = .generator)

end StatusBody

namespace StatusBody

variable {b : StatusBody}

theorem Lockstep.moveLoad (source : LoadSource) (ts : ℚ) : (b.moveLoad source ts).Lockstep := rfl

theorem Lockstep.applySnapshot (h : b.Lockstep) (m : SnapshotMsg) :
    (b.applySnapshot m).Lockstep := by
  unfold Lockstep StatusBody.applySnapshot
  cases m.loadSource with
  | none => exact h
  | some source => rfl

theorem Lockstep.applyPosition (h : b.Lockstep) (pos : LoadSource) (ts : ℚ) :
    (b.applyPosition pos ts).Lockstep := by
  unfold StatusBody.applyPosition
  split
  · exact h
  · dsimp only
    split
    · exact Lockstep.moveLoad pos ts
    · exact h

/-- Whatever arrives, from a server of whatever age, the flag of the transfer switch goes with the
load source. -/
theorem Lockstep.apply (h : b.Lockstep) (msg : LiveMessage) : (b.apply msg).Lockstep := by
  cases msg with
  | snapshot m =>
    exact Lockstep.applySnapshot (b := { b with
      activeAlarms := Browser.applyMessage b.activeAlarms (LiveMessage.snapshot m).toMsg }) h m
  | event e =>
    cases e with
    | loadSource old new ts => exact Lockstep.moveLoad new ts
    | atsPosition old new ts => exact h.applyPosition new ts
    | _ => exact h
  | _ => exact h

end StatusBody

/-- The message proves that the poll loop has produced something. -/
def LiveMessage.isPush : LiveMessage → Bool
  | .snapshot _ => true
  | .event (.transition _ _ _) => true
  | _ => false

def LiveMessage.panel? : LiveMessage → Option PanelBlock
  | .snapshot m => m.panel
  | _ => none

/-- The page: the status request, the body, its two clocks, and its socket. -/
structure Page where
  seeding : Bool
  loading : Bool
  error : Option String
  status : Option StatusBody
  history : List UiReading
  reconnects : ℕ
  lastPushAt : Option ℤ
  panelLastSeenAt : Option ℤ
  wsDown : Bool
  sock : Sock
  stableTimer : Bool
  backoff : ℚ

namespace Page

/-- `Date.now()` is read when a body or a message arrives. -/
inductive Label where
  | seeded (body : StatusBody) (now : ℤ) (c : ℕ)
  | seedFailed (error : String) (c : ℕ)
  | onopen
  /-- the socket has been open for three seconds -/
  | stable
  | onmessage (msg : LiveMessage) (now : ℤ)
  | onclose
  | reconnect (c : ℕ)

def mounted : Page where
  seeding := true
  loading := true
  error := none
  status := none
  history := []
  reconnects := 0
  lastPushAt := none
  panelLastSeenAt := none
  wsDown := false
  sock := .idle
  stableTimer := false
  backoff := 1000

variable (p : Page)

/-- Open a socket over the connection `c`; the timers are cleared. -/
def openWs (c : ℕ) : Page := { p with sock := .connecting c, stableTimer := false }

/-- Without a body there is nothing to apply a message to. -/
def applyMessage (msg : LiveMessage) (now : ℤ) : Page :=
  match p.status with
  | none => p
  | some b =>
    { p with
      status := some (b.apply msg)
      history :=
        match msg with
        | .snapshot _ => ((b.apply msg).reading :: p.history).take historySize
        | _ => p.history
      lastPushAt := if msg.isPush then some now else p.lastPushAt
      panelLastSeenAt := if msg.panel?.isSome then some now else p.panelLastSeenAt }

def step : Label → Option Page
  | .seeded body now c =>
    if p.seeding then
      some ({ p with
        seeding := false
        loading := false
        error := none
        status := some body
        history := (body.reading :: p.history).take historySize
        lastPushAt := some now
        panelLastSeenAt := some now }.openWs c)
    else none
  | .seedFailed error c =>
    if p.seeding then
      some ({ p with seeding := false, loading := false, error := some error }.openWs c)
    else none
  | .onopen =>
    match p.sock with
    | .connecting c => some { p with sock := .opened c, wsDown := false, stableTimer := true }
    | _ => none
  | .stable =>
    if p.stableTimer then some { p with stableTimer := false, backoff := 1000 } else none
  | .onmessage msg now =>
    match p.sock with
    | .opened _ => some (p.applyMessage msg now)
    | _ => none
  | .onclose =>
    match p.sock.conn? with
    | some _ =>
      some { p with
        sock := .closed
        stableTimer := false
        wsDown := true
        backoff := min (p.backoff * 1.8) 30000 }
    | none => none
  | .reconnect c =>
    match p.sock with
    | .closed => some ({ p with reconnects := p.reconnects + 1 }.openWs c)
    | _ => none

section Steps

variable {p} {p' : Page} {body : StatusBody} {now : ℤ} {c : ℕ}

theorem step_seeded (h : p.step (.seeded body now c) = some p') :
    p.seeding = true ∧ p'.sock = .connecting c ∧ p'.seeding = false := by
  simp only [step] at h
  split at h
  · rename_i hseeding
    obtain rfl := Option.some.inj h
    exact ⟨hseeding, rfl, rfl⟩
  · cases h

theorem step_seedFailed {error : String} (h : p.step (.seedFailed error c) = some p') :
    p.seeding = true ∧ p'.sock = .connecting c ∧ p'.seeding = false := by
  simp only [step] at h
  split at h
  · rename_i hseeding
    obtain rfl := Option.some.inj h
    exact ⟨hseeding, rfl, rfl⟩
  · cases h

theorem step_onopen (h : p.step .onopen = some p') :
    ∃ c, p.sock = .connecting c ∧
      p' = { p with sock := .opened c, wsDown := false, stableTimer := true } := by
  simp only [step] at h
  split at h
  · rename_i c hsock
    exact ⟨c, hsock, (Option.some.inj h).symm⟩
  · cases h

theorem step_stable (h : p.step .stable = some p') :
    p' = { p with stableTimer := false, backoff := 1000 } := by
  simp only [step] at h
  split at h
  · exact (Option.some.inj h).symm
  · cases h

theorem step_onmessage {msg : LiveMessage} (h : p.step (.onmessage msg now) = some p') :
    ∃ c, p.sock = .opened c ∧ p' = p.applyMessage msg now := by
  simp only [step] at h
  split at h
  · rename_i c hsock
    exact ⟨c, hsock, (Option.some.inj h).symm⟩
  · cases h

theorem step_onclose (h : p.step .onclose = some p') :
    p.sock ≠ .idle ∧
      p' = { p with
        sock := .closed
        stableTimer := false
        wsDown := true
        backoff := min (p.backoff * 1.8) 30000 } := by
  simp only [step] at h
  split at h
  · rename_i c hconn
    refine ⟨fun hidle => ?_, (Option.some.inj h).symm⟩
    rw [hidle] at hconn
    cases hconn
  · cases h

theorem step_reconnect (h : p.step (.reconnect c) = some p') :
    p.sock = .closed ∧ p' = { p with reconnects := p.reconnects + 1 }.openWs c := by
  simp only [step] at h
  split at h
  · rename_i hsock
    exact ⟨hsock, (Option.some.inj h).symm⟩
  · cases h

end Steps

section Offers

def staleThresholdMs (rateMs : ℤ) : ℤ := max 6000 (rateMs * 3)

/-- A moment lies within the threshold; what was never seen does not. -/
def Recent (threshold now : ℤ) (seen : Option ℤ) : Prop := ∃ t ∈ seen, now - t ≤ threshold

instance (threshold now : ℤ) (seen : Option ℤ) : Decidable (Recent threshold now seen) :=
  inferInstanceAs (Decidable (∃ _ ∈ _, _))

def stale (b : StatusBody) (now : ℤ) : Bool :=
  p.wsDown ∨ ¬Recent (staleThresholdMs b.comms.rateMs) now p.lastPushAt ∨ b.comms.state = .lost

def panelStale (b : StatusBody) (now : ℤ) : Bool :=
  ¬Recent (staleThresholdMs b.comms.rateMs) now p.panelLastSeenAt

def stoppableStates : List EngineState := [.running, .exercising, .cranking, .cooling, .alarm]

def stateOffers (verb : Action) (state : EngineState) : Bool :=
  match verb with
  | .start | .exercise => state = .stopped
  | .stop => state ∈ stoppableStates
  | .transfer => state = .running
  | _ => false

/-- The button of the verb is enabled. -/
def offers (verb : Action) (now : ℤ) : Bool :=
  match p.status with
  | none => false
  | some b =>
    ¬p.stale b now ∧ b.panel.mode = .auto ∧ ¬p.panelStale b now ∧ stateOffers verb b.state

end Offers

section Words

/-- When a label proves that the poll loop has produced something. -/
def pushWord : Label → Option ℤ
  | .seeded _ now _ => some now
  | .onmessage msg now => if msg.isPush then some now else none
  | _ => none

def panelWord : Label → Option (PanelBlock × ℤ)
  | .seeded body now _ => some (body.panel, now)
  | .onmessage msg now => msg.panel?.map (·, now)
  | _ => none

def stateWord : Label → Option EngineState
  | .seeded body _ _ => some body.state
  | .onmessage (.snapshot m) _ => some m.state
  | .onmessage (.event (.transition _ new _)) _ => some new
  | _ => none

def commsWord : Label → Option CommsBlock
  | .seeded body _ _ => some body.comms
  | .onmessage (.snapshot m) _ => some m.comms
  | _ => none

def downWord : Label → Option Bool
  | .onopen => some false
  | .onclose => some true
  | _ => none

end Words

/-- What the log of a page says about its buttons. -/
def Offered (log : List Label) (verb : Action) (now : ℤ) : Prop :=
  ∃ state comms panel seen push,
    lastWord stateWord log = some state ∧ lastWord commsWord log = some comms ∧
    lastWord panelWord log = some (panel, seen) ∧ lastWord pushWord log = some push ∧
    lastWord downWord log ≠ some true ∧ comms.state ≠ .lost ∧ panel.mode = .auto ∧
    state ∈ allowed verb ∧ now - push ≤ staleThresholdMs comms.rateMs ∧
    now - seen ≤ staleThresholdMs comms.rateMs

/-- The page is a function of its log. -/
structure Reflects (log : List Label) (p : Page) : Prop where
  seeded : p.seeding = false
  down : p.wsDown = (lastWord downWord log).getD false
  push : p.lastPushAt = lastWord pushWord log
  panelSeen : p.panelLastSeenAt = (lastWord panelWord log).map Prod.snd
  body : ∃ b, p.status = some b ∧ lastWord stateWord log = some b.state ∧
    (lastWord panelWord log).map Prod.fst = some b.panel ∧ lastWord commsWord log = some b.comms

section Reflection

variable {p} {p' : Page} {l : Label} {log : List Label}

theorem apply_state (b : StatusBody) (msg : LiveMessage) (now : ℤ) :
    some (b.apply msg).state = (stateWord (.onmessage msg now)).or (some b.state) := by
  cases msg with
  | event e =>
    cases e with
    | atsPosition old new ts =>
      obtain ⟨ats, source, started, time, hts, he⟩ := b.applyPosition_eq new ts
      change some (b.applyPosition new ts).state = _
      rw [he]
      rfl
    | _ => rfl
  | _ => rfl

theorem apply_panel (b : StatusBody) (msg : LiveMessage) :
    some (b.apply msg).panel = msg.panel?.or (some b.panel) := by
  cases msg with
  | event e =>
    cases e with
    | atsPosition old new ts =>
      obtain ⟨ats, source, started, time, hts, he⟩ := b.applyPosition_eq new ts
      change some (b.applyPosition new ts).panel = _
      rw [he]
      rfl
    | _ => rfl
  | snapshot m =>
    show some (m.panel.getD b.panel) = m.panel.or (some b.panel)
    cases m.panel <;> rfl
  | _ => rfl

theorem apply_comms (b : StatusBody) (msg : LiveMessage) (now : ℤ) :
    some (b.apply msg).comms = (commsWord (.onmessage msg now)).or (some b.comms) := by
  cases msg with
  | event e =>
    cases e with
    | atsPosition old new ts =>
      obtain ⟨ats, source, started, time, hts, he⟩ := b.applyPosition_eq new ts
      change some (b.applyPosition new ts).comms = _
      rw [he]
      rfl
    | _ => rfl
  | _ => rfl

theorem Reflects.applyMessage (h : Reflects log p) (msg : LiveMessage) (now : ℤ) :
    Reflects (log ++ [.onmessage msg now]) (p.applyMessage msg now) := by
  obtain ⟨b, hb, hstate, hpanel, hcomms⟩ := h.body
  have hpage : p.applyMessage msg now = { p with
      status := some (b.apply msg)
      history := (p.applyMessage msg now).history
      lastPushAt := if msg.isPush then some now else p.lastPushAt
      panelLastSeenAt := if msg.panel?.isSome then some now else p.panelLastSeenAt } := by
    simp only [Page.applyMessage, hb]
  rw [hpage]
  constructor
  · exact h.seeded
  · rw [lastWord_snoc]
    exact h.down
  · rw [lastWord_snoc, ← h.push]
    show (if msg.isPush then some now else p.lastPushAt) =
      (if msg.isPush then some now else none).or p.lastPushAt
    split <;> rfl
  · rw [lastWord_snoc, h.panelSeen]
    show (if msg.panel?.isSome then some now else _) = _
    simp only [panelWord]
    cases msg.panel? <;> rfl
  · refine ⟨b.apply msg, rfl, ?_, ?_, ?_⟩
    · rw [lastWord_snoc, hstate, apply_state b msg now]
    · rw [lastWord_snoc, apply_panel b msg, ← hpanel]
      simp only [panelWord]
      cases msg.panel? <;> rfl
    · rw [lastWord_snoc, hcomms, apply_comms b msg now]

theorem Reflects.wired (h : Reflects log p) (hseeding : p'.seeding = p.seeding)
    (hdown : p'.wsDown = (downWord l).getD p.wsDown) (hpush : p'.lastPushAt = p.lastPushAt)
    (hseen : p'.panelLastSeenAt = p.panelLastSeenAt) (hstatus : p'.status = p.status)
    (hquiet : pushWord l = none ∧ panelWord l = none ∧ stateWord l = none ∧ commsWord l = none) :
    Reflects (log ++ [l]) p' := by
  obtain ⟨hl₁, hl₂, hl₃, hl₄⟩ := hquiet
  constructor
  · rw [hseeding]
    exact h.seeded
  · rw [hdown, h.down, lastWord_snoc]
    cases downWord l <;> rfl
  · rw [hpush, h.push, lastWord_snoc, hl₁]
    rfl
  · rw [hseen, h.panelSeen, lastWord_snoc, hl₂]
    rfl
  · rw [hstatus, lastWord_snoc, lastWord_snoc, lastWord_snoc, hl₂, hl₃, hl₄]
    exact h.body

theorem Reflects.step (h : Reflects log p) (hs : p.step l = some p') :
    Reflects (log ++ [l]) p' := by
  cases l with
  | seeded body now c => exact absurd (step_seeded hs).1 (by simp [h.seeded])
  | seedFailed error c => exact absurd (step_seedFailed hs).1 (by simp [h.seeded])
  | onopen =>
    obtain ⟨c, -, rfl⟩ := step_onopen hs
    exact h.wired rfl rfl rfl rfl rfl ⟨rfl, rfl, rfl, rfl⟩
  | stable =>
    obtain rfl := step_stable hs
    exact h.wired rfl rfl rfl rfl rfl ⟨rfl, rfl, rfl, rfl⟩
  | onmessage msg now =>
    obtain ⟨c, -, rfl⟩ := step_onmessage hs
    exact h.applyMessage msg now
  | onclose =>
    obtain ⟨-, rfl⟩ := step_onclose hs
    exact h.wired rfl rfl rfl rfl rfl ⟨rfl, rfl, rfl, rfl⟩
  | reconnect c =>
    obtain ⟨-, rfl⟩ := step_reconnect hs
    exact h.wired rfl rfl rfl rfl rfl ⟨rfl, rfl, rfl, rfl⟩

theorem reflects_run {body : StatusBody} {now : ℤ} {c : ℕ} {ls : List Label}
    (hr : run Page.step mounted (.seeded body now c :: ls) = some p) :
    Reflects (.seeded body now c :: ls) p := by
  induction ls using List.reverseRecOn generalizing p with
  | nil =>
    obtain rfl := Option.some.inj hr
    exact ⟨rfl, rfl, rfl, rfl, body, rfl, rfl, rfl, rfl⟩
  | append_singleton ls l ih =>
    rw [← List.cons_append] at hr ⊢
    obtain ⟨q, hq, hs⟩ := run_snoc_iff.mp hr
    exact (ih hq).step hs

theorem stateOffers_iff (verb : Action) (state : EngineState) :
    stateOffers verb state = true ↔ state ∈ allowed verb := by
  cases verb <;> simp [stateOffers, allowed, stoppableStates]

theorem Reflects.offers_iff (h : Reflects log p) (verb : Action) (now : ℤ) :
    p.offers verb now = true ↔ Offered log verb now := by
  obtain ⟨b, hb, hstate, hpanel, hcomms⟩ := h.body
  obtain ⟨⟨panel, seen⟩, hword, rfl⟩ := Option.map_eq_some_iff.mp hpanel
  have hdown : p.wsDown = false ↔ lastWord downWord log ≠ some true := by
    rw [h.down]
    cases lastWord downWord log with
    | none => simp
    | some down => cases down <;> simp
  have hoffers : p.offers verb now = true ↔ p.wsDown = false ∧
      Recent (staleThresholdMs b.comms.rateMs) now p.lastPushAt ∧ b.comms.state ≠ .lost ∧
      b.panel.mode = .auto ∧ Recent (staleThresholdMs b.comms.rateMs) now p.panelLastSeenAt ∧
      b.state ∈ allowed verb := by
    rw [← stateOffers_iff, offers, hb]
    simp [stale, panelStale, and_assoc]
  rw [hoffers, hdown, h.push, h.panelSeen, hword]
  constructor
  · rintro ⟨hup, ⟨push, hpush, hrecent⟩, hlost, hmode, ⟨t, ht, hseen⟩, hallowed⟩
    obtain rfl := Option.some.inj ht
    exact ⟨b.state, b.comms, b.panel, seen, push, hstate, hcomms, hword, hpush, hup, hlost, hmode,
      hallowed, hrecent, hseen⟩
  · rintro ⟨state, comms, panel, t, push, hst, hco, hpa, hpush, hup, hlost, hmode, hallowed,
      hrecent, hseen⟩
    obtain rfl := Option.some.inj (hstate.symm.trans hst)
    obtain rfl := Option.some.inj (hcomms.symm.trans hco)
    obtain ⟨rfl, rfl⟩ := Prod.mk.inj (Option.some.inj (hword.symm.trans hpa))
    exact ⟨hup, ⟨push, hpush, hrecent⟩, hlost, hmode, ⟨seen, rfl, hseen⟩, hallowed⟩

end Reflection

/-- Whatever the socket brings, and however often it closes and opens again: the button of a verb
is enabled if and only if the last news of the socket is not that it went down, the last comms
block seen is not lost, the last panel block seen is in AUTO, the server allows the verb in the
last engine state heard of, and both the last proof of a poll and the last panel block are
recent. -/
theorem offers_iff_log (body : StatusBody) (now₀ : ℤ) (c : ℕ) (ls : List Label) (p : Page)
    (hr : run step mounted (.seeded body now₀ c :: ls) = some p) (verb : Action) (now : ℤ) :
    p.offers verb now = true ↔ Offered (.seeded body now₀ c :: ls) verb now :=
  (reflects_run hr).offers_iff verb now

/-- A feed that brings no proof of a poll for longer than the threshold leaves no button enabled,
whatever else it brings. -/
theorem silence_offers_nothing (body : StatusBody) (now₀ : ℤ) (c : ℕ) (ls quiet : List Label)
    (p : Page) (hr : run step mounted (.seeded body now₀ c :: ls ++ quiet) = some p)
    (hquiet : ∀ l ∈ quiet, pushWord l = none) (verb : Action) (now : ℤ)
    (hlate : ∀ comms push, lastWord commsWord (.seeded body now₀ c :: ls) = some comms →
      lastWord pushWord (.seeded body now₀ c :: ls) = some push →
      staleThresholdMs comms.rateMs < now - push) : p.offers verb now = false := by
  have hcomms : ∀ l ∈ quiet, commsWord l = none := by
    intro l hl
    have hpush := hquiet l hl
    cases l with
    | seeded body now c => cases hpush
    | onmessage msg now =>
      cases msg with
      | snapshot m => cases hpush
      | _ => rfl
    | _ => rfl
  have hnone : lastWord pushWord quiet = none ∧ lastWord commsWord quiet = none := by
    constructor
    · rw [lastWord, List.filterMap_eq_nil_iff.mpr hquiet]
      rfl
    · rw [lastWord, List.filterMap_eq_nil_iff.mpr hcomms]
      rfl
  rw [Bool.eq_false_iff]
  intro hoffers
  rw [List.cons_append] at hr
  obtain ⟨state, comms, panel, seen, push, -, hco, -, hpush, -, -, -, -, hrecent, -⟩ :=
    (offers_iff_log body now₀ c (ls ++ quiet) p hr verb now).mp hoffers
  rw [← List.cons_append, lastWord_append, hnone.1] at hpush
  rw [← List.cons_append, lastWord_append, hnone.2] at hco
  have hlater := hlate comms push hco hpush
  omega

def stoppedBody : StatusBody where
  state := .stopped
  alarmRaw := 0
  timeInState := 0
  stateStartedAt := 0
  loadSource := .utility
  loadSourceStartedAt := 0
  timeInLoadSource := 0
  comms := ⟨.healthy, 100, some 0, 1500, 40⟩
  reading := fun _ => none
  activeAlarms := []
  hts := ⟨false, none, 0⟩
  panel := ⟨.auto, none, none, none, none⟩
  ats := .disabled
  serverTs := 0

/-- The page is seeded, its socket opens, the engine is reported to crank and then to run, and
pings go on arriving. -/
def startSeen : List Label :=
  [.seeded stoppedBody 0 0, .onopen, .onmessage .hello 10,
    .onmessage (.event (.transition .stopped .cranking 1)) 1000,
    .onmessage (.event (.transition .cranking .running 5)) 5000,
    .onmessage .ping 7000, .onmessage .ping 9000]

/-- A stop is offered as long as the panel block is recent, whatever the pings say. -/
theorem stop_offered_until_panel_stale :
    ∃ p, run step mounted startSeen = some p ∧ p.offers .stop 6000 = true ∧
      p.offers .stop 6001 = false ∧ p.offers .start 6000 = false := by
  obtain ⟨p, hp⟩ := Option.isSome_iff_exists.mp (by rfl : (run step mounted startSeen).isSome)
  have hiff := offers_iff_log stoppedBody 0 0 startSeen.tail p hp
  refine ⟨p, hp, (hiff .stop 6000).mpr ?_, ?_, ?_⟩
  · exact ⟨.running, stoppedBody.comms, stoppedBody.panel, 0, 5000, rfl, rfl, rfl, rfl, by decide,
      by decide, rfl, by decide, by decide, by decide⟩
  · rw [Bool.eq_false_iff, ne_eq, hiff]
    rintro ⟨state, comms, panel, seen, push, -, hco, hpa, -, -, -, -, -, -, hrecent⟩
    obtain rfl := Option.some.inj (hco.symm.trans (by rfl : _ = some stoppedBody.comms))
    have hpanel : lastWord panelWord startSeen = some (stoppedBody.panel, 0) := rfl
    obtain ⟨-, rfl⟩ := Prod.mk.inj (Option.some.inj (hpa.symm.trans hpanel))
    exact absurd hrecent (by decide)
  · rw [Bool.eq_false_iff, ne_eq, hiff]
    rintro ⟨state, comms, panel, seen, push, hst, -, -, -, -, -, -, hallowed, -, -⟩
    obtain rfl := Option.some.inj (hst.symm.trans (by rfl : _ = some EngineState.running))
    exact absurd hallowed (by decide)

end Page

end GenWatch

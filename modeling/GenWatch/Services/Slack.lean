import GenWatch.Prelude.Throttle
import GenWatch.Db.Tables

/-! # The Slack notifier

Events become notifications on a bounded queue, provided their kind is switched on.
Raises and clears of an alarm are de-duplicated, each kind on its own: one that
repeats inside a window is dropped. A full queue makes room by dropping its oldest
message. Texts are kept as the data they interpolate.
-/

namespace GenWatch

structure SlackConfig where
  enabled : Bool
  botToken : String
  channel : String
  siteLabel : String
  alertOnAlarm : Bool
  alertOnWarning : Bool
  alertOnAlarmCleared : Bool
  alertOnStateChange : Bool
  alertOnCommand : Bool
  alertOnCommsLost : Bool
  alertOnLoadSourceChange : Bool

/-- The two directions of an alarm, de-duplicated apart. -/
inductive AlertKind where
  | raised
  | cleared
  deriving DecidableEq, Repr

inductive ClearedDesc where
  | desc (desc : Desc)
  /-- `load-source disagreement cleared ({reason})` -/
  | disagreement (reason : DisagreeReason)
  /-- the code, where the event has no description -/
  | code (code : String)
  deriving DecidableEq

inductive SlackText where
  /-- `:rotating_light: Alarm raised — {desc}`, or `:warning: Warning — {desc}` -/
  | alarm (code : String) (desc : Desc)
  /-- `:white_check_mark: Alarm cleared — {desc or code}` -/
  | alarmCleared (code : String) (desc : ClearedDesc)
  /-- `:arrows_counterclockwise: Engine state — {old} → {new}` -/
  | stateChange (old new : EngineState)
  /-- `Load on GENERATOR`, `Load on UTILITY` or `Load source UNKNOWN`, `(was {old})` -/
  | loadSource (old new : LoadSource)
  /-- `Control command — {verb} ({result})` -/
  | command (verb : Action) (operator : String) (ok : Bool)
  /-- `Modbus comms — {old} → {new}` -/
  | comms (old new : CommsState) (successPct : ℚ)
  deriving DecidableEq

/-- The alarm code a notification is about, and what it says of it. -/
def SlackText.about : SlackText → Option (String × AlertKind)
  | .alarm code _ => some (code, .raised)
  | .alarmCleared code _ => some (code, .cleared)
  | _ => none

structure PendingMessage where
  severity : Severity
  text : SlackText
  site : String
  attempt : ℕ
  enqueuedAt : ℚ

structure SlackNotifier where
  cfg : SlackConfig
  siteName : String
  queue : List PendingMessage
  recentSends : Throttle.Sends (String × AlertKind)

namespace SlackNotifier

def maxQueue : ℕ := 200

def dedupeWindowS : ℚ := 60

/-- Repeats inside the window are dropped; past 256 entries the table forgets those older than
ten windows. -/
def dedupePolicy : Throttle.Policy where
  window := dedupeWindowS
  bound := 256
  horizon := dedupeWindowS * 10
  window_pos := by decide
  window_le := by norm_num [dedupeWindowS]

def init (cfg : SlackConfig) (siteName : String) : SlackNotifier := ⟨cfg, siteName, [], ∅⟩

variable (n : SlackNotifier) (now : ℚ)

def isEnabled : Bool := n.cfg.enabled && n.cfg.botToken != "" && n.cfg.channel != ""

def site : String :=
  if n.cfg.siteLabel ≠ "" then n.cfg.siteLabel
  else if n.siteName ≠ "" then n.siteName
  else "Castle Generator Monitor"

/-- Whether this kind of alert was sent for the code inside the window. -/
def dedupeSkip (code : String) (kind : AlertKind) : Bool × SlackNotifier :=
  let (skip, sends) := dedupePolicy.skip n.recentSends (code, kind) now
  (skip, { n with recentSends := sends })

/-- `put_nowait`: refused by a full queue. -/
def putNowait (queue : List PendingMessage) (msg : PendingMessage) : Option (List PendingMessage) :=
  if queue.length < maxQueue then some (queue ++ [msg]) else none

/-- Queue a message, at the cost of the oldest one if the queue is full; returns what was put on
the queue. -/
def enqueue (severity : Severity) (text : SlackText) : Option PendingMessage × SlackNotifier :=
  if n.isEnabled then
    let msg : PendingMessage := ⟨severity, text, n.site, 0, now⟩
    match putNowait n.queue msg with
    | some queue => (some msg, { n with queue := queue })
    | none =>
      match putNowait n.queue.tail msg with
      | some queue => (some msg, { n with queue := queue })
      | none => (none, { n with queue := n.queue.tail })
  else (none, n)

def alertAlarm (code : String) (desc : Desc) (severity : Severity) :
    Option PendingMessage × SlackNotifier :=
  if severity = .alarm ∧ n.cfg.alertOnAlarm = false then (none, n)
  else if severity = .warn ∧ n.cfg.alertOnWarning = false then (none, n)
  else
    let (skip, n) := n.dedupeSkip now code .raised
    if skip then (none, n) else n.enqueue now severity (.alarm code desc)

def alertAlarmCleared (code : String) (desc : ClearedDesc) :
    Option PendingMessage × SlackNotifier :=
  if n.cfg.alertOnAlarmCleared = false then (none, n)
  else
    let (skip, n) := n.dedupeSkip now code .cleared
    if skip then (none, n)
    else
      let desc := if desc = .desc (.text "") then .code code else desc
      n.enqueue now .ok (.alarmCleared code desc)

def alertStateChange (old new : EngineState) : Option PendingMessage × SlackNotifier :=
  if n.cfg.alertOnStateChange = false then (none, n)
  else n.enqueue now .info (.stateChange old new)

/-- The firming from unknown to utility after a boot is not an operational event. -/
def alertLoadSourceChange (old new : LoadSource) : Option PendingMessage × SlackNotifier :=
  if n.cfg.alertOnLoadSourceChange = false then (none, n)
  else if old = .unknown ∧ new = .utility then (none, n)
  else n.enqueue now (if new = .utility then .ok else .warn) (.loadSource old new)

def alertCommand (verb : Action) (operator : String) (ok : Bool) :
    Option PendingMessage × SlackNotifier :=
  if n.cfg.alertOnCommand = false then (none, n)
  else n.enqueue now (if ok then .info else .warn) (.command verb operator ok)

/-- Jitter between healthy and degraded stays quiet. -/
def alertCommsChange (old new : CommsState) (successPct : ℚ) :
    Option PendingMessage × SlackNotifier :=
  if n.cfg.alertOnCommsLost = false then (none, n)
  else if old = new then (none, n)
  else if old = .healthy ∧ new = .degraded then (none, n)
  else n.enqueue now (if new = .healthy then .ok else .warn) (.comms old new successPct)

/-- The dispatch of the state machine's events. -/
def forwardToSlack (e : Event) : Option PendingMessage × SlackNotifier :=
  if n.isEnabled then
    match e with
    | .alarm code desc severity _ => n.alertAlarm now code desc severity
    | .alarmCleared code desc _ => n.alertAlarmCleared now code (.desc desc)
    | .disagreeCleared code reason _ => n.alertAlarmCleared now code (.disagreement reason)
    | .transition old new _ => n.alertStateChange now old new
    | .comms old new pct _ => n.alertCommsChange now old new pct
    | .loadSource old new _ => n.alertLoadSourceChange now old new
    | _ => (none, n)
  else (none, n)

/-- The dispatch of the transfer switch's events. -/
def forwardAtsToSlack (e : Event) : Option PendingMessage × SlackNotifier :=
  if n.isEnabled then
    match e with
    | .atsPosition old new _ =>
      if new = .utility ∨ new = .generator then n.alertLoadSourceChange now old new else (none, n)
    | .atsComms old new pct _ => n.alertCommsChange now old new pct
    | .alarm code desc severity _ => n.alertAlarm now code desc severity
    | .alarmCleared code desc _ => n.alertAlarmCleared now code (.desc desc)
    | .disagreeCleared code reason _ => n.alertAlarmCleared now code (.disagreement reason)
    | _ => (none, n)
  else (none, n)

end SlackNotifier

end GenWatch

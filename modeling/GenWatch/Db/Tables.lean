import GenWatch.Modbus.CommsHealth
import GenWatch.Db.Telemetry

/-! # Events, alarms and the audit log

Active alarms form a table under the alarm code: raising inserts unless a row is
present, clearing deletes, and both report whether they changed the table. Events
and audit rows are appended. Message texts are kept as the data they interpolate.
-/

namespace GenWatch

/-- What supplies the load: also the positions the transfer switch reports. -/
inductive LoadSource where
  | utility
  | generator
  | transferring
  | unknown
  deriving DecidableEq, Repr

inductive AtsMode where
  | auto
  | manual
  | test
  | unknown
  deriving DecidableEq, Repr

/-- What a confirm token may be spent on: generator verbs, transfer-switch commands, an alarm
acknowledgement, or a name that no surface performs. -/
inductive Action where
  | start
  | stop
  | exercise
  | transfer
  | test
  | inhibit
  | forceTransfer
  | bypassDelay
  | ack
  | other (name : String)
  deriving DecidableEq, Repr

inductive Role where
  | viewer
  | operator
  | admin
  | other (name : String)
  deriving DecidableEq, Repr

inductive Desc where
  | text (s : String)
  /-- `{name} out of range ({val} {unit}, allowed {lo}–{hi})` -/
  | outOfRange (name : String) (val : Option ℚ) (unit : String) (lo hi : ℚ)
  /-- `ATS reports UTILITY but H-100 is delivering {kw} kW / {current} A. …` -/
  | utilityButDelivering (kw current : ℚ)
  /-- `ATS reports GENERATOR with utility UNAVAILABLE but H-100 output is {kw} kW / …` -/
  | generatorButIdle (kw current : ℚ)
  /-- `ATS-Pi wall-clock differs from GenWatch by {skew} s` -/
  | timeSkew (skew : ℚ)
  deriving DecidableEq

/-- Why the load-source disagreement alarm is withdrawn. -/
inductive DisagreeReason where
  | notAuthoritative
  | engineState (state : EngineState)
  | agree
  deriving DecidableEq

inductive EventType where
  | transition
  | alarm
  | comms
  | loadSource
  | command
  | atsPosition
  | atsSource
  | atsMode
  | atsReboot
  | atsComms
  | atsCommand
  | atsIcdVersion
  | config
  deriving DecidableEq, Repr

inductive IcdCompatibility where
  | majorMismatch
  | minorAhead
  | minorBehind
  deriving DecidableEq, Repr

inductive Message where
  /-- `Engine state: {old} → {new}` -/
  | engineState (old new : EngineState)
  /-- `Alarm raised — {desc}` -/
  | alarmRaised (desc : Desc)
  /-- `Alarm cleared — {desc}` -/
  | alarmCleared (desc : Desc)
  /-- `Alarm cleared — load-source disagreement ({reason})` -/
  | disagreeCleared (reason : DisagreeReason)
  /-- `Comms {state} · {pct}% success` -/
  | comms (state : CommsState) (pct : ℚ)
  /-- `Load source → {new} (was {old})` -/
  | loadSource (old new : LoadSource)
  /-- `Operator command {verb} — confirmed`, or `— Modbus write failed` -/
  | command (verb : Action) (ok : Bool)
  /-- `ATS command {command} {asserted|released|pulsed} — confirmed` -/
  | atsCommand (command : Action) (how : String)
  /-- `ATS command {command} — Modbus write failed` -/
  | atsCommandFailed (command : Action)
  /-- `Alarm acknowledged — {code}` -/
  | acknowledged (code : String)
  /-- `Alarm ack — Modbus write failed for {code}` -/
  | ackFailed (code : String)
  /-- `ATS fault raised — {desc}` -/
  | atsFaultRaised (desc : String)
  /-- `ATS fault cleared — {desc}` -/
  | atsFaultCleared (desc : String)
  /-- `ATS position: {old} → {new}` -/
  | atsPosition (old new : LoadSource)
  /-- `Utility power restored`, `Utility power lost`, `Generator source available`, … -/
  | atsSource (normal available : Bool)
  /-- `ATS mode: {old} → {new}` -/
  | atsMode (old new : AtsMode)
  /-- `ATS-Pi rebooted (uptime {old} → {new} s)` -/
  | atsReboot (old new : ℤ)
  /-- `ATS-Pi comms {state} · {pct}% success` -/
  | atsComms (state : CommsState) (pct : ℚ)
  /-- `ATS {label} asserted outside GenWatch — …`, or `released by the ATS-Pi without …` -/
  | atsCommandExternal (command : Action) (active : Bool)
  /-- `ATS-Pi reports ICD v{major}.{minor}, GenWatch expects …` -/
  | atsIcdVersion (major minor : ℤ) (compatibility : IcdCompatibility)
  /-- `Register file reloaded — …` -/
  | reloaded
  deriving DecidableEq

structure EventRow where
  ts : ℚ
  severity : Severity
  type : EventType
  message : Message
  info : Option String
  deriving DecidableEq

structure AlarmRow where
  code : String
  desc : Desc
  severity : Severity
  raisedAt : ℚ
  raw : ℤ
  deriving DecidableEq

inductive AuditAction where
  | issueToken
  | consumeToken
  | evictToken
  | control (verb : Action)
  | ats (command : Action)
  | alarmAck
  | registersReload
  deriving DecidableEq

inductive AuditResult where
  | ok
  | denied
  | failed
  | expired
  /-- `failed: {error}` -/
  | failedWith (error : String)
  deriving DecidableEq

/-- Details of an audit row, as the data they interpolate. -/
inductive AuditDetail where
  /-- `verb={verb or '*'}` -/
  | issuedFor (verb : Option Action)
  | missing
  | expired
  | operatorMismatch
  /-- `verb_mismatch want={want} token={token}` -/
  | verbMismatch (want token : Action)
  | ttl
  /-- `role={role}` -/
  | role (role : Role)
  /-- `no_register`, and `no_register:{name}` on the ATS surface -/
  | noRegister (name : Option String)
  /-- `comms={state}` -/
  | comms (state : CommsState)
  /-- `ats_comms=lost` -/
  | atsCommsLost
  /-- `stale={names}` -/
  | stale (names : List String)
  /-- `panel_mode={mode}` -/
  | panelMode (mode : PanelMode)
  /-- `state={state}` -/
  | state (state : EngineState)
  | notAuthoritative
  /-- `fault:{codes}` -/
  | fault (codes : List String)
  | normalAvailableNoOverride
  /-- `reg={name}@0x{addr} fc{fc} values={values}` -/
  | wrote (ctl : ControlDef)
  /-- `reg={name}@0x{addr} fc{fc} values={values} assert={assert} override={override}` -/
  | atsWrote (ctl : ControlDef) (assert override : Bool)
  /-- `{error or 'modbus_write_failed'}` -/
  | writeFailed (error : String)
  /-- `{code} via reg=…`, or the bare code when no control is written -/
  | acked (code : String) (ctl : Option ControlDef)
  | reloaded
  deriving DecidableEq

structure AuditRow where
  ts : ℚ
  operator : String
  action : AuditAction
  detail : AuditDetail
  token : String
  result : AuditResult
  deriving DecidableEq

/-- The tables the services share. -/
structure Database where
  telemetry : List TelemetryRow
  telemetry1m : Table MinuteRow.ts
  telemetry1h : Table HourRow.ts
  alarmsActive : Table AlarmRow.code
  events : List EventRow
  audit : List AuditRow

namespace Database

def empty : Database := ⟨[], ∅, ∅, ∅, [], []⟩

variable (db : Database)

/-- Insert a row unless the code has one; reports whether the raise is new. -/
def raiseAlarm (row : AlarmRow) : Bool × Database :=
  (row.code ∉ db.alarmsActive.keys,
    { db with alarmsActive := db.alarmsActive.insertIgnore row })

def clearAlarm (code : String) : Bool × Database :=
  (code ∈ db.alarmsActive.keys, { db with alarmsActive := db.alarmsActive.delete code })

def writeEvent (row : EventRow) : Database := { db with events := db.events ++ [row] }

def writeAudit (row : AuditRow) : Database := { db with audit := db.audit ++ [row] }

/-- The end of a successful acknowledgement: the row goes, and the log and the audit say so. -/
def acknowledgeAlarm (code operator : String) (ctl : Option ControlDef) (now : ℚ) : Database :=
  let db := (db.clearAlarm code).2.writeEvent
    ⟨now, .ok, .alarm, .acknowledged code, some operator⟩
  db.writeAudit ⟨now, operator, .alarmAck, .acked code ctl, "", .ok⟩

def Active (code : String) : Prop := code ∈ db.alarmsActive.keys

instance (code : String) : Decidable (db.Active code) :=
  inferInstanceAs (Decidable (code ∈ db.alarmsActive.keys))

end Database

/-- Messages published on the event bus. -/
inductive Event where
  | transition (old new : EngineState) (ts : ℚ)
  | alarm (code : String) (desc : Desc) (severity : Severity) (ts : ℚ)
  | alarmCleared (code : String) (desc : Desc) (ts : ℚ)
  | disagreeCleared (code : String) (reason : DisagreeReason) (ts : ℚ)
  | comms (old new : CommsState) (successPct ts : ℚ)
  | loadSource (old new : LoadSource) (ts : ℚ)
  | atsPosition (old new : LoadSource) (ts : ℚ)
  | atsSource (normal available : Bool) (ts : ℚ)
  | atsMode (old new : AtsMode) (ts : ℚ)
  | atsReboot (old new : ℤ) (ts : ℚ)
  | atsComms (old new : CommsState) (successPct ts : ℚ)
  | atsCommandExternal (command : Action) (active : Bool) (ts : ℚ)
  | atsIcdVersion (major minor : ℤ) (compatibility : IcdCompatibility) (ts : ℚ)
  deriving DecidableEq

namespace Event

def raises : Event → Option String
  | .alarm code _ _ _ => some code
  | _ => none

def clears : Event → Option String
  | .alarmCleared code _ _ => some code
  | .disagreeCleared code _ _ => some code
  | _ => none

end Event

end GenWatch

import Mathlib.Data.Finset.Basic
import Mathlib.Data.Finset.Dedup
import GenWatch.Services.Context

/-! # The state machine

One update applies one poll result: it derives the engine state, raises and
clears alarms, follows the comms state, the panel mode and the load source, and
cross-checks the transfer switch against the generator's output. The snapshot
keeps a reference to the health record it was handed, not a copy.
-/

namespace GenWatch

def loadOnKwThreshold : ℚ := 2

def loadOnCurrentThreshold : ℚ := 5

def loadOffKwThreshold : ℚ := 1

def loadOffCurrentThreshold : ℚ := 2

def loadsourceDisagreeDebouncePolls : ℕ := 3

def loadsourceDisagreeAlarmCode : String := "ATS_LOADSOURCE_DISAGREE"

def numericAlarmStates : List EngineState := [.running, .exercising]

def numericAlarmMinPolls : ℕ := 3

def numericAlarmCodePrefix : String := "RANGE_"

structure StateSnapshot where
  engineState : EngineState
  stateStartedAt : ℚ
  activeAlarms : Finset String
  lastReading : Reading
  comms : CommsRef
  panelMode : PanelMode
  loadSource : LoadSource
  loadSourceStartedAt : ℚ

/-- The snapshot with the counters and the sets of raised codes of the current session. -/
structure StateMachine where
  regmap : RegisterMap
  snap : StateSnapshot
  alarmPollCounts : String → ℕ
  raisedThisSession : List String
  loadsourceDisagreeCount : ℕ
  loadsourceDisagreeRaised : Bool
  numericPollCounts : String → ℕ
  numericRaised : Table (Prod.fst : String × Severity → String)

/-- What an update reads of the companion service. -/
structure AtsView where
  authoritative : Bool
  position : LoadSource
  normalAvailable : Option Bool
  deriving DecidableEq

/-- What an update reads besides its arguments: the wall clock, the companion service if there is
one, and the contents of the health records. -/
structure PollEnv where
  now : ℚ
  ats : Option AtsView
  heap : CommsHeap

namespace StateMachine

open ServiceM

/-- A fresh state machine, as at service start. -/
def init (m : RegisterMap) (now : ℚ) : StateMachine where
  regmap := m
  snap :=
    { engineState := .unknown, stateStartedAt := now, activeAlarms := ∅, lastReading := .empty,
      comms := .snapshotDefault, panelMode := .unknown, loadSource := .unknown,
      loadSourceStartedAt := now }
  alarmPollCounts := fun _ => 0
  raisedThisSession := []
  loadsourceDisagreeCount := 0
  loadsourceDisagreeRaised := false
  numericPollCounts := fun _ => 0
  numericRaised := ∅

/-- Swap the register map: the debounce counters restart, the raised codes are kept. -/
def applyRegmap (sm : StateMachine) (m : RegisterMap) : StateMachine :=
  { sm with regmap := m, alarmPollCounts := fun _ => 0 }

/-- Count one more poll for each occurrence of a code, and drop the counters of all others. -/
def countPolls (counts : String → ℕ) (codes : List String) : String → ℕ :=
  let bumped := codes.foldl (fun k c => Function.update k c (k c + 1)) counts
  fun c => if c ∈ codes then bumped c else 0

/-- The engine state after a reading: a known state is not downgraded to unknown. -/
def nextEngineState (m : RegisterMap) (values : Values) (old : EngineState) : EngineState :=
  let new := m.deriveEngineState values
  if new = .unknown ∧ old ≠ .unknown then old else new

def updateEngineState (m : RegisterMap) (reading : Reading) (now : ℚ) :
    ServiceM StateMachine Unit := do
  let old := (← getSelf).snap.engineState
  let new := nextEngineState m reading.values old
  if new ≠ old then
    modifySelf fun sm =>
      { sm with snap := { sm.snap with engineState := new, stateStartedAt := now } }
    emit (.transition old new now)
    writeEvent .ok .transition (.engineState old new) none now

/-- The set alarms that have been set for long enough and are not silenced in the current state. -/
def effectiveAlarms (counts : String → ℕ) (state : EngineState) (rawActive : List AlarmBit) :
    List AlarmBit :=
  rawActive.filter fun ab => ab.minPollCount ≤ counts ab.code ∧ state ∉ ab.suppressInStates

/-- Raise an alarm that was not displayed before this update. -/
def raiseIfNew (prevDisplayed : Finset String) (now : ℚ) (ab : AlarmBit) :
    ServiceM StateMachine Unit :=
  if ab.code ∈ prevDisplayed then pure ()
  else do
    let raised ← raiseAlarm ab.code (.text ab.desc) ab.severity ab.mask now
    modifySelf fun sm => { sm with raisedThisSession := sm.raisedThisSession.insert ab.code }
    if raised then
      writeEvent ab.severity .alarm (.alarmRaised (.text ab.desc)) (some s!"code {ab.code}") now
      emit (.alarm ab.code (.text ab.desc) ab.severity now)

/-- Clear an alarm of this session when none of its bits is set. -/
def clearIfLow (m : RegisterMap) (rawCodes : List String) (now : ℚ) (code : String) :
    ServiceM StateMachine Unit :=
  if code ∈ rawCodes then pure ()
  else do
    let rule := m.alarmBits.find? fun ab => ab.code = code
    let desc := Desc.text ((rule.map AlarmBit.desc).getD code)
    let cleared ← clearAlarm code
    modifySelf fun sm =>
      { sm with raisedThisSession := sm.raisedThisSession.filter fun other => other ≠ code }
    if cleared then
      writeEvent .ok .alarm (.alarmCleared desc) (some s!"code {code}") now
      emit (.alarmCleared code desc now)

def updateAlarms (m : RegisterMap) (reading : Reading) (now : ℚ) : ServiceM StateMachine Unit := do
  let rawActive := m.deriveActiveAlarms reading.values
  let rawCodes := rawActive.map AlarmBit.code
  modifySelf fun sm => { sm with alarmPollCounts := countPolls sm.alarmPollCounts rawCodes }
  let sm ← getSelf
  let effective := effectiveAlarms sm.alarmPollCounts sm.snap.engineState rawActive
  effective.forM (raiseIfNew sm.snap.activeAlarms now)
  let raised := (← getSelf).raisedThisSession
  raised.forM (clearIfLow m rawCodes now)
  modifySelf fun sm =>
    { sm with snap := { sm.snap with activeAlarms := (effective.map AlarmBit.code).toFinset } }

/-- An out-of-range register: the alarm code, the severity and the band it left. -/
structure NumericHit where
  code : String
  severity : Severity
  reg : RegisterDef
  lo : ℚ
  hi : ℚ
  deriving DecidableEq

/-- The band a decoded value lies outside of, the alarm band first. -/
def severityFor (values : Values) (reg : RegisterDef) : Option (Severity × ℚ × ℚ) :=
  match values reg.name with
  | none => none
  | some val =>
    let outside (severity : Severity) : Option (ℚ × ℚ) → Option (Severity × ℚ × ℚ)
      | some (lo, hi) => if val < lo ∨ hi < val then some (severity, lo, hi) else none
      | none => none
    (outside .alarm reg.alarmRange).or (outside .warn reg.warnRange)

def numericCode (reg : RegisterDef) : String := numericAlarmCodePrefix ++ reg.name.toUpper

/-- The registers out of range while the engine is producing. -/
def numericActive (m : RegisterMap) (values : Values) (state : EngineState) :
    Table NumericHit.code :=
  if state ∈ numericAlarmStates then
    m.registers.foldl (fun t reg =>
      match severityFor values reg with
      | some (severity, lo, hi) => t.insertReplace ⟨numericCode reg, severity, reg, lo, hi⟩
      | none => t) ∅
  else ∅

def raiseNumeric (values : Values) (now : ℚ) (hit : NumericHit) : ServiceM StateMachine Unit := do
  let sm ← getSelf
  if sm.numericPollCounts hit.code < numericAlarmMinPolls ∨ hit.code ∈ sm.numericRaised.keys then
    pure ()
  else
    let desc := Desc.outOfRange hit.reg.name (values hit.reg.name) hit.reg.unit hit.lo hit.hi
    modifySelf fun sm =>
      { sm with numericRaised := sm.numericRaised.insertReplace (hit.code, hit.severity) }
    let raised ← raiseAlarm hit.code desc hit.severity 0 now
    if raised then
      writeEvent hit.severity .alarm (.alarmRaised desc) (some s!"code {hit.code}") now
      emit (.alarm hit.code desc hit.severity now)

def clearNumeric (active : List String) (now : ℚ) (code : String) : ServiceM StateMachine Unit :=
  if code ∈ active then pure ()
  else do
    modifySelf fun sm => { sm with numericRaised := sm.numericRaised.delete code }
    let cleared ← clearAlarm code
    if cleared then
      writeEvent .ok .alarm (.alarmCleared (.text code)) (some s!"code {code}") now
      emit (.alarmCleared code (.text code) now)

def checkNumericRanges (m : RegisterMap) (reading : Reading) (now : ℚ) :
    ServiceM StateMachine Unit := do
  let sm ← getSelf
  let activeNow := numericActive m reading.values sm.snap.engineState
  modifySelf fun sm =>
    { sm with numericPollCounts := countPolls sm.numericPollCounts activeNow.keys }
  activeNow.rows.forM (raiseNumeric reading.values now)
  let raised := (← getSelf).numericRaised.keys
  raised.forM (clearNumeric activeNow.keys now)

def updateNumeric (m : RegisterMap) (reading : Reading) (now : ℚ) :
    ServiceM StateMachine Unit := do
  if m.numericAlarmsEnabled then
    checkNumericRanges m reading now
  modifySelf fun sm =>
    { sm with snap := { sm.snap with
      activeAlarms := sm.snap.activeAlarms ∪ sm.numericRaised.keys.toFinset } }

/-- Announce a comms state that differs from the one in the snapshot's record. -/
def updateComms (env : PollEnv) (comms : CommsRef) : ServiceM StateMachine Unit := do
  let old := (env.heap (← getSelf).snap.comms).state
  let new := env.heap comms
  if new.state ≠ old then
    writeEvent (if new.state ≠ .healthy then .warn else .ok) .comms
      (.comms new.state new.successPct) none env.now
    emit (.comms old new.state new.successPct env.now)

def updatePanelMode (m : RegisterMap) (reading : Reading) : ServiceM StateMachine Unit :=
  modifySelf fun sm =>
    { sm with snap := { sm.snap with panelMode := m.derivePanelMode reading.values } }

/-- The load source inferred from the engine state and the generator's output. -/
def deriveLoadSourceFromTelemetry (values : Values) (state : EngineState) (prev : LoadSource) :
    LoadSource :=
  if state = .unknown then prev
  else if state ∈ [EngineState.stopped, .cranking, .cooling, .exercising] then .utility
  else
    match values "avg_current", values "total_kw" with
    | none, none => if prev ≠ .unknown then prev else .utility
    | current, kw =>
      let currentVal := current.getD 0
      let kwVal := kw.getD 0
      if prev = .generator then
        if currentVal < loadOffCurrentThreshold ∧ kwVal < loadOffKwThreshold then .utility
        else .generator
      else if loadOnCurrentThreshold ≤ currentVal ∧ loadOnKwThreshold ≤ kwVal then .generator
      else .utility

/-- The transfer switch's own position when it is authoritative and known, else the inference. -/
def deriveLoadSource (ats : Option AtsView) (values : Values) (state : EngineState)
    (prev : LoadSource) : LoadSource :=
  match ats with
  | some v =>
    if v.authoritative ∧ v.position ≠ .unknown then v.position
    else deriveLoadSourceFromTelemetry values state prev
  | none => deriveLoadSourceFromTelemetry values state prev

/-- Severity and text of a load-source change; the boot-time change to utility is not logged. -/
def loadSourceEvent (old new : LoadSource) : Option (Severity × Message) :=
  if old = .unknown ∧ new = .utility then none
  else if new = .utility then some (.ok, .loadSource old new)
  else some (.warn, .loadSource old new)

def updateLoadSource (env : PollEnv) (reading : Reading) : ServiceM StateMachine Unit := do
  let snap := (← getSelf).snap
  let old := snap.loadSource
  let new := deriveLoadSource env.ats reading.values snap.engineState old
  if new ≠ old then
    modifySelf fun sm =>
      { sm with snap := { sm.snap with loadSource := new, loadSourceStartedAt := env.now } }
    if (env.ats.map AtsView.authoritative).getD false then
      pure ()
    else
      emit (.loadSource old new env.now)
      match loadSourceEvent old new with
      | some (severity, message) => writeEvent severity .loadSource message none env.now
      | none => pure ()

def emitDisagreeRaise (desc : Desc) (now : ℚ) : ServiceM StateMachine Unit := do
  let raised ← raiseAlarm loadsourceDisagreeAlarmCode desc .warn 0 now
  modifySelf fun sm => { sm with loadsourceDisagreeRaised := true }
  if raised then
    writeEvent .warn .alarm (.alarmRaised desc) (some s!"code {loadsourceDisagreeAlarmCode}") now
    emit (.alarm loadsourceDisagreeAlarmCode desc .warn now)

def emitDisagreeClear (reason : DisagreeReason) (now : ℚ) : ServiceM StateMachine Unit := do
  let cleared ← clearAlarm loadsourceDisagreeAlarmCode
  modifySelf fun sm => { sm with loadsourceDisagreeRaised := false }
  if cleared then
    writeEvent .ok .alarm (.disagreeCleared reason)
      (some s!"code {loadsourceDisagreeAlarmCode}") now
    emit (.disagreeCleared loadsourceDisagreeAlarmCode reason now)

/-- Withdraw the disagreement alarm if it is raised, and restart the debounce. -/
def resetDisagree (reason : DisagreeReason) (now : ℚ) : ServiceM StateMachine Unit := do
  if (← getSelf).loadsourceDisagreeRaised then
    emitDisagreeClear reason now
  modifySelf fun sm => { sm with loadsourceDisagreeCount := 0 }

/-- The disagreement between a reported position and the generator's output, if any. -/
def disagreement (v : AtsView) (currentVal kwVal : ℚ) : Option Desc :=
  if v.position = .utility ∧ loadOnCurrentThreshold ≤ currentVal ∧ loadOnKwThreshold ≤ kwVal then
    some (.utilityButDelivering kwVal currentVal)
  else if v.position = .generator ∧ currentVal < loadOffCurrentThreshold ∧
      kwVal < loadOffKwThreshold ∧ v.normalAvailable = some false then
    some (.generatorButIdle kwVal currentVal)
  else none

/-- Compare the reported position with the generator's output, with a debounce. -/
def checkLoadsourceDisagreement (env : PollEnv) (reading : Reading) :
    ServiceM StateMachine Unit := do
  let state := (← getSelf).snap.engineState
  match env.ats with
  | none => resetDisagree .notAuthoritative env.now
  | some v =>
    if ¬v.authoritative then resetDisagree .notAuthoritative env.now
    else if state ∉ [EngineState.running, .alarm] then
      resetDisagree (.engineState state) env.now
    else if v.position ∉ [LoadSource.utility, .generator] then pure ()
    else
      match reading.values "avg_current", reading.values "total_kw" with
      | some currentVal, some kwVal =>
        match disagreement v currentVal kwVal with
        | some desc =>
          modifySelf fun sm =>
            { sm with loadsourceDisagreeCount := sm.loadsourceDisagreeCount + 1 }
          let sm ← getSelf
          if loadsourceDisagreeDebouncePolls ≤ sm.loadsourceDisagreeCount ∧
              ¬sm.loadsourceDisagreeRaised then
            emitDisagreeRaise desc env.now
        | none => resetDisagree .agree env.now
      | _, _ => pure ()

/-- Layer the disagreement alarm onto the displayed set and store the poll's objects. -/
def finishUpdate (reading : Reading) (comms : CommsRef) : ServiceM StateMachine Unit :=
  modifySelf fun sm =>
    { sm with snap := { sm.snap with
      activeAlarms :=
        if sm.loadsourceDisagreeRaised then insert loadsourceDisagreeAlarmCode sm.snap.activeAlarms
        else sm.snap.activeAlarms.erase loadsourceDisagreeAlarmCode
      comms := comms
      lastReading := reading } }

def update (env : PollEnv) (reading : Reading) (comms : CommsRef) :
    ServiceM StateMachine Unit := do
  let m := (← getSelf).regmap
  updateEngineState m reading env.now
  updateAlarms m reading env.now
  updateNumeric m reading env.now
  updateComms env comms
  updatePanelMode m reading
  updateLoadSource env reading
  checkLoadsourceDisagreement env reading
  finishUpdate reading comms

end StateMachine

end GenWatch

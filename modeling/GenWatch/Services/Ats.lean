import Mathlib.Data.Finset.Sort
import Mathlib.Data.String.Basic
import GenWatch.Services.State

/-! # The transfer-switch companion

Each poll of the companion device is decoded into a snapshot, compared with the
previous one, and announced. Registers missing from a poll keep their previous
value, except for the fault summary, which then reads as zero. The companion is
authoritative for the load source only while its link, its protocol version, its
identity and its own position sense can all be trusted.
-/

namespace GenWatch

def expectedIcdMajor : ℤ := 1

def expectedIcdMinor : ℤ := 0

def timeSkewThresholdS : ℚ := 5

def cmdEchoWindowS : ℚ := 10

def timeSkewAlarmCode : String := "ATS_PI_TIME_SKEW"

/-- Faults under which the reported position cannot be trusted. -/
def positionFaults : Finset String := {"ATS_PI_INPUT_FAULT", "ATS_PI_CALIBRATION"}

def sortedCodes (codes : Finset String) : List String := codes.sort (· ≤ ·)

@[simp] theorem mem_sortedCodes {codes : Finset String} {code : String} :
    code ∈ sortedCodes codes ↔ code ∈ codes :=
  Finset.mem_sort _

structure AtsSnapshot where
  position : LoadSource
  normalAvailable : Option Bool
  emergencyAvailable : Option Bool
  engineStartCalling : Option Bool
  atsMode : AtsMode
  faultCodes : Finset String
  lastTransferToGenTs : Option ℚ
  lastRetransferToUtilTs : Option ℚ
  atsPiUptimeS : ℤ
  atsPiWallclock : Option ℚ
  transferCountLifetime : ℤ
  transferCount24h : ℤ
  icdVersion : ℤ × ℤ
  atsPiFw : ℤ × ℤ × ℤ
  atsPiUnitId : ℤ
  cmdTestActive : Bool
  cmdInhibitActive : Bool
  cmdForceTransferActive : Bool
  cmdBypassDelayActive : Bool
  lastReadingTs : ℚ
  comms : CommsRef
  basePollCompleted : Bool

def AtsSnapshot.initial : AtsSnapshot where
  position := .unknown
  normalAvailable := none
  emergencyAvailable := none
  engineStartCalling := none
  atsMode := .unknown
  faultCodes := ∅
  lastTransferToGenTs := none
  lastRetransferToUtilTs := none
  atsPiUptimeS := 0
  atsPiWallclock := none
  transferCountLifetime := 0
  transferCount24h := 0
  icdVersion := (0, 0)
  atsPiFw := (0, 0, 0)
  atsPiUnitId := 0
  cmdTestActive := false
  cmdInhibitActive := false
  cmdForceTransferActive := false
  cmdBypassDelayActive := false
  lastReadingTs := 0
  comms := .atsSnapshotDefault
  basePollCompleted := false

structure AtsService where
  regmap : RegisterMap
  expectedUnitId : Option ℤ
  snap : AtsSnapshot
  prevUptimeS : ℤ
  timeSkewAlarmActive : Bool
  icdVersionValidated : Bool
  cmdWriteMonotonic : Action × Bool → Option ℚ

/-- The two clocks an update reads, the tier of the poll, and the contents of the health records. -/
structure AtsPollEnv where
  now : ℚ
  mono : ℚ
  tier : RegTier
  heap : CommsHeap

namespace AtsService

open ServiceM

def init (m : RegisterMap) (expectedUnitId : Option ℤ) : AtsService where
  regmap := m
  expectedUnitId := expectedUnitId
  snap := .initial
  prevUptimeS := 0
  timeSkewAlarmActive := false
  icdVersionValidated := false
  cmdWriteMonotonic := fun _ => none

def noteCommandWrite (ats : AtsService) (command : Action) (assert : Bool) (mono : ℚ) :
    AtsService :=
  { ats with cmdWriteMonotonic := Function.update ats.cmdWriteMonotonic (command, assert) mono }

/-- The reported position should drive the load source. -/
def isAuthoritative (ats : AtsService) (heap : CommsHeap) : Bool :=
  (heap ats.snap.comms).state = .healthy ∧
  ats.snap.basePollCompleted ∧
  ats.snap.icdVersion.1 = expectedIcdMajor ∧
  (∀ unitId ∈ ats.expectedUnitId, ats.snap.atsPiUnitId = unitId) ∧
  ats.snap.faultCodes ∩ positionFaults = ∅

/-- What the state machine reads of this service. -/
def view (ats : AtsService) (heap : CommsHeap) : AtsView :=
  ⟨ats.isAuthoritative heap, ats.snap.position, ats.snap.normalAvailable⟩

section Decode

def positionByValue : ℤ → LoadSource
  | 0 => .utility
  | 1 => .generator
  | 2 => .transferring
  | _ => .unknown

def invertPosition : LoadSource → ℤ
  | .utility => 0
  | .generator => 1
  | .transferring => 2
  | .unknown => 3

def modeByValue : ℤ → AtsMode
  | 0 => .auto
  | 1 => .manual
  | 2 => .test
  | _ => .unknown

def invertMode : AtsMode → ℤ
  | .auto => 0
  | .manual => 1
  | .test => 2
  | .unknown => 3

def u16 (v : Values) (name : String) (prevRaw : ℤ) : ℤ :=
  match v name with
  | none => prevRaw
  | some val => Int.land (truncInt val) 0xFFFF

def boolOrNone (v : Option ℚ) : Option Bool := v.map fun q => truncInt q ≠ 0

def boolOr (v : Option ℚ) (default : Bool) : Bool := (boolOrNone v).getD default

def intOr (v : Option ℚ) (default : ℤ) : ℤ := (v.map truncInt).getD default

/-- An epoch register; zero means never observed. -/
def epochOrNone (v : Option ℚ) : Option ℚ :=
  v.bind fun q => if 0 < truncInt q then some (truncInt q : ℚ) else none

def decodeFaultBits (raw : ℤ) (m : RegisterMap) : Finset String :=
  ((m.alarmBits.filter fun ab =>
    ab.register = "fault_summary" ∧ Int.land raw ab.mask = ab.mask).map AlarmBit.code).toFinset

def nextSnapshot (ats : AtsService) (env : AtsPollEnv) (reading : Reading) (comms : CommsRef) :
    AtsSnapshot :=
  let prev := ats.snap
  let v := reading.values
  { position := positionByValue (u16 v "position" (invertPosition prev.position))
    normalAvailable := (boolOrNone (v "normal_available")).or prev.normalAvailable
    emergencyAvailable := (boolOrNone (v "emergency_available")).or prev.emergencyAvailable
    engineStartCalling := (boolOrNone (v "engine_start_calling")).or prev.engineStartCalling
    atsMode := modeByValue (u16 v "ats_mode" (invertMode prev.atsMode))
    faultCodes := decodeFaultBits (intOr (v "fault_summary") 0) ats.regmap
    lastTransferToGenTs := (epochOrNone (v "last_transfer_to_gen_ts")).or prev.lastTransferToGenTs
    lastRetransferToUtilTs :=
      (epochOrNone (v "last_retransfer_to_util_ts")).or prev.lastRetransferToUtilTs
    atsPiUptimeS := intOr (v "ats_pi_uptime_s") prev.atsPiUptimeS
    atsPiWallclock := (epochOrNone (v "ats_pi_wallclock")).or prev.atsPiWallclock
    transferCountLifetime := intOr (v "transfer_count_lifetime") prev.transferCountLifetime
    transferCount24h := intOr (v "transfer_count_24h") prev.transferCount24h
    icdVersion := (intOr (v "icd_version_major") prev.icdVersion.1,
      intOr (v "icd_version_minor") prev.icdVersion.2)
    atsPiFw := (intOr (v "ats_pi_fw_major") prev.atsPiFw.1,
      intOr (v "ats_pi_fw_minor") prev.atsPiFw.2.1, intOr (v "ats_pi_fw_patch") prev.atsPiFw.2.2)
    atsPiUnitId := intOr (v "ats_pi_unit_id") prev.atsPiUnitId
    cmdTestActive := boolOr (v "cmd_test_active") prev.cmdTestActive
    cmdInhibitActive := boolOr (v "cmd_inhibit_active") prev.cmdInhibitActive
    cmdForceTransferActive := boolOr (v "cmd_force_transfer_active") prev.cmdForceTransferActive
    cmdBypassDelayActive := boolOr (v "cmd_bypass_delay_active") prev.cmdBypassDelayActive
    lastReadingTs := env.now
    comms := comms
    basePollCompleted := prev.basePollCompleted || env.tier == .base }

end Decode

section Announce

/-- Log and publish an event; a failing log write does not stop the publication. -/
def emitEvent (e : Event) (severity : Severity) (type : EventType) (message : Message)
    (info : Option String) (now : ℚ) : ServiceM AtsService Unit := do
  try writeEvent severity type message info now catch _ => pure ()
  emit e

def emitPosition (old new : LoadSource) (now : ℚ) : ServiceM AtsService Unit :=
  if old = .unknown ∧ new = .utility then pure ()
  else
    let severity :=
      if new = .transferring then Severity.info else if new = .generator then .warn else .ok
    emitEvent (.atsPosition old new now) severity .atsPosition (.atsPosition old new) none now

def checkPosition (prev new : LoadSource) (now : ℚ) : ServiceM AtsService Unit :=
  if new ≠ prev then emitPosition prev new now else pure ()

def sourceCode (normal available : Bool) : String :=
  if normal then if available then "UTILITY_RESTORED" else "UTILITY_LOST"
  else if available then "GEN_AVAILABLE" else "GEN_UNAVAILABLE"

def emitSource (normal available : Bool) (now : ℚ) : ServiceM AtsService Unit :=
  emitEvent (.atsSource normal available now) (if available then .ok else .warn) .atsSource
    (.atsSource normal available) (some (sourceCode normal available)) now

/-- Announce a source availability that changed from a known value. -/
def checkSource (normal : Bool) (prev new : Option Bool) (now : ℚ) : ServiceM AtsService Unit :=
  match new, prev with
  | some available, some was =>
    if available ≠ was then emitSource normal available now else pure ()
  | _, _ => pure ()

def checkMode (prev new : AtsMode) (now : ℚ) : ServiceM AtsService Unit :=
  if new ≠ prev ∧ prev ≠ .unknown then
    emitEvent (.atsMode prev new now) (if new = .auto then .info else .warn) .atsMode
      (.atsMode prev new) none now
  else pure ()

def faultDesc (m : RegisterMap) (code : String) : String :=
  ((m.alarmBits.find? fun ab => ab.code = code).map AlarmBit.desc).getD code

def raiseFault (m : RegisterMap) (now : ℚ) (code : String) : ServiceM AtsService Unit := do
  let desc := faultDesc m code
  let _ ← raiseAlarm code (.text desc) .warn 0 now
  emitEvent (.alarm code (.text desc) .warn now) .warn .alarm (.atsFaultRaised desc)
    (some s!"code {code}") now

def clearFault (m : RegisterMap) (now : ℚ) (code : String) : ServiceM AtsService Unit := do
  let desc := faultDesc m code
  let _ ← clearAlarm code
  emitEvent (.alarmCleared code (.text desc) now) .ok .alarm (.atsFaultCleared desc)
    (some s!"code {code}") now

/-- A write of ours recent enough to explain a read-back edge. -/
def isEcho (mono : ℚ) (wrote : Option ℚ) : Bool :=
  match wrote with
  | some w => mono - w ≤ cmdEchoWindowS
  | none => false

/-- Announce a read-back edge of a maintained command that no recent write of ours explains. -/
def checkCmdEdge (mono now : ℚ) (command : Action) (was isNow : Bool) :
    ServiceM AtsService Unit := do
  let ats ← getSelf
  if was ≠ isNow ∧ ¬isEcho mono (ats.cmdWriteMonotonic (command, isNow)) then
    emitEvent (.atsCommandExternal command isNow now) .warn .atsCommand
      (.atsCommandExternal command isNow) none now

/-- The first poll has no earlier one to compare with. -/
def checkMaintainedCmdEdges (env : AtsPollEnv) (prev new : AtsSnapshot) :
    ServiceM AtsService Unit :=
  if prev.lastReadingTs = 0 then pure ()
  else do
    checkCmdEdge env.mono env.now .inhibit prev.cmdInhibitActive new.cmdInhibitActive
    checkCmdEdge env.mono env.now .forceTransfer prev.cmdForceTransferActive
      new.cmdForceTransferActive

/-- Uptime that goes backwards is a reboot of the device. -/
def announceReboot (prevUptimeS uptimeS : ℤ) (now : ℚ) : ServiceM AtsService Unit :=
  if 0 < prevUptimeS ∧ uptimeS < prevUptimeS then
    emitEvent (.atsReboot prevUptimeS uptimeS now) .info .atsReboot
      (.atsReboot prevUptimeS uptimeS) none now
  else pure ()

def checkReboot (uptimeS : ℤ) (now : ℚ) : ServiceM AtsService Unit := do
  announceReboot (← getSelf).prevUptimeS uptimeS now
  modifySelf fun ats => { ats with prevUptimeS := uptimeS }

def checkTimeSkew (wallclock : Option ℚ) (now : ℚ) : ServiceM AtsService Unit :=
  match wallclock with
  | none => pure ()
  | some w => do
    let skewS := |w - now|
    let active := (← getSelf).timeSkewAlarmActive
    if timeSkewThresholdS < skewS ∧ ¬active then
      modifySelf fun ats => { ats with timeSkewAlarmActive := true }
      let _ ← raiseAlarm timeSkewAlarmCode (.timeSkew skewS) .warn 0 now
    else if skewS ≤ timeSkewThresholdS ∧ active then
      modifySelf fun ats => { ats with timeSkewAlarmActive := false }
      let _ ← clearAlarm timeSkewAlarmCode

/-- Announce a comms state that differs from the one in the previous snapshot's record. -/
def checkComms (env : AtsPollEnv) (prev comms : CommsRef) : ServiceM AtsService Unit := do
  let old := (env.heap prev).state
  let new := env.heap comms
  if new.state ≠ old then
    writeEvent (if new.state ≠ .healthy then .warn else .ok) .atsComms
      (.atsComms new.state new.successPct) none env.now
    emit (.atsComms old new.state new.successPct env.now)

/-- The version policy: an exact match is not announced. -/
def icdCompatibility (major minor : ℤ) : Option (IcdCompatibility × Severity) :=
  if major ≠ expectedIcdMajor then some (.majorMismatch, .warn)
  else if expectedIcdMinor < minor then some (.minorAhead, .info)
  else if minor < expectedIcdMinor then some (.minorBehind, .warn)
  else none

def validateIcdVersion (major minor : ℤ) (now : ℚ) : ServiceM AtsService Unit :=
  match icdCompatibility major minor with
  | some (compatibility, severity) =>
    emitEvent (.atsIcdVersion major minor compatibility now) severity .atsIcdVersion
      (.atsIcdVersion major minor compatibility) none now
  | none => pure ()

def checkIcdVersion (major minor : ℤ) (now : ℚ) : ServiceM AtsService Unit := do
  if ¬(← getSelf).icdVersionValidated ∧ 0 < major then
    validateIcdVersion major minor now
    modifySelf fun ats => { ats with icdVersionValidated := true }

end Announce

/-- Announce the differences between the previous snapshot and the next one, up to the comms. -/
def announceChanges (ats : AtsService) (env : AtsPollEnv) (v : Values) (new : AtsSnapshot) :
    ServiceM AtsService Unit := do
  let prev := ats.snap
  checkPosition prev.position new.position env.now
  checkSource true prev.normalAvailable (boolOrNone (v "normal_available")) env.now
  checkSource false prev.emergencyAvailable (boolOrNone (v "emergency_available")) env.now
  checkMode prev.atsMode new.atsMode env.now
  (sortedCodes (new.faultCodes \ prev.faultCodes)).forM (raiseFault ats.regmap env.now)
  (sortedCodes (prev.faultCodes \ new.faultCodes)).forM (clearFault ats.regmap env.now)
  checkMaintainedCmdEdges env prev new
  checkReboot new.atsPiUptimeS env.now
  checkTimeSkew (epochOrNone (v "ats_pi_wallclock")) env.now

def update (env : AtsPollEnv) (reading : Reading) (comms : CommsRef) :
    ServiceM AtsService Unit := do
  let ats ← getSelf
  let new := ats.nextSnapshot env reading comms
  announceChanges ats env reading.values new
  checkComms env ats.snap.comms comms
  checkIcdVersion new.icdVersion.1 new.icdVersion.2 env.now
  modifySelf fun ats => { ats with snap := new }

end AtsService

end GenWatch

import GenWatch.Services.Ats
import GenWatch.Services.Control

/-! # Commands to the transfer switch

The companion has four commands: two are pulsed, two are held until released. An
assert is gated on the authority of the link, on the companion's faults and, for a
forced transfer, on the utility being away or the operator overriding it. A release
is the safe direction and needs only a link. The token store is that of the
generator's control service.
-/

namespace GenWatch

inductive AtsCommandKind where
  | momentary
  | maintained
  deriving DecidableEq

structure AtsCommandSpec where
  kind : AtsCommandKind
  assertControl : String
  releaseControl : Option String
  role : Role
  desc : String
  deriving DecidableEq

def atsCommandSpecs : Action → Option AtsCommandSpec
  | .test => some ⟨.momentary, "ats_test", none, .operator, "momentary test transfer"⟩
  | .inhibit => some ⟨.maintained, "ats_inhibit_assert", some "ats_inhibit_release", .operator,
      "inhibit transfer"⟩
  | .forceTransfer => some ⟨.maintained, "ats_force_assert", some "ats_force_release", .admin,
      "force transfer to generator"⟩
  | .bypassDelay => some ⟨.momentary, "ats_bypass_delay", none, .operator,
      "bypass transfer time delay"⟩
  | _ => none

def roleRank (default : ℕ) : Role → ℕ
  | .viewer => 0
  | .operator => 1
  | .admin => 2
  | .other _ => default

def roleSatisfies (role required : Role) : Bool := roleRank 99 required ≤ roleRank 0 role

def assertBlockingFaults : Finset String :=
  {"ATS_PI_INPUT_FAULT", "ATS_PI_CALIBRATION", "ATS_PI_OUTPUT_FAULT", "ATS_PI_MODE_UNKNOWN"}

structure AtsRequest where
  command : Action
  token : String
  operator : String
  role : Role
  assert : Bool
  override : Bool
  deriving DecidableEq

namespace AtsControlService

variable (ats : AtsService) (heap : CommsHeap) (spec : AtsCommandSpec) (r : AtsRequest)

/-- The control a command writes: held commands are asserted or released, pulsed ones asserted. -/
def controlName : Option String :=
  match spec.kind with
  | .maintained => if r.assert then some spec.assertControl else spec.releaseControl
  | .momentary => some spec.assertControl

/-- The command drives a relay, rather than release one. -/
def isAssert : Bool := spec.kind ≠ .maintained ∨ r.assert

/-- Why an assert is refused, in the order of the checks. -/
def assertDenial : Option Denial :=
  if ats.isAuthoritative heap = false then
    some ⟨.notAuthoritative, .denied, .atsNotAuthoritative r.command⟩
  else
    let blocking := ats.snap.faultCodes ∩ assertBlockingFaults
    if blocking ≠ ∅ then
      some ⟨.fault (sortedCodes blocking), .denied, .atsFault r.command (sortedCodes blocking)⟩
    else if r.command = .forceTransfer ∧ r.override = false ∧
        ats.snap.normalAvailable = some true then
      some ⟨.normalAvailableNoOverride, .denied, .overrideRequired⟩
    else none

/-- The gates of a command, in their order, up to the control it would write. -/
def gate : Except Denial ControlDef :=
  if (heap ats.snap.comms).state = .lost then
    .error ⟨.atsCommsLost, .denied, .atsCommsLost r.command⟩
  else
    match if isAssert spec r then assertDenial ats heap r else none with
    | some d => .error d
    | none =>
      let name := controlName spec r
      match name.bind ats.regmap.controls.find? with
      | none => .error ⟨.noRegister name, .failed, .atsNoRegister name⟩
      | some ctl => .ok ctl

def commandWord : String :=
  match spec.kind with
  | .maintained => if r.assert then "asserted" else "released"
  | .momentary => "pulsed"

variable {ats heap spec r}

theorem assertDenial_byToken {d : Denial} (h : assertDenial ats heap r = some d) :
    d.error.byToken = false := by
  unfold assertDenial at h
  split at h
  · cases h; rfl
  dsimp only at h
  split at h
  · cases h; rfl
  split at h
  · cases h; rfl
  · cases h

theorem gate_byToken {d : Denial} (h : gate ats heap spec r = .error d) :
    d.error.byToken = false := by
  unfold gate at h
  split at h
  · cases h; rfl
  split at h
  · rename_i d' hd
    cases h
    split at hd
    · exact assertDenial_byToken hd
    · cases hd
  dsimp only at h
  split at h
  · cases h; rfl
  · cases h

end AtsControlService

end GenWatch

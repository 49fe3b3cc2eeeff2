import Mathlib.Data.Rat.Floor
import Mathlib.Data.Int.Bitwise
import GenWatch.Prelude.Table

/-! # The register map

Rules of the register map turn decoded register values into an engine state, a
panel mode and a list of active alarms. A register that was not decoded is
absent, and every rule that names it is skipped. Values are exact rationals.
A map that is polled names its entries by text; a document may name them by other values,
so that entries are over a type of names.
-/

namespace GenWatch

/-- Engine states: the ones the services test for, and any other name a map may introduce. -/
inductive EngineState where
  | unknown
  | stopped
  | cranking
  | running
  | exercising
  | cooling
  | alarm
  | other (name : String)
  deriving DecidableEq, Repr

inductive PanelMode where
  | unknown
  | auto
  | manual
  | off
  | other (name : String)
  deriving DecidableEq, Repr

inductive Severity where
  | ok
  | info
  | warn
  | alarm
  | other (name : String)
  deriving DecidableEq, Repr

inductive RegTier where
  | prime
  | base
  deriving DecidableEq, Repr

/-- How the words of a register are read; any other name is read as one unsigned word. -/
inductive RegType where
  | u16
  | s16
  | u32
  | u32Lo
  | s32
  | bitfld
  | enum
  | other (name : String)
  deriving DecidableEq, Repr

structure RegisterDef (ν : Type := String) where
  name : ν
  addr : ℤ
  fc : ℤ
  type : RegType
  tier : RegTier
  unit : String
  scale : ℚ
  warnRange : Option (ℚ × ℚ)
  alarmRange : Option (ℚ × ℚ)
  deriving DecidableEq

def RegisterDef.words {ν : Type} (r : RegisterDef ν) : ℕ :=
  match r.type with
  | .u32 | .u32Lo | .s32 => 2
  | _ => 1

def RegisterDef.plain (name : String) (addr : ℤ := 0) : RegisterDef where
  name := name
  addr := addr
  fc := 3
  type := .u16
  tier := .prime
  unit := ""
  scale := 1
  warnRange := none
  alarmRange := none

/-- A control: the address, function code and words of one command write. -/
structure ControlDef (ν : Type := String) where
  name : ν
  addr : ℤ
  fc : ℤ
  value : ℤ
  values : List ℤ
  deriving DecidableEq

/-- The words put on the wire: `values` takes precedence over `value`. -/
def ControlDef.writeValues {ν : Type} (c : ControlDef ν) : List ℤ :=
  if c.values = [] then [c.value] else c.values

structure AlarmBit where
  register : String
  mask : ℤ
  code : String
  desc : String
  severity : Severity
  suppressInStates : List EngineState
  minPollCount : ℕ
  deriving DecidableEq

structure StateBitRule where
  state : EngineState
  register : String
  mask : ℤ
  deriving DecidableEq

structure PanelModeRule where
  mode : PanelMode
  register : String
  mask : ℤ
  deriving DecidableEq

structure RegisterMap (ν : Type := String) where
  slave : ℤ
  readFc : ℤ
  primePollMs : ℤ
  basePollMs : ℤ
  engineStateBits : List StateBitRule
  alarmBits : List AlarmBit
  panelModeBits : List PanelModeRule
  registers : List (RegisterDef ν)
  controls : Table (@ControlDef.name ν)
  numericAlarmsEnabled : Bool
  deriving DecidableEq

def RegisterMap.bare : RegisterMap where
  slave := 100
  readFc := 3
  primePollMs := 1500
  basePollMs := 15000
  engineStateBits := []
  alarmBits := []
  panelModeBits := []
  registers := []
  controls := ∅
  numericAlarmsEnabled := false

abbrev Values := String → Option ℚ

/-- Conversion to an integer, towards zero. -/
def truncInt (q : ℚ) : ℤ := q.num.tdiv q.den

theorem truncInt_neg (q : ℚ) : truncInt (-q) = -truncInt q := by
  simp [truncInt, Int.neg_tdiv]

theorem truncInt_of_nonneg {q : ℚ} (h : 0 ≤ q) : truncInt q = ⌊q⌋ := by
  rw [truncInt, Rat.floor_def', Int.tdiv_eq_ediv_of_nonneg (Rat.num_nonneg.mpr h)]

theorem truncInt_of_nonpos {q : ℚ} (h : q ≤ 0) : truncInt q = ⌈q⌉ := by
  have hneg := truncInt_of_nonneg (neg_nonneg.mpr h)
  rw [truncInt_neg, Int.floor_neg] at hneg
  exact neg_injective hneg

theorem truncInt_mono {p q : ℚ} (h : p ≤ q) : truncInt p ≤ truncInt q := by
  rcases le_total 0 p with hp | hp
  · rw [truncInt_of_nonneg hp, truncInt_of_nonneg (hp.trans h)]
    exact Int.floor_le_floor h
  rcases le_total q 0 with hq | hq
  · rw [truncInt_of_nonpos hp, truncInt_of_nonpos hq]
    exact Int.ceil_le_ceil h
  · rw [truncInt_of_nonpos hp, truncInt_of_nonneg hq]
    exact (Int.ceil_nonpos.mpr hp).trans (Int.floor_nonneg.mpr hq)

@[simp] theorem truncInt_intCast (n : ℤ) : truncInt n = n := by
  simp [truncInt]

theorem truncInt_le {q : ℚ} {n : ℤ} (h : q ≤ n) : truncInt q ≤ n :=
  (truncInt_mono h).trans_eq (truncInt_intCast n)

theorem le_truncInt {q : ℚ} {n : ℤ} (h : n ≤ q) : n ≤ truncInt q :=
  (truncInt_intCast n).symm.trans_le (truncInt_mono h)

def Values.allSet (values : Values) (register : String) (mask : ℤ) : Bool :=
  match values register with
  | none => false
  | some raw => Int.land (truncInt raw) mask = mask

/-- Some bit of the mask is set in the register's value. -/
def Values.anySet (values : Values) (register : String) (mask : ℤ) : Bool :=
  match values register with
  | none => false
  | some raw => Int.land (truncInt raw) mask ≠ 0

/-- The register was decoded and no bit of the mask is set in its value. -/
def Values.low (values : Values) (register : String) (mask : ℤ) : Bool :=
  match values register with
  | none => false
  | some raw => Int.land (truncInt raw) mask = 0

namespace RegisterMap

variable (m : RegisterMap) (values : Values)

def tier (t : RegTier) : List RegisterDef := m.registers.filter fun r => r.tier = t

def pollMs : RegTier → ℤ
  | .prime => m.primePollMs
  | .base => m.basePollMs

/-- The first state whose mask is set, or unknown. -/
def deriveEngineState : EngineState :=
  match m.engineStateBits.find? fun r => values.allSet r.register r.mask with
  | some r => r.state
  | none => .unknown

/-- All alarm bits that are currently set. -/
def deriveActiveAlarms : List AlarmBit :=
  m.alarmBits.filter fun ab => values.anySet ab.register ab.mask

/-- The first panel mode whose mask is set, or unknown. -/
def derivePanelMode : PanelMode :=
  match m.panelModeBits.find? fun r => values.allSet r.register r.mask with
  | some r => r.mode
  | none => .unknown

def alarmCodes : List String := m.alarmBits.map AlarmBit.code

theorem mem_deriveActiveAlarms {ab : AlarmBit} :
    ab ∈ m.deriveActiveAlarms values ↔
      ab ∈ m.alarmBits ∧ values.anySet ab.register ab.mask = true := by
  simp [deriveActiveAlarms]

end RegisterMap

theorem Values.anySet_or_low_or_absent (values : Values) (register : String) (mask : ℤ) :
    (values register = none ∧ values.anySet register mask = false ∧
      values.low register mask = false) ∨
    ((values register).isSome ∧ values.low register mask = !values.anySet register mask) := by
  cases h : values register with
  | none => simp [Values.anySet, Values.low, h]
  | some raw => by_cases hz : Int.land (truncInt raw) mask = 0 <;>
      simp [Values.anySet, Values.low, h, hz]

theorem Values.low_iff (values : Values) (register : String) (mask : ℤ) :
    values.low register mask = true ↔
      (values register).isSome ∧ values.anySet register mask = false := by
  rcases values.anySet_or_low_or_absent register mask with ⟨h, ha, hl⟩ | ⟨h, hl⟩
  · simp [h, hl]
  · simp [h, hl]

/-- A poll's decoded values, the wall clock at the poll, and when each value was last decoded
by the monotonic clock. -/
structure Reading where
  values : Values
  ts : ℚ
  valueAges : String → Option ℚ

def Reading.empty : Reading := ⟨fun _ => none, 0, fun _ => none⟩

end GenWatch

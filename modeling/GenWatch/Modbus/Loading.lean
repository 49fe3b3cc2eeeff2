import GenWatch.Prelude.Dict
import GenWatch.Modbus.Validation

/-! # Loading a register map

The map is built from a document field by field and validated afterwards. The document
lists registers and controls; the controls are folded into a dictionary before anything
is checked, so that of two controls with one name the later one is kept. A name is taken
as it is, whatever value it has: that of a control becomes a key of the dictionary, that
of a register is put into a set by the checks, and what can be neither raises.
-/

namespace GenWatch

namespace EngineState

def ofName (name : String) : EngineState :=
  if name = "unknown" then .unknown
  else if name = "stopped" then .stopped
  else if name = "cranking" then .cranking
  else if name = "running" then .running
  else if name = "exercising" then .exercising
  else if name = "cooling" then .cooling
  else if name = "alarm" then .alarm
  else .other name

end EngineState

namespace PanelMode

def ofName (name : String) : PanelMode :=
  if name = "unknown" then .unknown
  else if name = "auto" then .auto
  else if name = "manual" then .manual
  else if name = "off" then .off
  else .other name

end PanelMode

namespace Severity

def ofName (name : String) : Severity :=
  if name = "ok" then .ok
  else if name = "info" then .info
  else if name = "warn" then .warn
  else if name = "alarm" then .alarm
  else .other name

end Severity

namespace RegType

def ofName (name : String) : RegType :=
  if name = "u16" then .u16
  else if name = "s16" then .s16
  else if name = "u32" then .u32
  else if name = "u32_lo" then .u32Lo
  else if name = "s32" then .s32
  else if name = "bitfld" then .bitfld
  else if name = "enum" then .enum
  else .other name

end RegType

/-- Why a map is not loaded: reading the document raised, or the map did not validate. -/
inductive LoadError where
  | raised (e : PyError)
  | invalid (tiers : List (Key × String)) (errors : List (MapError Key))
  deriving DecidableEq, Repr

def LoadError.isValueError : LoadError → Bool
  | .raised .valueError | .invalid _ _ => true
  | _ => false

section Listing

variable {ν : Type}

/-- A register as the document lists it, with the text of a tier that is none. -/
structure ListedRegister (ν : Type) where
  reg : RegisterDef ν
  badTier : Option String

/-- What a document says apart from its registers and controls. -/
structure Header where
  slave : ℤ
  readFc : ℤ
  primePollMs : ℤ
  basePollMs : ℤ
  engineStateBits : List StateBitRule
  alarmBits : List AlarmBit
  panelModeBits : List PanelModeRule
  numericAlarmsEnabled : Bool

/-- What the document lists, before the controls are folded and anything is checked. -/
structure Listing (ν : Type) extends Header where
  registers : List (ListedRegister ν)
  controls : List (ControlDef ν)

namespace Listing

def regs (l : Listing ν) : List (RegisterDef ν) := l.registers.map ListedRegister.reg

/-- The registers whose tier is neither of the two, by name. -/
def tierErrors (l : Listing ν) : List (ν × String) :=
  l.registers.filterMap fun r => r.badTier.map (r.reg.name, ·)

/-- The map that is validated; a tier that is none does not matter there. -/
def regmap [DecidableEq ν] (l : Listing ν) : RegisterMap ν where
  slave := l.slave
  readFc := l.readFc
  primePollMs := l.primePollMs
  basePollMs := l.basePollMs
  engineStateBits := l.engineStateBits
  alarmBits := l.alarmBits
  panelModeBits := l.panelModeBits
  registers := l.regs
  controls := l.controls.foldl Table.insertReplace ∅
  numericAlarmsEnabled := l.numericAlarmsEnabled

end Listing

def RegisterDef.keyed (r : RegisterDef Yaml) : Except PyError (RegisterDef Key) := do
  return { r with name := ← r.name.key }

def ListedRegister.keyed (r : ListedRegister Yaml) : Except PyError (ListedRegister Key) := do
  return { r with reg := ← r.reg.keyed }

def ControlDef.keyed (c : ControlDef Yaml) : Except PyError (ControlDef Key) := do
  return { c with name := ← c.name.key }

/-- A map whose names are text, as a loader makes it. -/
def RegisterMap.keyed (m : RegisterMap) : RegisterMap Key :=
  { m with
    registers := m.registers.map fun r => { r with name := .text r.name }
    controls := ⟨m.controls.rows.map fun c => { c with name := .text c.name }, by
      have hnodup := m.controls.nodup.map fun _ _ => Key.text.inj
      rw [List.map_map] at hnodup ⊢
      exact hnodup⟩ }

end Listing

namespace PyText

variable (py : PyText)

def toStr : Yaml → String
  | .str s => s
  | v => py.str v

def toInt : Yaml → Except PyError ℤ
  | .bool b => .ok b.toInt
  | .int n => .ok n
  | .float q => .ok (truncInt q)
  | .str s => PyError.parsed (py.int s)
  | .null | .stamp _ | .seq _ | .map _ => .error .typeError

def toFloat : Yaml → Except PyError ℚ
  | .bool b => .ok b.toInt
  | .int n => .ok n
  | .float q => .ok q
  | .str s => PyError.parsed (py.float s)
  | .null | .stamp _ | .seq _ | .map _ => .error .typeError

end PyText

instance : MonadLift (Except PyError) (Except LoadError) := ⟨Except.mapError .raised⟩

section Load

variable (py : PyText)

def coerceAddr : Yaml → Except PyError ℤ
  | .bool b => .ok b.toInt
  | .int n => .ok n
  | v =>
    let s := py.toStr v
    PyError.parsed (if (py.lower s).startsWith "0x" then py.hex s else py.int s)

def coerceMask (v : Yaml) : Except PyError ℤ := coerceAddr py v

def coerceRange (v : Yaml) : Except PyError (Option (ℚ × ℚ)) :=
  if v.truthy then
    match v with
    | .seq [lo, hi] => do return some (← py.toFloat lo, ← py.toFloat hi)
    | _ => .error .valueError
  else .ok none

/-- The states that silence an alarm: a list, or a single name. -/
def suppressStates (v : Yaml) : Except PyError (List EngineState) := do
  let items ←
    match v.orElse (.seq []) with
    | .str s => .ok [.str s]
    | v => v.iter
  return (items.filter fun s => py.strip (py.toStr s) ≠ "").map fun s =>
    .ofName (py.lower (py.strip (py.toStr s)))

def loadAlarmBit (a : Yaml) : Except PyError AlarmBit := do
  let suppress ← suppressStates py (← a.getD "suppress_in_states" .null)
  -- a count that is no integer is one
  let minPolls :=
    match py.toInt (← a.getD "min_poll_count" (.int 1)) with
    | .ok n => n
    | .error _ => 1
  return {
    register := py.toStr (← a.index "register")
    mask := ← coerceMask py (← a.index "mask")
    code := py.toStr (← a.index "code")
    desc := py.toStr (← a.getD "desc" (.str ""))
    severity := .ofName (py.toStr (← a.getD "severity" (.str "alarm")))
    suppressInStates := suppress
    minPollCount := (max 1 minPolls).toNat }

def loadStateBitRule (r : Yaml) : Except PyError StateBitRule := do
  return {
    state := .ofName (py.lower (py.toStr (← r.index "state")))
    register := py.toStr (← r.index "register")
    mask := ← coerceMask py (← r.index "mask") }

def loadPanelModeRule (r : Yaml) : Except PyError PanelModeRule := do
  return {
    mode := .ofName (py.lower (py.toStr (← r.index "mode")))
    register := py.toStr (← r.index "register")
    mask := ← coerceMask py (← r.index "mask") }

def loadRegister (readFc : ℤ) (r : Yaml) : Except PyError (ListedRegister Yaml) := do
  let name ← r.index "name"
  let addr ← coerceAddr py (← r.index "addr")
  let fc ← py.toInt (← r.getD "fc" (.int readFc))
  let type :=
    match ← r.getD "type" (.str "u16") with
    | .str s => .ofName s
    | v => .other (py.str v)
  let tier ← r.getD "tier" (.str "base")
  let unit := py.toStr (← r.getD "unit" (.str ""))
  let scale ← py.toFloat (← r.getD "scale" (.float 1))
  let warnRange ← coerceRange py (← r.getD "warn_range" .null)
  let alarmRange ← coerceRange py (← r.getD "alarm_range" .null)
  let reg := fun tier => ⟨name, addr, fc, type, tier, unit, scale, warnRange, alarmRange⟩
  match tier with
  | .str "prime" => return ⟨reg .prime, none⟩
  | .str "base" => return ⟨reg .base, none⟩
  | v => return ⟨reg .base, some (py.toStr v)⟩

def loadValues (v : Yaml) : Except PyError (List ℤ) := do
  if v.truthy then (← v.iter).mapM (coerceMask py) else return []

def loadControl (c : Yaml) : Except PyError (ControlDef Yaml) := do
  let values ← loadValues py (← c.getD "values" .null)
  return {
    name := ← c.index "name"
    addr := ← coerceAddr py (← c.index "addr")
    fc := ← py.toInt (← c.getD "fc" (.int 6))
    value := ← py.toInt (← c.getD "value" (.int 1))
    values := values }

/-- The site's numbers are converted on the way; nothing here reads them afterwards. -/
def loadSite (data : Yaml) : Except PyError Unit := do
  let site := (← data.getD "site" .null).orElse (.map [])
  let ex := (← site.getD "exercise" .null).orElse (.map [])
  let _ ← py.toInt (← site.getD "rating_kw" (.int 200))
  let _ ← py.toInt (← site.getD "tank_gal" (.int 220))
  let _ ← py.toInt (← ex.getD "duration_min" (.int 30))

/-- The entries under a key, none where it is missing or empty. -/
def entries (data : Yaml) (key : String) : Except PyError (List Yaml) := do
  ((← data.getD key .null).orElse (.seq [])).iter

def loadRules {α : Type} (data : Yaml) (key : String) (load : Yaml → Except PyError α) :
    Except PyError (List α) := do
  (← entries data key).mapM load

/-- The document up to its controls; the last flag cannot raise any more. -/
def readHeader (doc : Yaml) : Except PyError (Header × List (ListedRegister Yaml)) := do
  let data := doc.orElse (.map [])
  loadSite py data
  let mb := (← data.getD "modbus" .null).orElse (.map [])
  let slave ← py.toInt (← mb.getD "slave" (.int 100))
  let readFc ← py.toInt (← mb.getD "read_fc" (.int 3))
  let primePollMs ← py.toInt (← mb.getD "prime_poll_ms" (.int 1500))
  let basePollMs ← py.toInt (← mb.getD "base_poll_ms" (.int 15000))
  let _ ← py.toFloat (← mb.getD "timeout_s" (.float (3 / 2)))
  let _ ← py.toInt (← mb.getD "retries" (.int 2))
  let _ ← (← mb.getD "backoff_s" (.seq [.float (1 / 4), .float (1 / 2), .float 1])).iter
  let engineStateBits ← loadRules data "engine_state_bits" (loadStateBitRule py)
  let alarmBits ← loadRules data "alarm_bits" (loadAlarmBit py)
  let panelModeBits ← loadRules data "panel_mode_bits" (loadPanelModeRule py)
  let registers ← loadRules data "registers" (loadRegister py readFc)
  let header : Header := {
    slave, readFc, primePollMs, basePollMs, engineStateBits, alarmBits, panelModeBits
    numericAlarmsEnabled := (← data.getD "numeric_alarms_enabled" (.bool false)).truthy }
  return (header, registers)

/-- What a document lists, its names as they are. -/
def readListing (doc : Yaml) : Except PyError (Listing Yaml) := do
  let (header, registers) ← readHeader py doc
  let controls ← loadRules (doc.orElse (.map [])) "controls" (loadControl py)
  return { header with registers, controls }

/-- What is listed, under the keys that the names are. Each control is put into the dictionary
before the next one is read, and the checks put the registers into a set. -/
def readKeyed (doc : Yaml) : Except PyError (Listing Key) := do
  let (header, registers) ← readHeader py doc
  let controls ← loadRules (doc.orElse (.map [])) "controls" fun c =>
    loadControl py c >>= ControlDef.keyed
  let registers ← registers.mapM ListedRegister.keyed
  return { header with registers, controls }

/-- The map that validation accepts. -/
def Listing.check (l : Listing Key) : Except LoadError (RegisterMap Key) :=
  if l.tierErrors = [] ∧ l.regmap.validate = [] then .ok l.regmap
  else .error (.invalid l.tierErrors l.regmap.validate)

def loadRegisterMap (doc : Yaml) : Except LoadError (RegisterMap Key) := do
  let l ← readKeyed py doc
  l.check

end Load

def Listing.keyed (l : Listing Yaml) : Except PyError (Listing Key) := do
  let controls ← l.controls.mapM ControlDef.keyed
  let registers ← l.registers.mapM ListedRegister.keyed
  return { l with registers, controls }

section Results

variable {py : PyText} {doc : Yaml} {l : Listing Yaml} {k : Listing Key} {m : RegisterMap Key}

/-- Where the document can be read, loading gives keys to what it lists. -/
theorem readKeyed_of_read (h : readListing py doc = .ok l) : readKeyed py doc = l.keyed := by
  obtain ⟨header, hheader, h⟩ := bind_eq_ok.mp h
  obtain ⟨controls, hcontrols, h⟩ := bind_eq_ok.mp h
  obtain ⟨items, hitems, hcontrols⟩ := bind_eq_ok.mp hcontrols
  obtain rfl := Except.ok.inj h
  unfold readKeyed loadRules
  rw [hheader, ok_bind, hitems, ok_bind, Dict.mapM_bind_of_ok hcontrols]
  rfl

theorem read_of_readKeyed (h : readKeyed py doc = .ok k) : ∃ l, readListing py doc = .ok l := by
  obtain ⟨header, hheader, h⟩ := bind_eq_ok.mp h
  obtain ⟨controls, hkeyed, -⟩ := bind_eq_ok.mp h
  obtain ⟨items, hitems, hkeyed⟩ := bind_eq_ok.mp hkeyed
  obtain ⟨listed, hlisted⟩ := Dict.mapM_of_bind hkeyed
  refine ⟨{ header.1 with registers := header.2, controls := listed }, ?_⟩
  unfold readListing loadRules
  rw [hheader, ok_bind, hitems, ok_bind, hlisted]
  rfl

theorem Listing.check_eq_ok :
    k.check = .ok m ↔ k.tierErrors = [] ∧ k.regmap.Accepted ∧ k.regmap = m := by
  unfold check RegisterMap.Accepted
  split
  · rename_i h
    simp [h]
  · rename_i h
    simp only [reduceCtorEq, false_iff]
    exact fun hok => h ⟨hok.1, hok.2.1⟩

end Results

section Example

def hexDigit (c : Char) : Option ℕ :=
  if c.isDigit then some (c.toNat - '0'.toNat)
  else if 'a' ≤ c ∧ c ≤ 'f' then some (c.toNat - 'a'.toNat + 10)
  else if 'A' ≤ c ∧ c ≤ 'F' then some (c.toNat - 'A'.toNat + 10)
  else none

/-- The conversions as they are on plain text: decimal integers, marked integers in base 16. -/
def PyText.ascii : PyText where
  str
    | .bool b => if b then "True" else "False"
    | .int n => toString n
    | .str s | .stamp s => s
    | _ => "None"
  int := String.toInt?
  hex s := (s.toList.drop 2).foldlM (fun n c => (hexDigit c).map (16 * n + ·)) (0 : ℤ)
  float s := s.toInt?.map (↑)
  lower := String.toLower
  strip s := String.ofList ((s.toList.dropWhile Char.isWhitespace).reverse.dropWhile
    Char.isWhitespace).reverse

example : coerceAddr .ascii (.str "0x01F0") = .ok 0x01F0 := by decide +kernel

end Example

end GenWatch

import GenWatch.Prelude.Yaml
import GenWatch.Modbus.Registers

/-! # Which register maps are accepted

Loading a map fails on any of these errors. The registers are scanned in order, with
the names seen so far and the name that occupies each word. Names are compared, tested for
truth and looked up by the text of a rule.
-/

namespace GenWatch

/-- What the checks ask of a name besides equality. -/
class EntryName (ν : Type) where
  truthy : ν → Bool
  /-- the name that is this text -/
  ofText : String → ν

instance : EntryName String := ⟨fun s => s ≠ "", id⟩

instance : EntryName Key := ⟨Key.truthy, .text⟩

inductive MapError (ν : Type := String) where
  | slave (slave : ℤ)
  | readFc (fc : ℤ)
  | duplicateName (name : ν)
  | registerFc (name : ν) (fc : ℤ)
  | registerAddr (name : ν) (addr : ℤ)
  | wordOverlap (word : ℤ) (prior name : ν)
  | stateRule (register : String)
  | alarmRule (register : String)
  | alarmMask (code : String) (mask : ℤ)
  | panelRule (register : String)
  | panelMask (mode : PanelMode) (mask : ℤ)
  | duplicateControl (name : ν)
  | controlFc (name : ν) (fc : ℤ)
  | controlAddr (name : ν) (addr : ℤ)
  | controlValues (name : ν) (count : ℕ)
  | noRegisters
  deriving DecidableEq, Repr

variable {ν : Type}

def errorIf (p : Prop) [Decidable p] (e : MapError ν) : List (MapError ν) := if p then [e] else []

def outOf16 (addr : ℤ) : Prop := addr < 0 ∨ 0xFFFF < addr

instance (addr : ℤ) : Decidable (outOf16 addr) := inferInstanceAs (Decidable (_ ∨ _))

def badMask (mask : ℤ) : Prop := mask ≤ 0 ∨ 0xFFFF < mask

instance (mask : ℤ) : Decidable (badMask mask) := inferInstanceAs (Decidable (_ ∨ _))

/-- What the scan of the registers has seen: their names, and the last register at each word. -/
structure WordScan (ν : Type := String) where
  names : List ν
  occupied : ℤ → Option ν

namespace WordScan

def start : WordScan ν := ⟨[], fun _ => none⟩

def wordsOf (r : RegisterDef ν) : List ℤ := (List.range r.words).map fun i => r.addr + i

def occupy (s : WordScan ν) (name : ν) (word : ℤ) : WordScan ν :=
  { s with occupied := Function.update s.occupied word (some name) }

/-- A register's own words do not overlap, so that they are occupied after the errors are known. -/
def next (s : WordScan ν) (r : RegisterDef ν) : WordScan ν :=
  (wordsOf r).foldl (fun s word => s.occupy r.name word) { s with names := r.name :: s.names }

variable [DecidableEq ν] [EntryName ν]

/-- Another register occupies the word; a name that is not true does not count. -/
def overlap (s : WordScan ν) (name : ν) (word : ℤ) : List (MapError ν) :=
  match s.occupied word with
  | some prior =>
    errorIf (EntryName.truthy prior = true ∧ prior ≠ name) (.wordOverlap word prior name)
  | none => []

def registerErrors (s : WordScan ν) (r : RegisterDef ν) : List (MapError ν) :=
  errorIf (r.name ∈ s.names) (.duplicateName r.name) ++
  errorIf (r.fc ≠ 3 ∧ r.fc ≠ 4) (.registerFc r.name r.fc) ++
  errorIf (outOf16 r.addr) (.registerAddr r.name r.addr) ++
  (wordsOf r).flatMap (s.overlap r.name)

def errors (s : WordScan ν) : List (RegisterDef ν) → List (MapError ν)
  | [] => []
  | r :: rest => s.registerErrors r ++ errors (s.next r) rest

end WordScan

namespace RegisterMap

variable (m : RegisterMap ν)

def names : List ν := m.registers.map RegisterDef.name

variable [DecidableEq ν] [EntryName ν]

/-- A rule's register is one of the map's. -/
def Lists (register : String) : Prop := EntryName.ofText register ∈ m.names

instance (register : String) : Decidable (m.Lists register) := inferInstanceAs (Decidable (_ ∈ _))

def ruleErrors : List (MapError ν) :=
  m.engineStateBits.flatMap (fun rule => errorIf (¬m.Lists rule.register)
    (.stateRule rule.register)) ++
  m.alarmBits.flatMap (fun ab => errorIf (¬m.Lists ab.register) (.alarmRule ab.register) ++
    errorIf (badMask ab.mask) (.alarmMask ab.code ab.mask)) ++
  m.panelModeBits.flatMap fun pm => errorIf (¬m.Lists pm.register) (.panelRule pm.register) ++
    errorIf (badMask pm.mask) (.panelMask pm.mode pm.mask)

/-- A control may share its address with a register, which is a warning, but not its name. -/
def controlErrors (c : ControlDef ν) : List (MapError ν) :=
  errorIf (c.name ∈ m.names) (.duplicateControl c.name) ++
  errorIf (c.fc ≠ 6 ∧ c.fc ≠ 16) (.controlFc c.name c.fc) ++
  errorIf (outOf16 c.addr) (.controlAddr c.name c.addr) ++
  errorIf (c.fc = 6 ∧ c.writeValues.length ≠ 1) (.controlValues c.name c.writeValues.length)

def validate : List (MapError ν) :=
  errorIf (¬(1 ≤ m.slave ∧ m.slave ≤ 247)) (.slave m.slave) ++
  errorIf (m.readFc ≠ 3 ∧ m.readFc ≠ 4) (.readFc m.readFc) ++
  WordScan.start.errors m.registers ++
  m.ruleErrors ++
  m.controls.rows.flatMap m.controlErrors ++
  errorIf (m.registers = []) .noRegisters

/-- Loading the map succeeds. -/
def Accepted : Prop := m.validate = []

instance : Decidable m.Accepted := inferInstanceAs (Decidable (_ = _))

end RegisterMap

theorem errorIf_eq_nil {p : Prop} [Decidable p] {e : MapError ν} : errorIf p e = [] ↔ ¬p := by
  simp [errorIf]

namespace WordScan

theorem names_next (s : WordScan ν) (r : RegisterDef ν) :
    (s.next r).names = r.name :: s.names := by
  have hfold : ∀ (words : List ℤ) (s : WordScan ν),
      (words.foldl (fun s word => s.occupy r.name word) s).names = s.names := by
    intro words
    induction words with
    | nil => exact fun _ => rfl
    | cons w words ih => exact fun s => ih (s.occupy r.name w)
  exact hfold _ _

variable [DecidableEq ν] [EntryName ν]

theorem nodup_of_errors {regs : List (RegisterDef ν)} {s : WordScan ν} (h : s.errors regs = []) :
    (regs.map RegisterDef.name).Nodup ∧ ∀ r ∈ regs, r.name ∉ s.names := by
  induction regs generalizing s with
  | nil => simp
  | cons r rest ih =>
    obtain ⟨hr, hrest⟩ := List.append_eq_nil_iff.mp h
    obtain ⟨hnodup, hnew⟩ := ih hrest
    simp only [registerErrors, List.append_eq_nil_iff, errorIf_eq_nil] at hr
    rw [names_next] at hnew
    simp only [List.mem_cons, not_or] at hnew
    refine ⟨?_, ?_⟩
    · rw [List.map_cons, List.nodup_cons]
      refine ⟨?_, hnodup⟩
      intro hmem
      obtain ⟨r', hr', he⟩ := List.mem_map.mp hmem
      exact (hnew r' hr').1 he
    · rw [List.forall_mem_cons]
      exact ⟨hr.1.1.1, fun r' hr' => (hnew r' hr').2⟩

end WordScan

theorem RegisterMap.Accepted.nodup [DecidableEq ν] [EntryName ν] {m : RegisterMap ν}
    (h : m.Accepted) : m.names.Nodup := by
  unfold Accepted validate at h
  simp only [List.append_eq_nil_iff] at h
  exact (WordScan.nodup_of_errors h.1.1.1.2).1

end GenWatch

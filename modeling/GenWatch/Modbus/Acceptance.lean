import GenWatch.Modbus.Batching
import GenWatch.Modbus.Loading

/-! # What acceptance says about names and words

The scan of the registers keeps the name of the last register at each word and reports a
word whose keeper has another name, unless that name is not true: the empty text, nothing,
zero or a switch that is off. So a register shares no word with a later one, except that
such a name hides it. Two controls of one name never reach validation: the dictionary
keeps one of them. A name that cannot be a key raises before anything is reported.
-/

namespace GenWatch

open RegisterDef

variable {ν : Type}

namespace WordScan

variable {s : WordScan ν} {r r' : RegisterDef ν} {regs : List (RegisterDef ν)}

theorem mem_wordsOf {w : ℤ} : w ∈ wordsOf r ↔ r.addr ≤ w ∧ w < r.stop := by
  have hmem : w ∈ wordsOf r ↔ ∃ i < r.words, r.addr + (i : ℕ) = w := by
    simp [wordsOf]
  rw [hmem, stop]
  constructor
  · rintro ⟨i, hi, rfl⟩
    omega
  · rintro ⟨hlow, hhigh⟩
    exact ⟨(w - r.addr).toNat, by omega, by omega⟩

theorem apart_iff : Apart r r' ↔ ∀ w ∈ wordsOf r, w ∉ wordsOf r' := by
  constructor
  · intro h w hw hw'
    rw [mem_wordsOf] at hw hw'
    unfold Apart Before at h
    omega
  · intro h
    by_contra hnot
    unfold Apart Before at hnot
    have := r.addr_lt_stop
    have := r'.addr_lt_stop
    refine h (max r.addr r'.addr) ?_ ?_
    · rw [mem_wordsOf]
      omega
    · rw [mem_wordsOf]
      omega

theorem occupied_next (w : ℤ) :
    (s.next r).occupied w = if w ∈ wordsOf r then some r.name else s.occupied w := by
  have hfold : ∀ (words : List ℤ) (s : WordScan ν),
      (words.foldl (fun s word => s.occupy r.name word) s).occupied w =
        if w ∈ words then some r.name else s.occupied w := by
    intro words
    induction words with
    | nil => simp
    | cons v words ih =>
      intro s
      rw [List.foldl_cons, ih]
      by_cases hw : w ∈ words
      · simp [hw]
      · by_cases hv : w = v <;> simp [hw, hv, occupy]
  exact hfold _ _

/-- The keepers of the words have been listed. -/
def Named (s : WordScan ν) : Prop := ∀ w, ∀ prior ∈ s.occupied w, prior ∈ s.names

theorem Named.next (h : s.Named) (r : RegisterDef ν) : (s.next r).Named := by
  intro w prior hprior
  rw [occupied_next] at hprior
  rw [names_next]
  split at hprior
  · obtain rfl := Option.some.inj hprior
    exact List.mem_cons_self
  · exact List.mem_cons_of_mem _ (h w prior hprior)

theorem named_start : (start : WordScan ν).Named := by
  intro w prior hprior
  cases hprior

/-- What is asked of a register by itself. -/
def RegisterOk (r : RegisterDef ν) : Prop := (r.fc = 3 ∨ r.fc = 4) ∧ 0 ≤ r.addr ∧ r.addr ≤ 0xFFFF

variable [DecidableEq ν] [EntryName ν]

/-- No word of the register has a keeper with a name that counts. -/
def Clear (s : WordScan ν) (r : RegisterDef ν) : Prop :=
  ∀ w ∈ wordsOf r, ∀ prior ∈ s.occupied w, EntryName.truthy prior = false

theorem overlap_eq_nil {w : ℤ} :
    s.overlap r.name w = [] ↔
      ∀ prior ∈ s.occupied w, EntryName.truthy prior = false ∨ prior = r.name := by
  unfold overlap
  split
  · rename_i prior hprior
    rw [errorIf_eq_nil]
    simp only [hprior, Option.mem_def, Option.some.injEq, forall_eq', not_and_or,
      Bool.not_eq_true, not_not]
  · rename_i hnone
    simp [hnone]

theorem registerErrors_eq_nil (hs : s.Named) :
    s.registerErrors r = [] ↔ r.name ∉ s.names ∧ RegisterOk r ∧ s.Clear r := by
  have haddr : ¬outOf16 r.addr ↔ 0 ≤ r.addr ∧ r.addr ≤ 0xFFFF := by
    unfold outOf16
    omega
  simp only [registerErrors, List.append_eq_nil_iff, errorIf_eq_nil, List.flatMap_eq_nil_iff,
    overlap_eq_nil, haddr, RegisterOk, Clear]
  constructor
  · rintro ⟨⟨⟨hnew, hfc⟩, haddr⟩, hclear⟩
    refine ⟨hnew, ⟨by tauto, haddr⟩, fun w hw prior hprior => ?_⟩
    rcases hclear w hw prior hprior with hempty | rfl
    · exact hempty
    · exact absurd (hs w _ hprior) hnew
  · rintro ⟨hnew, ⟨hfc, haddr⟩, hclear⟩
    exact ⟨⟨⟨hnew, by tauto⟩, haddr⟩, fun w hw prior hprior => Or.inl (hclear w hw prior hprior)⟩

omit [DecidableEq ν] in
theorem clear_next (hr : s.Clear r) :
    (s.next r).Clear r' ↔ s.Clear r' ∧ (EntryName.truthy r.name = true → Apart r r') := by
  unfold Clear
  simp only [occupied_next]
  constructor
  · intro h
    constructor
    · intro w hw prior hprior
      by_cases hin : w ∈ wordsOf r
      · exact hr w hin prior hprior
      · exact h w hw prior (by rwa [if_neg hin])
    · intro hname
      rw [apart_iff]
      intro w hw hw'
      have hfalse := h w hw' r.name (by rw [if_pos hw]; rfl)
      rw [hname] at hfalse
      cases hfalse
  · rintro ⟨hold, hapart⟩ w hw prior hprior
    split at hprior
    · rename_i hin
      obtain rfl := Option.some.inj hprior
      by_contra hname
      exact apart_iff.mp (hapart (Bool.eq_true_of_not_eq_false hname)) w hin hw
    · exact hold w hw prior hprior

/-- What the scan asks of the registers. -/
structure Orderly (s : WordScan ν) (regs : List (RegisterDef ν)) : Prop where
  names : (regs.map RegisterDef.name).Nodup
  new : ∀ r ∈ regs, r.name ∉ s.names
  each : ∀ r ∈ regs, RegisterOk r
  clear : ∀ r ∈ regs, s.Clear r
  apart : regs.Pairwise fun r r' => EntryName.truthy r.name = true → Apart r r'

theorem orderly_cons (hs : s.Named) :
    s.Orderly (r :: regs) ↔ s.registerErrors r = [] ∧ (s.next r).Orderly regs := by
  rw [registerErrors_eq_nil hs]
  constructor
  · rintro ⟨hnames, hnew, heach, hclear, hapart⟩
    rw [List.map_cons, List.nodup_cons] at hnames
    rw [List.pairwise_cons] at hapart
    rw [List.forall_mem_cons] at hnew heach hclear
    refine ⟨⟨hnew.1, heach.1, hclear.1⟩, hnames.2, fun r' hr' => ?_, heach.2, fun r' hr' => ?_,
      hapart.2⟩
    · rw [names_next, List.mem_cons, not_or]
      exact ⟨fun he => hnames.1 (List.mem_map.mpr ⟨r', hr', he⟩), hnew.2 r' hr'⟩
    · exact (clear_next hclear.1).mpr ⟨hclear.2 r' hr', hapart.1 r' hr'⟩
  · rintro ⟨⟨hnew₀, heach₀, hclear₀⟩, hnames, hnew, heach, hclear, hapart⟩
    simp only [names_next, List.mem_cons, not_or] at hnew
    have hclear' := fun r' hr' => (clear_next hclear₀).mp (hclear r' hr')
    refine ⟨?_, List.forall_mem_cons.mpr ⟨hnew₀, fun r' hr' => (hnew r' hr').2⟩,
      List.forall_mem_cons.mpr ⟨heach₀, heach⟩,
      List.forall_mem_cons.mpr ⟨hclear₀, fun r' hr' => (hclear' r' hr').1⟩,
      List.pairwise_cons.mpr ⟨fun r' hr' => (hclear' r' hr').2, hapart⟩⟩
    rw [List.map_cons, List.nodup_cons]
    refine ⟨fun hmem => ?_, hnames⟩
    obtain ⟨r', hr', he⟩ := List.mem_map.mp hmem
    exact (hnew r' hr').1 he

theorem errors_eq_nil_iff (hs : s.Named) : s.errors regs = [] ↔ s.Orderly regs := by
  induction regs generalizing s with
  | nil => exact ⟨fun _ => ⟨by simp, by simp, by simp, by simp, by simp⟩, fun _ => rfl⟩
  | cons r regs ih => rw [errors, List.append_eq_nil_iff, ih (hs.next r), orderly_cons hs]

omit [DecidableEq ν] in
theorem start_orderly_iff :
    (start : WordScan ν).Orderly regs ↔
      (regs.map RegisterDef.name).Nodup ∧ (∀ r ∈ regs, RegisterOk r) ∧
      regs.Pairwise fun r r' => EntryName.truthy r.name = true → Apart r r' := by
  constructor
  · rintro ⟨hnames, -, heach, -, hapart⟩
    exact ⟨hnames, heach, hapart⟩
  · rintro ⟨hnames, heach, hapart⟩
    refine ⟨hnames, fun r hr => List.not_mem_nil, heach, fun r hr w hw prior hprior => ?_, hapart⟩
    cases hprior

end WordScan

namespace RegisterMap

variable [DecidableEq ν] [EntryName ν] {m : RegisterMap ν}

/-- What validation asks of the entries one by one. -/
structure Checked (m : RegisterMap ν) : Prop where
  slave : 1 ≤ m.slave ∧ m.slave ≤ 247
  readFc : m.readFc = 3 ∨ m.readFc = 4
  registers : ∀ r ∈ m.registers, WordScan.RegisterOk r
  nonempty : m.registers ≠ []
  stateRules : ∀ rule ∈ m.engineStateBits, m.Lists rule.register
  alarmRules : ∀ ab ∈ m.alarmBits, m.Lists ab.register ∧ 0 < ab.mask ∧ ab.mask ≤ 0xFFFF
  panelRules : ∀ pm ∈ m.panelModeBits, m.Lists pm.register ∧ 0 < pm.mask ∧ pm.mask ≤ 0xFFFF
  controls : ∀ c ∈ m.controls.rows, (c.fc = 6 ∨ c.fc = 16) ∧ 0 ≤ c.addr ∧ c.addr ≤ 0xFFFF ∧
    (c.fc = 6 → c.writeValues.length = 1)

/-- What validation sees of names and words. -/
structure Visible (m : RegisterMap ν) : Prop where
  names : m.names.Nodup
  apart : m.registers.Pairwise fun r r' => EntryName.truthy r.name = true → Apart r r'
  controls : ∀ c ∈ m.controls.rows, c.name ∉ m.names

theorem not_badMask {mask : ℤ} : ¬badMask mask ↔ 0 < mask ∧ mask ≤ 0xFFFF := by
  unfold badMask
  omega

theorem not_outOf16 {addr : ℤ} : ¬outOf16 addr ↔ 0 ≤ addr ∧ addr ≤ 0xFFFF := by
  unfold outOf16
  omega

theorem ruleErrors_eq_nil :
    m.ruleErrors = [] ↔ (∀ rule ∈ m.engineStateBits, m.Lists rule.register) ∧
      (∀ ab ∈ m.alarmBits, m.Lists ab.register ∧ 0 < ab.mask ∧ ab.mask ≤ 0xFFFF) ∧
      ∀ pm ∈ m.panelModeBits, m.Lists pm.register ∧ 0 < pm.mask ∧ pm.mask ≤ 0xFFFF := by
  simp only [ruleErrors, List.append_eq_nil_iff, List.flatMap_eq_nil_iff, errorIf_eq_nil, not_not,
    not_badMask, and_assoc]

omit [EntryName ν] in
theorem controlErrors_eq_nil {c : ControlDef ν} :
    m.controlErrors c = [] ↔ c.name ∉ m.names ∧ (c.fc = 6 ∨ c.fc = 16) ∧
      0 ≤ c.addr ∧ c.addr ≤ 0xFFFF ∧ (c.fc = 6 → c.writeValues.length = 1) := by
  simp only [controlErrors, List.append_eq_nil_iff, errorIf_eq_nil, not_outOf16]
  tauto

/-- The map is accepted exactly if its entries are in order, and so is what validation sees of names
and words. -/
theorem accepted_iff : m.Accepted ↔ m.Checked ∧ m.Visible := by
  have hempty : errorIf (ν := ν) (m.registers = []) .noRegisters = [] ↔ m.registers ≠ [] :=
    errorIf_eq_nil
  simp only [Accepted, validate, List.append_eq_nil_iff, hempty, errorIf_eq_nil, not_not,
    WordScan.errors_eq_nil_iff WordScan.named_start, WordScan.start_orderly_iff, ruleErrors_eq_nil,
    List.flatMap_eq_nil_iff, controlErrors_eq_nil]
  constructor
  · rintro ⟨⟨⟨⟨⟨hslave, hfc⟩, hnames, heach, hapart⟩, hstate, halarm, hpanel⟩, hctl⟩, hne⟩
    exact ⟨⟨hslave, by tauto, heach, hne, hstate, halarm, hpanel, fun c hc => (hctl c hc).2⟩,
      hnames, hapart, fun c hc => (hctl c hc).1⟩
  · rintro ⟨⟨hslave, hfc, heach, hne, hstate, halarm, hpanel, hctl⟩, hnames, hapart, hdistinct⟩
    exact ⟨⟨⟨⟨⟨hslave, by tauto⟩, hnames, heach, hapart⟩, hstate, halarm, hpanel⟩,
      fun c hc => ⟨hdistinct c hc, hctl c hc⟩⟩, hne⟩

theorem Accepted.checked (h : m.Accepted) : m.Checked := (accepted_iff.mp h).1

end RegisterMap

namespace RegisterMap

variable {m : RegisterMap}

theorem names_keyed : m.keyed.names = m.names.map Key.text := by
  simp [keyed, names, List.map_map, Function.comp_def]

theorem text_mem_names_keyed {name : String} : Key.text name ∈ m.keyed.names ↔ name ∈ m.names := by
  rw [names_keyed]
  exact List.mem_map_of_injective fun _ _ => Key.text.inj

theorem Checked.of_keyed (h : m.keyed.Checked) : m.Checked where
  slave := h.slave
  readFc := h.readFc
  registers _ hr := h.registers _ (List.mem_map_of_mem hr)
  nonempty hnil := h.nonempty (List.map_eq_nil_iff.mpr hnil)
  stateRules rule hrule := text_mem_names_keyed.mp (h.stateRules rule hrule)
  alarmRules ab hab := (h.alarmRules ab hab).imp_left text_mem_names_keyed.mp
  panelRules pm hpm := (h.panelRules pm hpm).imp_left text_mem_names_keyed.mp
  controls _ hc := h.controls _ (List.mem_map_of_mem hc)

theorem Visible.of_keyed (h : m.keyed.Visible) : m.Visible where
  names := (names_keyed ▸ h.names).of_map _
  apart := List.pairwise_map.mp h.apart
  controls _ hc := mt text_mem_names_keyed.mpr (h.controls _ (List.mem_map_of_mem hc))

theorem Accepted.of_keyed (h : m.keyed.Accepted) : m.Accepted := by
  obtain ⟨hchecked, hvisible⟩ := accepted_iff.mp h
  exact accepted_iff.mpr ⟨hchecked.of_keyed, hvisible.of_keyed⟩

end RegisterMap

namespace ListedRegister

variable {r : ListedRegister Yaml}

theorem keyed_eq_ok {s : ListedRegister Key} :
    r.keyed = .ok s ↔
      ∃ name, r.reg.name.key = .ok name ∧ s = ⟨{ r.reg with name := name }, r.badTier⟩ := by
  unfold keyed RegisterDef.keyed
  cases r.reg.name.key with
  | error e => simp [bind, Except.bind]
  | ok name => simp [bind, Except.bind, pure, Except.pure, eq_comm]

theorem keyed_error {e : PyError} (h : r.keyed = .error e) : e = .typeError := by
  unfold keyed RegisterDef.keyed at h
  cases hname : r.reg.name.key with
  | error e' =>
    rw [hname] at h
    cases h
    exact Yaml.key_error hname
  | ok name =>
    rw [hname] at h
    cases h

end ListedRegister

namespace ControlDef

variable {c : ControlDef Yaml}

theorem keyed_eq_ok {d : ControlDef Key} :
    c.keyed = .ok d ↔ ∃ name, c.name.key = .ok name ∧ d = { c with name := name } := by
  unfold keyed
  cases c.name.key with
  | error e => simp [bind, Except.bind]
  | ok name => simp [bind, Except.bind, pure, Except.pure, eq_comm]

theorem keyed_error {e : PyError} (h : c.keyed = .error e) : e = .typeError := by
  unfold keyed at h
  cases hname : c.name.key with
  | error e' =>
    rw [hname] at h
    cases h
    exact Yaml.key_error hname
  | ok name =>
    rw [hname] at h
    cases h

end ControlDef

namespace Listing

def names (l : Listing ν) : List ν := l.regs.map RegisterDef.name

/-- What a map is to be like: no name twice, no word twice. -/
structure Sound (l : Listing Yaml) : Prop where
  names : l.names.Pairwise fun v w => ¬v.Same w
  apart : l.regs.Pairwise Apart
  controls : (l.controls.map ControlDef.name).Pairwise fun v w => ¬v.Same w
  distinct : ∀ c ∈ l.controls, ∀ v ∈ l.names, ¬c.name.Same v

/-- Every name can be a key. -/
def HasKeys (l : Listing Yaml) : Prop :=
  (∀ c ∈ l.controls, ∃ key, c.name.key = .ok key) ∧ ∀ v ∈ l.names, ∃ key, v.key = .ok key

/-- What a map is to be like, under keys. -/
structure Distinct (k : Listing Key) : Prop where
  names : k.names.Nodup
  apart : k.regs.Pairwise Apart
  controls : (k.controls.map ControlDef.name).Nodup
  distinct : ∀ c ∈ k.controls, c.name ∉ k.names

/-- Nothing is hidden from validation: no control by a later one of the same name, and no register
by an earlier one with a name that is not true. -/
structure Unhidden (k : Listing Key) : Prop where
  controls : (k.controls.map ControlDef.name).Nodup
  apart : k.regs.Pairwise fun r r' => r.name.truthy = false → Apart r r'

section Keys

variable {l : Listing Yaml} {k : Listing Key}

theorem keyed_eq_ok : l.keyed = .ok k ↔ l.controls.mapM ControlDef.keyed = .ok k.controls ∧
    l.registers.mapM ListedRegister.keyed = .ok k.registers ∧ l.toHeader = k.toHeader := by
  unfold keyed
  cases l.controls.mapM ControlDef.keyed with
  | error e => simp [bind, Except.bind]
  | ok controls =>
    cases l.registers.mapM ListedRegister.keyed with
    | error e => simp [bind, Except.bind]
    | ok registers =>
      obtain ⟨header, registers', controls'⟩ := k
      simp only [bind, Except.bind, pure, Except.pure, Except.ok.injEq, mk.injEq]
      tauto

theorem regs_of_keyed (h : l.keyed = .ok k) : l.regs.mapM RegisterDef.keyed = .ok k.regs := by
  obtain ⟨-, hregisters, -⟩ := keyed_eq_ok.mp h
  rw [Dict.mapM_eq_ok] at hregisters ⊢
  unfold regs
  rw [List.forall₂_map_left_iff, List.forall₂_map_right_iff]
  refine hregisters.imp fun r s hr => ?_
  obtain ⟨name, hname, rfl⟩ := ListedRegister.keyed_eq_ok.mp hr
  unfold RegisterDef.keyed
  rw [hname]
  rfl

theorem names_of_keyed (h : l.registers.mapM ListedRegister.keyed = .ok k.registers) :
    (l.names.Pairwise fun v w => ¬v.Same w) ↔ k.names.Nodup := by
  unfold names regs List.Nodup
  rw [List.map_map, List.map_map, List.pairwise_map, List.pairwise_map]
  refine Dict.pairwise_iff_of_mapM (fun r s r' s' hr hr' => not_congr ?_) h
  obtain ⟨name, hname, rfl⟩ := ListedRegister.keyed_eq_ok.mp hr
  obtain ⟨name', hname', rfl⟩ := ListedRegister.keyed_eq_ok.mp hr'
  exact Yaml.same_iff_of_key hname hname'

theorem apart_of_keyed (h : l.registers.mapM ListedRegister.keyed = .ok k.registers) :
    l.regs.Pairwise Apart ↔ k.regs.Pairwise Apart := by
  unfold regs
  rw [List.pairwise_map, List.pairwise_map]
  refine Dict.pairwise_iff_of_mapM (fun r s r' s' hr hr' => ?_) h
  obtain ⟨name, -, rfl⟩ := ListedRegister.keyed_eq_ok.mp hr
  obtain ⟨name', -, rfl⟩ := ListedRegister.keyed_eq_ok.mp hr'
  exact Iff.rfl

theorem controls_of_keyed (h : l.controls.mapM ControlDef.keyed = .ok k.controls) :
    ((l.controls.map ControlDef.name).Pairwise fun v w => ¬v.Same w) ↔
      (k.controls.map ControlDef.name).Nodup := by
  unfold List.Nodup
  rw [List.pairwise_map, List.pairwise_map]
  refine Dict.pairwise_iff_of_mapM (fun c d c' d' hc hc' => not_congr ?_) h
  obtain ⟨name, hname, rfl⟩ := ControlDef.keyed_eq_ok.mp hc
  obtain ⟨name', hname', rfl⟩ := ControlDef.keyed_eq_ok.mp hc'
  exact Yaml.same_iff_of_key hname hname'

theorem distinct_of_keyed (hcontrols : l.controls.mapM ControlDef.keyed = .ok k.controls)
    (hregisters : l.registers.mapM ListedRegister.keyed = .ok k.registers) :
    (∀ c ∈ l.controls, ∀ v ∈ l.names, ¬c.name.Same v) ↔
      ∀ c ∈ k.controls, c.name ∉ k.names := by
  refine Dict.forall_mem_iff_of_mapM (fun c d hc => ?_) hcontrols
  obtain ⟨name, hname, rfl⟩ := ControlDef.keyed_eq_ok.mp hc
  have hnames : name ∉ k.names ↔ ∀ v ∈ k.names, name ≠ v :=
    ⟨fun h v hv he => h (he ▸ hv), fun h hv => h _ hv rfl⟩
  rw [hnames]
  unfold names regs
  simp only [List.map_map, List.forall_mem_map]
  refine Dict.forall_mem_iff_of_mapM (fun r s hr => not_congr ?_) hregisters
  obtain ⟨name', hname', rfl⟩ := ListedRegister.keyed_eq_ok.mp hr
  exact Yaml.same_iff_of_key hname hname'

/-- The names are different to the program exactly if their keys are. -/
theorem sound_iff_distinct (h : l.keyed = .ok k) : l.Sound ↔ k.Distinct := by
  obtain ⟨hcontrols, hregisters, -⟩ := keyed_eq_ok.mp h
  constructor
  · rintro ⟨hnames, hapart, hctl, hdistinct⟩
    exact ⟨(names_of_keyed hregisters).mp hnames, (apart_of_keyed hregisters).mp hapart,
      (controls_of_keyed hcontrols).mp hctl, (distinct_of_keyed hcontrols hregisters).mp hdistinct⟩
  · rintro ⟨hnames, hapart, hctl, hdistinct⟩
    exact ⟨(names_of_keyed hregisters).mpr hnames, (apart_of_keyed hregisters).mpr hapart,
      (controls_of_keyed hcontrols).mpr hctl,
      (distinct_of_keyed hcontrols hregisters).mpr hdistinct⟩

theorem exists_keyed_iff : (∃ k, l.keyed = .ok k) ↔ l.HasKeys := by
  have hcontrols : (∃ cs, l.controls.mapM ControlDef.keyed = .ok cs) ↔
      ∀ c ∈ l.controls, ∃ key, c.name.key = .ok key := by
    rw [Dict.exists_mapM_ok]
    refine forall₂_congr fun c _ => ?_
    simp [ControlDef.keyed_eq_ok]
  have hregisters : (∃ rs, l.registers.mapM ListedRegister.keyed = .ok rs) ↔
      ∀ v ∈ l.names, ∃ key, v.key = .ok key := by
    rw [Dict.exists_mapM_ok]
    unfold names regs
    simp only [List.map_map, List.forall_mem_map]
    refine forall₂_congr fun r _ => ?_
    simp [ListedRegister.keyed_eq_ok]
  unfold HasKeys
  rw [← hcontrols, ← hregisters]
  constructor
  · rintro ⟨k, hk⟩
    obtain ⟨hc, hr, -⟩ := keyed_eq_ok.mp hk
    exact ⟨⟨_, hc⟩, _, hr⟩
  · rintro ⟨⟨cs, hc⟩, rs, hr⟩
    exact ⟨⟨l.toHeader, rs, cs⟩, keyed_eq_ok.mpr ⟨hc, hr, rfl⟩⟩

theorem keyed_error {e : PyError} (h : l.keyed = .error e) : e = .typeError := by
  unfold keyed at h
  cases hcontrols : l.controls.mapM ControlDef.keyed with
  | error e' =>
    rw [hcontrols] at h
    cases h
    obtain ⟨c, -, hc⟩ := Dict.mapM_error hcontrols
    exact ControlDef.keyed_error hc
  | ok controls =>
    rw [hcontrols, ok_bind] at h
    cases hregisters : l.registers.mapM ListedRegister.keyed with
    | error e' =>
      rw [hregisters] at h
      cases h
      obtain ⟨r, -, hr⟩ := Dict.mapM_error hregisters
      exact ListedRegister.keyed_error hr
    | ok registers =>
      rw [hregisters] at h
      cases h

end Keys

variable {k : Listing Key} {m : RegisterMap Key}

theorem visible_iff :
    k.regmap.Visible ↔ k.names.Nodup ∧
      (k.regs.Pairwise fun r r' => r.name.truthy = true → Apart r r') ∧
      ∀ c ∈ k.controls, c.name ∉ k.names := by
  have hkeys : (∀ c ∈ k.regmap.controls.rows, c.name ∉ k.names) ↔
      ∀ c ∈ k.controls, c.name ∉ k.names := by
    have hmem : ∀ key, key ∈ k.regmap.controls.keys ↔ key ∈ k.controls.map ControlDef.name :=
      fun key => Table.mem_keys_foldl_insertReplace
    constructor
    · intro h c hc
      obtain ⟨c', hc', he⟩ := Table.mem_keys.mp ((hmem c.name).mpr (List.mem_map_of_mem hc))
      exact he ▸ h c' hc'
    · intro h c hc
      obtain ⟨c', hc', he⟩ := List.mem_map.mp ((hmem c.name).mp (Table.mem_keys.mpr ⟨c, hc, rfl⟩))
      exact he ▸ h c' hc'
  constructor
  · rintro ⟨hnames, hapart, hdistinct⟩
    exact ⟨hnames, hapart, hkeys.mp hdistinct⟩
  · rintro ⟨hnames, hapart, hdistinct⟩
    exact ⟨hnames, hapart, hkeys.mpr hdistinct⟩

theorem distinct_iff : k.Distinct ↔ k.regmap.Visible ∧ k.Unhidden := by
  rw [visible_iff]
  constructor
  · rintro ⟨hnames, hapart, hctl, hdistinct⟩
    refine ⟨⟨hnames, ?_, hdistinct⟩, hctl, ?_⟩
    · exact hapart.imp fun {r r'} h (_ : r.name.truthy = true) => h
    · exact hapart.imp fun {r r'} h (_ : r.name.truthy = false) => h
  · rintro ⟨⟨hnames, hvisible, hdistinct⟩, hctl, hhidden⟩
    refine ⟨hnames, (hvisible.and hhidden).imp fun {r r'} h => ?_, hctl, hdistinct⟩
    cases hr : r.name.truthy with
    | true => exact h.1 hr
    | false => exact h.2 hr

theorem check_ok_iff :
    k.check = .ok m ↔ k.tierErrors = [] ∧ k.regmap.Checked ∧ k.regmap.Visible ∧ k.regmap = m := by
  rw [check_eq_ok, RegisterMap.accepted_iff, and_assoc]

theorem check_error (h : ∀ m, k.check ≠ .ok m) :
    ∃ e, k.check = .error e ∧ e.isValueError = true := by
  unfold check at h ⊢
  split
  · rename_i hok
    rw [if_pos hok] at h
    exact absurd rfl (h k.regmap)
  · exact ⟨_, rfl, rfl⟩

end Listing

section Loads

variable (py : PyText) (doc : Yaml)

/-- What loading is to do: a document is accepted only if it lists no duplicates, and then taken as
it lists its entries; one that lists some raises a `ValueError`. -/
structure LoadsSoundly : Prop where
  accepted : ∀ m, loadRegisterMap py doc = .ok m → ∃ l, readListing py doc = .ok l ∧ l.Sound ∧
    l.regs.mapM RegisterDef.keyed = .ok m.registers ∧
    l.controls.mapM ControlDef.keyed = .ok m.controls.rows
  rejected : ∀ l, readListing py doc = .ok l → ¬l.Sound →
    ∃ e, loadRegisterMap py doc = .error e ∧ e.isValueError = true

variable {py doc} {l : Listing Yaml} {k : Listing Key} {m : RegisterMap Key}

theorem load_of_keyed (h : readKeyed py doc = .ok k) : loadRegisterMap py doc = k.check := by
  rw [loadRegisterMap, h]
  rfl

theorem load_error {e : PyError} (h : readKeyed py doc = .error e) :
    loadRegisterMap py doc = .error (.raised e) := by
  rw [loadRegisterMap, h]
  rfl

/-- What is loaded was listed, and passed the checks under its keys. -/
theorem listed_of_load (h : loadRegisterMap py doc = .ok m) :
    ∃ l k, readListing py doc = .ok l ∧ l.keyed = .ok k ∧ k.check = .ok m := by
  cases hread : readKeyed py doc with
  | error e =>
    rw [load_error hread] at h
    cases h
  | ok k =>
    obtain ⟨l, hl⟩ := read_of_readKeyed hread
    rw [readKeyed_of_read hl] at hread
    exact ⟨l, k, hl, hread, (load_of_keyed ((readKeyed_of_read hl).trans hread)).symm.trans h⟩

theorem accepted_of_load {m : RegisterMap} (h : loadRegisterMap py doc = .ok m.keyed) :
    m.Accepted := by
  obtain ⟨l, k, -, -, hcheck⟩ := listed_of_load h
  obtain ⟨-, hok, he⟩ := Listing.check_eq_ok.mp hcheck
  exact RegisterMap.Accepted.of_keyed (he ▸ hok)

variable (py doc)

end Loads

section Example

def twoStopsDoc : Yaml :=
  .map [("registers", .seq [.map [("name", .str "status"), ("addr", .int 0)]]),
    ("controls", .seq [.map [("name", .str "remote_stop"), ("addr", .int 0x0131)],
      .map [("name", .str "remote_stop"), ("addr", .int 0x0130)]])]

/-- A document whose first register has two words and is named by a switch that is off. -/
def offDoc : Yaml :=
  .map [("registers", .seq [
    .map [("name", .bool false), ("addr", .int 0), ("type", .str "u32")],
    .map [("name", .str "status"), ("addr", .int 1)]])]

end Example

end GenWatch

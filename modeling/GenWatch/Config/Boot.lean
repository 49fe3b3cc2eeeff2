import GenWatch.Config.Update

/-! # Updates that leave the service bootable

What an update leaves on disk loads exactly if the free sections of the request validate
once they are merged, for all other parts of the request have the types of their fields.
The Slack settings in memory take the same fields as the file, so that the two keep
agreeing where the environment has no say. After the file has been replaced only the
audit row can still fail.
-/

namespace GenWatch

open Transition

section Slack

variable {py : Pydantic} {env d d' entries values slack : List (String × Yaml)}
  {body : ConfigUpdate} {f : Field}

/-- The Slack settings in memory have all their fields, each with a value of its type. -/
structure SlackTyped (py : Pydantic) (slack : List (String × Yaml)) : Prop where
  fields : ∀ f ∈ slackConfig.fields, ∃ v, slack.lookup f.name = some v ∧
    py.coerce f.type v = some v
  others : ∀ k ∉ slackConfig.fields.map Field.name, slack.lookup k = none

theorem slackConfig_distinct : slackConfig.Distinct := by
  unfold ModelDef.Distinct
  decide

theorem slackConfig_defaults : ∀ f ∈ slackConfig.fields, py.coerce f.type f.default =
    some f.default := by
  simp [slackConfig, py.coerce_bool, py.coerce_str]

variable {entries values slack : List (String × Yaml)}

theorem slackTyped_of_validate (h : slackConfig.validate py (.map entries) = some values) :
    SlackTyped py values := by
  obtain ⟨hfields, hothers⟩ := ModelDef.lookup_validate slackConfig_distinct h
  have hvalid := (ModelDef.validate_isSome fun _ => rfl).mp (Option.isSome_of_eq_some h)
  refine ⟨fun f hf => ?_, hothers⟩
  obtain ⟨w, hw⟩ := Option.isSome_iff_exists.mp (hvalid f hf)
  refine ⟨w, (hfields f hf).trans hw, ?_⟩
  cases hgiven : entries.lookup f.name with
  | some v =>
    rw [hgiven] at hw
    exact py.coerce_coerce f.type v w hw
  | none =>
    rw [hgiven] at hw
    obtain rfl := Option.some.inj hw
    exact slackConfig_defaults f hf

theorem validate_update (body : ConfigUpdate) (h : SlackTyped py slack) : ∃ values,
    slackConfig.validate py (.map (Dict.update slack body.slackPatch)) = some values ∧
      ∀ f ∈ slackConfig.fields,
        values.lookup f.name = (Dict.update slack body.slackPatch).lookup f.name := by
  have hvalue : ∀ f ∈ slackConfig.fields, ∃ v,
      (Dict.update slack body.slackPatch).lookup f.name = some v ∧ py.coerce f.type v = some v := by
    intro f hf
    by_cases hsent : f.name ∈ body.slackPatch.map Prod.fst
    · obtain ⟨v, hmem, hset⟩ := Dict.lookup_update_of_mem hsent
      exact ⟨v, hset slack, coerce_of_mem_slackPatch hmem hf rfl⟩
    · rw [Dict.lookup_update_of_not_mem hsent]
      exact h.fields f hf
  have hvalid : (slackConfig.validate py (.map (Dict.update slack body.slackPatch))).isSome := by
    rw [ModelDef.validate_isSome fun _ => rfl]
    intro f hf
    obtain ⟨v, hv, hcoerce⟩ := hvalue f hf
    rw [hv, Field.value, hcoerce]
    rfl
  obtain ⟨values, hvalues⟩ := Option.isSome_iff_exists.mp hvalid
  refine ⟨values, hvalues, fun f hf => ?_⟩
  obtain ⟨v, hv, hcoerce⟩ := hvalue f hf
  rw [(ModelDef.lookup_validate slackConfig_distinct hvalues).1 f hf, hv, Field.value, hcoerce]

/-- The Slack settings agree wherever the environment says nothing. -/
def Agree (env slack slack' : List (String × Yaml)) : Prop :=
  ∀ k, (sectionOf env "slack").lookup k = none → slack.lookup k = slack'.lookup k

/-- The Slack section of the merged file agrees with the updated settings if that of the file
agreed with those in memory. -/
theorem agree_of_merges (h : Merges body d d') {loaded loaded' slack' : List (String × Yaml)}
    (hsent : body.slackPatch.isEmpty = false)
    (hloaded : slackConfig.validate py (modelDoc d env "slack") = some loaded)
    (hloaded' : slackConfig.validate py (modelDoc d' env "slack") = some loaded')
    (hslack' : slackConfig.validate py (.map (Dict.update slack body.slackPatch)) = some slack')
    (hvalues : ∀ f ∈ slackConfig.fields,
      slack'.lookup f.name = (Dict.update slack body.slackPatch).lookup f.name)
    (hagree : Agree env loaded slack) : Agree env loaded' slack' := by
  obtain ⟨_, hmap⟩ := ModelDef.map_of_validate hloaded
  have henv := openSection_env hmap
  obtain ⟨entries, he, hlookup⟩ := modelDoc_eq (h.open_ hsent) henv
  have hnew : d'.lookup "slack" =
      some (.map (Dict.update (sectionOf d "slack") body.slackPatch)) := by
    rw [h.slack, patchedSection, hsent]
    rfl
  obtain ⟨entries', he', hlookup'⟩ := modelDoc_eq (Or.inr ⟨_, hnew⟩) henv
  have hsection : sectionOf d' "slack" = Dict.update (sectionOf d "slack") body.slackPatch := by
    rw [sectionOf, hnew]
  rw [he] at hloaded
  rw [he'] at hloaded'
  obtain ⟨hfields, -⟩ := ModelDef.lookup_validate slackConfig_distinct hloaded
  obtain ⟨hfields', hothers'⟩ := ModelDef.lookup_validate slackConfig_distinct hloaded'
  obtain ⟨-, hothers⟩ := ModelDef.lookup_validate slackConfig_distinct hslack'
  intro k hk
  by_cases hfield : k ∈ slackConfig.fields.map Field.name
  · obtain ⟨f, hf, rfl⟩ := List.mem_map.mp hfield
    have hkeep : ∀ b : Option Yaml, Yaml.overlay b none = b := fun b => by cases b <;> rfl
    rw [hfields' f hf, hlookup', hk, hkeep, hsection, hvalues f hf]
    by_cases hpatched : f.name ∈ body.slackPatch.map Prod.fst
    · obtain ⟨v, hmem, hset⟩ := Dict.lookup_update_of_mem hpatched
      rw [hset, hset]
      exact coerce_of_mem_slackPatch hmem hf rfl
    · rw [Dict.lookup_update_of_not_mem hpatched, Dict.lookup_update_of_not_mem hpatched,
        ← hagree _ hk, hfields f hf, hlookup, hk, hkeep]
  · rw [hothers' k hfield, hothers k hfield]

end Slack

theorem loadYaml_map (d : List (String × Yaml)) : loadYaml (.map d) = some d := by
  cases d <;> rfl

theorem dirMade_congr {py : Pydantic} {host : Host} {d d' : List (String × Yaml)}
    (h : d'.lookup "data_dir" = d.lookup "data_dir") :
    DirMade py host d' ↔ DirMade py host d := by
  have hsame : layered d' host.env dataDirField.name = layered d host.env dataDirField.name :=
    layered_congr h
  rw [DirMade, DirMade, hsame]

theorem Settings.slack_withSlack (s : Settings) (slack : List (String × Yaml)) :
    (s.withSlack slack).slack = slack := by
  simp [Settings.slack, withSlack]

namespace ConfigState

variable (py : Pydantic) (host : Host) (s : ConfigState)

/-- The file loads, and its Slack section agrees with the settings in memory wherever the
environment says nothing. -/
def Bootable : Prop :=
  ∃ loaded, load py host s.file = some loaded ∧ Agree host.env loaded.slack s.settings.slack

/-- The request gets as far as replacing the file. -/
def Replaces (p : ConfigPut) : Prop :=
  s.settings.configPath ≠ "" ∧ (∃ doc, p.body.applyTo s.onDisk = .ok doc) ∧ p.writeFails = false

/-- A request that is answered leaves the service bootable, one that fails changes nothing. -/
structure Sound (p : ConfigPut) : Prop where
  answered : ∀ a s', s.updateConfig py p = (.ok a, s') → s'.Bootable py host
  failed : ∀ e s', s.updateConfig py p = (.error e, s') → s' = s

/-- The request changes neither the mapping on disk nor the settings in memory. -/
def Idle (p : ConfigPut) : Prop :=
  ∃ doc, p.body.applyTo s.onDisk = .ok doc ∧ s.file = some doc ∧
    s.reloadSlack py p.body.slackPatch = some s.settings

def mapping : List (String × Yaml) :=
  match s.onDisk with
  | .map d => d
  | _ => []

/-- A request that replaces the file sends no free section that does not validate once it is merged
into that of the file, under what the environment has of it; and its audit row is written, unless
it changes nothing. -/
structure Harmless (p : ConfigPut) : Prop where
  sections : s.Replaces p → ∀ e ∈ p.body.freeForm, e.2.2.isEmpty = false →
    (e.2.1.validate py (freeDoc s.mapping host.env e.1 e.2.2)).isSome
  audit : s.Replaces p → p.auditFails = true → s.Idle py p

structure Consistent : Prop where
  file : ∃ doc, s.file = some doc
  boots : s.Bootable py host
  typed : SlackTyped py s.settings.slack

section Step

variable {py host s} {p : ConfigPut} {d d' : List (String × Yaml)} {settings : Settings}

theorem Consistent.onDisk (h : s.Consistent py host) :
    ∃ doc d, s.file = some doc ∧ loadYaml doc = some d ∧ s.onDisk = .map d := by
  obtain ⟨doc, hfile⟩ := h.file
  obtain ⟨loaded, hload, -⟩ := h.boots
  rw [hfile] at hload
  obtain ⟨d, hd, -⟩ := Option.bind_eq_some_iff.mp hload
  refine ⟨doc, d, hfile, hd, ?_⟩
  have hd' : loadYaml doc = some d := hd
  unfold loadYaml at hd'
  unfold ConfigState.onDisk
  rw [hfile]
  dsimp only
  split at hd'
  · rename_i entries hentries
    rw [hentries, Option.some.inj hd']
  · cases hd'

theorem updateConfig_cases (h : s.Consistent py host) (p : ConfigPut) :
    (¬s.Replaces p ∧ ∃ e, s.updateConfig py p = (.error e, s)) ∨
    ∃ d d' settings, s.Replaces p ∧ s.onDisk = .map d ∧ p.body.applyTo s.onDisk = .ok (.map d') ∧
      Merges p.body d d' ∧ s.reloadSlack py p.body.slackPatch = some settings ∧
      s.updateConfig py p =
        (if p.auditFails then .error .database
          else .ok ⟨p.body.restartRequired, !p.body.slackPatch.isEmpty⟩,
          ⟨some (.map d'), settings⟩) := by
  obtain ⟨doc, d, -, -, hdisk⟩ := h.onDisk
  unfold updateConfig Replaces
  split
  · rename_i hpath
    exact Or.inl ⟨fun hr => hr.1 hpath, _, rfl⟩
  rename_i hpath
  split
  · rename_i e he
    refine Or.inl ⟨?_, _, rfl⟩
    rintro ⟨-, ⟨doc, hdoc⟩, -⟩
    rw [he] at hdoc
    cases hdoc
  rename_i doc' hdoc
  split
  · rename_i hwrite
    refine Or.inl ⟨?_, _, rfl⟩
    rintro ⟨-, -, hok⟩
    rw [hwrite] at hok
    cases hok
  rename_i hwrite
  obtain ⟨d', rfl, hmerges⟩ := merges_of_applyTo (hdisk ▸ hdoc)
  obtain ⟨settings, hreload⟩ : ∃ settings, s.reloadSlack py p.body.slackPatch = some settings := by
    unfold reloadSlack
    split
    · exact ⟨_, rfl⟩
    · obtain ⟨values, hvalues, -⟩ := validate_update p.body h.typed
      exact ⟨_, by rw [hvalues]; rfl⟩
  refine Or.inr ⟨d, d', settings, ⟨hpath, ⟨_, hdoc⟩, Bool.eq_false_iff.mpr hwrite⟩, hdisk, hdoc,
    hmerges, hreload, ?_⟩
  rw [hreload]
  dsimp only
  split <;> rfl

theorem slack_of_load {doc : Yaml} {loaded : Settings} (hdoc : loadYaml doc = some d)
    (h : load py host (some doc) = some loaded) :
    slackConfig.validate py (modelDoc d host.env "slack") = some loaded.slack := by
  have hmem : ("slack", slackConfig) ∈ settingsModels := by simp [settingsModels]
  have hvalid := ((load_isSome hdoc).mp (Option.isSome_of_eq_some h)).1.models _ hmem
  obtain ⟨values, hvalues⟩ := Option.isSome_iff_exists.mp hvalid
  have hmodel := (models_of_load hdoc h).2 _ hmem
  rw [hvalues] at hmodel
  rw [Settings.slack, hmodel]
  exact hvalues

theorem typed_of_reload (h : SlackTyped py s.settings.slack)
    (hr : s.reloadSlack py p.body.slackPatch = some settings) : SlackTyped py settings.slack := by
  unfold reloadSlack at hr
  split at hr
  · obtain rfl := Option.some.inj hr
    exact h
  · obtain ⟨slack, hslack, rfl⟩ := Option.map_eq_some_iff.mp hr
    rw [Settings.slack_withSlack]
    exact slackTyped_of_validate hslack

/-- The file that replaces the old one leaves the service bootable exactly if the free sections
that were sent validate. -/
theorem bootable_iff (h : s.Consistent py host) (hdisk : s.onDisk = .map d)
    (hm : Merges p.body d d') (hr : s.reloadSlack py p.body.slackPatch = some settings) :
    Bootable py host ⟨some (.map d'), settings⟩ ↔ ∀ e ∈ p.body.freeForm, e.2.2.isEmpty = false →
      (e.2.1.validate py (freeDoc d host.env e.1 e.2.2)).isSome := by
  obtain ⟨doc, d₀, hfile, hdoc, hdisk₀⟩ := h.onDisk
  obtain rfl : d₀ = d := Yaml.map.inj (hdisk₀.symm.trans hdisk)
  obtain ⟨loaded, hload, hagree⟩ := h.boots
  rw [hfile] at hload
  obtain ⟨hvalid, hdir⟩ := (load_isSome hdoc).mp (Option.isSome_of_eq_some hload)
  rw [← valid_iff_of_merges hm hvalid]
  constructor
  · rintro ⟨loaded', hload', -⟩
    exact ((load_isSome (loadYaml_map d')).mp (Option.isSome_of_eq_some hload')).1
  · intro hvalid'
    have hdir' : DirMade py host d' := (dirMade_congr (hm.others _ (by decide))).mpr hdir
    obtain ⟨loaded', hload'⟩ := Option.isSome_iff_exists.mp
      ((load_isSome (loadYaml_map d')).mpr ⟨hvalid', hdir'⟩)
    refine ⟨loaded', hload', ?_⟩
    have hslack := slack_of_load hdoc hload
    have hslack' := slack_of_load (loadYaml_map d') hload'
    unfold reloadSlack at hr
    split at hr
    · rename_i hempty
      obtain rfl := Option.some.inj hr
      rw [modelDoc_of_patched hm.slack, if_pos hempty, hslack] at hslack'
      rwa [← Option.some.inj hslack']
    · rename_i hsent
      obtain ⟨slack, hnew, rfl⟩ := Option.map_eq_some_iff.mp hr
      obtain ⟨values, hvalues, hlookup⟩ := validate_update p.body h.typed
      obtain rfl := Option.some.inj (hvalues.symm.trans hnew)
      rw [Settings.slack_withSlack]
      exact agree_of_merges hm (Bool.eq_false_iff.mpr hsent) hslack hslack' hvalues hlookup hagree

theorem mapping_eq (h : s.onDisk = .map d) : s.mapping = d := by
  rw [mapping, h]

theorem sound_iff (h : s.Consistent py host) : s.Sound py host p ↔ s.Harmless py host p := by
  rcases updateConfig_cases h p with
    ⟨hnot, e, he⟩ | ⟨d, d', settings, hreplaces, hdisk, hdoc, hm, hr, hu⟩
  · constructor
    · intro _
      exact ⟨fun hreplaces => absurd hreplaces hnot, fun hreplaces => absurd hreplaces hnot⟩
    · intro _
      constructor
      · intro a s' ha
        rw [he] at ha
        cases ha
      · intro e' s' he'
        rw [he] at he'
        exact (Prod.mk.inj he').2.symm
  · have hboot := bootable_iff h hdisk hm hr
    rw [← mapping_eq hdisk] at hboot
    cases haudit : p.auditFails with
    | false =>
      rw [haudit] at hu
      constructor
      · intro hsound
        refine ⟨fun _ => hboot.mp (hsound.answered _ _ hu), fun _ hfails => ?_⟩
        rw [haudit] at hfails
        cases hfails
      · intro hharmless
        constructor
        · intro a s' ha
          rw [hu] at ha
          obtain ⟨-, rfl⟩ := Prod.mk.inj ha
          exact hboot.mpr (hharmless.sections hreplaces)
        · intro e s' he
          rw [hu] at he
          cases he
    | true =>
      rw [haudit] at hu
      have hidle : s.Idle py p ↔ ⟨some (.map d'), settings⟩ = s := by
        constructor
        · rintro ⟨doc, hdoc', hfile, hsettings⟩
          obtain rfl := Except.ok.inj (hdoc.symm.trans hdoc')
          obtain rfl := Option.some.inj (hr.symm.trans hsettings)
          rw [← hfile]
        · intro hs
          have hsettings : settings = s.settings := congrArg ConfigState.settings hs
          exact ⟨_, hdoc, (congrArg file hs).symm, hr.trans (congrArg some hsettings)⟩
      constructor
      · intro hsound
        have hsame := hsound.failed _ _ hu
        refine ⟨fun _ => hboot.mp ?_, fun _ _ => hidle.mpr hsame⟩
        rw [hsame]
        exact h.boots
      · intro hharmless
        constructor
        · intro a s' ha
          rw [hu] at ha
          cases ha
        · intro e s' he
          rw [hu] at he
          obtain ⟨-, rfl⟩ := Prod.mk.inj he
          exact hidle.mp (hharmless.audit hreplaces haudit)

theorem Consistent.step (h : s.Consistent py host) (hs : s.Sound py host p) :
    (s.updateConfig py p).2.Consistent py host := by
  rcases updateConfig_cases h p with ⟨-, e, he⟩ | ⟨d, d', settings, -, -, -, -, hr, hu⟩
  · rw [he]
    exact h
  · cases haudit : p.auditFails with
    | false =>
      rw [haudit] at hu
      rw [hu]
      exact ⟨⟨_, rfl⟩, hs.answered _ _ hu, typed_of_reload h.typed hr⟩
    | true =>
      rw [haudit] at hu
      rw [hu, hs.failed _ _ hu]
      exact h

end Step

section Run

def step (s : ConfigState) (p : ConfigPut) : Option ConfigState := some (s.updateConfig py p).2

variable {py host}

theorem consistent_start {doc : Yaml} {loaded : Settings}
    (h : load py host (some doc) = some loaded) :
    Consistent py host ⟨some doc, loaded⟩ := by
  obtain ⟨d, hd, -⟩ := Option.bind_eq_some_iff.mp h
  obtain ⟨entries, hentries⟩ := ModelDef.map_of_validate (slack_of_load hd h)
  have hslack := slack_of_load hd h
  rw [hentries] at hslack
  exact ⟨⟨doc, rfl⟩, ⟨loaded, h, fun _ _ => rfl⟩, slackTyped_of_validate hslack⟩

/-- From a file that loads, all requests of a sequence are sound exactly if all of them are
harmless. -/
theorem updates_sound_iff {doc : Yaml} {loaded : Settings}
    (h : load py host (some doc) = some loaded) (ps : List ConfigPut) :
    (∀ s p s', Takes (step py) ⟨some doc, loaded⟩ ps s p s' → s.Sound py host p) ↔
      ∀ s p s', Takes (step py) ⟨some doc, loaded⟩ ps s p s' → s.Harmless py host p := by
  constructor
  · intro hsound s p s' ht
    have hs : s.Consistent py host := by
      refine ht.invariant (C := fun s p _ => s.Sound py host p) hsound (consistent_start h) ?_
      intro s p s' hs hsound hstep
      obtain rfl := Option.some.inj hstep
      exact hs.step hsound
    exact (sound_iff hs).mp (hsound s p s' ht)
  · intro hharmless s p s' ht
    have hs : s.Consistent py host := by
      refine ht.invariant (C := fun s p _ => s.Harmless py host p) hharmless
        (consistent_start h) ?_
      intro s p s' hs hharmless hstep
      obtain rfl := Option.some.inj hstep
      exact hs.step ((sound_iff hs).mpr hharmless)
    exact (sound_iff hs).mpr (hharmless s p s' ht)

end Run

end ConfigState

section Example

def isText : Yaml → Bool
  | .str _ => true
  | _ => false

/-- A value is taken if it is of the type of the field, and a whole number as a fraction. -/
def takeTyped : FieldType → Yaml → Option Yaml
  | .str, .str s => some (.str s)
  | .int, .int n => some (.int n)
  | .float, .int n => some (.float n)
  | .float, .float q => some (.float q)
  | .bool, .bool b => some (.bool b)
  | .literal allowed, .str s => if s ∈ allowed then some (.str s) else none
  | .literalInt allowed, .int n => if n ∈ allowed then some (.int n) else none
  | .optional _, .null => some .null
  | .optional t, v => takeTyped t v
  | .strs, .seq items => if items.all isText then some (.seq items) else none
  | _, _ => none

theorem takeTyped_map (t : FieldType) (entries : List (String × Yaml)) :
    takeTyped t (.map entries) = none := by
  induction t with
  | optional t ih => exact ih
  | _ => rfl

theorem takeTyped_takeTyped {t : FieldType} {v w : Yaml} (h : takeTyped t v = some w) :
    takeTyped t w = some w := by
  induction t with
  | optional t ih =>
    cases v with
    | null =>
      obtain rfl := Option.some.inj h
      rfl
    | _ =>
      have hw := ih h
      cases w <;> first | exact hw | rfl
  | literal allowed =>
    cases v with
    | str s =>
      simp only [takeTyped] at h
      split_ifs at h with hs
      obtain rfl := Option.some.inj h
      exact if_pos hs
    | _ => cases h
  | literalInt allowed =>
    cases v with
    | int n =>
      simp only [takeTyped] at h
      split_ifs at h with hn
      obtain rfl := Option.some.inj h
      exact if_pos hn
    | _ => cases h
  | strs =>
    cases v with
    | seq items =>
      simp only [takeTyped] at h
      split_ifs at h with hall
      obtain rfl := Option.some.inj h
      exact if_pos hall
    | _ => cases h
  | str | int | float | bool =>
    cases v <;> first | (obtain rfl := Option.some.inj h; rfl) | cases h

def Pydantic.typed : Pydantic where
  coerce := takeTyped
  coerce_str _ := rfl
  coerce_int _ := rfl
  coerce_bool _ := rfl
  coerce_literal _ _ hs := if_pos hs
  coerce_map := takeTyped_map
  coerce_coerce _ _ _ := takeTyped_takeTyped

def plainHost : Host := ⟨"/etc/genwatch/config.yaml", [], fun _ => true, "var-genwatch"⟩

def mockDoc : Yaml := .map [("mock", .bool true)]

def emptyUpdate : ConfigUpdate := ⟨none, none, none, none, none, none, none⟩

/-- A request that names a Slack channel and a baud rate. -/
def channelPut : ConfigPut :=
  ⟨{ emptyUpdate with
      serial := some [("baud", .int 19200)]
      slack := some ⟨none, none, some "#alerts", none, none, none, none, none, none, none, none⟩ },
    false, false⟩

def slavePut : ConfigPut :=
  ⟨{ emptyUpdate with modbus := some [("slave", .int 500)] }, false, false⟩

/-- A request for a baud rate, whose audit row cannot be written. -/
def unauditedPut : ConfigPut :=
  ⟨{ emptyUpdate with serial := some [("baud", .int 19200)] }, false, true⟩

open ConfigState

theorem mockDoc_loads : ∃ loaded, load .typed plainHost (some mockDoc) = some loaded ∧
    loaded.configPath ≠ "" := by
  have hsome : (load .typed plainHost (some mockDoc)).any fun s => s.configPath ≠ "" := by
    decide +kernel
  obtain ⟨loaded, hload, hpath⟩ := (Option.any_eq_true _ _).mp hsome
  exact ⟨loaded, hload, of_decide_eq_true hpath⟩

/-- The channel and the baud rate are taken over. -/
theorem channel_update_sound : ∃ loaded, load .typed plainHost (some mockDoc) = some loaded ∧
    ∀ s p s', Takes (step .typed) ⟨some mockDoc, loaded⟩ [channelPut] s p s' →
      s.Sound .typed plainHost p := by
  obtain ⟨loaded, hload, -⟩ := mockDoc_loads
  refine ⟨loaded, hload, (updates_sound_iff hload [channelPut]).mpr ?_⟩
  rintro s p s' ⟨pre, post, he, hrun, -⟩
  cases pre with
  | nil =>
    obtain ⟨rfl, -⟩ := List.cons.inj he
    obtain rfl := Option.some.inj hrun
    constructor
    · intro _
      change ∀ e ∈ channelPut.body.freeForm, e.2.2.isEmpty = false → (e.2.1.validate .typed
        (freeDoc [("mock", .bool true)] plainHost.env e.1 e.2.2)).isSome
      decide +kernel
    · rintro _ ⟨⟩
  | cons q pre => simp at he

/-- A slave address of 500 is answered with success, and the file does not load any more. A
request whose audit row cannot be written fails, and the file has been replaced. -/
theorem slave_update_unsound : ∃ loaded, load .typed plainHost (some mockDoc) = some loaded ∧
    ¬(∀ s p s', Takes (step .typed) ⟨some mockDoc, loaded⟩ [slavePut] s p s' →
      s.Sound .typed plainHost p) ∧
    ¬(∀ s p s', Takes (step .typed) ⟨some mockDoc, loaded⟩ [unauditedPut] s p s' →
      s.Sound .typed plainHost p) := by
  obtain ⟨loaded, hload, hpath⟩ := mockDoc_loads
  refine ⟨loaded, hload, fun h => ?_, fun h => ?_⟩
  · have hanswer : updateConfig .typed ⟨some mockDoc, loaded⟩ slavePut = (.ok ⟨true, false⟩,
        ⟨some (.map [("mock", .bool true), ("modbus", .map [("slave", .int 500)])]), loaded⟩) := by
      rw [updateConfig, if_neg hpath]
      rfl
    obtain ⟨loaded', hload', -⟩ := (h _ _ _ (takes_head rfl)).answered _ _ hanswer
    have hnone : (load .typed plainHost (some (.map [("mock", .bool true),
        ("modbus", .map [("slave", .int 500)])]))).isNone := by decide +kernel
    rw [hload'] at hnone
    cases hnone
  · have hanswer : updateConfig .typed ⟨some mockDoc, loaded⟩ unauditedPut = (.error .database,
        ⟨some (.map [("mock", .bool true), ("serial", .map [("baud", .int 19200)])]),
          loaded⟩) := by
      rw [updateConfig, if_neg hpath]
      rfl
    have hsame := congrArg file ((h _ _ _ (takes_head rfl)).failed _ _ hanswer)
    cases hsame

end Example

end GenWatch

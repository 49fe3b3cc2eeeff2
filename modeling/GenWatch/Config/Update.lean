import Mathlib.Data.List.Nodup
import GenWatch.Config.Settings
import GenWatch.Prelude.Transition

/-! # Updating the configuration

An update merges the sections of a request key by key into the mapping on disk, replaces
the file, takes over what it says about Slack, and leaves an audit row. The Slack section
of a request has typed fields; the other sections are free dictionaries, and nothing asks
whether the file still loads with them. When the audit row cannot be written the request
fails with the file already replaced.
-/

namespace GenWatch

open Transition

/-- The Slack section of a request; a field that is missing is not touched. -/
structure SlackUpdate where
  enabled : Option Bool
  botToken : Option String
  channel : Option String
  siteLabel : Option String
  alertOnAlarm : Option Bool
  alertOnWarning : Option Bool
  alertOnAlarmCleared : Option Bool
  alertOnStateChange : Option Bool
  alertOnCommand : Option Bool
  alertOnCommsLost : Option Bool
  alertOnLoadSourceChange : Option Bool

def SlackUpdate.dump (u : SlackUpdate) : List (String × Yaml) :=
  [("enabled", u.enabled.map .bool), ("bot_token", u.botToken.map .str),
    ("channel", u.channel.map .str), ("site_label", u.siteLabel.map .str),
    ("alert_on_alarm", u.alertOnAlarm.map .bool), ("alert_on_warning", u.alertOnWarning.map .bool),
    ("alert_on_alarm_cleared", u.alertOnAlarmCleared.map .bool),
    ("alert_on_state_change", u.alertOnStateChange.map .bool),
    ("alert_on_command", u.alertOnCommand.map .bool),
    ("alert_on_comms_lost", u.alertOnCommsLost.map .bool),
    ("alert_on_load_source_change", u.alertOnLoadSourceChange.map .bool)].filterMap
    fun e => e.2.map fun v => (e.1, v)

structure ConfigUpdate where
  transport : Option String
  serial : Option (List (String × Yaml))
  modbusTcp : Option (List (String × Yaml))
  modbus : Option (List (String × Yaml))
  retention : Option (List (String × Yaml))
  slack : Option SlackUpdate
  wsPushMs : Option ℤ

inductive UpdateError where
  | http (status : ℕ) (detail : String)
  | python (e : PyError)
  /-- the file could not be written or replaced -/
  | io
  | validation
  /-- the audit row could not be written -/
  | database
  deriving DecidableEq

structure UpdateAnswer where
  restartRequired : Bool
  slackUpdated : Bool
  deriving DecidableEq

namespace Yaml

def setItem (doc : Yaml) (key : String) (v : Yaml) : Except PyError Yaml :=
  match doc with
  | .map d => .ok (.map (Dict.set d key v))
  | _ => .error .typeError

def setDefault (doc : Yaml) (key : String) : Except PyError (List (String × Yaml)) :=
  match doc with
  | .map d =>
    match d.lookup key with
    | none => .ok []
    | some (.map entries) => .ok entries
    | some _ => .error .attributeError
  | _ => .error .attributeError

/-- Merge a dictionary that is not empty into a section. -/
def updateSection (doc : Yaml) (key : String) (patch : List (String × Yaml)) :
    Except PyError Yaml :=
  if patch.isEmpty then .ok doc
  else do doc.setItem key (.map (Dict.update (← doc.setDefault key) patch))

end Yaml

instance : MonadLift (Except PyError) (Except UpdateError) := ⟨Except.mapError .python⟩

namespace ConfigUpdate

variable (body : ConfigUpdate)

def slackPatch : List (String × Yaml) := (body.slack.map SlackUpdate.dump).getD []

def setTransport (doc : Yaml) : Except UpdateError Yaml :=
  match body.transport with
  | none => .ok doc
  | some transport =>
    if transport = "serial" ∨ transport = "tcp" then doc.setItem "transport" (.str transport)
    else .error (.http 400 "transport must be 'serial' or 'tcp'")

def setPush (doc : Yaml) : Except PyError Yaml :=
  match body.wsPushMs with
  | none => .ok doc
  | some ms => doc.setItem "ws_push_ms" (.int ms)

/-- The mapping on disk with the request merged into it. -/
def applyTo (doc : Yaml) : Except UpdateError Yaml := do
  let doc ← body.setTransport doc
  let doc ← doc.updateSection "serial" (body.serial.getD [])
  let doc ← doc.updateSection "modbus_tcp" (body.modbusTcp.getD [])
  let doc ← doc.updateSection "modbus" (body.modbus.getD [])
  let doc ← doc.updateSection "retention" (body.retention.getD [])
  let doc ← body.setPush doc
  doc.updateSection "slack" body.slackPatch

/-- The sections of a request that are free dictionaries, with the models they are loaded as. -/
def freeForm : List (String × ModelDef × List (String × Yaml)) :=
  [("serial", serialConfig, body.serial.getD []),
    ("modbus_tcp", modbusTcpConfig, body.modbusTcp.getD []),
    ("modbus", modbusConfig, body.modbus.getD []),
    ("retention", retentionConfig, body.retention.getD [])]

def restartRequired : Bool :=
  body.transport.isSome || body.serial.isSome || body.modbusTcp.isSome || body.modbus.isSome ||
    body.retention.isSome || body.wsPushMs.isSome

end ConfigUpdate

/-- The file, if it is there, and the settings in memory. -/
structure ConfigState where
  file : Option Yaml
  settings : Settings

/-- A request, and whether writing the file and the audit row go wrong. -/
structure ConfigPut where
  body : ConfigUpdate
  writeFails : Bool
  auditFails : Bool

namespace ConfigState

variable (py : Pydantic) (s : ConfigState)

def onDisk : Yaml :=
  match s.file with
  | some doc => doc.orElse (.map [])
  | none => .map []

/-- Settings in memory with the Slack fields that were sent. -/
def reloadSlack (patch : List (String × Yaml)) : Option Settings :=
  if patch.isEmpty then some s.settings
  else
    (slackConfig.validate py (.map (Dict.update s.settings.slack patch))).map s.settings.withSlack

def updateConfig (p : ConfigPut) : Except UpdateError UpdateAnswer × ConfigState :=
  if s.settings.configPath = "" then
    (.error (.http 409 ("no config.yaml path configured — set GENWATCH_CONFIG_PATH or copy " ++
      "deploy/config.yaml.example")), s)
  else
    match p.body.applyTo s.onDisk with
    | .error e => (.error e, s)
    | .ok doc =>
      if p.writeFails then (.error .io, s)
      else
        -- from here on the file has been replaced
        match s.reloadSlack py p.body.slackPatch with
        | none => (.error .validation, { s with file := some doc })
        | some settings =>
          if p.auditFails then (.error .database, ⟨some doc, settings⟩)
          else
            (.ok ⟨p.body.restartRequired, !p.body.slackPatch.isEmpty⟩, ⟨some doc, settings⟩)

end ConfigState

section Merging

variable {d : List (String × Yaml)} {doc doc' : Yaml} {key : String}
  {patch : List (String × Yaml)}

theorem lift_eq_ok {α : Type} {x : Except PyError α} {a : α} :
    (liftM x : Except UpdateError α) = .ok a ↔ x = .ok a := by
  cases x with
  | error e => exact ⟨by rintro ⟨⟩, by rintro ⟨⟩⟩
  | ok b => exact ⟨by rintro ⟨⟩; rfl, by rintro ⟨⟩; rfl⟩

def sectionOf (d : List (String × Yaml)) (key : String) : List (String × Yaml) :=
  match d.lookup key with
  | some (.map entries) => entries
  | _ => []

/-- The section is a mapping, or missing. -/
def OpenSection (d : List (String × Yaml)) (key : String) : Prop :=
  d.lookup key = none ∨ ∃ entries, d.lookup key = some (.map entries)

/-- What a request leaves of a section. -/
def patchedSection (d : List (String × Yaml)) (key : String) (patch : List (String × Yaml)) :
    Option Yaml :=
  if patch.isEmpty then d.lookup key else some (.map (Dict.update (sectionOf d key) patch))

structure Sets (d : List (String × Yaml)) (key : String) (v : Option Yaml) (doc : Yaml)
    (d' : List (String × Yaml)) : Prop where
  eq : doc = .map d'
  here : d'.lookup key = v
  others : ∀ k ≠ key, d'.lookup k = d.lookup k

theorem sets_set (v : Yaml) : Sets d key (some v) (.map (Dict.set d key v)) (Dict.set d key v) :=
  ⟨rfl, by rw [Dict.lookup_set, if_pos rfl], fun k hk => by rw [Dict.lookup_set, if_neg hk]⟩

theorem sets_nothing : Sets d key (d.lookup key) (.map d) d := ⟨rfl, rfl, fun _ _ => rfl⟩

theorem setTransport_eq_ok {body : ConfigUpdate} (h : body.setTransport (.map d) = .ok doc) :
    (∀ t ∈ body.transport, t ∈ ["serial", "tcp"]) ∧
      ∃ d', Sets d "transport" ((body.transport.map .str).or (d.lookup "transport")) doc d' := by
  unfold ConfigUpdate.setTransport at h
  cases hbody : body.transport with
  | none =>
    rw [hbody] at h
    obtain rfl := Except.ok.inj h
    exact ⟨by rintro _ ⟨⟩, d, sets_nothing⟩
  | some t =>
    simp only [hbody] at h
    split at h
    · rename_i hallowed
      obtain rfl := Except.ok.inj h
      exact ⟨by rintro _ ⟨⟩; simpa using hallowed, _, sets_set (.str t)⟩
    · cases h

theorem setPush_eq_ok {body : ConfigUpdate} (h : body.setPush (.map d) = .ok doc) :
    ∃ d', Sets d "ws_push_ms" ((body.wsPushMs.map .int).or (d.lookup "ws_push_ms")) doc d' := by
  unfold ConfigUpdate.setPush at h
  cases hbody : body.wsPushMs with
  | none =>
    rw [hbody] at h
    obtain rfl := Except.ok.inj h
    exact ⟨d, sets_nothing⟩
  | some ms =>
    rw [hbody] at h
    obtain rfl := Except.ok.inj h
    exact ⟨_, sets_set (.int ms)⟩

theorem updateSection_eq_ok (h : (Yaml.map d).updateSection key patch = .ok doc) :
    (patch.isEmpty = false → OpenSection d key) ∧
      ∃ d', Sets d key (patchedSection d key patch) doc d' := by
  unfold Yaml.updateSection at h
  unfold patchedSection
  split at h
  · rename_i hempty
    obtain rfl := Except.ok.inj h
    rw [if_pos hempty]
    exact ⟨by simp [hempty], d, sets_nothing⟩
  · rename_i hfull
    rw [if_neg hfull]
    obtain ⟨entries, hentries, h⟩ := bind_eq_ok.mp h
    obtain rfl := Except.ok.inj h
    obtain ⟨rfl, hopen⟩ : entries = sectionOf d key ∧ OpenSection d key := by
      simp only [Yaml.setDefault] at hentries
      unfold sectionOf OpenSection
      split at hentries
      · rename_i hnone
        rw [hnone]
        exact ⟨(Except.ok.inj hentries).symm, Or.inl rfl⟩
      · rename_i e hsome
        rw [hsome]
        exact ⟨(Except.ok.inj hentries).symm, Or.inr ⟨e, rfl⟩⟩
      · cases hentries
    exact ⟨fun _ => hopen, _, sets_set _⟩

theorem patchedSection_congr {d₁ : List (String × Yaml)} (h : d₁.lookup key = d.lookup key) :
    patchedSection d₁ key patch = patchedSection d key patch := by
  rw [patchedSection, patchedSection, sectionOf, sectionOf, h]

/-- What a request leaves under each key of a mapping. -/
structure Merges (body : ConfigUpdate) (d d' : List (String × Yaml)) : Prop where
  transport : d'.lookup "transport" = (body.transport.map .str).or (d.lookup "transport")
  allowed : ∀ t ∈ body.transport, t ∈ ["serial", "tcp"]
  push : d'.lookup "ws_push_ms" = (body.wsPushMs.map .int).or (d.lookup "ws_push_ms")
  free : ∀ e ∈ body.freeForm, d'.lookup e.1 = patchedSection d e.1 e.2.2
  slack : d'.lookup "slack" = patchedSection d "slack" body.slackPatch
  open_ : body.slackPatch.isEmpty = false → OpenSection d "slack"
  others : ∀ k ∈ ["data_dir", "mock", "cors_origins", "auth", "ats"], d'.lookup k = d.lookup k

theorem merges_of_applyTo {body : ConfigUpdate} (h : body.applyTo (.map d) = .ok doc) :
    ∃ d', doc = .map d' ∧ Merges body d d' := by
  obtain ⟨doc₁, h₁, h⟩ := bind_eq_ok.mp h
  obtain ⟨hallowed, d₁, rfl, ht, ho₁⟩ := setTransport_eq_ok h₁
  obtain ⟨doc₂, h₂, h⟩ := bind_eq_ok.mp h
  obtain ⟨-, d₂, rfl, hs₂, ho₂⟩ := updateSection_eq_ok (lift_eq_ok.mp h₂)
  obtain ⟨doc₃, h₃, h⟩ := bind_eq_ok.mp h
  obtain ⟨-, d₃, rfl, hs₃, ho₃⟩ := updateSection_eq_ok (lift_eq_ok.mp h₃)
  obtain ⟨doc₄, h₄, h⟩ := bind_eq_ok.mp h
  obtain ⟨-, d₄, rfl, hs₄, ho₄⟩ := updateSection_eq_ok (lift_eq_ok.mp h₄)
  obtain ⟨doc₅, h₅, h⟩ := bind_eq_ok.mp h
  obtain ⟨-, d₅, rfl, hs₅, ho₅⟩ := updateSection_eq_ok (lift_eq_ok.mp h₅)
  obtain ⟨doc₆, h₆, h⟩ := bind_eq_ok.mp h
  obtain ⟨d₆, rfl, hp, ho₆⟩ := setPush_eq_ok (lift_eq_ok.mp h₆)
  obtain ⟨hopen, d₇, rfl, hs₇, ho₇⟩ := updateSection_eq_ok (lift_eq_ok.mp h)
  have hslack : d₆.lookup "slack" = d.lookup "slack" := by
    simp (disch := decide) only [ho₁, ho₂, ho₃, ho₄, ho₅, ho₆]
  refine ⟨d₇, rfl, ?_, hallowed, ?_, ?_, ?_, ?_, ?_⟩
  · simp (disch := decide) only [ho₇, ho₆, ho₅, ho₄, ho₃, ho₂, ht]
  · simp (disch := decide) only [ho₇, hp, ho₅, ho₄, ho₃, ho₂, ho₁]
  · simp only [ConfigUpdate.freeForm, List.forall_mem_cons, List.not_mem_nil, false_implies,
      implies_true, and_true]
    refine ⟨?_, ?_, ?_, ?_⟩
    · simp (disch := decide) only [ho₇, ho₆, ho₅, ho₄, ho₃, hs₂]
      exact patchedSection_congr (by simp (disch := decide) only [ho₁])
    · simp (disch := decide) only [ho₇, ho₆, ho₅, ho₄, hs₃]
      exact patchedSection_congr (by simp (disch := decide) only [ho₂, ho₁])
    · simp (disch := decide) only [ho₇, ho₆, ho₅, hs₄]
      exact patchedSection_congr (by simp (disch := decide) only [ho₃, ho₂, ho₁])
    · simp (disch := decide) only [ho₇, ho₆, hs₅]
      exact patchedSection_congr (by simp (disch := decide) only [ho₄, ho₃, ho₂, ho₁])
  · rw [hs₇, patchedSection_congr hslack]
  · rwa [OpenSection, ← hslack]
  · intro k hk
    have hne : k ≠ "transport" ∧ k ≠ "serial" ∧ k ≠ "modbus_tcp" ∧ k ≠ "modbus" ∧
        k ≠ "retention" ∧ k ≠ "ws_push_ms" ∧ k ≠ "slack" := by
      revert k
      decide
    obtain ⟨h₁, h₂, h₃, h₄, h₅, h₆, h₇⟩ := hne
    rw [ho₇ k h₇, ho₆ k h₆, ho₅ k h₅, ho₄ k h₄, ho₃ k h₃, ho₂ k h₂, ho₁ k h₁]

variable {py : Pydantic} {env : List (String × Yaml)} {body : ConfigUpdate}
  {d' : List (String × Yaml)} {f : Field} {v : Yaml}

theorem overlay_of_value {b : Option Yaml} {o : Yaml}
    (h : (f.value py (Yaml.overlay b (some o))).isSome) : Yaml.overlay b (some o) = some o := by
  cases b with
  | none => rfl
  | some b =>
    cases b with
    | map base =>
      cases o with
      | map top =>
        have hnone : f.value py (Yaml.overlay (some (.map base)) (some (.map top))) = none :=
          py.coerce_map _ _
        rw [hnone] at h
        cases h
      | _ => rfl
    | _ => rfl

theorem value_overlay {b o : Option Yaml} (hv : py.coerce f.type v = some v)
    (h : (f.value py (Yaml.overlay b o)).isSome) :
    (f.value py (Yaml.overlay (some v) o)).isSome := by
  cases o with
  | none =>
    change (py.coerce f.type v).isSome
    rw [hv]
    rfl
  | some o =>
    have hnew : Yaml.overlay (some v) (some o) = some o := by
      cases v with
      | map entries =>
        rw [py.coerce_map] at hv
        cases hv
      | _ => rfl
    rw [hnew, ← overlay_of_value h]
    exact h

theorem openSection_env {entries : List (String × Yaml)} (h : modelDoc d env key = .map entries) :
    OpenSection env key := by
  unfold modelDoc layered at h
  unfold OpenSection
  cases ho : env.lookup key with
  | none => exact Or.inl rfl
  | some o =>
    rw [ho] at h
    cases o with
    | map top => exact Or.inr ⟨top, rfl⟩
    | _ => cases hb : d.lookup key with
      | none =>
        rw [hb] at h
        cases h
      | some b =>
        rw [hb] at h
        cases b <;> cases h

/-- The entries of a model's document, key by key. -/
theorem modelDoc_eq (hd : OpenSection d key) (henv : OpenSection env key) :
    ∃ entries, modelDoc d env key = .map entries ∧
      ∀ k, entries.lookup k =
        Yaml.overlay ((sectionOf d key).lookup k) ((sectionOf env key).lookup k) := by
  unfold modelDoc layered sectionOf
  rcases hd with hd | ⟨base, hd⟩ <;> rcases henv with ho | ⟨top, ho⟩ <;> rw [hd, ho]
  · exact ⟨[], rfl, fun _ => rfl⟩
  · exact ⟨top, rfl, fun k => by cases top.lookup k <;> simp [Yaml.overlay]⟩
  · exact ⟨base, rfl, fun k => by simp [Yaml.overlay]⟩
  · exact ⟨Yaml.deepMerge base top, rfl, fun k => Yaml.lookup_deepMerge⟩

theorem coerce_of_mem_slackPatch {e : String × Yaml} (he : e ∈ body.slackPatch)
    (hf : f ∈ slackConfig.fields) (hname : f.name = e.1) :
    py.coerce f.type e.2 = some e.2 := by
  have htyped : ∃ g ∈ slackConfig.fields, g.name = e.1 ∧ py.coerce g.type e.2 = some e.2 := by
    unfold ConfigUpdate.slackPatch at he
    cases hslack : body.slack with
    | none => simp [hslack] at he
    | some u =>
      simp only [hslack, Option.map_some, Option.getD_some, SlackUpdate.dump] at he
      obtain ⟨⟨name, sent⟩, hmem, hsent⟩ := List.mem_filterMap.mp he
      obtain ⟨w, rfl, rfl⟩ := Option.map_eq_some_iff.mp hsent
      simp only [List.mem_cons, Prod.mk.injEq, List.not_mem_nil, or_false] at hmem
      have text : ∀ {s : Option String}, some w = s.map Yaml.str → py.coerce .str w = some w := by
        intro s hs
        obtain ⟨_, -, rfl⟩ := Option.map_eq_some_iff.mp hs.symm
        exact py.coerce_str _
      have flag : ∀ {b : Option Bool}, some w = b.map Yaml.bool → py.coerce .bool w = some w := by
        intro b hb
        obtain ⟨_, -, rfl⟩ := Option.map_eq_some_iff.mp hb.symm
        exact py.coerce_bool _
      rcases hmem with ⟨rfl, h⟩ | ⟨rfl, h⟩ | ⟨rfl, h⟩ | ⟨rfl, h⟩ | ⟨rfl, h⟩ | ⟨rfl, h⟩ | ⟨rfl, h⟩ |
        ⟨rfl, h⟩ | ⟨rfl, h⟩ | ⟨rfl, h⟩ | ⟨rfl, h⟩
      all_goals first | simp [slackConfig, text h] | simp [slackConfig, flag h]
  obtain ⟨g, hg, hgname, hcoerce⟩ := htyped
  have hnodup : (slackConfig.fields.map Field.name).Nodup := by decide
  obtain rfl := List.inj_on_of_nodup_map hnodup hf hg (hname.trans hgname.symm)
  exact hcoerce

/-- The document that a section of the request is loaded from. -/
def freeDoc (d env : List (String × Yaml)) (key : String) (patch : List (String × Yaml)) : Yaml :=
  (Yaml.overlay (some (.map (Dict.update (sectionOf d key) patch))) (env.lookup key)).getD (.map [])

theorem modelDoc_of_patched (h : d'.lookup key = patchedSection d key patch) :
    modelDoc d' env key =
      if patch.isEmpty then modelDoc d env key else freeDoc d env key patch := by
  unfold modelDoc layered
  rw [h, patchedSection]
  split <;> rfl

theorem modelDoc_congr (h : d'.lookup key = d.lookup key) :
    modelDoc d' env key = modelDoc d env key := by
  rw [modelDoc, modelDoc, layered, layered, h]

theorem slack_valid (h : Merges body d d')
    (hv : (slackConfig.validate py (modelDoc d env "slack")).isSome) :
    (slackConfig.validate py (modelDoc d' env "slack")).isSome := by
  cases hempty : body.slackPatch.isEmpty with
  | true =>
    rw [modelDoc_of_patched h.slack, if_pos hempty]
    exact hv
  | false =>
    obtain ⟨values, hvalues⟩ := Option.isSome_iff_exists.mp hv
    obtain ⟨_, hmap⟩ := ModelDef.map_of_validate hvalues
    have henv := openSection_env hmap
    obtain ⟨entries, he, hlookup⟩ := modelDoc_eq (h.open_ hempty) henv
    have hnew : d'.lookup "slack" =
        some (.map (Dict.update (sectionOf d "slack") body.slackPatch)) := by
      rw [h.slack, patchedSection, hempty]
      rfl
    obtain ⟨entries', he', hlookup'⟩ := modelDoc_eq (Or.inr ⟨_, hnew⟩) henv
    have hsection : sectionOf d' "slack" = Dict.update (sectionOf d "slack") body.slackPatch := by
      rw [sectionOf, hnew]
    rw [he, ModelDef.validate_isSome fun _ => rfl] at hv
    rw [he', ModelDef.validate_isSome fun _ => rfl]
    intro f hf
    have hold := hv f hf
    rw [hlookup] at hold
    rw [hlookup', hsection]
    by_cases hsent : f.name ∈ body.slackPatch.map Prod.fst
    · obtain ⟨v, hmem, hset⟩ := Dict.lookup_update_of_mem hsent
      rw [hset]
      exact value_overlay (coerce_of_mem_slackPatch hmem hf rfl) hold
    · rwa [Dict.lookup_update_of_not_mem hsent]

theorem transport_valid (h : Merges body d d') (hf : f.type = .literal ["serial", "tcp"])
    (hname : f.name = "transport") (hv : (f.value py (layered d env f.name)).isSome) :
    (f.value py (layered d' env f.name)).isSome := by
  unfold layered at hv ⊢
  rw [hname] at hv ⊢
  rw [h.transport]
  cases ht : body.transport with
  | none => exact hv
  | some t =>
    refine value_overlay ?_ hv
    rw [hf]
    exact py.coerce_literal _ t (h.allowed t ht)

theorem push_valid (h : Merges body d d') (hf : f.type = .int) (hname : f.name = "ws_push_ms")
    (hv : (f.value py (layered d env f.name)).isSome) :
    (f.value py (layered d' env f.name)).isSome := by
  unfold layered at hv ⊢
  rw [hname] at hv ⊢
  rw [h.push]
  cases body.wsPushMs with
  | none => exact hv
  | some ms =>
    refine value_overlay ?_ hv
    rw [hf]
    exact py.coerce_int ms

theorem layered_congr (h : d'.lookup key = d.lookup key) :
    layered d' env key = layered d env key := by
  rw [layered, layered, h]

theorem valid_iff_of_merges (h : Merges body d d') (hv : Valid py d env) :
    Valid py d' env ↔ ∀ e ∈ body.freeForm, e.2.2.isEmpty = false →
      (e.2.1.validate py (freeDoc d env e.1 e.2.2)).isSome := by
  constructor
  · intro hv' e he hsent
    have hmodel : (e.1, e.2.1) ∈ settingsModels := by
      simp only [ConfigUpdate.freeForm, List.mem_cons, List.not_mem_nil, or_false] at he
      rcases he with rfl | rfl | rfl | rfl <;> simp [settingsModels]
    have hvalid := hv'.models _ hmodel
    rwa [modelDoc_of_patched (h.free e he), hsent] at hvalid
  · intro hfree
    have old := hv.values
    have models := hv.models
    have free : ∀ e ∈ body.freeForm, (e.2.1.validate py (modelDoc d env e.1)).isSome →
        (e.2.1.validate py (modelDoc d' env e.1)).isSome := by
      intro e he hold
      rw [modelDoc_of_patched (h.free e he)]
      split
      · exact hold
      · rename_i hsent
        exact hfree e he (Bool.eq_false_iff.mpr hsent)
    simp only [settingsFields, settingsModels, List.forall_mem_cons] at old models
    obtain ⟨hdir, hmock, htransport, hpush, hcors, -⟩ := old
    obtain ⟨hserial, htcp, hmodbus, hretention, hauth, hslack, hats, -⟩ := models
    constructor
    · simp only [settingsFields, List.forall_mem_cons]
      refine ⟨?_, ?_, transport_valid h rfl rfl htransport, push_valid h rfl rfl hpush, ?_,
        by simp⟩
      · rwa [layered_congr (h.others _ (by decide))]
      · rwa [layered_congr (h.others _ (by decide))]
      · rwa [layered_congr (h.others _ (by decide))]
    · simp only [ConfigUpdate.freeForm, List.forall_mem_cons] at free
      simp only [settingsModels, List.forall_mem_cons]
      obtain ⟨fserial, ftcp, fmodbus, fretention, -⟩ := free
      refine ⟨fserial hserial, ftcp htcp, fmodbus hmodbus, fretention hretention, ?_,
        slack_valid h hslack, ?_, by simp⟩
      · rwa [modelDoc_congr (h.others _ (by decide))]
      · rwa [modelDoc_congr (h.others _ (by decide))]

end Merging

end GenWatch

import GenWatch.Prelude.Dict

/-! # The deployment configuration

The settings are built from three layers: the environment, the configuration file and the
defaults. The file is a mapping whose sections belong to models of their own; what the
environment has of a section is laid over what the file has. Validation of one value is the
library's, so that a model here is the list of its fields with their types and defaults,
and the check that goes over the values of several of them.
-/

namespace GenWatch

inductive FieldType where
  | str
  | int
  | float
  | bool
  | literal (allowed : List String)
  | literalInt (allowed : List ℤ)
  | optional (t : FieldType)
  | strs

/-- How the validation library takes a value for a field: what it makes of it, if it takes it. -/
structure Pydantic where
  coerce : FieldType → Yaml → Option Yaml
  coerce_str : ∀ s, coerce .str (.str s) = some (.str s)
  coerce_int : ∀ n, coerce .int (.int n) = some (.int n)
  coerce_bool : ∀ b, coerce .bool (.bool b) = some (.bool b)
  coerce_literal : ∀ allowed, ∀ s ∈ allowed, coerce (.literal allowed) (.str s) = some (.str s)
  /-- no field takes a mapping -/
  coerce_map : ∀ t entries, coerce t (.map entries) = none
  /-- a value that was taken is taken again as it is -/
  coerce_coerce : ∀ t v w, coerce t v = some w → coerce t w = some w

structure Field where
  name : String
  type : FieldType
  default : Yaml

structure ModelDef where
  fields : List Field
  check : List (String × Yaml) → Bool

def serialConfig : ModelDef where
  fields := [⟨"device", .str, .str "/dev/ttyUSB0"⟩, ⟨"baud", .int, .int 9600⟩,
    ⟨"parity", .literal ["N", "E", "O"], .str "N"⟩, ⟨"stopbits", .literalInt [1, 2], .int 1⟩,
    ⟨"bytesize", .literalInt [7, 8], .int 8⟩, ⟨"timeout_s", .float, .float (3 / 2)⟩]
  check _ := true

def modbusTcpConfig : ModelDef where
  fields := [⟨"host", .str, .str "192.168.1.249"⟩, ⟨"port", .int, .int 10001⟩,
    ⟨"timeout_s", .float, .float (3 / 2)⟩, ⟨"connect_timeout_s", .float, .float 3⟩,
    ⟨"framer", .literal ["rtu", "socket"], .str "rtu"⟩]
  check _ := true

/-- The slave must be in 1..247. -/
def slaveRange (values : List (String × Yaml)) : Bool :=
  match values.lookup "slave" with
  | some (.int v) => 1 ≤ v ∧ v ≤ 247
  | _ => true

def modbusConfig : ModelDef where
  fields := [⟨"slave", .int, .int 100⟩, ⟨"read_fc", .literalInt [3, 4], .int 3⟩,
    ⟨"prime_poll_ms", .int, .int 1500⟩, ⟨"base_poll_ms", .int, .int 15000⟩,
    ⟨"retries", .int, .int 2⟩, ⟨"register_file", .str, .str "registers/h100.yaml"⟩]
  check := slaveRange

def retentionConfig : ModelDef where
  fields := [⟨"raw_days", .int, .int 7⟩, ⟨"rollup_1m_days", .int, .int 90⟩,
    ⟨"rollup_1h_days", .int, .int 730⟩, ⟨"events_days", .int, .int 30⟩,
    ⟨"audit_days", .int, .int 0⟩]
  check _ := true

/-- A cookie that crosses sites must not be declared insecure. -/
def samesiteRequiresSecure (values : List (String × Yaml)) : Bool :=
  match values.lookup "cookie_samesite", values.lookup "cookie_secure" with
  | some (.str "none"), some (.bool false) => false
  | _, _ => true

def authConfig : ModelDef where
  fields := [⟨"admin_password_hash", .str, .str ""⟩, ⟨"operator_name", .str, .str "operator"⟩,
    ⟨"jwt_secret", .str, .str ""⟩, ⟨"session_hours", .int, .int 12⟩,
    ⟨"cookie_secure", .optional .bool, .null⟩,
    ⟨"cookie_samesite", .literal ["strict", "lax", "none"], .str "strict"⟩]
  check := samesiteRequiresSecure

def slackConfig : ModelDef where
  fields := [⟨"enabled", .bool, .bool false⟩, ⟨"bot_token", .str, .str ""⟩,
    ⟨"channel", .str, .str ""⟩, ⟨"site_label", .str, .str ""⟩,
    ⟨"alert_on_alarm", .bool, .bool true⟩, ⟨"alert_on_warning", .bool, .bool true⟩,
    ⟨"alert_on_alarm_cleared", .bool, .bool true⟩, ⟨"alert_on_state_change", .bool, .bool false⟩,
    ⟨"alert_on_command", .bool, .bool true⟩, ⟨"alert_on_comms_lost", .bool, .bool true⟩,
    ⟨"alert_on_load_source_change", .bool, .bool true⟩]
  check _ := true

def atsConfig : ModelDef where
  fields := [⟨"enabled", .bool, .bool false⟩, ⟨"host", .str, .str "192.168.1.250"⟩,
    ⟨"port", .int, .int 5020⟩, ⟨"framer", .literal ["socket", "rtu"], .str "socket"⟩,
    ⟨"slave", .int, .int 1⟩, ⟨"timeout_s", .float, .float 1⟩,
    ⟨"connect_timeout_s", .float, .float 3⟩,
    ⟨"register_file", .str, .str "registers/ats_pi.yaml"⟩,
    ⟨"expected_unit_id", .optional .int, .null⟩]
  check _ := true

def dataDirField : Field := ⟨"data_dir", .str, .str "/var/lib/genwatch"⟩

/-- The fields of the settings that are no models. -/
def settingsFields : List Field :=
  [dataDirField, ⟨"mock", .bool, .bool false⟩,
    ⟨"transport", .literal ["serial", "tcp"], .str "tcp"⟩, ⟨"ws_push_ms", .int, .int 1500⟩,
    ⟨"cors_origins", .strs, .seq []⟩]

def settingsModels : List (String × ModelDef) :=
  [("serial", serialConfig), ("modbus_tcp", modbusTcpConfig), ("modbus", modbusConfig),
    ("retention", retentionConfig), ("auth", authConfig), ("slack", slackConfig),
    ("ats", atsConfig)]

/-- The settings: the path of the file they came from, the values of the plain fields, and those of
each model. -/
structure Settings where
  configPath : String
  values : List (String × Yaml)
  models : List (String × List (String × Yaml))

/-- Where the service runs: the path and the environment it is started with, the directories that
it can make, and the one it falls back to. -/
structure Host where
  path : String
  env : List (String × Yaml)
  makes : Yaml → Bool
  fallback : String

namespace Settings

def slack (s : Settings) : List (String × Yaml) := (s.models.lookup "slack").getD []

def withSlack (s : Settings) (slack : List (String × Yaml)) : Settings :=
  { s with models := Dict.set s.models "slack" slack }

end Settings

/-- A value that is given is validated, one that is missing has its default. -/
def Field.value (py : Pydantic) (f : Field) : Option Yaml → Option Yaml
  | some v => py.coerce f.type v
  | none => some f.default

def Field.read (py : Pydantic) (entries : List (String × Yaml)) (f : Field) :
    Option (String × Yaml) :=
  (f.value py (entries.lookup f.name)).map fun w => (f.name, w)

/-- The values of a model that a document is taken for; keys that are no fields are ignored. -/
def ModelDef.validate (py : Pydantic) (M : ModelDef) : Yaml → Option (List (String × Yaml))
  | .map entries => (M.fields.mapM (Field.read py entries)).filter M.check
  | _ => none

section Load

variable (py : Pydantic) (host : Host)

/-- What the file and the environment say together of a key. -/
def layered (doc env : List (String × Yaml)) (key : String) : Option Yaml :=
  Yaml.overlay (doc.lookup key) (env.lookup key)

/-- The keys of the file that are fields of the settings. -/
def yamlSource (doc : List (String × Yaml)) : List (String × Yaml) :=
  doc.filter fun e => e.1 ∈ settingsFields.map Field.name ++ settingsModels.map Prod.fst

def Settings.validate (configPath : String) (state : List (String × Yaml)) : Option Settings := do
  let values ← settingsFields.mapM (Field.read py state)
  let models ← settingsModels.mapM fun e =>
    (e.2.validate py ((state.lookup e.1).getD (.map []))).map fun values => (e.1, values)
  return ⟨configPath, values, models⟩

/-- The mapping in a configuration file; an empty file counts as an empty one. -/
def loadYaml (doc : Yaml) : Option (List (String × Yaml)) :=
  match doc.orElse (.map []) with
  | .map entries => some entries
  | _ => none

/-- The data directory is made, or one in its place. -/
def withDataDir (s : Settings) : Option Settings :=
  if (s.values.lookup "data_dir").any host.makes then some s
  else if host.makes (.str host.fallback) then
    some { s with values := Dict.set s.values "data_dir" (.str host.fallback) }
  else none

def load (file : Option Yaml) : Option Settings := do
  let doc ← match file with
    | some doc => loadYaml doc
    | none => some []
  let s ← Settings.validate py (if file.isSome then host.path else "")
    (Yaml.deepMerge (yamlSource doc) host.env)
  withDataDir host s

end Load

section Results

variable {py : Pydantic} {host : Host} {M : ModelDef} {entries values state : List (String × Yaml)}
  {f : Field} {key : String} {s : Settings}

theorem Field.name_of_read {e : String × Yaml} (h : f.read py entries = some e) : e.1 = f.name := by
  obtain ⟨w, -, rfl⟩ := Option.map_eq_some_iff.mp h
  rfl

theorem Field.read_isSome : (f.read py entries).isSome ↔
    (f.value py (entries.lookup f.name)).isSome := by
  rw [Field.read, Option.isSome_map]

theorem Field.snd_read :
    (f.read py entries).map Prod.snd = f.value py (entries.lookup f.name) := by
  rw [Field.read, Option.map_map]
  exact Option.map_id'

namespace ModelDef

def Distinct (M : ModelDef) : Prop := (M.fields.map Field.name).Nodup

theorem validate_isSome (hcheck : ∀ values, M.check values = true) :
    (M.validate py (.map entries)).isSome ↔
      ∀ f ∈ M.fields, (f.value py (entries.lookup f.name)).isSome := by
  have hfilter : (M.validate py (.map entries)) = M.fields.mapM (Field.read py entries) := by
    rw [validate]
    cases M.fields.mapM (Field.read py entries) with
    | none => rfl
    | some values => exact Option.filter_some_pos (hcheck values)
  rw [hfilter, Dict.mapM_isSome]
  exact forall₂_congr fun f _ => Field.read_isSome

/-- A validated model has the value of each field under its name, and nothing else. -/
theorem lookup_validate (hM : M.Distinct) (h : M.validate py (.map entries) = some values) :
    (∀ f ∈ M.fields, values.lookup f.name = f.value py (entries.lookup f.name)) ∧
      ∀ k ∉ M.fields.map Field.name, values.lookup k = none := by
  obtain ⟨hread, -⟩ := Option.filter_eq_some_iff.mp h
  constructor
  · intro f hf
    rw [Dict.lookup_mapM (fun _ _ => Field.name_of_read) hread hM hf, Field.snd_read]
  · intro k hk
    exact Dict.lookup_eq_none (by rwa [Dict.keys_mapM (fun _ _ => Field.name_of_read) hread])

theorem map_of_validate {doc : Yaml} (h : M.validate py doc = some values) :
    ∃ entries, doc = .map entries := by
  cases doc with
  | map entries => exact ⟨entries, rfl⟩
  | _ => cases h

end ModelDef

/-- The document of a model: what the file and the environment say of it, or an empty mapping. -/
def modelDoc (doc env : List (String × Yaml)) (key : String) : Yaml :=
  (layered doc env key).getD (.map [])

variable {doc : List (String × Yaml)}

theorem lookup_yamlSource
    (hkey : key ∈ settingsFields.map Field.name ++ settingsModels.map Prod.fst) :
    (yamlSource doc).lookup key = doc.lookup key := by
  unfold yamlSource
  induction doc with
  | nil => rfl
  | cons e doc ih =>
    rw [List.filter_cons, Dict.lookup_cons]
    split
    · rw [Dict.lookup_cons, ih]
    · rename_i hout
      have hne : key ≠ e.1 := by
        rintro rfl
        exact hout (decide_eq_true hkey)
      rw [ih, if_neg hne]

theorem lookup_state {env : List (String × Yaml)}
    (hkey : key ∈ settingsFields.map Field.name ++ settingsModels.map Prod.fst) :
    (Yaml.deepMerge (yamlSource doc) env).lookup key = layered doc env key := by
  rw [Yaml.lookup_deepMerge, lookup_yamlSource hkey, layered]

/-- Every part of the settings that a file and the environment give is valid. -/
structure Valid (py : Pydantic) (doc env : List (String × Yaml)) : Prop where
  values : ∀ f ∈ settingsFields, (f.value py (layered doc env f.name)).isSome
  models : ∀ e ∈ settingsModels, (e.2.validate py (modelDoc doc env e.1)).isSome

variable {env : List (String × Yaml)} {path : String}

theorem layered_of_field (hf : f ∈ settingsFields) :
    (Yaml.deepMerge (yamlSource doc) env).lookup f.name = layered doc env f.name :=
  lookup_state (List.mem_append_left _ (List.mem_map_of_mem hf))

theorem modelDoc_of_model {e : String × ModelDef} (he : e ∈ settingsModels) :
    ((Yaml.deepMerge (yamlSource doc) env).lookup e.1).getD (.map []) = modelDoc doc env e.1 := by
  rw [lookup_state (List.mem_append_right _ (List.mem_map_of_mem he)), modelDoc]

theorem Settings.validate_isSome :
    (Settings.validate py path (Yaml.deepMerge (yamlSource doc) env)).isSome ↔
      Valid py doc env := by
  have hparts : ∀ state, (Settings.validate py path state).isSome ↔
      (∀ f ∈ settingsFields, (f.value py (state.lookup f.name)).isSome) ∧
      ∀ e ∈ settingsModels, (e.2.validate py ((state.lookup e.1).getD (.map []))).isSome := by
    intro state
    unfold Settings.validate
    have hvalues : (settingsFields.mapM (Field.read py state)).isSome ↔ _ := Dict.mapM_isSome
    have hmodels : (settingsModels.mapM fun e : String × ModelDef =>
        (e.2.validate py ((state.lookup e.1).getD (.map []))).map
          fun values => (e.1, values)).isSome ↔ _ := Dict.mapM_isSome
    simp only [Field.read_isSome, Option.isSome_map] at hvalues hmodels
    rw [← hvalues, ← hmodels]
    cases settingsFields.mapM (Field.read py state) with
    | none => simp
    | some values =>
      cases settingsModels.mapM fun e => (e.2.validate py ((state.lookup e.1).getD (.map []))).map
        fun values => (e.1, values) <;> simp
  rw [hparts]
  constructor
  · rintro ⟨hvalues, hmodels⟩
    exact ⟨fun f hf => layered_of_field hf ▸ hvalues f hf,
      fun e he => modelDoc_of_model he ▸ hmodels e he⟩
  · rintro ⟨hvalues, hmodels⟩
    exact ⟨fun f hf => (layered_of_field hf).symm ▸ hvalues f hf,
      fun e he => (modelDoc_of_model he).symm ▸ hmodels e he⟩

theorem Settings.reads_of_validate
    (h : Settings.validate py path (Yaml.deepMerge (yamlSource doc) env) = some s) :
    s.configPath = path ∧
    (∀ f ∈ settingsFields, s.values.lookup f.name = f.value py (layered doc env f.name)) ∧
    ∀ e ∈ settingsModels, s.models.lookup e.1 = e.2.validate py (modelDoc doc env e.1) := by
  obtain ⟨values, hvalues, h⟩ := Option.bind_eq_some_iff.mp h
  obtain ⟨models, hmodels, h⟩ := Option.bind_eq_some_iff.mp h
  obtain rfl := Option.some.inj h
  refine ⟨rfl, fun f hf => ?_, fun e he => ?_⟩
  · rw [Dict.lookup_mapM (fun _ _ => Field.name_of_read) hvalues (by decide) hf, Field.snd_read,
      layered_of_field hf]
  · have hname : ∀ (e : String × ModelDef) out,
        ((e.2.validate py (((Yaml.deepMerge (yamlSource doc) env).lookup e.1).getD
          (.map []))).map fun values => (e.1, values)) = some out → out.1 = e.1 := by
      intro e out hout
      obtain ⟨_, -, rfl⟩ := Option.map_eq_some_iff.mp hout
      rfl
    rw [Dict.lookup_mapM hname hmodels (by decide) he, Option.map_map, modelDoc_of_model he]
    exact Option.map_id'

/-- The data directory, or the one in its place, can be made. -/
def DirMade (py : Pydantic) (host : Host) (doc : List (String × Yaml)) : Prop :=
  (dataDirField.value py (layered doc host.env dataDirField.name)).any host.makes = true ∨
    host.makes (.str host.fallback) = true

theorem load_isSome {file : Yaml} (hdoc : loadYaml file = some doc) :
    (load py host (some file)).isSome ↔ Valid py doc host.env ∧ DirMade py host doc := by
  have hvalid : (Settings.validate py host.path _).isSome ↔ Valid py doc host.env :=
    Settings.validate_isSome
  rw [← hvalid, load]
  simp only [hdoc, Option.bind_eq_bind, Option.bind_some, Option.isSome_some, if_true]
  cases hs : Settings.validate py host.path (Yaml.deepMerge (yamlSource doc) host.env) with
  | none => simp
  | some s =>
    have hdir := (Settings.reads_of_validate hs).2.1 dataDirField List.mem_cons_self
    unfold DirMade
    rw [← hdir]
    have hname : dataDirField.name = "data_dir" := rfl
    simp only [Option.bind_some, withDataDir, Option.isSome_some, true_and, hname]
    split_ifs with hmade hfallback
    · simp [hmade]
    · simp [hfallback]
    · simp [hmade, hfallback]

theorem models_of_load {file : Yaml} (hdoc : loadYaml file = some doc)
    (h : load py host (some file) = some s) :
    s.configPath = host.path ∧
    ∀ e ∈ settingsModels, s.models.lookup e.1 = e.2.validate py (modelDoc doc host.env e.1) := by
  rw [load] at h
  simp only [hdoc, Option.bind_eq_bind, Option.bind_some, Option.isSome_some, if_true] at h
  obtain ⟨s', hs', h⟩ := Option.bind_eq_some_iff.mp h
  obtain ⟨hpath, -, hmodels⟩ := Settings.reads_of_validate hs'
  unfold withDataDir at h
  split_ifs at h <;> obtain rfl := Option.some.inj h <;> exact ⟨hpath, hmodels⟩

end Results

end GenWatch

import LabStreamGate.Library.Toml

/-!
# The data of the desktop controller

Tunnel instances and scopes (the origins that asked for control), how they are read from requests,
and the file `scopes.toml` in which the scopes are kept.
-/

namespace LabStreamGate.Desktop

structure InstanceData where
  label : String
  remote : String
  localAddr : String
  latency : Int
  scopeHost : String
  deriving DecidableEq, Repr

def InstanceData.ofFields (madeUp : String) : List (Option Json) → Option InstanceData
  | [label, remote, localAddr, latency, scopeHost] => do
    return {
      label := ← Json.optional Json.asStr madeUp label
      remote := ← Json.required Json.asStr remote
      localAddr := ← Json.required Json.asStr localAddr
      latency := ← Json.optional Json.asI32 0 latency
      scopeHost := ← Json.optional Json.asStr "" scopeHost }
  | _ => none

/-- The name made up for an instance, `inst-{:06x}` of a random number. -/
def defaultLabel (random : UInt32) : String :=
  let digits := Nat.toDigits 16 random.toNat
  "inst-" ++ String.ofList (List.replicate (6 - digits.length) '0' ++ digits)

/-- The instance a body asks for; a label that is missing is made up. -/
def InstanceData.ofJson (random : UInt32) (j : Json) : Option InstanceData :=
  (j.fields [["label"], ["remote", "to"], ["local", "from"], ["latency"], ["scope_host"]]).bind
    (ofFields (defaultLabel random))

/-- `CloseInstanceRequest`: the address of the instance to close. -/
def closeInstanceLocal (j : Json) : Option String :=
  (j.fields [["local", "key"]]).bind fun
    | [localAddr] => Json.required Json.asStr localAddr
    | _ => none

example : defaultLabel 0xabc = "inst-000abc" := by decide

/-! ## Feature flags -/

/-- The bits of the flags. -/
structure FeatureFlags where
  hasBasic : Bool
  hasPingFall : Bool
  deriving DecidableEq, Repr

namespace FeatureFlags

def empty : FeatureFlags := ⟨false, false⟩

def basic : FeatureFlags := ⟨true, false⟩

def pingFall : FeatureFlags := ⟨false, true⟩

def contains (flags other : FeatureFlags) : Bool :=
  (!other.hasBasic || flags.hasBasic) && (!other.hasPingFall || flags.hasPingFall)

def insert (flags other : FeatureFlags) : FeatureFlags :=
  ⟨flags.hasBasic || other.hasBasic, flags.hasPingFall || other.hasPingFall⟩

def featureMap : List (String × FeatureFlags) := [("basic", basic), ("pingfall", pingFall)]

/-- `as_feature_vec`: the names of the flags that are set. -/
def asFeatureVec (flags : FeatureFlags) : List String :=
  (featureMap.filter fun entry ↦ flags.contains entry.2).map Prod.fst

/-- The flags of a list of names; names that stand for none are passed over. -/
def ofNames (names : List String) : FeatureFlags :=
  names.foldl (fun flags name ↦ featureMap.foldl
    (fun flags entry ↦ if name = entry.1 then flags.insert entry.2 else flags) flags) empty

theorem ofNames_asFeatureVec (flags : FeatureFlags) : ofNames flags.asFeatureVec = flags := by
  obtain ⟨_ | _, _ | _⟩ := flags <;> decide

end FeatureFlags

/-! ## Scopes -/

/-- A map from names to JSON values. -/
structure Settings where
  entries : List (String × Json)
  canonical : (Json.obj entries).Canonical

def Settings.empty : Settings := ⟨[], rfl⟩

/-- The map that a document holds; the test never fails on one. -/
def Settings.ofJson : Json → Option Settings
  | .obj entries =>
    if h : (Json.obj (Json.canonFields entries)).Canonical then some ⟨_, h⟩ else none
  | _ => none

theorem Settings.ofJson_isSome {entries : List (String × Json)}
    (h : (Json.obj entries).check (fun _ ↦ true) = true) : (ofJson (.obj entries)).isSome := by
  have hcanon : (Json.obj (Json.canonFields entries)).Canonical := Json.canon_canonical h
  rw [ofJson, dif_pos hcanon]
  rfl

-- A map that is kept in order is read back as it is.
theorem Settings.ofJson_obj (settings : Settings) :
    ofJson (.obj settings.entries) = some settings := by
  obtain ⟨entries, hcanonical⟩ := settings
  have hcanon : Json.canonFields entries = entries :=
    Json.obj.inj (Json.canon_of_canonical hcanonical)
  simp only [ofJson, hcanon, dif_pos hcanonical]

def Settings.get (settings : Settings) (key : String) : Option Json :=
  (settings.entries.find? fun entry ↦ entry.1 == key).map Prod.snd

/-- What a scope says about the instances that do not answer. -/
structure PingFallSettings where
  status : List UInt16
  dropUnknown : Bool
  deriving DecidableEq, Repr

def PingFallSettings.default : PingFallSettings := ⟨[], false⟩

def PingFallSettings.ofFields : List (Option Json) → Option PingFallSettings
  | [status, dropUnknown] => do
    return {
      status := ← (← Json.required Json.asArr status).mapM Json.asU16
      dropUnknown := ← Json.required Json.asBool dropUnknown }
  | _ => none

def PingFallSettings.ofJson (j : Json) : Option PingFallSettings :=
  (j.fields [["status"], ["drop_unknown"]]).bind ofFields

/-- A website that asked for control, or has it. -/
structure ScopeData where
  host : String
  name : String
  state : String
  features : FeatureFlags
  settings : Settings

namespace ScopeData

def toJson (scope : ScopeData) : Json :=
  .obj [("features", .arr (scope.features.asFeatureVec.map .str)), ("host", .str scope.host),
    ("name", .str scope.name), ("settings", .obj scope.settings.entries),
    ("state", .str scope.state)]

def asFeatures (j : Json) : Option FeatureFlags := do
  return FeatureFlags.ofNames (← (← j.asArr).mapM Json.asStr)

def ofFields : List (Option Json) → Option ScopeData
  | [host, name, state, features, settings] => do
    return {
      host := ← Json.required Json.asStr host
      name := ← Json.required Json.asStr name
      state := ← Json.required Json.asStr state
      features := ← Json.required asFeatures features
      settings := ← Json.optional Settings.ofJson Settings.empty settings }
  | _ => none

def ofJson (j : Json) : Option ScopeData :=
  (j.fields [["host"], ["name"], ["state"], ["features"], ["settings"]]).bind ofFields

theorem mapM_asStr : ∀ names : List String, (names.map Json.str).mapM Json.asStr = some names
  | [] => rfl
  | name :: names => by
    rw [List.map_cons, List.mapM_cons, mapM_asStr names]
    rfl

-- `serde` writes every field, so none of the defaults is used in reading back.
theorem ofJson_toJson (scope : ScopeData) : ofJson scope.toJson = some scope := by
  have hfields : scope.toJson.fields [["host"], ["name"], ["state"], ["features"], ["settings"]] =
      some [some (.str scope.host), some (.str scope.name), some (.str scope.state),
        some (.arr (scope.features.asFeatureVec.map .str)),
        some (.obj scope.settings.entries)] := by
    simp [toJson, Json.fields]
  rw [ofJson, hfields, Option.bind_some]
  simp only [ofFields, Json.required, Json.optional, Json.asStr, asFeatures, Json.asArr,
    mapM_asStr, FeatureFlags.ofNames_asFeatureVec, Settings.ofJson_obj, Option.bind_some,
    Option.bind_eq_bind, Option.pure_def]

-- The fields are listed in the order of their names for this.
theorem toJson_canonical (scope : ScopeData) : scope.toJson.Canonical := by
  have hnames : ∀ names : List String,
      Json.checkItems ascending (names.map Json.str) = true := by
    intro names
    induction names with
    | nil => rfl
    | cons name names ih => exact ih
  have hkeys : ascending ["features", "host", "name", "settings", "state"] = true := by decide
  have hsettings : (ascending (scope.settings.entries.map Prod.fst) &&
      Json.checkFields ascending scope.settings.entries) = true := scope.settings.canonical
  simp only [Json.Canonical, toJson, Json.check, Json.checkFields, List.map_cons, List.map_nil,
    hkeys, hnames, hsettings, Bool.and_true]

end ScopeData

/-! ## The file of scopes -/

/-- `ScopesConfig` as it is written. -/
def scopesToJson (scopes : List ScopeData) : Json :=
  .obj [("scopes", .arr (scopes.map ScopeData.toJson))]

def scopesOfFields : List (Option Json) → Option (List ScopeData)
  | [scopes] => (Json.required Json.asArr scopes).bind fun items ↦ items.mapM ScopeData.ofJson
  | _ => none

/-- `ScopesConfig` as it is read. -/
def scopesOfJson (j : Json) : Option (List ScopeData) :=
  (j.fields [["scopes"]]).bind scopesOfFields

theorem mapM_ofJson : ∀ scopes : List ScopeData,
    (scopes.map ScopeData.toJson).mapM ScopeData.ofJson = some scopes
  | [] => rfl
  | scope :: scopes => by
    rw [List.map_cons, List.mapM_cons, mapM_ofJson scopes, ScopeData.ofJson_toJson]
    rfl

theorem scopesOfJson_scopesToJson (scopes : List ScopeData) :
    scopesOfJson (scopesToJson scopes) = some scopes := by
  have hfields : (scopesToJson scopes).fields [["scopes"]] =
      some [some (.arr (scopes.map ScopeData.toJson))] := by
    simp [scopesToJson, Json.fields]
  rw [scopesOfJson, hfields, Option.bind_some, scopesOfFields, Json.required, Option.bind_some,
    Json.asArr, Option.bind_some, mapM_ofJson]

theorem scopesToJson_canonical (scopes : List ScopeData) : (scopesToJson scopes).Canonical := by
  have hitems : Json.checkItems ascending (scopes.map ScopeData.toJson) = true := by
    induction scopes with
    | nil => rfl
    | cons scope scopes ih =>
      rw [List.map_cons, Json.checkItems, ih, Bool.and_true]
      exact scope.toJson_canonical
  simp [Json.Canonical, scopesToJson, Json.check, Json.checkFields, hitems, ascending]

/-- No setting holds a null or an integer that does not fit. -/
def serializable (fits : Int → Bool) (scopes : List ScopeData) : Bool :=
  scopes.all fun scope ↦ Toml.encodableFields fits scope.settings.entries

-- All other fields are strings or lists of strings, which can always be encoded.
theorem encodable_scopesToJson (fits : Int → Bool) (scopes : List ScopeData) :
    Toml.encodable fits (scopesToJson scopes) = serializable fits scopes := by
  have hnames : ∀ names : List String, Toml.encodableItems fits (names.map Json.str) = true := by
    intro names
    induction names with
    | nil => rfl
    | cons name names ih => exact ih
  have hscope : ∀ scope : ScopeData,
      Toml.encodable fits scope.toJson = Toml.encodableFields fits scope.settings.entries := by
    intro scope
    simp [ScopeData.toJson, Toml.encodable, Toml.encodableFields, hnames]
  have hitems : Toml.encodableItems fits (scopes.map ScopeData.toJson) =
      serializable fits scopes := by
    induction scopes with
    | nil => rfl
    | cons scope scopes ih =>
      rw [List.map_cons, Toml.encodableItems, ih, hscope]
      rfl
  simp [scopesToJson, Toml.encodable, Toml.encodableFields, hitems]

section

variable (toml : TomlText)

/-- What `write_scopes_to_disk` writes: an empty text where the scopes cannot be encoded. -/
def scopesText (scopes : List ScopeData) : Bytes :=
  match Toml.ofJson toml.fits (scopesToJson scopes) with
  | some config => toml.toString config
  | none => []

/-- `toml::from_str` of the scopes. -/
def parseScopes (data : Bytes) : Option (List ScopeData) :=
  (toml.fromStr data).bind fun config ↦ scopesOfJson config.toJson

/-- The scopes that a file stands for: none where it cannot be read or parsed. -/
def loadScopes (content : Option Bytes) : List ScopeData :=
  (content.bind (parseScopes toml)).getD []

theorem parseScopes_nil : parseScopes toml [] = none := by
  rw [parseScopes, toml.fromStr_nil]
  rfl

-- Through the TOML value: encoding and decoding, and the text of it.
theorem parseScopes_scopesText {scopes : List ScopeData}
    (h : serializable toml.fits scopes = true) :
    parseScopes toml (scopesText toml scopes) = some scopes := by
  rw [← encodable_scopesToJson, ← Toml.isSome_ofJson, Option.isSome_iff_exists] at h
  obtain ⟨config, hconfig⟩ := h
  obtain ⟨hcheck, hread⟩ := Toml.of_ofJson (scopesToJson_canonical scopes) hconfig
  obtain ⟨entries, rfl⟩ : ∃ entries, config = .table entries := by
    simp only [scopesToJson, Toml.ofJson, Option.map_eq_some_iff] at hconfig
    obtain ⟨entries, -, rfl⟩ := hconfig
    exact ⟨entries, rfl⟩
  rw [scopesText, hconfig, parseScopes, toml.fromStr_toString entries hcheck, Option.bind_some,
    hread, scopesOfJson_scopesToJson]

theorem scopesText_of_not_serializable {scopes : List ScopeData}
    (h : serializable toml.fits scopes = false) : scopesText toml scopes = [] := by
  rw [← encodable_scopesToJson, ← Toml.isSome_ofJson, Option.isSome_eq_false_iff,
    Option.isNone_iff_eq_none] at h
  rw [scopesText, h]

end

end LabStreamGate.Desktop

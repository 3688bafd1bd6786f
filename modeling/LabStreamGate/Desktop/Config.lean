import LabStreamGate.Library.FileSystem
import LabStreamGate.Library.Toml

/-!
# The settings of the desktop app

Theme, tray and language, as they are kept in `config.toml`, and the locale that a language stands
for.  The file may leave out any of them; a language that is left out is that of the system.
-/

namespace LabStreamGate.Desktop

/-! ## Locales -/

inductive Locale
  | enUS
  | zhCN
  | zhTW
  deriving DecidableEq, Repr

namespace Locale

def name : Locale → String
  | .enUS => "en_US"
  | .zhCN => "zh_CN"
  | .zhTW => "zh_TW"

/-- The name that the component library has for it. -/
def woocraft : Locale → String
  | .enUS => "en-us"
  | .zhCN => "zh-hans"
  | .zhTW => "zh-hant"

/-- `i18n::set_locale`, of any string. -/
def ofName (locale : String) : Locale :=
  if locale = "zh_CN" ∨ locale = "zh-hans" ∨ locale = "zh-CN" then .zhCN
  else if locale = "zh_TW" ∨ locale = "zh-hant" ∨ locale = "zh-TW" then .zhTW
  else .enUS

/-- `normalize_woocraft_locale`. -/
def ofWoocraft (locale : String) : Locale :=
  if locale = "zh-hans" then .zhCN else if locale = "zh-hant" then .zhTW else .enUS

end Locale

def normalizeRegion (region : List Char) : String :=
  if region = ['C', 'N'] then "CN"
  else if region = ['T', 'W'] then "TW"
  else if region = ['H', 'K'] then "TW"
  else if region = ['H', 'a', 'n', 's'] then "CN"
  else if region = ['H', 'a', 'n', 't'] then "TW"
  else "US"

/-- The language and the region of a system locale. -/
def normalizeLanguage (locale : String) : String :=
  let parts := locale.toList.splitOn '-'
  let lang := parts.head?.getD ['e', 'n']
  let region := parts[1]?.map normalizeRegion
  if lang = ['e', 'n'] then "en_" ++ region.getD "US"
  else if lang = ['z', 'h'] then "zh_" ++ region.getD "CN"
  else "en_US"

/-- `system` is the locale of the system, where it has one. -/
def defaultLanguage (system : Option String) : String := (system.map normalizeLanguage).getD "en_US"

example : Locale.ofName (normalizeLanguage "zh-Hant-HK") = .zhTW := by decide

/-! ## The file of settings -/

structure WsrxDesktopConfig where
  theme : String
  runningInTray : Bool
  language : String
  deriving DecidableEq, Repr

namespace WsrxDesktopConfig

variable (system : Option String)

def default : WsrxDesktopConfig where
  theme := "dark"
  runningInTray := false
  language := defaultLanguage system

def ofFields : List (Option Json) → Option WsrxDesktopConfig
  | [theme, runningInTray, language] => do
    return {
      theme := ← Json.optional Json.asStr (default system).theme theme
      runningInTray := ← Json.optional Json.asBool (default system).runningInTray runningInTray
      language := ← Json.optional Json.asStr (default system).language language }
  | _ => none

def ofJson (j : Json) : Option WsrxDesktopConfig :=
  (j.fields [["theme"], ["running_in_tray"], ["language"]]).bind (ofFields system)

def toJson (config : WsrxDesktopConfig) : Json :=
  .obj [("language", .str config.language), ("running_in_tray", .bool config.runningInTray),
    ("theme", .str config.theme)]

/-- `ThemeMode` at the start of a view; every theme but one is dark. -/
def isDark (config : WsrxDesktopConfig) : Bool := config.theme != "light"

-- Every field is written, so it does not matter what the system has.
theorem ofJson_toJson (config : WsrxDesktopConfig) : ofJson system config.toJson = some config := by
  have hfields : config.toJson.fields [["theme"], ["running_in_tray"], ["language"]] =
      some [some (.str config.theme), some (.bool config.runningInTray),
        some (.str config.language)] := by
    simp [toJson, Json.fields]
  rw [ofJson, hfields, Option.bind_some]
  simp only [ofFields, Json.optional, Json.asStr, Json.asBool, Option.bind_some,
    Option.bind_eq_bind, Option.pure_def]

theorem toJson_canonical (config : WsrxDesktopConfig) : config.toJson.Canonical := by
  have hkeys : ascending ["language", "running_in_tray", "theme"] = true := by decide
  simp only [Json.Canonical, toJson, Json.check, Json.checkFields, List.map_cons, List.map_nil,
    hkeys, Bool.and_true]

end WsrxDesktopConfig

section

variable (toml : TomlText)

/-- What `write_settings_to_disk` writes. -/
def configText (config : WsrxDesktopConfig) : Bytes :=
  match Toml.ofJson toml.fits config.toJson with
  | some document => toml.toString document
  | none => []

/-- The settings of `load_persisted_state`. -/
def loadConfig (system : Option String) (content : Option Bytes) : WsrxDesktopConfig :=
  (content.bind fun data ↦ (toml.fromStr data).bind fun document ↦
    WsrxDesktopConfig.ofJson system document.toJson).getD (.default system)

/-- Settings that were written are read back, whatever the system says by then. -/
theorem loadConfig_configText (system : Option String) (config : WsrxDesktopConfig) :
    loadConfig toml system (some (configText toml config)) = config := by
  obtain ⟨document, hdocument⟩ : ∃ document,
      Toml.ofJson toml.fits config.toJson = some document := ⟨_, rfl⟩
  obtain ⟨hcheck, hread⟩ := Toml.of_ofJson config.toJson_canonical hdocument
  obtain ⟨entries, rfl⟩ : ∃ entries, document = .table entries := by
    cases hdocument
    exact ⟨_, rfl⟩
  rw [configText, hdocument, loadConfig, Option.bind_some, toml.fromStr_toString entries hcheck,
    Option.bind_some, hread, WsrxDesktopConfig.ofJson_toJson, Option.getD_some]

end

end LabStreamGate.Desktop

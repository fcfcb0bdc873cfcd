import DocQuery.Settings.Decode
import DocQuery.Settings.Toml.Document
import DocQuery.Text.Part

/-!
# Loading settings

Settings are read from TOML text, or from a file, whose name tells the format: TOML with the extension `toml`, and JSON otherwise.
What is read is checked.
-/

namespace DocQuery.Settings

/-- The settings in a TOML text, before they are checked. -/
def readToml? (content : String) : Option Settings := (Toml.parse? content).bind (ofNode? Format.toml)

/-- The settings in a JSON text, before they are checked. -/
def readJson? (content : String) : Option Settings := (Raw.parse? content).bind fun raw => ofNode? Format.json (.ofRaw raw)

/-- Checks settings that were read; `error` says why they could not be. -/
def checked (error : SettingsError) (read : Option Settings) : Except SettingsError Settings := do
  match read with
  | some settings =>
    settings.validate
    .ok settings
  | none => .error error

/-- The settings in a TOML text. -/
def ofToml (content : String) : Except SettingsError Settings := checked .notToml (readToml? content)

/-- Whether a file name has the extension `toml`. A name that is nothing but the extension has none. -/
def isTomlFile (fileName : String) : Bool :=
  Text.endsIn ".toml" fileName && fileName != ".toml"

/-- The settings in a file. -/
def ofFile (fileName content : String) : Except SettingsError Settings :=
  if isTomlFile fileName then checked .notTomlFile (readToml? content) else checked .notJsonFile (readJson? content)

end DocQuery.Settings

import FluentTables.Dataset
import FluentTables.Settings

/-!
# Files

Settings and datasets are read from the texts of files, of which any may be missing.
-/

namespace FluentTables

/-- Why a file cannot be used. -/
inductive FileFault where
  | missing
  | malformed
  | settingsMissing
  | settingsInvalid
deriving DecidableEq

/-- The wording of a fault. -/
def FileFault.message : FileFault → String
  | missing => "IO error"
  | malformed => "Malformed input"
  | settingsMissing => "Configuration error: IO error"
  | settingsInvalid => "Configuration error: Invalid configuration"

/-- The settings of a file. -/
def Settings.ofFile : Option (List Char) → Except FileFault Settings
  | none => .error .settingsMissing
  | some s =>
    match Settings.ofToml? s with
    | some settings => .ok settings
    | none => .error .settingsInvalid

/-- The dataset of a file. -/
def Dataset.ofFile : Option (List Char) → Except FileFault Dataset
  | none => .error .missing
  | some s =>
    match Dataset.decode.read? s with
    | some data => .ok data
    | none => .error .malformed

end FluentTables

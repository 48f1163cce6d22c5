import Forecast.Storage.FileTree

/-!
# The settings file

Settings in a file below the root, in JSON on indented lines. Only settings without a flaw are
written and handed out. Without a file the standard settings hold.
-/

namespace Forecast.SettingsFile

/-- The name of the settings file. -/
def fileName : String := "config.json"

/-- The path of the settings file below a root. -/
def path (root : Path) : Path := root ++ [fileName]

/-- The location of the settings file below a folder given as a text. -/
def location (base : String) : String :=
  Path.join base fileName

/-- Makes the folder of the settings file. -/
def prepare (root : Path) : FileAction Unit :=
  FileAction.ensureFolder root

/-- Reads the settings. -/
def load (root : Path) : FileAction Settings := do
  if (← get).contains (path root) then
    let settings : Settings ← FileAction.ofOutcome (Outcome.ofJson (← FileAction.read (path root)))
    FileAction.ofOutcome settings.check
    return settings
  else return {}

/-- Writes the settings. -/
def save (root : Path) (settings : Settings) : FileAction Unit := do
  FileAction.ofOutcome settings.check
  FileAction.writeAtomic (path root) (Json.writeLines settings)

end Forecast.SettingsFile

import Forecast.Storage.SettingsFile
import Forecast.Storage.SnapshotStore

/-!
# Locations

Where the files of the program are: in the folder that the user's environment names, even if the name
is empty, and otherwise in a hidden folder of the user's home.
-/

namespace Forecast.Locations

/-- The folder below the user's home. -/
def folderName : String := ".cashflow_core"

/-- The folder of the program's files, given the user's home and the folder the environment names. -/
def dataFolder (home : String) (named : Option String) : String :=
  named.getD (Path.join home folderName)

/-- A folder that was given, or else the folder of the program's files. -/
def base (home : String) (named given : Option String) : String :=
  given.getD (dataFolder home named)

/-- The folder of the snapshots below a base. -/
def snapshotFolder (base : String) : String :=
  Path.join base SnapshotStore.folderName

end Forecast.Locations

import Forecast.Sorting
import Forecast.Source.Memory
import Forecast.Storage.FileTree

/-!
# Snapshot stores

Snapshots in files, one for each household, in a folder of their own below the root. A file is named
by the identifier of its household and holds the snapshot in JSON on indented lines.

A store serves the records of a snapshot as they are, whatever household they belong to; `loadSource`
hands a snapshot over to a source in memory, which does not.
-/

namespace Forecast

/-- A store of snapshots below a root. -/
structure SnapshotStore where
  root : Path
deriving DecidableEq

namespace SnapshotStore

/-- The folder of the snapshots. -/
def folderName : String := "households"

/-- The extension of a snapshot file. -/
def extension : String := "json"

/-- The name of the file of a household. -/
def fileName (household : Uuid) : String :=
  household.toText ++ "." ++ extension

/-- The path of the folder of the snapshots. -/
def folder (store : SnapshotStore) : Path :=
  store.root ++ [folderName]

/-- The path of the file of a household. -/
def pathOf (store : SnapshotStore) (household : Uuid) : Path :=
  store.folder ++ [fileName household]

/-- The folders of the store are made when it is opened. -/
def prepare (store : SnapshotStore) : FileAction Unit := do
  FileAction.ensureFolder store.root
  FileAction.ensureFolder store.folder

/-- Writes a snapshot to a file. -/
def saveTo (r : Route) (snapshot : Snapshot) : FileAction Unit :=
  FileAction.writeAtomic r (Json.writeLines snapshot)

/-- Reads a snapshot from a file. -/
def loadFrom (r : Route) : FileAction Snapshot := do
  FileAction.ofOutcome (Outcome.ofJson (← FileAction.read r))

/-- Writes a snapshot to the file of its household. -/
def save (store : SnapshotStore) (snapshot : Snapshot) : FileAction Unit :=
  saveTo (store.pathOf snapshot.household) snapshot

/-- Reads the snapshot of a household. A file with the records of another one is refused. -/
def load (store : SnapshotStore) (household : Uuid) : FileAction Snapshot := do
  let path := store.pathOf household
  if (← get).contains path then
    let snapshot ← loadFrom path
    if snapshot.household = household then return snapshot
    else throw (.storage (.foreign path.toText snapshot.household))
  else throw (.unknownHousehold household)

/-- Reads the snapshot of a household into a source in memory. -/
def loadSource (store : SnapshotStore) (household : Uuid) : FileAction Memory := do
  return ({} : Memory).insert (← store.load household)

/-- The household that a file name stands for. -/
def householdOf? (name : String) : Option Uuid :=
  match Path.splitName name with
  | (stem, some ext) => if ext = extension then Uuid.ofText? stem else none
  | _ => none

/-- The households that have something under a name of theirs, in order. -/
def list (store : SnapshotStore) : FileAction (List Uuid) := do
  let t ← get
  match t.node? store.folder with
  | none => return []
  | some (.file _) => FileAction.refuse
  | some .folder =>
    return stableSort (fun a b => a ≤ b) ((t.namesIn store.folder).filterMap householdOf?)

/-- The answer of an action that leaves the tree as it is. -/
def answer {α : Type} (t : FileTree) (action : FileAction α) : Outcome α :=
  (action.run.run t).1

/-- What the files of the store answer. -/
def records (store : SnapshotStore) (t : FileTree) : Records where
  accounts household := (answer t (store.load household)).map Snapshot.accounts
  entries household w filter :=
    (answer t (store.load household)).map fun s => s.entriesWithin w filter
  recurring household := (answer t (store.load household)).map Snapshot.recurring

/-- The source of the store. -/
def source (store : SnapshotStore) : Source FileTree :=
  .reading store.records

end SnapshotStore

end Forecast

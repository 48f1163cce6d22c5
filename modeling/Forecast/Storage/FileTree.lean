import Forecast.Problem
import Forecast.Storage.Route

/-!
# File trees

The files and folders of a file system, as a value. An action reads and changes the tree and can be
refused; a change made before a refusal stays.

## Writing a file

`writeAtomic` writes to a staging file beside the target and then moves it there, so that a reader
sees the old content or the new one. If the move is refused, because the target is a folder or can be
nothing else, the staging file stays behind.
-/

namespace Forecast

/-- What a file holds: a text, or bytes that are no text. -/
inductive Content
  | text (s : String)
  | undecodable
deriving DecidableEq

/-- What stands at a path. -/
inductive Node
  | folder
  | file (content : Content)
deriving DecidableEq

/-- The paths that have something at them. At the top is a folder. -/
structure FileTree where
  nodes : List (Path × Node)
deriving DecidableEq

/-- An action on a file tree. -/
abbrev FileAction := ExceptT Problem (StateM FileTree)

namespace FileTree

/-- The tree with nothing but its top. -/
def empty : FileTree := ⟨[([], .folder)]⟩

/-- What stands at a path. -/
def node? (t : FileTree) (p : Path) : Option Node :=
  (t.nodes.find? fun entry => entry.1 == p).map Prod.snd

/-- Something stands at the path. -/
def contains (t : FileTree) (p : Path) : Bool :=
  (t.node? p).isSome

/-- The tree with something else at a path. -/
def put (t : FileTree) (p : Path) (n : Node) : FileTree :=
  ⟨(p, n) :: t.nodes.filter fun entry => entry.1 != p⟩

/-- The tree without a path and all below it. -/
def erase (t : FileTree) (p : Path) : FileTree :=
  ⟨t.nodes.filter fun entry => !p.isPrefixOf entry.1⟩

/-- The names directly below a path. -/
def namesIn (t : FileTree) (p : Path) : List String :=
  t.nodes.filterMap fun entry =>
    if entry.1.dropLast == p && entry.1 != [] then entry.1.getLast? else none

/-- Follows the steps of a route from a path on. Each step starts in a folder; nothing needs to stand
where the last one leads. -/
def follow (t : FileTree) (p : Path) : List String → Option Path
  | [] => some p
  | name :: names =>
    match t.node? p, Route.stepFrom? p name with
    | some .folder, some q => t.follow q names
    | _, _ => none

/-- The path that a route leads to. -/
def place? (t : FileTree) (r : Route) : Option Path :=
  if r.isUsable then t.follow [] r.steps else none

/-- The path of the file that a route leads to, or may lead to once there is one: no folder is
there. -/
def filePlace? (t : FileTree) (r : Route) : Option Path :=
  if r.toFolder then none
  else (t.place? r).filter fun p => t.node? p != some .folder

/-- The route leads to something. With a slash at its end it leads to a folder only. -/
def reaches (t : FileTree) (r : Route) : Bool :=
  match (t.place? r).bind t.node? with
  | some .folder => true
  | some (.file _) => !r.toFolder
  | none => false

theorem node?_put_self (t : FileTree) (p : Path) (n : Node) : (t.put p n).node? p = some n := by
  simp [node?, put]

theorem node?_put_of_ne (t : FileTree) {p q : Path} (n : Node) (h : q ≠ p) :
    (t.put p n).node? q = t.node? q := by
  have h' : (p == q) = false := by simpa using Ne.symm h
  have hf : List.find? (fun entry : Path × Node => entry.1 == q)
      (t.nodes.filter fun entry => entry.1 != p)
      = t.nodes.find? fun entry => entry.1 == q := by
    rw [List.find?_filter]
    congr 1
    funext entry
    by_cases he : entry.1 = q
    · simp [he, h]
    · simp [he]
  simp only [node?, put, List.find?_cons, h', hf]

/-- A way straight down leads to its own path if folders lie on it. -/
theorem follow_of_isName (t : FileTree) (p : Path) {names : List String}
    (hn : ∀ name ∈ names, Route.isName name = true)
    (hf : ∀ k < names.length, t.node? (p ++ names.take k) = some .folder) :
    t.follow p names = some (p ++ names) := by
  induction names generalizing p with
  | nil => simp [follow]
  | cons name names ih =>
    have h0 : t.node? p = some .folder := by simpa using hf 0 (by simp)
    have hrec := ih (p ++ [name]) (fun n hmem => hn n (List.mem_cons_of_mem _ hmem)) fun k hk => by
      simpa using hf (k + 1) (by simpa using hk)
    simp [follow, h0, Route.stepFrom?_of_isName p (hn name (List.mem_cons_self ..)), hrec]

theorem place?_ofPath (t : FileTree) {p : Path} (hn : ∀ name ∈ p, Route.isName name = true)
    (hf : ∀ k < p.length, t.node? (p.take k) = some .folder) : t.place? (.ofPath p) = some p := by
  rw [place?, if_pos (Route.isUsable_ofPath hn)]
  exact t.follow_of_isName [] hn hf

end FileTree

namespace FileAction

/-- Refuses. -/
def refuse {α : Type} : FileAction α :=
  throw (.storage .files)

/-- An outcome that the tree has no part in. -/
def ofOutcome {α : Type} (r : Outcome α) : FileAction α :=
  ExceptT.mk (pure r)

/-- The text of a file. -/
def read (r : Route) : FileAction String := do
  let t ← get
  match (t.filePlace? r).bind t.node? with
  | some (.file (.text s)) => return s
  | _ => refuse

/-- Follows the steps of a route from a folder on and makes the folders that are missing. -/
def makeBelow (p : Path) : List String → FileAction Unit
  | [] => pure ()
  | name :: names => do
    match Route.stepFrom? p name with
    | none => refuse
    | some q =>
      match (← get).node? q with
      | some (.file _) => refuse
      | some .folder => makeBelow q names
      | none =>
        modify fun t => t.put q .folder
        makeBelow q names

/-- Makes a folder, unless it is there, and all folders on the way to it. -/
def makeFolders (r : Route) : FileAction Unit :=
  if r.isUsable then makeBelow [] r.steps else refuse

/-- Makes a folder where the route leads to nothing yet. A file that is there is left as it is. -/
def ensureFolder (r : Route) : FileAction Unit := do
  if (← get).reaches r then return ()
  makeFolders r

/-- Writes a file into a folder that is there. -/
def write (r : Route) (content : Content) : FileAction Unit := do
  let t ← get
  match t.filePlace? r with
  | some p => set (t.put p (.file content))
  | none => refuse

/-- Moves a file, over another one if there is one. -/
def move (source target : Route) : FileAction Unit := do
  let t ← get
  match t.filePlace? source, t.filePlace? target with
  | some p, some q =>
    match t.node? p with
    | some (.file content) => set ((t.erase p).put q (.file content))
    | _ => refuse
  | _, _ => refuse

/-- Writes a text through a staging file. -/
def writeAtomic (r : Route) (text : String) : FileAction Unit := do
  ensureFolder r.parent
  write r.staging (.text text)
  move r.staging r

/-- Writes a file and makes the folders above it. -/
def writeFile (r : Route) (content : Content) : FileAction Unit := do
  makeFolders r.parent
  write r content

end FileAction

end Forecast

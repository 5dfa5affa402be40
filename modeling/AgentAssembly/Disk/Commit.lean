import AgentAssembly.Disk.Tree
import AgentAssembly.Package

/-!
Moving a package into place. Every change is noted in a journal before the next one is tried, so
that a failure at any call can be undone. New files come from a depot, and those that are replaced
or removed are parked there. A package owns its top-level files and the modules in its
directories: what it owns and no longer has is removed.

Any call may fail. Calls are counted, and `fails` says which of them do; a failing call changes
nothing.
-/

namespace AgentAssembly

inductive Obstacle
  | file
  | directory
  | system
deriving DecidableEq, Repr

def Obstacle.reason? : Obstacle → Option String
  | .file => some "a file is in the way"
  | .directory => some "a directory is in the way"
  | .system => none

structure WriteFault where
  path : String
  obstacle : Obstacle
deriving DecidableEq, Repr

/-- A change that can be undone. What it took out of the tree is parked under a relative path. -/
inductive Change
  | created (directory : Place)
  | placed (file : Place)
  | replaced (file : Place) (backup : String)
  | removed (file : Place) (backup : String)
deriving DecidableEq, Repr

/-- The tree that a commit works on, and where it keeps the files that are not in their places. -/
structure Site (κ : Type) where
  tree : Tree
  kept : κ
deriving DecidableEq

/-- Keeps files under their relative paths, new ones until they are delivered, and parked ones until
they are restored. There is no move without a file to move. -/
class Depot (κ : Type) where
  deliver : Site κ → String → Place → Option (Site κ)
  park : Site κ → Place → String → Option (Site κ)
  restore : Site κ → String → Place → Option (Site κ)

variable {κ α : Type}

namespace Site

/-- Takes a change back. What cannot be restored is passed over. -/
def undo [Depot κ] (s : Site κ) : Change → Site κ
  | .created directory => { s with tree := s.tree.removeEmpty directory }
  | .placed file => { s with tree := s.tree.removeFile file }
  | .replaced file backup =>
    let s := { s with tree := s.tree.removeFile file }
    (Depot.restore s backup file).getD s
  | .removed file backup => (Depot.restore s backup file).getD s

def rollback [Depot κ] (s : Site κ) (journal : List Change) : Site κ := journal.foldl undo s

end Site

/-- How far a commit has come: the site, the changes made with the latest first, and the number
of calls. -/
structure Progress (κ : Type) extends Site κ where
  journal : List Change := []
  calls : Nat := 0
deriving DecidableEq

abbrev Commit (κ α : Type) := ExceptT WriteFault (StateM (Progress κ)) α

namespace Commit

def call (fails : Nat → Bool) (path : String) : Commit κ Unit := do
  let p ← get
  set { p with calls := p.calls + 1 }
  if fails p.calls then throw ⟨path, .system⟩

def note (change : Change) (s : Site κ) : Commit κ Unit :=
  modify fun p => { p with toSite := s, journal := change :: p.journal }

def refuse (path : String) (obstacle : Obstacle) : Commit κ α := throw ⟨path, obstacle⟩

def locate (path : String) : Commit κ Place := do
  match (← get).tree.locate path with
  | .ok place => return place
  | .error _ => refuse path .system

/-- Makes the first of the paths, which lead upwards, unless it is a directory already. -/
def ensureDirectory (fails : Nat → Bool) : List String → Commit κ Unit
  | [] => pure ()
  | path :: above => do
    call fails path
    match (← get).tree.lookUp path with
    | .ok .directory => pure ()
    | .ok (.file _) => refuse path .file
    | .error .notFound =>
      ensureDirectory fails above
      call fails path
      let p ← get
      match p.tree.createDirectory path with
      | .ok (place, t) => note (.created place) { p.toSite with tree := t }
      | .error _ => refuse path .system
    | .error _ => refuse path .system

def prepare (fails : Nat → Bool) (output relative : String) : Commit κ Unit := do
  let destination := Path.join output relative
  match Path.parent? destination with
  | none => pure ()
  | some directory => ensureDirectory fails (Path.withAncestors directory)
  if (← get).tree.isDirectory destination then refuse destination .directory

/-- Parks what stands at a path below the output directory and notes the change. -/
def park [Depot κ] (fails : Nat → Bool) (output relative : String)
    (change : Place → String → Change) : Commit κ Unit := do
  let path := Path.join output relative
  call fails path
  call fails path
  let place ← locate path
  match Depot.park (← get).toSite place relative with
  | some s => note (change place relative) s
  | none => refuse path .system

def remove [Depot κ] (fails : Nat → Bool) (output relative : String) : Commit κ Unit :=
  park fails output relative .removed

/-- Moves a new file to its place. -/
def deliver [Depot κ] (fails : Nat → Bool) (output relative : String) : Commit κ Place := do
  let path := Path.join output relative
  call fails path
  let place ← locate path
  match Depot.deliver (← get).toSite relative place with
  | some s =>
    modify fun p => { p with toSite := s }
    return place
  | none => refuse path .system

def place [Depot κ] (fails : Nat → Bool) (output relative : String) : Commit κ Unit := do
  if (← get).tree.isPresent (Path.join output relative) then
    park fails output relative .replaced
    let _ ← deliver fails output relative
  else
    let place ← deliver fails output relative
    note (.placed place) (← get).toSite

def staleModules (fails : Nat → Bool) (output : String) (files : FileSet) :
    List String → Commit κ (List String)
  | [] => pure []
  | directory :: rest => do
    let path := Path.join output directory
    let t := (← get).tree
    if t.isDirectory path then
      call fails path
      let place ← locate path
      let names := (t.children place).filter fun name =>
        t.isFile (Path.join path name) && Path.hasExtension "py" name
      let stale := (names.map (directory ++ "/" ++ ·)).filter (!files.contains ·)
      return stale ++ (← staleModules fails output files rest)
    else staleModules fails output files rest

def staleFiles (fails : Nat → Bool) (output : String) (files : FileSet) :
    Commit κ (List String) := do
  let t := (← get).tree
  let top := Package.topFiles.filter fun name =>
    !files.contains name && t.isFile (Path.join output name)
  let modules ← staleModules fails output files Package.directories
  return (Dict.ofList ((top ++ modules).map (·, ()))).keys

/-- Makes room for every file, then removes what is stale and puts the files into place. Gives
the files removed. -/
def apply [Depot κ] (fails : Nat → Bool) (output : String) (files : FileSet) :
    Commit κ (List String) := do
  files.keys.forM (prepare fails output)
  let stale ← staleFiles fails output files
  stale.forM (remove fails output)
  files.keys.forM (place fails output)
  return stale

def runOn [Depot κ] (s : Site κ) (commit : Commit κ α) : Except WriteFault α × Site κ :=
  match commit.run.run { toSite := s } with
  | (.ok a, p) => (.ok a, p.toSite)
  | (.error fault, p) => (.error fault, p.toSite.rollback p.journal)

end Commit
end AgentAssembly

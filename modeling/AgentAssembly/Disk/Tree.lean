import AgentAssembly.Data.Dict
import AgentAssembly.Disk.Path

/-!
Directory trees. A place in a tree is the list of names that lead to it from the root; files and
directories are entries at places. Paths are followed name by name, and each failing operation
leaves the tree as it was.
-/

namespace AgentAssembly

/-- The names that lead to a place, the uppermost first. -/
abbrev Place := List String

inductive Entry
  | file (content : String)
  | directory
deriving DecidableEq, Repr

structure Tree where
  entries : Dict Place Entry := ∅
deriving DecidableEq

inductive DiskFault
  | notFound
  | notDirectory
  | alreadyExists
  | isDirectory
  | nameTooLong
  | invalidName
deriving DecidableEq, Repr

namespace Tree

def nameLimit : Nat := 255

def pathLimit : Nat := 4095

def fitsLimit (name : String) : Bool := name.utf8ByteSize ≤ nameLimit

def entry? (t : Tree) (place : Place) : Option Entry :=
  if place = [] then some .directory else t.entries.get? place

def insert (t : Tree) (place : Place) (e : Entry) : Tree := ⟨t.entries.insert place e⟩

def erase (t : Tree) (place : Place) : Tree := ⟨t.entries.erase place⟩

def children (t : Tree) (place : Place) : List String :=
  t.entries.keys.filterMap fun p => if p.dropLast = place then p.getLast? else none

/-- Follows names from a place. Each name but the last must lead to a directory. -/
def follow (t : Tree) : Place → List String → Except DiskFault Place
  | place, [] => .ok place
  | place, name :: rest =>
    match t.entry? place with
    | none => .error .notFound
    | some (.file _) => .error .notDirectory
    | some .directory =>
      if name = ".." then follow t place.dropLast rest
      else if fitsLimit name then follow t (place ++ [name]) rest
      else .error .nameTooLong

def locate (t : Tree) (path : String) : Except DiskFault Place :=
  if path.toList.contains '\x00' then .error .invalidName
  else if path = "" then .error .notFound
  else if pathLimit < path.utf8ByteSize then .error .nameTooLong
  else t.follow [] (Path.names path)

/-- What stands at the end of a path. Only a directory has a silent segment behind it. -/
def lookUp (t : Tree) (path : String) : Except DiskFault Entry :=
  match t.locate path with
  | .error fault => .error fault
  | .ok place =>
    match t.entry? place with
    | none => .error .notFound
    | some (.file content) =>
      if Path.endsSilently path then .error .notDirectory else .ok (.file content)
    | some .directory => .ok .directory

def isDirectory (t : Tree) (path : String) : Bool :=
  match t.lookUp path with
  | .ok .directory => true
  | _ => false

def isFile (t : Tree) (path : String) : Bool :=
  match t.lookUp path with
  | .ok (.file _) => true
  | _ => false

def isPresent (t : Tree) (path : String) : Bool :=
  match t.lookUp path with
  | .ok _ => true
  | .error _ => false

def createDirectory (t : Tree) (path : String) : Except DiskFault (Place × Tree) :=
  match t.locate path with
  | .error fault => .error fault
  | .ok place =>
    match t.entry? place with
    | some _ => .error .alreadyExists
    | none => .ok (place, t.insert place .directory)

/-- Makes a directory and those above it that are missing; what was made before a failure stays.
The paths lead upwards. -/
def createUpwards (t : Tree) : List String → Except DiskFault Unit × Tree
  | [] => (.ok (), t)
  | path :: above =>
    match t.createDirectory path with
    | .ok (_, t) => (.ok (), t)
    | .error .notFound =>
      match t.createUpwards above with
      | (.error fault, t) => (.error fault, t)
      | (.ok (), t) =>
        match t.createDirectory path with
        | .ok (_, t) => (.ok (), t)
        | .error fault => (if t.isDirectory path then .ok () else .error fault, t)
    | .error fault => (if t.isDirectory path then .ok () else .error fault, t)

def createDirectories (t : Tree) (path : String) : Except DiskFault Unit × Tree :=
  t.createUpwards (Path.withAncestors path)

def write (t : Tree) (path content : String) : Except DiskFault Tree :=
  match t.locate path with
  | .error fault => .error fault
  | .ok place =>
    if t.entry? place = some .directory then .error .isDirectory
    else .ok (t.insert place (.file content))

/-- Makes the directories that are missing on the way down from a place. -/
def openBelow (t : Tree) (place : Place) : List String → Tree
  | [] => t
  | name :: rest =>
    let place := place ++ [name]
    let t := if (t.entry? place).isSome then t else t.insert place .directory
    t.openBelow place rest

def move (t : Tree) (source target : Place) : Option Tree :=
  (t.entry? source).map fun e => (t.erase source).insert target e

def prune (t : Tree) (place : Place) : Tree :=
  ⟨t.entries.filter fun p _ => !place.isPrefixOf p⟩

def removeFile (t : Tree) (place : Place) : Tree :=
  match t.entry? place with
  | some (.file _) => t.erase place
  | _ => t

def removeEmpty (t : Tree) (place : Place) : Tree :=
  if t.entry? place = some .directory ∧ t.children place = [] then t.erase place else t

end Tree
end AgentAssembly

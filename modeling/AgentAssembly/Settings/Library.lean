import AgentAssembly.Data.Json

/-!
The library that lays sources of settings over one another: a source gives values for keys, and a
value that is set later lies over those set before. How it does so is up to the library.
-/

namespace AgentAssembly

/-- One step of a path: to a member of a table, or to an item of a list. A negative number
counts from the end. -/
inductive Step
  | member (key : String)
  | item (position : Int)
deriving DecidableEq, Repr

abbrev KeyPath := List Step

structure VariableOptions where
  start : String
  startSeparator : String
  /-- Stands between the words of a key. -/
  separator : String
  /-- Texts that look like truth values or numbers are taken for them. -/
  parsing : Bool

structure Library where
  /-- The entries of the file of a path, in whatever format it is: none if there is no file, and
  no answer for a file that cannot be read. -/
  fileEntries? : (String → Option String) → String → Option (List (String × Json))
  variableKey? : VariableOptions → String → Option String
  variableValue : VariableOptions → String → Json
  path? : String → Option KeyPath
  /-- The layers after a value is set over them. -/
  set : KeyPath → Json → Json → Json
  word? : Json → Option UInt64
  text? : Json → Option String
  /-- The one of the names that a value holds. -/
  name? : List String → Json → Option String

namespace Library

variable (lib : Library)

/-- A key that is no path is one name. -/
def keyPath (key : String) : KeyPath := (lib.path? key).getD [.member key]

def setDefault? (below : Json) (entry : String × Json) : Option Json :=
  (lib.path? entry.1).map fun path => lib.set path entry.2 below

def addSource (entries : List (String × Json)) (below : Json) : Json :=
  entries.foldl (fun j e => lib.set (lib.keyPath e.1) e.2 j) below

def variableEntries (options : VariableOptions) (environment : List (String × String)) :
    List (String × Json) :=
  environment.filterMap fun (name, text) =>
    (lib.variableKey? options name).map (·, lib.variableValue options text)

end Library
end AgentAssembly

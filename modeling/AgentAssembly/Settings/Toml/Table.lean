import AgentAssembly.Data.Json

/-!
The tables of a document while it is read. A table is made by a header, by the dots in a key, or
as a step on the way to another table, and how it was made says what may still be added to it.
-/

namespace AgentAssembly.Toml

/-- How a table came to be: by its header, by the dots in a key, or on the way of a header. -/
inductive Origin
  | header
  | dotted
  | implied
deriving DecidableEq, Repr

inductive Node
  | value (value : Json)
  | table (origin : Origin) (members : List (String × Node))
  | tables (items : List (List (String × Node)))
deriving Inhabited

abbrev Members := List (String × Node)

mutual

def Node.toJson : Node → Json
  | .value value => value
  | .table _ members => Json.ofMembers (membersToJson members)
  | .tables items => .array (itemsToJson items)

def membersToJson : List (String × Node) → List (String × Json)
  | [] => []
  | (key, node) :: rest => (key, node.toJson) :: membersToJson rest

def itemsToJson : List (List (String × Node)) → List Json
  | [] => []
  | members :: rest => Json.ofMembers (membersToJson members) :: itemsToJson rest

end

def find? (key : String) (members : Members) : Option Node := members.lookup key

def set (key : String) (node : Node) : Members → Members
  | [] => [(key, node)]
  | (k, n) :: rest => if k = key then (k, node) :: rest else (k, n) :: set key node rest

def changeLast (f : Members → Option Members) : List Members → Option (List Members)
  | [] => none
  | [last] => (f last).map ([·])
  | first :: rest => (changeLast f rest).map (first :: ·)

def inTable (f : Members → Option Members) : List String → Members → Option Members
  | [], members => f members
  | key :: rest, members =>
    match find? key members with
    | none => (inTable f rest []).map fun inner => set key (.table .implied inner) members
    | some (.table origin inner) =>
      (inTable f rest inner).map fun inner => set key (.table origin inner) members
    | some (.tables items) =>
      (changeLast (inTable f rest) items).map fun items => set key (.tables items) members
    | some (.value _) => none

/-- Opens the table of a header in single brackets; a table is opened once, and not after dots
have made it. -/
def openTable (key : String) (members : Members) : Option Members :=
  match find? key members with
  | none => some (set key (.table .header []) members)
  | some (.table .implied inner) => some (set key (.table .header inner) members)
  | some _ => none

def openItem (key : String) (members : Members) : Option Members :=
  match find? key members with
  | none => some (set key (.tables [[]]) members)
  | some (.tables items) => some (set key (.tables (items ++ [[]])) members)
  | some _ => none

def giveName (value : Json) (key : String) (members : Members) : Option Members :=
  match find? key members with
  | none => some (set key (.value value) members)
  | some _ => none

/-- Gives a value to a key with dots. The dots lead through tables without a header of their own
and through the last of several tables; a name is added only to a table that dots have made, or
to the one that the key starts in, which is `isOpen`. -/
def give (value : Json) (isOpen : Bool) : List String → Members → Option Members
  | [], _ => none
  | [key], members => if isOpen then giveName value key members else none
  | key :: rest, members =>
    match find? key members with
    | none => (give value true rest []).map fun inner => set key (.table .dotted inner) members
    | some (.table .header _) | some (.value _) => none
    | some (.table origin inner) =>
      (give value (origin = .dotted) rest inner).map fun inner =>
        set key (.table origin inner) members
    | some (.tables items) =>
      (changeLast (give value false rest) items).map fun items => set key (.tables items) members

end AgentAssembly.Toml

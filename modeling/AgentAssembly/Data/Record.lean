import AgentAssembly.Data.Json

/-!
Records as objects, or as lists of their fields. A field is read by its own reader; a field that is
missing takes its default where it has one, and members with other keys are ignored.
-/

namespace AgentAssembly.Json

abbrev Members := List (String × Json)

def members? : Json → Option Members
  | .object members => some members
  | _ => none

/-- The members of a record: an object, or a list of the values of these keys in their order. Only
keys behind the first `needed` may be missing at the end of a list, and nothing may follow them. -/
def fields? (keys : List String) (needed : Nat) : Json → Option Members
  | .object members => some members
  | .array items =>
    if needed ≤ items.length ∧ items.length ≤ keys.length then some (keys.zip items) else none
  | _ => none

def text? : Json → Option String
  | .text s => some s
  | _ => none

def bool? : Json → Option Bool
  | .bool b => some b
  | _ => none

def double? : Json → Option Double
  | .double d => some d
  | .int i => some (Double.ofInt i)
  | _ => none

def natBelow? (bound : Nat) : Json → Option Nat
  | .int i => if 0 ≤ i ∧ i < bound then some i.toNat else none
  | _ => none

def word32? (j : Json) : Option UInt32 := (j.natBelow? UInt32.size).map UInt32.ofNat

def word64? (j : Json) : Option UInt64 := (j.natBelow? UInt64.size).map UInt64.ofNat

def any? (j : Json) : Option Json := some j

def list? {α : Type} (read : Json → Option α) : Json → Option (List α)
  | .array items => items.mapM read
  | _ => none

def dict? {α : Type} (read : Json → Option α) : Json → Option (Dict String α)
  | .object members => (members.mapM fun e => (read e.2).map (e.1, ·)).map Dict.ofList
  | _ => none

namespace Members

variable {α : Type} (members : Members) (key : String) (read : Json → Option α)

def required : Option α := (Dict.find? key members).bind read

def withDefault (unset : α) : Option α :=
  match Dict.find? key members with
  | none => some unset
  | some j => read j

/-- A field that may be unset, also by null. -/
def optional : Option (Option α) :=
  match Dict.find? key members with
  | none | some .null => some none
  | some j => (read j).map some

end Members

/-- The name of a variant in a record: in lower case, with underscores before inner capitals. -/
def snakeCase (name : String) : String :=
  match name.toList with
  | [] => ""
  | first :: rest => String.ofList <|
    first.toLower :: rest.flatMap fun c => if c.isUpper then ['_', c.toLower] else [c]

def record (fields : List (String × Option Json)) : Json :=
  ofMembers (fields.filterMap fun (key, value) => value.map (key, ·))

def ofOption {α : Type} (write : α → Json) : Option α → Json
  | none => .null
  | some a => write a

def ofDouble (d : Double) : Json := if d.isFinite then .double d else .null

def ofList {α : Type} (write : α → Json) (items : List α) : Json := .array (items.map write)

def ofValues (d : Dict String Json) : Json := .object d.entries

def ofDict {α : Type} (write : α → Json) (d : Dict String α) : Json := ofValues (d.map write)

end AgentAssembly.Json

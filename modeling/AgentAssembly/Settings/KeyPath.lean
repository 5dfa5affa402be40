import AgentAssembly.Data.Record
import AgentAssembly.Number.Numeral
import AgentAssembly.Settings.Library

/-!
Layers as objects. A key may lead into tables by dots and into lists by numbers in brackets.
Setting a value at a path makes the tables and lists on its way, in place of anything else that
stands there.
-/

namespace AgentAssembly

namespace KeyPath

def isNameChar (c : Char) : Bool := c.isAlphanum || c == '_' || c == '-' || c == ' '

def isGap (c : Char) : Bool := c == ' ' || c == '\t'

def readName (cs : List Char) : Option (Step × List Char) :=
  let name := cs.takeWhile isNameChar
  if name = [] then none else some (.member (String.ofList name), cs.drop name.length)

/-- Reads the number of an item and the bracket behind it; gaps may stand around the number. -/
def readPosition (cs : List Char) : Option (Step × List Char) :=
  let cs := cs.dropWhile isGap
  let number := cs.takeWhile fun c => c.isDigit || c == '-'
  match Numeral.signedWord? number, (cs.drop number.length).dropWhile isGap with
  | some position, ']' :: rest => some (.item position, rest)
  | _, _ => none

def readSteps : Nat → List Char → Option KeyPath
  | _, [] => some []
  | 0, _ => none
  | fuel + 1, c :: rest =>
    let step := if c = '.' then readName rest else if c = '[' then readPosition rest else none
    match step with
    | none => none
    | some (step, rest) => (readSteps fuel rest).map (step :: ·)

def read? (cs : List Char) : Option KeyPath :=
  match readName cs with
  | none => none
  | some (first, rest) => (readSteps rest.length rest).map (first :: ·)

end KeyPath

namespace Layer

open Json

mutual

/-- Lays a value over another: a table is merged into a table, all else takes its place. -/
def merge : Json → Option Json → Json
  | .object members, below => mergeMembers members (below.getD (.object []))
  | value, _ => value

def mergeMembers : List (String × Json) → Json → Json
  | [], below => below
  | (key, value) :: rest, below =>
    let members := below.members?.getD []
    mergeMembers rest (.object (Dict.put key (merge value (Dict.find? key members)) members))

end

def items? : Json → Option (List Json)
  | .array items => some items
  | _ => none

/-- The index of a position, after making room for it with nulls: behind the list, or before it
for a position that counts from the end. -/
def withRoom (position : Int) (items : List Json) : Nat × List Json :=
  let nulls (n : Nat) : List Json := List.replicate n .null
  if 0 ≤ position then
    (position.toNat, items ++ nulls (position.toNat + 1 - items.length))
  else
    (items.length - position.natAbs, nulls (position.natAbs - items.length) ++ items)

def setPath (value : Json) : KeyPath → Json → Json
  | [], below => below
  | [.member key], below => mergeMembers [(key, value)] below
  | [.item position], below =>
    let (index, items) := withRoom position ((items? below).getD [])
    .array (items.set index value)
  | .member key :: rest, below =>
    let members := below.members?.getD []
    .object (Dict.put key (setPath value rest ((Dict.find? key members).getD .null)) members)
  | .item position :: rest, below =>
    let (index, items) := withRoom position ((items? below).getD [])
    .array (items.set index (setPath value rest (items.getD index .null)))

end Layer
end AgentAssembly

import AgentAssembly.Data.Json.Reader
import AgentAssembly.Disk.Path
import AgentAssembly.Settings.KeyPath
import AgentAssembly.Settings.Load
import AgentAssembly.Settings.Scalar
import AgentAssembly.Settings.Toml

/-!
A library of layers. A layer is an object; its tables are merged key by key into those below.
Fields are read from whatever their layer left there. The formats of files are left open.
-/

namespace AgentAssembly

namespace Layer

open Json

def ofNumber : Json → Json
  | .int i => if Numeral.fitsSigned i then .int i else .double (Double.ofInt i)
  | j => j

/-- A letter of a key in its small form. Of the letters beyond ASCII only the sign of the kelvin
has a small form that a known key could hold. -/
def smallLetter (c : Char) : Char := if c = '\u212a' then 'k' else c.toLower

def smallKey (key : String) : String := String.ofList (key.toList.map smallLetter)

mutual

/-- The values of a file as layers hold them: keys in small letters, of which the last stands. -/
def ofFile : Json → Json
  | .object members => .object (ofFileMembers members)
  | .array items => .array (ofFileItems items)
  | j => ofNumber j

def ofFileMembers : List (String × Json) → List (String × Json)
  | [] => []
  | (key, value) :: rest =>
    let later := ofFileMembers rest
    let small := smallKey key
    if (Dict.find? small later).isSome then later else Dict.put small (ofFile value) later

def ofFileItems : List Json → List Json
  | [] => []
  | item :: rest => ofFile item :: ofFileItems rest

end

def withDots (separator : List Char) : Nat → List Char → List Char
  | _, [] => []
  | skipped + 1, _ :: rest => withDots separator skipped rest
  | 0, c :: rest =>
    if separator ≠ [] ∧ separator.isPrefixOf (c :: rest) then
      '.' :: withDots separator (separator.length - 1) rest
    else c :: withDots separator 0 rest

def variableKey? (options : VariableOptions) (name : String) : Option String :=
  let start := (options.start ++ options.startSeparator).toList.map smallLetter
  let cs := name.toList.map smallLetter
  if start.isPrefixOf cs then
    some (String.ofList (withDots options.separator.toList 0 (cs.drop start.length)))
  else none

def variableValue (options : VariableOptions) (text : String) : Json :=
  if options.parsing then (Scalar.ofText text).toJson else .text text

/-- An unsigned word: a truth value is one or zero, a double is rounded, and a text may be a
word for a truth value or a number. -/
def word? : Json → Option UInt64
  | .bool b => some (if b then 1 else 0)
  | .int i => word64? (.int i)
  | .double d => some d.toWord
  | .text s =>
    let word := String.ofList (s.toList.map Char.toLower)
    if ["true", "on", "yes"].contains word then some 1
    else if ["false", "off", "no"].contains word then some 0
    else (Numeral.below? UInt64.size s.toList).map UInt64.ofNat
  | _ => none

def text? : Json → Option String
  | .text s => some s
  | .bool b => some (Scalar.truth b).shown
  | .int i => some (Scalar.integer i).shown
  | .double d => some (Scalar.decimal d).shown
  | _ => none

def name? (names : List String) : Json → Option String
  | .text s | .object [(s, _)] =>
    let small (s : String) : List Char := s.toList.map Char.toLower
    names.find? fun name => small name = small s
  | _ => none

end Layer

structure FileFormat where
  extensions : List String
  read? : String → Option Json

namespace FileFormat

def toml : FileFormat := ⟨["toml"], Toml.read?⟩

def json : FileFormat := ⟨["json"], Json.read?⟩

def ofPath? (formats : List FileFormat) (path : String) : Option FileFormat :=
  formats.find? fun format => format.extensions.any fun extension =>
    (Path.names path).getLast?.any (Path.hasExtension extension)

/-- The file of settings: the path itself if there is such a file, else its last name with an
ending. A file without a known ending is passed over. -/
def find? (formats : List FileFormat) (files : String → Option String) (path : String) :
    Option (FileFormat × String) :=
  match files path with
  | some text => (ofPath? formats path).map (·, text)
  | none =>
    formats.findSome? fun format => format.extensions.findSome? fun extension =>
      (Path.withEnding? ("." ++ extension) path).bind fun file => (files file).map (format, ·)

def entries? (formats : List FileFormat) (files : String → Option String) (path : String) :
    Option (List (String × Json)) :=
  match find? formats files path with
  | none => some []
  | some (format, text) => (format.read? text).bind fun j => (Layer.ofFile j).members?

end FileFormat

namespace Layer

def library (formats : List FileFormat) : Library where
  fileEntries? := FileFormat.entries? formats
  variableKey? := variableKey?
  variableValue := variableValue
  path? key := KeyPath.read? key.toList
  set path value := setPath value path
  word? := word?
  text? := text?
  name? := name?

end Layer
end AgentAssembly

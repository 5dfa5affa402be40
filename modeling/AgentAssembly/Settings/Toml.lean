import AgentAssembly.Settings.Toml.Scalar
import AgentAssembly.Settings.Toml.Table
import AgentAssembly.Settings.Toml.Text

/-!
Reading TOML. A document is a sequence of lines; a table is written by a header, by the dots in
a key, or in braces, and each key is given once.
-/

namespace AgentAssembly.Toml

def depthLimit : Nat := 80

def isBareKeyChar (c : Char) : Bool := c.isAlphanum || c == '_' || c == '-'

def readKeyPart (cs : List Char) : Option (String × List Char) :=
  match cs with
  | '"' :: rest => (readBasic (rest.length + 1) rest).map fun (k, after) => (String.ofList k, after)
  | '\'' :: rest => (readPlain rest).map fun (k, after) => (String.ofList k, after)
  | _ =>
    let bare := cs.takeWhile isBareKeyChar
    if bare = [] then none else some (String.ofList bare, cs.drop bare.length)

def readParts : Nat → List Char → Option (List String × List Char)
  | 0, _ => none
  | fuel + 1, cs =>
    match readKeyPart (skipBlanks cs) with
    | none => none
    | some (part, after) =>
      match skipBlanks after with
      | '.' :: rest => (readParts fuel rest).map fun (parts, after) => (part :: parts, after)
      | after => some ([part], after)

def readKey (fuel : Nat) (cs : List Char) : Option (List String × List Char) :=
  (readParts fuel cs).filter (·.1.length < depthLimit)

mutual

def readValue (fuel depth : Nat) (cs : List Char) : Option (Json × List Char) :=
  match fuel with
  | 0 => none
  | fuel + 1 =>
    match cs with
    | '"' :: _ | '\'' :: _ => (readString cs).map fun (s, after) => (.text s, after)
    | '[' :: rest =>
      if depthLimit ≤ depth + 1 then none
      else (readItems fuel (depth + 1) (skipLines fuel rest)).map fun (items, after) =>
        (.array items, after)
    | '\x7b' :: rest =>
      if depthLimit ≤ depth + 1 then none
      else match skipBlanks rest with
      | '\x7d' :: after => some (.object [], after)
      | _ =>
        (readPairs fuel (depth + 1) rest []).map fun (members, after) =>
          (Json.ofMembers (membersToJson members), after)
    | _ => readScalar cs

def readItems (fuel depth : Nat) (cs : List Char) : Option (List Json × List Char) :=
  match fuel with
  | 0 => none
  | fuel + 1 =>
    match cs with
    | ']' :: rest => some ([], rest)
    | _ =>
      match readValue fuel depth cs with
      | none => none
      | some (item, after) =>
        match skipLines fuel after with
        | ',' :: rest =>
          (readItems fuel depth (skipLines fuel rest)).map fun (items, after) =>
            (item :: items, after)
        | ']' :: rest => some ([item], rest)
        | _ => none

def readPairs (fuel depth : Nat) (cs : List Char) (members : Members) :
    Option (Members × List Char) :=
  match fuel with
  | 0 => none
  | fuel + 1 =>
    match readKey fuel cs with
    | some (key, '=' :: after) =>
      match readValue fuel depth (skipBlanks after) with
      | none => none
      | some (value, after) =>
        match give value true key members, skipBlanks after with
        | some members, ',' :: rest => readPairs fuel depth rest members
        | some members, '\x7d' :: rest => some (members, rest)
        | _, _ => none
    | _ => none

end

/-- A document being read: its members, and the path of the table that lines belong to. -/
structure Document where
  members : Members := []
  current : List String := []

def readHeader (fuel : Nat) (d : Document) (cs : List Char) : Option (Document × List Char) :=
  let (isItem, cs) := match cs with
    | '[' :: rest => (true, rest)
    | _ => (false, cs)
  match readKey fuel cs with
  | none => none
  | some (path, after) =>
    let opened := inTable ((if isItem then openItem else openTable) (path.getLastD ""))
      path.dropLast d.members
    let after := match isItem, after with
      | true, ']' :: ']' :: rest => some rest
      | false, ']' :: rest => some rest
      | _, _ => none
    match opened, after.bind endLine with
    | some members, some rest => some ({ members, current := path }, rest)
    | _, _ => none

def readPair (fuel : Nat) (d : Document) (cs : List Char) : Option (Document × List Char) :=
  match readKey fuel cs with
  | some (key, '=' :: after) =>
    match readValue fuel 0 (skipBlanks after) with
    | none => none
    | some (value, after) =>
      match inTable (give value true key) d.current d.members, endLine after with
      | some members, some rest => some ({ d with members }, rest)
      | _, _ => none
  | _ => none

def readLines : Nat → Document → List Char → Option Document
  | 0, _, _ => none
  | fuel + 1, d, cs =>
    match skipLines (fuel + 1) cs with
    | [] => some d
    | '[' :: rest =>
      match readHeader (fuel + 1) d rest with
      | none => none
      | some (d, rest) => readLines fuel d rest
    | cs =>
      match readPair (fuel + 1) d cs with
      | none => none
      | some (d, rest) => readLines fuel d rest

def dropMark : List Char → List Char
  | '\ufeff' :: rest => rest
  | cs => cs

def read? (text : String) : Option Json :=
  (readLines (2 * text.length + 2) {} (dropMark text.toList)).map fun d =>
    Json.ofMembers (membersToJson d.members)

end AgentAssembly.Toml

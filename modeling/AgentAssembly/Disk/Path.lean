import AgentAssembly.Text.Lines

/-!
Paths as texts. Joining keeps both texts as they are; the parent of a path drops its last name
and what is silent at its end: empty segments, and dots that are not its first segment.
-/

namespace AgentAssembly.Path

def isSeparator (c : Char) : Bool := c == '/'

def isAbsolute (path : String) : Bool := path.toList.head?.any isSeparator

def join (base path : String) : String :=
  if isAbsolute path then path
  else if base.toList.getLast?.all isSeparator then base ++ path
  else base ++ "/" ++ path

def segments (path : String) : List String :=
  (Text.pieces isSeparator path.toList).map String.ofList

def isSilent (segment : String) : Bool := segment == "" || segment == "."

def endsSilently (path : String) : Bool := (segments path).getLast?.any isSilent

def names (path : String) : List String := (segments path).filter (!isSilent ·)

/-- Drops silent segments from the front of a reversed path, whose first segment counts. -/
def dropSilent : List String → List String
  | [] => []
  | [first] => [first]
  | segment :: rest => if isSilent segment then dropSilent rest else segment :: rest

def parent? (path : String) : Option String :=
  match dropSilent (segments path).reverse with
  | [] => none
  | [first] => if first = "" then none else some ""
  | _ :: rest =>
    let kept := dropSilent rest
    some (if kept = [""] then "/" else "/".intercalate kept.reverse)

/-- The path with an ending at its last name, if it has one. What is silent behind it is dropped. -/
def withEnding? (ending path : String) : Option String :=
  match dropSilent (segments path).reverse with
  | [] => none
  | name :: above =>
    if isSilent name || name == ".." then none
    else some ("/".intercalate (above.reverse ++ [name ++ ending]))

/-- A path and the paths above it that are not empty, from below. The fuel bounds their number. -/
def upwards : Nat → String → List String
  | 0, path => [path]
  | fuel + 1, path =>
    match (parent? path).filter (· ≠ "") with
    | none => [path]
    | some above => path :: upwards fuel above

def withAncestors (path : String) : List String := upwards path.length path

def directoryOf (path : String) : String :=
  match (parent? path).filter (· ≠ "") with
  | none => "."
  | some above => above

def hasExtension (extension name : String) : Bool :=
  let ending := '.' :: extension.toList
  ending.isSuffixOf name.toList && ending.length < name.length

end AgentAssembly.Path

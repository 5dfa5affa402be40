import AgentAssembly.Text.Alphanumeric
import AgentAssembly.Text.Quoted

/-!
Patterns: the regular expressions that the value of a field may be. Only their form counts here:
groups, alternatives, repetitions, classes in brackets, and escapes. Counted repetitions are
refused, for a field ends at the first brace that closes; so is all that needs a table of
characters, which is classes named by a letter, word boundaries, and letters in either case.
-/

namespace AgentAssembly.Pattern

/-- What the flags of a group may change: letters in either case, and white space and comments
that do not count. -/
structure Mode where
  caseless : Bool := false
  spaced : Bool := false
deriving DecidableEq, Repr

def Mode.set (mode : Mode) (flag : Char) (value : Bool) : Mode :=
  if flag = 'i' then { mode with caseless := value }
  else if flag = 'x' then { mode with spaced := value }
  else mode

def dropSpace : Bool → List Char → List Char
  | _, [] => []
  | true, c :: rest => dropSpace (c != '\n') rest
  | false, c :: rest =>
    if Text.isBlankChar c then dropSpace false rest
    else if c = '#' then dropSpace true rest
    else c :: rest

def Mode.skip (mode : Mode) (cs : List Char) : List Char :=
  if mode.spaced then dropSpace false cs else cs

inductive Item
  | char (value : Char)
  | place
deriving DecidableEq, Repr

def Item.char? : Item → Option Char
  | .char c => some c
  | .place => none

def controlEscapes : List (Char × Char) :=
  [('a', '\x07'), ('f', '\x0c'), ('n', '\n'), ('r', '\r'), ('t', '\t'), ('v', '\x0b')]

def isPlainEscape (c : Char) : Bool :=
  c.toNat < 0x80 && !c.isAlphanum && c != '<' && c != '>'

def readCode (size : Nat) (cs : List Char) : Option (Item × List Char) :=
  if cs.length < size then none
  else ((Text.Quoted.hexNumber? (cs.take size)).bind Text.Quoted.scalar?).map
    (.char ·, cs.drop size)

def readEscape : List Char → Option (Item × List Char)
  | [] => none
  | 'x' :: rest => readCode 2 rest
  | 'u' :: rest => readCode 4 rest
  | 'U' :: rest => readCode 8 rest
  | 'A' :: rest | 'z' :: rest => some (.place, rest)
  | c :: rest =>
    match controlEscapes.lookup c with
    | some control => some (.char control, rest)
    | none => if isPlainEscape c then some (.char c, rest) else none

def readItem : List Char → Option (Item × List Char)
  | [] => none
  | '\\' :: rest => readEscape rest
  | c :: rest => some (.char c, rest)

def classNames : List String :=
  ["alnum", "alpha", "ascii", "blank", "cntrl", "digit", "graph", "lower", "print", "punct",
   "space", "upper", "word", "xdigit"]

def afterNamedClass? : List Char → Option (List Char)
  | ':' :: rest =>
    let rest := if rest.head? = some '^' then rest.drop 1 else rest
    let name := rest.takeWhile (· != ':')
    match rest.drop name.length with
    | ':' :: ']' :: after => if classNames.contains (String.ofList name) then some after else none
    | _ => none
  | _ => none

/-- The start of a class: it may be negated, and hyphens, or else one bracket, stand there for
themselves. -/
def openClass (mode : Mode) (cs : List Char) : List Char :=
  let cs := match mode.skip cs with
    | '^' :: rest => mode.skip rest
    | cs => cs
  match cs with
  | '-' :: rest => rest.dropWhile (· == '-')
  | ']' :: rest => rest
  | _ => cs

/-- Reads a character or a range of a class; a range does not run backwards. A hyphen before a
bracket or another hyphen makes no range. -/
def readRange (mode : Mode) (cs : List Char) : Option (List Char) := do
  let (low, cs) ← readItem cs
  let low ← low.char?
  match mode.skip cs with
  | '-' :: after =>
    match mode.skip after with
    | [] => none
    | ']' :: _ | '-' :: _ => some ('-' :: after)
    | after =>
      let (high, rest) ← readItem after
      let high ← high.char?
      if high < low then none else some rest
  | cs => some cs

/-- Reads the inside of a class up to its bracket; `depth` classes are open around it. -/
def readClass (mode : Mode) : Nat → Nat → List Char → Option (List Char)
  | 0, _, _ => none
  | fuel + 1, depth, cs =>
    match mode.skip cs with
    | [] => none
    | ']' :: rest => if depth = 0 then some rest else readClass mode fuel (depth - 1) rest
    | '[' :: rest =>
      match afterNamedClass? rest with
      | some after => readClass mode fuel depth after
      | none => readClass mode fuel (depth + 1) (openClass mode rest)
    | '&' :: '&' :: rest | '-' :: '-' :: rest | '~' :: '~' :: rest =>
      readClass mode fuel depth rest
    | cs =>
      match readRange mode cs with
      | none => none
      | some rest => readClass mode fuel depth rest

/-- How far a pattern is read: its mode, the modes around the open groups, the names of groups,
and whether there is an item in front that can be repeated. -/
structure Reading where
  mode : Mode := {}
  outer : List Mode := []
  names : List (List Char) := []
  hasItem : Bool := false
deriving DecidableEq, Repr

namespace Reading

def inside (r : Reading) : Reading := { r with outer := r.mode :: r.outer, hasItem := false }

def flagLetters : List Char := ['-', 'i', 'm', 's', 'U', 'R', 'x', 'u']

/-- Reads flags up to the mark behind them. Each stands once, and one follows the minus, which
turns off those behind it. -/
def readFlags (mode : Mode) (seen : List Char) : List Char → Option (Mode × List Char)
  | [] => none
  | c :: rest =>
    if c = ')' ∨ c = ':' then (if seen.head? = some '-' then none else some (mode, c :: rest))
    else if seen.contains c ∨ !flagLetters.contains c then none
    else readFlags (mode.set c !seen.contains '-') (c :: seen) rest

def isNameChar (c : Char) : Bool :=
  Text.Alphanumeric.holds c || c == '_' || c == '.' || c == '[' || c == ']'

def isName : List Char → Bool
  | [] => false
  | c :: rest =>
    (c == '_' || (Text.Alphanumeric.holds c && !c.isDigit)) && rest.all isNameChar

def openNamed (r : Reading) (cs : List Char) : Option (Reading × List Char) :=
  let name := cs.takeWhile (· != '>')
  match cs.drop name.length with
  | '>' :: after =>
    if isName name && !r.names.contains name then
      some ({ r.inside with names := name :: r.names }, after)
    else none
  | _ => none

def openGroup (r : Reading) (cs : List Char) : Option (Reading × List Char) :=
  match r.mode.skip cs with
  | '?' :: 'P' :: '<' :: rest | '?' :: '<' :: rest => r.openNamed rest
  | '?' :: ')' :: _ => none
  | '?' :: rest =>
    match readFlags r.mode [] rest with
    | some (mode, ':' :: after) => some ({ r.inside with mode }, after)
    | some (mode, _ :: after) => some ({ r with mode, hasItem := false }, after)
    | _ => none
  | cs => some (r.inside, cs)

def closeGroup (r : Reading) : Option Reading :=
  match r.outer with
  | [] => none
  | mode :: outer => some { r with mode, outer, hasItem := true }

def step (r : Reading) : List Char → Option (Reading × List Char)
  | [] | '\x7b' :: _ => none
  | '(' :: rest => r.openGroup rest
  | ')' :: rest => r.closeGroup.map (·, rest)
  | '|' :: rest => some ({ r with hasItem := false }, rest)
  | '*' :: rest | '+' :: rest | '?' :: rest => if r.hasItem then some (r, rest) else none
  | '.' :: rest | '^' :: rest | '$' :: rest => some ({ r with hasItem := true }, rest)
  | '[' :: rest =>
    if r.mode.caseless then none
    else (readClass r.mode (rest.length + 1) 0 (openClass r.mode rest)).map
      ({ r with hasItem := true }, ·)
  | cs =>
    match readItem cs with
    | some (.char _, rest) =>
      if r.mode.caseless then none else some ({ r with hasItem := true }, rest)
    | some (.place, rest) => some ({ r with hasItem := true }, rest)
    | none => none

def readAll : Nat → Reading → List Char → Bool
  | 0, _, _ => false
  | fuel + 1, r, cs =>
    match r.mode.skip cs with
    | [] => r.outer.isEmpty
    | cs =>
      match r.step cs with
      | none => false
      | some (r, rest) => readAll fuel r rest

end Reading

def isValid (cs : List Char) : Bool := Reading.readAll (cs.length + 1) {} cs

end AgentAssembly.Pattern

import AgentAssembly.Text.Quoted

/-!
The texts of a document: white space, comments, and strings of four kinds.
-/

namespace AgentAssembly.Toml

/-- Control characters other than the tab stand neither in strings nor in comments. -/
def isForbidden (c : Char) : Bool := (c.toNat < 0x20 && c != '\t') || c.toNat == 0x7F

def skipBlanks (cs : List Char) : List Char := cs.dropWhile fun c => c == ' ' || c == '\t'

def skipComment : List Char → List Char
  | '#' :: rest => rest.dropWhile (!isForbidden ·)
  | cs => cs

def skipLines : Nat → List Char → List Char
  | 0, cs => cs
  | fuel + 1, cs =>
    match skipComment (skipBlanks cs) with
    | '\n' :: rest => skipLines fuel rest
    | '\r' :: '\n' :: rest => skipLines fuel rest
    | rest => rest

def endLine (cs : List Char) : Option (List Char) :=
  match skipComment (skipBlanks cs) with
  | [] => some []
  | '\n' :: rest => some rest
  | '\r' :: '\n' :: rest => some rest
  | _ => none

def skipSpace : List Char → List Char
  | ' ' :: rest | '\t' :: rest | '\n' :: rest => skipSpace rest
  | '\r' :: '\n' :: rest => skipSpace rest
  | cs => cs

def readEscape : List Char → Option (Char × List Char)
  | 'u' :: rest =>
    if rest.length < 4 then none
    else ((Text.Quoted.hexNumber? (rest.take 4)).bind Text.Quoted.scalar?).map (·, rest.drop 4)
  | 'U' :: rest =>
    if rest.length < 8 then none
    else ((Text.Quoted.hexNumber? (rest.take 8)).bind Text.Quoted.scalar?).map (·, rest.drop 8)
  | letter :: rest => (Text.Quoted.unescape? letter).map (·, rest)
  | [] => none

def readBasic : Nat → List Char → Option (List Char × List Char)
  | 0, _ => none
  | _, [] => none
  | _ + 1, '"' :: rest => some ([], rest)
  | fuel + 1, '\\' :: rest =>
    match readEscape rest with
    | none => none
    | some (c, rest) => (readBasic fuel rest).map fun (inner, after) => (c :: inner, after)
  | fuel + 1, c :: rest =>
    if isForbidden c then none
    else (readBasic fuel rest).map fun (inner, after) => (c :: inner, after)

def readPlain : List Char → Option (List Char × List Char)
  | [] => none
  | '\'' :: rest => some ([], rest)
  | c :: rest =>
    if isForbidden c then none
    else (readPlain rest).map fun (inner, after) => (c :: inner, after)

def closeBlock (quote : Char) (cs : List Char) : Option (List Char × List Char) :=
  let quotes := (cs.take 5).takeWhile (· == quote)
  if 3 ≤ quotes.length then some (quotes.drop 3, cs.drop quotes.length) else none

/-- Reads the inside of a string over several lines. With `escapes`, a backslash takes an escape,
or drops the white space around the end of its line. -/
def readBlock (quote : Char) (escapes : Bool) : Nat → List Char → Option (List Char × List Char)
  | 0, _ => none
  | fuel + 1, cs =>
    match closeBlock quote cs, cs with
    | some closed, _ => some closed
    | none, [] => none
    | none, '\r' :: '\n' :: rest =>
      (readBlock quote escapes fuel rest).map fun (inner, after) => ('\n' :: inner, after)
    | none, c :: rest =>
      if escapes && c == '\\' then
        match skipBlanks rest with
        | '\n' :: rest | '\r' :: '\n' :: rest => readBlock quote escapes fuel (skipSpace rest)
        | _ =>
          match readEscape rest with
          | none => none
          | some (x, rest) =>
            (readBlock quote escapes fuel rest).map fun (inner, after) => (x :: inner, after)
      else if isForbidden c && c != '\n' then none
      else (readBlock quote escapes fuel rest).map fun (inner, after) => (c :: inner, after)

def dropFirstLineEnd : List Char → List Char
  | '\n' :: rest => rest
  | '\r' :: '\n' :: rest => rest
  | cs => cs

def readString (cs : List Char) : Option (String × List Char) :=
  let fuel := cs.length + 1
  let result := match cs with
    | '"' :: '"' :: '"' :: rest => readBlock '"' true fuel (dropFirstLineEnd rest)
    | '\'' :: '\'' :: '\'' :: rest => readBlock '\'' false fuel (dropFirstLineEnd rest)
    | '"' :: rest => readBasic fuel rest
    | '\'' :: rest => readPlain rest
    | _ => none
  result.map fun (inner, after) => (String.ofList inner, after)

end AgentAssembly.Toml

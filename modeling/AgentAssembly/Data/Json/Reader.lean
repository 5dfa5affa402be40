import AgentAssembly.Data.Json
import AgentAssembly.Number.Numeral

/-!
Reading data files. An integer in the range of a word stays an integer; any other number becomes
a double, and one too large for a double is refused. Values may be nested `depthLimit - 1` deep.
-/

namespace AgentAssembly.Json

open Text.Quoted

def isSpace (c : Char) : Bool := c == ' ' || c == '\t' || c == '\n' || c == '\r'

def skipSpace (cs : List Char) : List Char := cs.dropWhile isSpace

def isHighHalf (n : Nat) : Bool := 0xD800 ≤ n && n < 0xDC00
def isLowHalf (n : Nat) : Bool := 0xDC00 ≤ n && n < 0xE000

def joinHalves (high low : Nat) : Nat := 0x10000 + (high - 0xD800) * 0x400 + (low - 0xDC00)

def readString : List Char → Option (List Char × List Char)
  | [] => none
  | '"' :: rest => some ([], rest)
  | '\\' :: 'u' :: a :: b :: c :: d :: '\\' :: 'u' :: e :: f :: g :: h :: rest =>
    match hexQuad? a b c d with
    | none => none
    | some n =>
      if isHighHalf n then
        match (hexQuad? e f g h).filter isLowHalf with
        | none => none
        | some low =>
          (readString rest).map fun (inner, after) =>
            (Char.ofNat (joinHalves n low) :: inner, after)
      else
        match scalar? n, readString ('\\' :: 'u' :: e :: f :: g :: h :: rest) with
        | some x, some (inner, after) => some (x :: inner, after)
        | _, _ => none
  | '\\' :: 'u' :: a :: b :: c :: d :: rest =>
    match (hexQuad? a b c d).bind scalar?, readString rest with
    | some x, some (inner, after) => some (x :: inner, after)
    | _, _ => none
  | '\\' :: letter :: rest =>
    match (if letter = '/' then some '/' else unescape? letter), readString rest with
    | some x, some (inner, after) => some (x :: inner, after)
    | _, _ => none
  | x :: rest =>
    if x.toNat < 0x20 then none
    else (readString rest).map fun (inner, after) => (x :: inner, after)

/-- Appends digits to a number while it stays below `2 ^ 64`; gives the digits left over. -/
def absorb : Nat → List Char → Nat × List Char
  | n, [] => (n, [])
  | n, c :: rest =>
    if 10 * n + Numeral.digitValue c < UInt64.size then absorb (10 * n + Numeral.digitValue c) rest
    else (n, c :: rest)

def number? (negative : Bool) (whole : List Char) (places : Option (List Char))
    (exponent : Option Int) : Option Json :=
  let (high, left) := absorb 0 whole
  match places, exponent, left with
  | none, none, [] =>
    if negative then
      if high = 0 ∨ Double.signUnit < high then some (.double (Double.ofRatio true high 1))
      else some (.int (-(high : Int)))
    else some (.int high)
  | _, _, _ =>
    let places := places.getD []
    let (significand, unread) := absorb high places
    let shift : Int := (left.length + unread.length : Int) - places.length
    (Double.scaledByTen? negative significand (shift + exponent.getD 0)).map .double

def readDigits (cs : List Char) : Option (List Char × List Char) :=
  let digits := cs.takeWhile Char.isDigit
  if digits = [] then none else some (digits, cs.dropWhile Char.isDigit)

def readPlaces : List Char → Option (Option (List Char) × List Char)
  | '.' :: rest => (readDigits rest).map fun (digits, after) => (some digits, after)
  | rest => some (none, rest)

def readExponent : List Char → Option (Option Int × List Char)
  | c :: rest =>
    if c = 'e' ∨ c = 'E' then
      let (negative, digits) := Numeral.splitSign rest
      (readDigits digits).map fun (digits, after) =>
        let n : Int := Numeral.ofDigits digits
        (some (if negative then -n else n), after)
    else some (none, c :: rest)
  | [] => some (none, [])

def readNumber (cs : List Char) : Option (Json × List Char) := do
  let (negative, cs) := match cs with
    | '-' :: rest => (true, rest)
    | _ => (false, cs)
  let (whole, cs) ← readDigits cs
  if whole.length ≠ 1 ∧ whole.head? = some '0' then none
  let (places, cs) ← readPlaces cs
  let (exponent, cs) ← readExponent cs
  let value ← number? negative whole places exponent
  return (value, cs)

def depthLimit : Nat := 128

mutual

/-- Reads a value. Each call takes a character, so as much fuel as there are characters is
enough. -/
def readValue (fuel depth : Nat) (cs : List Char) : Option (Json × List Char) :=
  match fuel with
  | 0 => none
  | fuel + 1 =>
    match skipSpace cs with
    | '"' :: rest => (readString rest).map fun (s, after) => (.text (String.ofList s), after)
    | '[' :: rest =>
      if depth ≤ 1 then none
      else match skipSpace rest with
        | ']' :: after => some (.array [], after)
        | _ => (readItems fuel (depth - 1) rest).map fun (items, after) => (.array items, after)
    | '\x7b' :: rest =>
      if depth ≤ 1 then none
      else match skipSpace rest with
        | '\x7d' :: after => some (.object [], after)
        | _ =>
          (readMembers fuel (depth - 1) rest).map fun (members, after) =>
            (ofMembers members, after)
    | 'n' :: 'u' :: 'l' :: 'l' :: rest => some (.null, rest)
    | 't' :: 'r' :: 'u' :: 'e' :: rest => some (.bool true, rest)
    | 'f' :: 'a' :: 'l' :: 's' :: 'e' :: rest => some (.bool false, rest)
    | cs => readNumber cs

def readItems (fuel depth : Nat) (cs : List Char) : Option (List Json × List Char) :=
  match fuel with
  | 0 => none
  | fuel + 1 =>
    match readValue fuel depth cs with
    | none => none
    | some (item, after) =>
      match skipSpace after with
      | ',' :: rest => (readItems fuel depth rest).map fun (items, after) => (item :: items, after)
      | ']' :: rest => some ([item], rest)
      | _ => none

def readMembers (fuel depth : Nat) (cs : List Char) : Option (List (String × Json) × List Char) :=
  match fuel with
  | 0 => none
  | fuel + 1 =>
    match skipSpace cs with
    | '"' :: rest =>
      match readString rest with
      | none => none
      | some (key, after) =>
        match skipSpace after with
        | ':' :: rest =>
          match readValue fuel depth rest with
          | none => none
          | some (value, after) =>
            let member := (String.ofList key, value)
            match skipSpace after with
            | ',' :: rest =>
              (readMembers fuel depth rest).map fun (members, after) => (member :: members, after)
            | '\x7d' :: rest => some ([member], rest)
            | _ => none
        | _ => none
    | _ => none

end

def read? (text : String) : Option Json :=
  let cs := text.toList
  match readValue (2 * cs.length + 2) depthLimit cs with
  | some (value, rest) => if skipSpace rest = [] then some value else none
  | none => none

end AgentAssembly.Json

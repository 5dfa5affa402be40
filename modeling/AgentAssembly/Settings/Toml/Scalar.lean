import AgentAssembly.Number.Numeral
import AgentAssembly.Settings.Toml.Moment
import AgentAssembly.Data.Json

/-!
Values without quotes or brackets: truth values, numbers, and moments, which are read as text.
-/

namespace AgentAssembly.Toml

def digits? (isDigit : Char → Bool) (cs : List Char) : Option (List Char) :=
  let groups := Text.pieces (· == '_') cs
  if groups.all fun g => g ≠ [] ∧ g.all isDigit then some groups.flatten else none

def radix? : Char → Option Nat
  | 'x' => some 16
  | 'o' => some 8
  | 'b' => some 2
  | _ => none

def inRadix? (radix : Nat) (cs : List Char) : Option Nat := do
  let values ← cs.mapM Text.Quoted.hexValue?
  if values.all (· < radix) then some (values.foldl (fun n d => radix * n + d) 0) else none

def integer? (cs : List Char) : Option Int :=
  match cs with
  | '0' :: c :: rest =>
    match radix? c with
    | some radix =>
      ((digits? Char.isAlphanum rest).bind (inRadix? radix)).map fun n => (n : Int)
    | none => none
  | _ => do
    let (negative, body) := Numeral.splitSign cs
    let digits ← digits? Char.isDigit body
    if 1 < digits.length ∧ digits.head? = some '0' then none
    let n : Int := Numeral.ofDigits digits
    return if negative then -n else n

def isDigitOrUnderscore (c : Char) : Bool := c.isDigit || c == '_'

def isWhole (cs : List Char) : Bool :=
  match digits? Char.isDigit cs with
  | some ['0'] => true
  | some ds => ds.head? != some '0'
  | none => false

def splitPlaces : List Char → Option (List Char) × List Char
  | '.' :: rest =>
    (some (rest.takeWhile isDigitOrUnderscore), rest.dropWhile isDigitOrUnderscore)
  | cs => (none, cs)

def isExponent : List Char → Bool
  | [] => true
  | c :: rest => c.toLower == 'e' && (digits? Char.isDigit (Numeral.splitSign rest).2).isSome

def infinity : Double := Double.ofMagnitude false Double.infiniteMagnitude

/-- A whole part without extra zeros, then a fraction, an exponent or both. A number too large
for a double is refused, unless it is negative. -/
def float? (cs : List Char) : Option Double :=
  let body := (Numeral.splitSign cs).2
  if body = "inf".toList ∨ body = "nan".toList then Double.read? cs
  else
    let whole := body.takeWhile isDigitOrUnderscore
    let (places, exponent) := splitPlaces (body.dropWhile isDigitOrUnderscore)
    let hasGoodPlaces := places.all fun p => (digits? Char.isDigit p).isSome
    if isWhole whole && hasGoodPlaces && isExponent exponent &&
        (places.isSome || exponent != []) then
      (Double.read? (cs.filter (· ≠ '_'))).filter (· ≠ infinity)
    else none

def word? (cs : List Char) : Option Json :=
  if cs = "true".toList then some (.bool true)
  else if cs = "false".toList then some (.bool false)
  else match integer? cs with
    | some i => if Numeral.fitsSigned i then some (.int i) else none
    | none => (float? cs).map .double

def isWordChar (c : Char) : Bool := c.isAlphanum || c == '+' || c == '-' || c == '_' || c == '.'

def readScalar (cs : List Char) : Option (Json × List Char) :=
  match Moment.read cs with
  | some (moment, after) => some (.text moment.text, after)
  | none =>
    let word := cs.takeWhile isWordChar
    (word? word).map (·, cs.drop word.length)

end AgentAssembly.Toml

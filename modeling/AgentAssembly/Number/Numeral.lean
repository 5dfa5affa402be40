import AgentAssembly.Number.Double

/-!
Reading decimal numerals. Settings are read with one exact rounding; data files round the
digits and the power of ten before they are combined.
-/

namespace AgentAssembly.Numeral

def digitValue (c : Char) : Nat := c.toNat - '0'.toNat

def ofDigits (cs : List Char) : Nat := cs.foldl (fun n c => 10 * n + digitValue c) 0

def natural? (cs : List Char) : Option Nat :=
  if cs ≠ [] ∧ cs.all Char.isDigit then some (ofDigits cs) else none

def splitSign : List Char → Bool × List Char
  | '-' :: rest => (true, rest)
  | '+' :: rest => (false, rest)
  | rest => (false, rest)

def integer? (cs : List Char) : Option Int :=
  (natural? (splitSign cs).2).map fun n => if (splitSign cs).1 then -(n : Int) else n

def fitsSigned (i : Int) : Bool := -0x8000000000000000 ≤ i && i < 0x8000000000000000

def signedWord? (cs : List Char) : Option Int := (integer? cs).filter fitsSigned

def below? (bound : Nat) : List Char → Option Nat
  | '+' :: rest => (natural? rest).filter (· < bound)
  | cs => (natural? cs).filter (· < bound)

def exponent? : List Char → Option Int
  | [] => some 0
  | c :: rest => if c.toLower = 'e' then integer? rest else none

end Numeral

namespace Double
open Numeral

/-- The double nearest to `digits * 10 ^ exponent`. Exponents far outside the range of doubles
are decided without raising ten to them. -/
def ofDecimal (negative : Bool) (digits : Nat) (exponent : Int) : Double :=
  let size : Int := (Nat.toDigits 10 digits).length
  if digits = 0 ∨ exponent + size < -330 then ofMagnitude negative 0
  else if 310 < exponent + size then ofMagnitude negative infiniteMagnitude
  else ofRatio negative (digits * Nat.pow 10 exponent.toNat) (Nat.pow 10 (-exponent).toNat)

/-- Reads a decimal with an optional fraction and exponent, or the name of an infinity or of
what is not a number, in any case. -/
def read? (cs : List Char) : Option Double :=
  let (negative, body) := splitSign cs
  let name := String.ofList (body.map Char.toLower)
  if name = "inf" ∨ name = "infinity" then some (ofMagnitude negative infiniteMagnitude)
  else if name = "nan" then some notANumber
  else
    let whole := body.takeWhile Char.isDigit
    let rest := body.dropWhile Char.isDigit
    let (places, rest) := match rest with
      | '.' :: after => (after.takeWhile Char.isDigit, after.dropWhile Char.isDigit)
      | _ => ([], rest)
    if whole = [] ∧ places = [] then none
    else (exponent? rest).map fun e =>
      ofDecimal negative (ofDigits (whole ++ places)) (e - places.length)

def divideByTen (d : Double) (n : Nat) : Double :=
  if n ≤ 308 then d.div (ofRatio false (Nat.pow 10 n) 1)
  else if d.isZero then d
  else divideByTen (d.div (ofRatio false (Nat.pow 10 308) 1)) (n - 308)
termination_by n

/-- `significand * 10 ^ exponent`, both factors rounded first; nothing when it is too large. -/
def scaledByTen? (negative : Bool) (significand : Nat) (exponent : Int) : Option Double :=
  let d := ofRatio negative significand 1
  if exponent ≤ 0 then some (d.divideByTen exponent.natAbs)
  else if d.isZero then some d
  else if 308 < exponent then none
  else
    let product := d.mul (ofRatio false (Nat.pow 10 exponent.toNat) 1)
    if product.isFinite then some product else none

end Double
end AgentAssembly

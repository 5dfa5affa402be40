import AgentAssembly.Number.Double

/-!
The shortest decimal of a double, and its two written forms. For each number of digits the two
neighbours of the value on that decimal grid are tested against the interval of reals that round
to the double; the first grid with a neighbour inside wins, and of two neighbours the nearer.
-/

namespace AgentAssembly

structure Decimal where
  digits : Nat
  exponent : Int
deriving DecidableEq, Repr

namespace Decimal

def scaleTen (num den : Nat) (shift : Int) : Nat × Nat :=
  (num * Nat.pow 10 (-shift).toNat, den * Nat.pow 10 shift.toNat)

/-- The greatest `k` with `10 ^ k ≤ num / den`, for positive arguments. The first guess is at
most one below. -/
def floorLogTen (num den : Nat) : Int :=
  let guess := Double.floorLogTwo num den * 30103 / 100000
  let (n, d) := scaleTen num den guess
  if n < d then guess - 1 else if 10 * d ≤ n then guess + 1 else guess

/-- Moves the zeros at the end of the digits into the exponent. At most `fuel` of them. -/
def dropZeros : Nat → Decimal → Decimal
  | 0, d => d
  | fuel + 1, d =>
    if d.digits ≠ 0 ∧ d.digits % 10 = 0 then dropZeros fuel ⟨d.digits / 10, d.exponent + 1⟩ else d

/-- The reals that round to a double, with the value itself, in units of a quarter of its last
place. An end belongs to them when the significand is even. -/
structure Interval where
  low : Nat
  value : Nat
  high : Nat
  closed : Bool

def interval (d : Double) : Interval :=
  let m := d.significand
  let unit := Double.exponentUnit
  { low := if m = unit ∧ 2 * unit ≤ d.magnitude then 4 * m - 1 else 4 * m - 2
    value := 4 * m
    high := 4 * m + 2
    closed := m % 2 = 0 }

def Interval.holds (i : Interval) (num den : Nat) : Bool :=
  if i.closed then i.low * den ≤ num && num ≤ i.high * den
  else i.low * den < num && num < i.high * den

/-- The neighbour of the value among the multiples of `10 ^ place` that rounds to the double:
of two the nearer, and the even one where they are equally near. -/
def neighbour? (d : Double) (place : Int) : Option Decimal :=
  let i := interval d
  -- `scale` is the number of quarter units in `10 ^ place`, as a fraction
  let scale := Double.scaleTwo (Nat.pow 10 place.toNat) (Nat.pow 10 (-place).toNat)
    (d.exponent - 2)
  let below := i.value * scale.2 / scale.1
  let inside (n : Nat) : Bool := i.holds (n * scale.1) scale.2
  let toLow := i.value * scale.2 - below * scale.1
  let toHigh := (below + 1) * scale.1 - i.value * scale.2
  match inside below, inside (below + 1) with
  | false, false => none
  | true, false => some ⟨below, place⟩
  | false, true => some ⟨below + 1, place⟩
  | true, true =>
    if toLow < toHigh ∨ (toLow = toHigh ∧ below % 2 = 0) then some ⟨below, place⟩
    else some ⟨below + 1, place⟩

/-- Seventeen digits always suffice. -/
def shortest (d : Double) : Decimal :=
  let top := floorLogTen d.ratio.1 d.ratio.2
  dropZeros 400 <|
    ((List.range 17).findSome? fun (n : Nat) => neighbour? d (top - (n : Int))).getD ⟨0, 0⟩

def leading (d : Decimal) : Int := d.exponent + (Nat.toDigits 10 d.digits).length - 1

def zeros (n : Nat) : List Char := List.replicate n '0'

def positional (d : Decimal) : List Char :=
  let digits := Nat.toDigits 10 d.digits
  let whole := (d.leading + 1).toNat
  if 0 ≤ d.exponent then digits ++ zeros d.exponent.toNat
  else if d.leading < 0 then ['0', '.'] ++ zeros (-d.leading - 1).toNat ++ digits
  else digits.take whole ++ '.' :: digits.drop whole

def scientific (d : Decimal) : List Char :=
  let digits := Nat.toDigits 10 d.digits
  let places := if digits.length = 1 then [] else '.' :: digits.drop 1
  let sign := if d.leading < 0 then '-' else '+'
  digits.take 1 ++ places ++ 'e' :: sign :: Nat.toDigits 10 d.leading.natAbs

end Decimal

namespace Double

def plainText (d : Double) : String :=
  if d.isNaN then "NaN"
  else
    let size :=
      if d.isInfinite then ['i', 'n', 'f']
      else if d.isZero then ['0']
      else (Decimal.shortest d).positional
    String.ofList (if d.isNegative then '-' :: size else size)

/-- The text of a finite double in data files: it always shows that it is no integer, and is
positional when its first digit stands from `10 ^ (-5)` to `10 ^ 15`. -/
def dataText (d : Double) : String :=
  let size :=
    if d.isZero then ['0', '.', '0']
    else
      let s := Decimal.shortest d
      if s.leading < -5 ∨ 15 < s.leading then s.scientific
      else if 0 ≤ s.exponent then s.positional ++ ['.', '0']
      else s.positional
  String.ofList (if d.isNegative then '-' :: size else size)

end Double
end AgentAssembly

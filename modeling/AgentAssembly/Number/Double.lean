/-!
Binary floating-point numbers of 64 bits, as their bit patterns. All arithmetic is exact
arithmetic on natural numbers followed by one rounding, so nothing here rests on the machine's.
-/

namespace AgentAssembly

/-- A bit pattern: a sign, eleven bits of exponent and fifty-two bits of fraction. -/
structure Double where
  bits : UInt64
deriving DecidableEq, Repr

namespace Double

def signUnit : Nat := 0x8000000000000000

def exponentUnit : Nat := 0x10000000000000

def magnitude (d : Double) : Nat := d.bits.toNat % signUnit

def isNegative (d : Double) : Bool := signUnit ≤ d.bits.toNat

def infiniteMagnitude : Nat := 2047 * exponentUnit

def ofMagnitude (negative : Bool) (magnitude : Nat) : Double :=
  ⟨UInt64.ofNat (magnitude + if negative then signUnit else 0)⟩

def zero : Double := ofMagnitude false 0
def infinity : Double := ofMagnitude false infiniteMagnitude
def notANumber : Double := ofMagnitude false (infiniteMagnitude + exponentUnit / 2)

def isNaN (d : Double) : Bool := infiniteMagnitude < d.magnitude
def isInfinite (d : Double) : Bool := d.magnitude == infiniteMagnitude
def isFinite (d : Double) : Bool := d.magnitude < infiniteMagnitude
def isZero (d : Double) : Bool := d.magnitude == 0

def significand (d : Double) : Nat :=
  if d.magnitude < exponentUnit then d.magnitude else exponentUnit + d.magnitude % exponentUnit

def exponent (d : Double) : Int := max (d.magnitude / exponentUnit : Nat) 1 - 1075

def rank (d : Double) : Int := if d.isNegative then -(d.magnitude : Int) else d.magnitude

def le (a b : Double) : Bool := !a.isNaN && !b.isNaN && a.rank ≤ b.rank

instance : LE Double := ⟨fun a b => a.le b = true⟩
instance (a b : Double) : Decidable (a ≤ b) := inferInstanceAs (Decidable (a.le b = true))

def roundToEven (num den : Nat) : Nat :=
  let q := num / den
  let twice := 2 * (num % den)
  if twice < den ∨ (twice = den ∧ q % 2 = 0) then q else q + 1

def roundUp (num den : Nat) : Nat := (2 * num + den) / (2 * den)

def scaleTwo (num den : Nat) (shift : Int) : Nat × Nat :=
  (num * Nat.pow 2 (-shift).toNat, den * Nat.pow 2 shift.toNat)

def floorLogTwo (num den : Nat) : Int :=
  let k : Int := (num.log2 : Int) - den.log2
  let (n, d) := scaleTwo num den k
  if n < d then k - 1 else k

/-- The double nearest to `num / den`; of two, the one with the even pattern. What lies beyond
the finite doubles becomes infinite. -/
def ofRatio (negative : Bool) (num den : Nat) : Double :=
  if num = 0 then ofMagnitude negative 0
  else
    let shift := max (floorLogTwo num den - 52) (-1074)
    let (n, d) := scaleTwo num den shift
    ofMagnitude negative
      (min ((shift + 1074).toNat * exponentUnit + roundToEven n d) infiniteMagnitude)

def ratio (d : Double) : Nat × Nat := scaleTwo d.significand 1 (-d.exponent)

def ofInt (i : Int) : Double := ofRatio (i < 0) i.natAbs 1

def mul (a b : Double) : Double :=
  ofRatio (a.isNegative != b.isNegative) (a.ratio.1 * b.ratio.1) (a.ratio.2 * b.ratio.2)

def div (a b : Double) : Double :=
  ofRatio (a.isNegative != b.isNegative) (a.ratio.1 * b.ratio.2) (a.ratio.2 * b.ratio.1)

/-- The nearest whole number within an unsigned word: a half is rounded up, and what lies
outside the word, or is not a number, becomes the nearer end. -/
def toWord (d : Double) : UInt64 :=
  if d.isNaN || d.isNegative then 0
  else if d.isInfinite then UInt64.ofNat (UInt64.size - 1)
  else UInt64.ofNat (min (roundUp d.ratio.1 d.ratio.2) (UInt64.size - 1))

end Double
end AgentAssembly

import AgentAssembly.Number.Numeral
import AgentAssembly.Text.Blank

/-!
Moments, counted in nanoseconds from the start of 1970, and their text: a date, a time and the
offset of its clock.
-/

namespace AgentAssembly

structure Timestamp where
  nanos : Int
deriving DecidableEq, Repr

namespace Timestamp

def nanosPerSecond : Nat := 1000000000

structure Date where
  year : Int
  month : Nat
  day : Nat
deriving DecidableEq, Repr

/-- The number of the day, counted from 1970-01-01. The calendar repeats after 400 years of
146097 days, and years are taken from March so that leap days come last. -/
def Date.toDays (d : Date) : Int :=
  let year := if d.month ≤ 2 then d.year - 1 else d.year
  let era := Int.fdiv year 400
  let yearOfEra := year - era * 400
  let month := (d.month + 9) % 12
  let dayOfYear : Int := (153 * month + 2) / 5 + d.day - 1
  era * 146097 + yearOfEra * 365 + yearOfEra / 4 - yearOfEra / 100 + dayOfYear - 719468

def Date.ofDays (days : Int) : Date :=
  let shifted := days + 719468
  let era := Int.fdiv shifted 146097
  let dayOfEra := (shifted - era * 146097).toNat
  let yearOfEra := (dayOfEra - dayOfEra / 1460 + dayOfEra / 36524 - dayOfEra / 146096) / 365
  let dayOfYear := dayOfEra - (365 * yearOfEra + yearOfEra / 4 - yearOfEra / 100)
  let month := (5 * dayOfYear + 2) / 153
  let day := dayOfYear - (153 * month + 2) / 5 + 1
  let year : Int := era * 400 + yearOfEra
  if month < 10 then ⟨year, month + 3, day⟩ else ⟨year + 1, month - 9, day⟩

def isLeap (year : Int) : Bool := year % 4 = 0 && (year % 100 ≠ 0 || year % 400 = 0)

def daysInMonth (year : Int) (month : Nat) : Nat :=
  if month = 2 then (if isLeap year then 29 else 28)
  else if month = 4 ∨ month = 6 ∨ month = 9 ∨ month = 11 then 30
  else 31

def Date.isValid (d : Date) : Bool :=
  1 ≤ d.month && d.month ≤ 12 && 1 ≤ d.day && d.day ≤ daysInMonth d.year d.month

def padded (width n : Nat) : List Char :=
  let digits := Nat.toDigits 10 n
  List.replicate (width - digits.length) '0' ++ digits

def fractionText (nanos : Nat) : List Char :=
  if nanos = 0 then []
  else if nanos % 1000000 = 0 then '.' :: padded 3 (nanos / 1000000)
  else if nanos % 1000 = 0 then '.' :: padded 6 (nanos / 1000)
  else '.' :: padded 9 nanos

def yearText (year : Int) : List Char :=
  if year < 0 then '-' :: padded 4 year.natAbs
  else if 9999 < year then '+' :: padded 5 year.toNat
  else padded 4 year.toNat

def text (t : Timestamp) : String :=
  let seconds := Int.fdiv t.nanos nanosPerSecond
  let nanos := (t.nanos - seconds * nanosPerSecond).toNat
  let days := Int.fdiv seconds 86400
  let second := (seconds - days * 86400).toNat
  let date := Date.ofDays days
  String.ofList <|
    yearText date.year ++ '-' :: padded 2 date.month ++ '-' :: padded 2 date.day ++
      'T' :: padded 2 (second / 3600) ++ ':' :: padded 2 (second / 60 % 60) ++
      ':' :: padded 2 (second % 60) ++ fractionText nanos ++ ['Z']

def skipBlank (cs : List Char) : List Char := cs.dropWhile Text.isBlankChar

def readDigits (cs digits : List Char) : Option (Nat × List Char) :=
  (Numeral.natural? digits).map (·, cs.drop digits.length)

def readField (width : Nat) (cs : List Char) : Option (Nat × List Char) :=
  let cs := skipBlank cs
  readDigits cs ((cs.take width).takeWhile Char.isDigit)

def readYear (cs : List Char) : Option (Int × List Char) :=
  match skipBlank cs with
  | '-' :: rest => (readDigits rest (rest.takeWhile Char.isDigit)).map fun (n, rest) => (-n, rest)
  | '+' :: rest => (readDigits rest (rest.takeWhile Char.isDigit)).map fun (n, rest) => (n, rest)
  | cs => (readField 4 cs).map fun (n, rest) => (n, rest)

def readChar (allowed : List Char) : List Char → Option (List Char)
  | c :: rest => if c ∈ allowed then some rest else none
  | [] => none

def readMark (mark : Char) (cs : List Char) : Option (List Char) := readChar [mark] (skipBlank cs)

/-- Reads the places after the second; what lies below a nanosecond is dropped. -/
def readFraction : List Char → Option (Nat × List Char)
  | '.' :: rest =>
    let digits := rest.takeWhile Char.isDigit
    let kept := digits.take 9
    (Numeral.natural? kept).map fun n => (n * Nat.pow 10 (9 - kept.length), rest.drop digits.length)
  | rest => some (0, rest)

def readPair : List Char → Option (Nat × List Char)
  | a :: b :: rest => (Numeral.natural? [a, b]).map (·, rest)
  | _ => none

/-- The hours and minutes of an offset. Colons and white space may stand between them. -/
def readClock (cs : List Char) : Option (Nat × List Char) := do
  let (hours, cs) ← readPair cs
  let (minutes, cs) ← readPair (cs.dropWhile fun c => c == ':' || Text.isBlankChar c)
  if 24 ≤ hours ∨ 60 ≤ minutes then none
  return (60 * hours + minutes, cs)

/-- Reads the offset of a clock, in minutes: none, or a sign with hours and minutes. The sign of
minus may be a hyphen. -/
def readOffset (cs : List Char) : Option (Int × List Char) :=
  if (cs.take 3).map Char.toLower = ['u', 't', 'c'] then some (0, cs.drop 3)
  else match cs with
  | c :: rest =>
    if c = 'Z' ∨ c = 'z' then some (0, rest)
    else if c = '+' then (readClock rest).map fun (n, rest) => (n, rest)
    else if c = '-' ∨ c = '\u2212' then (readClock rest).map fun (n, rest) => (-n, rest)
    else none
  | [] => none

/-- The years that a date may lie in, by its own clock and without its offset. -/
def firstYear : Int := -262143

def lastYear : Int := 262142

def isInRange (days : Int) : Bool :=
  Date.toDays ⟨firstYear, 1, 1⟩ ≤ days && days ≤ Date.toDays ⟨lastYear, 12, 31⟩

/-- Reads a date, a time and an offset. White space may stand before each part but the letter
between date and time. The second 60 runs on in the one before it. -/
def ofText? (text : String) : Option Timestamp := do
  let (year, cs) ← readYear text.toList
  let cs ← readMark '-' cs
  let (month, cs) ← readField 2 cs
  let cs ← readMark '-' cs
  let (day, cs) ← readField 2 cs
  let cs ← readChar ['T', 't', ' '] cs
  let (hour, cs) ← readField 2 cs
  let cs ← readMark ':' cs
  let (minute, cs) ← readField 2 cs
  let cs ← readMark ':' cs
  let (second, cs) ← readField 2 cs
  let (nanos, cs) ← readFraction cs
  let (offset, cs) ← readOffset (skipBlank cs)
  let date : Date := ⟨year, month, day⟩
  if !date.isValid ∨ 24 ≤ hour ∨ 60 ≤ minute ∨ 60 < second then none
  if !cs.all Text.isBlankChar then none
  let whole := min second 59
  let seconds := date.toDays * 86400 + hour * 3600 + minute * 60 + whole - offset * 60
  if !isInRange date.toDays ∨ !isInRange (Int.fdiv seconds 86400) then none
  return ⟨seconds * nanosPerSecond + (second - whole) * nanosPerSecond + nanos⟩

end Timestamp
end AgentAssembly

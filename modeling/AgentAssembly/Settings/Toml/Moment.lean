import AgentAssembly.Data.Timestamp

/-!
Dates and times of a document. A moment is a date, a time of day, or both with a letter or a
space between them, and then the offset of its clock may follow.
-/

namespace AgentAssembly.Toml

structure TimeOfDay where
  hour : Nat
  minute : Nat
  second : Nat
  nanos : Nat
deriving DecidableEq, Repr

/-- How far a clock is ahead of universal time, which has a letter of its own. -/
inductive ClockOffset
  | universal
  | minutes (value : Int)
deriving DecidableEq, Repr

structure Moment where
  date : Option Timestamp.Date := none
  time : Option TimeOfDay := none
  offset : Option ClockOffset := none
deriving DecidableEq, Repr

namespace Moment

def readDigits (size : Nat) (cs : List Char) : Option (Nat × List Char) :=
  if cs.length < size then none
  else (Numeral.natural? (cs.take size)).map (·, cs.drop size)

def readField (mark : Char) (limit : Nat) (cs : List Char) : Option (Nat × List Char) := do
  let cs ← Timestamp.readChar [mark] cs
  let (n, cs) ← readDigits 2 cs
  if limit < n then none
  return (n, cs)

def readDate (cs : List Char) : Option (Timestamp.Date × List Char) := do
  let (year, cs) ← readDigits 4 cs
  let (month, cs) ← readField '-' 12 cs
  let (day, cs) ← readField '-' 31 cs
  let date : Timestamp.Date := ⟨year, month, day⟩
  if date.isValid then some (date, cs) else none

def readPlaces (cs : List Char) : Nat × List Char :=
  match Timestamp.readFraction cs with
  | some read => read
  | none => (0, cs)

def readTime (cs : List Char) : Option (TimeOfDay × List Char) := do
  let (hour, cs) ← readDigits 2 cs
  if 23 < hour then none
  let (minute, cs) ← readField ':' 59 cs
  let (second, cs) ← readField ':' 60 cs
  let (nanos, cs) := readPlaces cs
  return (⟨hour, minute, second, nanos⟩, cs)

/-- Reads an offset where there is one. A sign must have hours and minutes behind it. -/
def readOffset (cs : List Char) : Option (Option ClockOffset × List Char) :=
  match cs with
  | c :: rest =>
    if c = 'Z' ∨ c = 'z' then some (some .universal, rest)
    else if c = '+' ∨ c = '-' then do
      let (hours, rest) ← readField c 23 cs
      let (minutes, rest) ← readField ':' 59 rest
      let value : Int := 60 * hours + minutes
      return (some (.minutes (if c = '-' then -value else value)), rest)
    else some (none, cs)
  | [] => some (none, [])

def afterMark? (cs : List Char) : Option (List Char) :=
  match Timestamp.readChar ['T', 't', ' '] cs with
  | some (a :: b :: ':' :: rest) =>
    if a.isDigit && b.isDigit then some (a :: b :: ':' :: rest) else none
  | _ => none

def read (cs : List Char) : Option (Moment × List Char) :=
  match readDate cs with
  | some (date, rest) =>
    match afterMark? rest with
    | none => some ({ date }, rest)
    | some rest => do
      let (time, rest) ← readTime rest
      let (offset, rest) ← readOffset rest
      return ({ date, time, offset }, rest)
  | none => (readTime cs).map fun (time, rest) => ({ time }, rest)

def dateText (d : Timestamp.Date) : List Char :=
  Timestamp.padded 4 d.year.toNat ++ '-' :: Timestamp.padded 2 d.month ++
    '-' :: Timestamp.padded 2 d.day

def placesText (nanos : Nat) : List Char :=
  if nanos = 0 then [] else '.' :: Text.dropEndWhile (· == '0') (Timestamp.padded 9 nanos)

def timeText (t : TimeOfDay) : List Char :=
  Timestamp.padded 2 t.hour ++ ':' :: Timestamp.padded 2 t.minute ++
    ':' :: Timestamp.padded 2 t.second ++ placesText t.nanos

def offsetText : ClockOffset → List Char
  | .universal => ['Z']
  | .minutes value =>
    (if value < 0 then '-' else '+') :: Timestamp.padded 2 (value.natAbs / 60) ++
      ':' :: Timestamp.padded 2 (value.natAbs % 60)

def text (m : Moment) : String :=
  let date := (m.date.map dateText).getD []
  let time := (m.time.map timeText).getD []
  let mark := if m.date.isSome && m.time.isSome then ['T'] else []
  String.ofList (date ++ mark ++ time ++ (m.offset.map offsetText).getD [])

end Moment
end AgentAssembly.Toml

import AgentAssembly.Text.Lines

/-!
Double-quoted literals, as data files and generated modules write them: seven characters have
a short escape, the other control characters are written by number, all else stands as it is.
-/

namespace AgentAssembly.Text.Quoted

/-- The characters with a short escape, each with the letter that follows the backslash. -/
def shortEscapes : List (Char × Char) :=
  [('"', '"'), ('\\', '\\'), ('\x08', 'b'), ('\x0c', 'f'), ('\n', 'n'), ('\r', 'r'), ('\t', 't')]

def hexDigits : List Char :=
  ['0', '1', '2', '3', '4', '5', '6', '7', '8', '9', 'a', 'b', 'c', 'd', 'e', 'f']

def hexDigit (n : Nat) : Char := hexDigits.getD n '0'

def hexValue? (c : Char) : Option Nat := hexDigits.findIdx? (· == c.toLower)

def escapeChar (c : Char) : List Char :=
  match shortEscapes.lookup c with
  | some letter => ['\\', letter]
  | none =>
    if c.toNat < 0x20 then
      ['\\', 'u', '0', '0', hexDigit (c.toNat / 16), hexDigit (c.toNat % 16)]
    else [c]

def encode (cs : List Char) : List Char :=
  '"' :: (cs.flatMap escapeChar ++ ['"'])

def unescape? (letter : Char) : Option Char :=
  (shortEscapes.find? (·.2 == letter)).map (·.1)

def hexNumber? (digits : List Char) : Option Nat :=
  (digits.mapM hexValue?).map (·.foldl (fun n d => 16 * n + d) 0)

def hexQuad? (a b c d : Char) : Option Nat := do
  return (((← hexValue? a) * 16 + (← hexValue? b)) * 16 + (← hexValue? c)) * 16 + (← hexValue? d)

def scalar? (n : Nat) : Option Char :=
  if n.isValidChar then some (Char.ofNat n) else none

/-- Reads the inside of a literal up to its closing quote, and gives what follows it. A line
break or an unknown escape inside is refused. -/
def read : List Char → Option (List Char × List Char)
  | [] => none
  | '"' :: rest => some ([], rest)
  | '\\' :: 'u' :: a :: b :: c :: d :: rest =>
    match (hexQuad? a b c d).bind scalar?, read rest with
    | some x, some (text, after) => some (x :: text, after)
    | _, _ => none
  | '\\' :: letter :: rest =>
    match unescape? letter, read rest with
    | some x, some (text, after) => some (x :: text, after)
    | _, _ => none
  | x :: rest =>
    if isLineBreak x then none
    else (read rest).map fun (text, after) => (x :: text, after)

def decode : List Char → Option (List Char × List Char)
  | '"' :: rest => read rest
  | _ => none

def literal (text : String) : String := String.ofList (encode text.toList)

end AgentAssembly.Text.Quoted

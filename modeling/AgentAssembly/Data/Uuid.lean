import AgentAssembly.Text.Lines
import AgentAssembly.Text.Quoted

/-!
Identifiers of 128 bits, written as five groups of hexadecimal digits.
-/

namespace AgentAssembly

structure Uuid where
  value : BitVec 128
deriving DecidableEq, Repr

namespace Uuid

def groupSizes : List Nat := [8, 4, 4, 4, 12]

def digits (id : Uuid) : List Char :=
  (List.range 32).map fun i => Text.Quoted.hexDigit (id.value.toNat / Nat.pow 16 (31 - i) % 16)

def cut : List Nat → List Char → List (List Char)
  | [], _ => []
  | n :: sizes, cs => cs.take n :: cut sizes (cs.drop n)

def text (id : Uuid) : String := String.ofList (['-'].intercalate (cut groupSizes id.digits))

def ofDigits? (cs : List Char) : Option Uuid := do
  let n ← Text.Quoted.hexNumber? cs
  if cs.length ≠ 32 then none
  return ⟨BitVec.ofNat 128 n⟩

def scheme : List Char := "urn:uuid:".toList

def unwrapped (cs : List Char) : List Char :=
  if cs.head? = some '\x7b' ∧ cs.getLast? = some '\x7d' then (cs.drop 1).dropLast
  else if (cs.take scheme.length).map Char.toLower = scheme then cs.drop scheme.length
  else cs

def ofGroups? (cs : List Char) : Option Uuid :=
  let groups := Text.pieces (· == '-') cs
  if groups.map List.length = groupSizes then ofDigits? groups.flatten else none

/-- Reads the digits alone, or the groups, which may stand in braces or after the scheme. -/
def ofText? (text : String) : Option Uuid :=
  let cs := text.toList
  ofDigits? cs <|> ofGroups? (unwrapped cs)

end Uuid
end AgentAssembly

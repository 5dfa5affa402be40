import AgentAssembly.Number.Numeral
import AgentAssembly.Settings.Logging
import AgentAssembly.Settings.LogFilter.Pattern
import AgentAssembly.Text.Lines

/-!
Log filters: directives with commas between them, each a level, a target, or a target with a
level. A target may name a span in brackets, with fields in braces and patterns for their values.
-/

namespace AgentAssembly.LogFilter

def levelNames : List String := ["off", "error", "warn", "info", "debug", "trace"]

def isLevel (cs : List Char) : Bool :=
  levelNames.contains (String.ofList (cs.map Char.toLower)) || (Numeral.below? 6 cs).isSome

/-- The value of a field is a number or a pattern; truth values are patterns too. -/
def isFieldValue (cs : List Char) : Bool := (Double.read? cs).isSome || Pattern.isValid cs

def isField (cs : List Char) : Bool :=
  match Text.pieces (· == '=') cs with
  | _ :: value :: _ => isFieldValue value
  | _ => cs != []

def isTargetStart (c : Char) : Bool :=
  Text.Alphanumeric.holds c || c == '-' || c == ':' || c == '_'

/-- The part of a directive that a character belongs to. Parts that are looked at later carry
the offset at which they start, in bytes. -/
inductive Part
  | opening
  | target
  | span
  | field (start : Nat)
  | fields
  | spanned
  | level (start : Nat)
deriving DecidableEq, Repr

/-- The characters that start at the byte `start` or later, and before the byte `stop`. -/
def slice (start stop : Nat) : List Char → List Char
  | [] => []
  | c :: rest =>
    if stop = 0 then []
    else if start = 0 then c :: slice 0 (stop - c.utf8Size) rest
    else slice (start - c.utf8Size) (stop - c.utf8Size) rest

def Part.next? (written : List Char) (offset : Nat) (c : Char) : Part → Option Part
  | .opening => if c = '[' then some .span else if isTargetStart c then some .target else none
  | .target =>
    some (if c = '=' then .level (offset + 1) else if c = '[' then .span else .target)
  | .span =>
    some (if c = ']' then .spanned else if c = '\x7b' then .field (offset + 1) else .span)
  | .field start =>
    if c ≠ '\x7d' then some (.field start)
    else if isField (slice start offset written) then some .fields
    else none
  | .fields => if c = ']' then some .spanned else none
  | .spanned => if c = '=' then some (.level (offset + 1)) else none
  | .level start => some (.level start)

/-- A directive may end in this part. What is written after a sign of equality is a level or
nothing. -/
def Part.isEnd (written : List Char) : Part → Bool
  | .target | .spanned => true
  | .level start =>
    let level := slice start (String.ofList written).utf8ByteSize written
    level = [] || isLevel level
  | _ => false

def follow (written : List Char) : Nat → Part → List Char → Bool
  | _, part, [] => part.isEnd written
  | offset, part, c :: rest =>
    match part.next? written offset c with
    | none => false
    | some part => follow written (offset + c.utf8Size) part rest

/-- Parts are found in the directive without the white space around it, and fields and levels are
taken at their offsets from the directive as it is written. -/
def isDirective (written : List Char) : Bool :=
  follow written 0 .opening (Text.trimChars Text.isBlankChar written)

def isValid (filter : String) : Bool :=
  ((Text.pieces (· == ',') filter.toList).filter (!·.isEmpty)).all isDirective

def library : LogLibrary String where
  filter text := if isValid text then .ok text else .error "invalid filter directive"
  alreadyInstalled := "a global default trace dispatcher has already been set"

end AgentAssembly.LogFilter

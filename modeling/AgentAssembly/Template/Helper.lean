import AgentAssembly.Data.Record
import AgentAssembly.Text.Lines
import AgentAssembly.Text.TripleQuoted

/-!
The helpers that templates of source text may call, with values of any kind as arguments.
Arguments beyond those a helper needs are ignored.
-/

namespace AgentAssembly.Template

open Json

inductive Helper
  | literal
  | docstring
  | join
  | indent
deriving DecidableEq, Repr

def Helper.ofName? : String → Option Helper
  | "py_str" => some .literal
  | "py_doc" => some .docstring
  | "join" => some .join
  | "indent" => some .indent
  | _ => none

inductive HelperFault
  | noLiteral
  | noDocstring
  | noJoin
  | notArray
  | noIndent
  | noWidth
deriving DecidableEq, Repr

def HelperFault.message : HelperFault → String
  | .noLiteral => "py_str helper requires exactly one parameter"
  | .noDocstring => "py_doc helper requires exactly one parameter"
  | .noJoin => "join helper requires two parameters"
  | .notArray => "join helper expects an array"
  | .noIndent => "indent helper requires two parameters"
  | .noWidth => "indent helper requires a numeric width"

mutual

/-- The text of a value in a template: a text is itself, null is nothing, and every item of an
array is followed by a comma. -/
def display : Json → String
  | .null => ""
  | .text s => s
  | .array items => "[" ++ displayItems items ++ "]"
  | .object _ => "[object]"
  | .bool true => "true"
  | .bool false => "false"
  | .int i => toString i
  | .double d => (Json.double d).compact

def displayItems : List Json → String
  | [] => ""
  | item :: rest => display item ++ ", " ++ displayItems rest

end

namespace Helper

def joinItems : List Json → Except HelperFault String
  | .array items :: separator :: _ => .ok ((display separator).intercalate (items.map display))
  | _ :: _ :: _ => .error .notArray
  | _ => .error .noJoin

def indentBlock : List Json → Except HelperFault String
  | [] => .error .noIndent
  | value :: rest =>
    match rest.head?.bind (natBelow? UInt64.size) with
    | some width => .ok (Text.indentLines width (display value))
    | none => .error .noWidth

def apply : Helper → List Json → Except HelperFault String
  | .literal, value :: _ => .ok (Text.Quoted.literal (display value))
  | .literal, [] => .error .noLiteral
  | .docstring, value :: _ => .ok (Text.TripleQuoted.escape (display value))
  | .docstring, [] => .error .noDocstring
  | .join, arguments => joinItems arguments
  | .indent, arguments => indentBlock arguments

end Helper
end AgentAssembly.Template

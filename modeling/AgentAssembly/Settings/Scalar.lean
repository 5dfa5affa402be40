import AgentAssembly.Data.Json
import AgentAssembly.Number.Numeral

/-!
Texts that are taken for truth values or numbers where they look like them.
-/

namespace AgentAssembly

inductive Scalar
  | truth (value : Bool)
  | integer (value : Int)
  | decimal (value : Double)
  | wording (text : String)
deriving DecidableEq, Repr

namespace Scalar

/-- A truth value in any case, a signed word, a double, or else the text itself. -/
def ofText (text : String) : Scalar :=
  let cs := text.toList
  let word := String.ofList (cs.map Char.toLower)
  if word = "true" then .truth true
  else if word = "false" then .truth false
  else match Numeral.signedWord? cs with
    | some i => .integer i
    | none =>
      match Double.read? cs with
      | some d => .decimal d
      | none => .wording text

def toJson : Scalar → Json
  | .truth b => .bool b
  | .integer i => .int i
  | .decimal d => .double d
  | .wording text => .text text

def shown : Scalar → String
  | .truth b => if b then "true" else "false"
  | .integer i => toString i
  | .decimal d => d.plainText
  | .wording text => text

end Scalar
end AgentAssembly

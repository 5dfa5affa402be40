import AgentAssembly.Identifier
import AgentAssembly.Package.Source
import AgentAssembly.Project.Tool
import AgentAssembly.Text.Lines

/-!
The module of one generated tool: its imports and one function, with the stored code as body.
-/

namespace AgentAssembly.ToolModule

open Source Identifier

def importLine (text : String) : String :=
  let line := Text.trim text
  if "import ".toList.isPrefixOf line.toList ∨ "from ".toList.isPrefixOf line.toList then line
  else "import " ++ line

def importLines (t : Tool) : List String :=
  if t.imports.isEmpty then [] else t.imports.map importLine ++ ["", ""]

def description (t : Tool) : String :=
  if Text.isBlank t.description then "Run the " ++ t.name ++ " tool." else t.description

def head (t : Tool) : String :=
  "def " ++ toolFunction t.name ++ "(" ++ commaList (t.parameters.map (·.signature)) ++ "):"

def bodyIndent : Nat := 4

def lines (t : Tool) : List String :=
  [docstring "" ("Implementation of the " ++ t.name ++ " tool.") "", ""] ++ importLines t ++
  [head t, "    " ++ docstring "" (description t) "", Text.indentLines bodyIndent t.code]

def text (t : Tool) : String := ofLines (lines t)

end AgentAssembly.ToolModule

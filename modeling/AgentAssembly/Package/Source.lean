import AgentAssembly.Data.Distinct
import AgentAssembly.Text.Quoted
import AgentAssembly.Text.TripleQuoted

/-!
Pieces of generated source text.
-/

namespace AgentAssembly.Source

def ofLines (lines : List String) : String := String.join (lines.map (· ++ "\n"))

def docstring (before text after : String) : String :=
  "\"\"\"" ++ before ++ Text.TripleQuoted.escape text ++ after ++ "\"\"\""

def literal (text : String) : String := Text.Quoted.literal text

def commaList (names : List String) : String := ", ".intercalate names

end AgentAssembly.Source

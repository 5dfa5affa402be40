import AgentAssembly.Identifier
import AgentAssembly.Project

/-!
Import lines of a package. A line binds one symbol, taken from the agent framework or from a
module of the package; agents and tools know the lines by which others reach them.
-/

namespace AgentAssembly

open Identifier

/-- A line that imports one symbol. The last three name a module of the package: of a tool or an
agent as seen from an agent module, and of an agent as seen from the entry point. -/
inductive Import
  | agentClass
  | generationTypes
  | builtin (symbol : String)
  | tool (file symbol : String)
  | subAgent (file symbol : String)
  | agent (file symbol : String)
deriving DecidableEq, Repr

namespace Import

def symbol : Import → String
  | .agentClass => "Agent"
  | .generationTypes => "types"
  | .builtin symbol => symbol
  | .tool _ symbol => symbol
  | .subAgent _ symbol => symbol
  | .agent _ symbol => symbol

def origin : Import → String
  | .agentClass => "google.adk.agents"
  | .generationTypes => "google.genai"
  | .builtin _ => "google.adk.tools"
  | .tool file _ => "..tools." ++ file
  | .subAgent file _ => "." ++ file
  | .agent file _ => ".agents." ++ file

def line (i : Import) : String := "from " ++ i.origin ++ " import " ++ i.symbol

end Import

def Tool.toImport (t : Tool) : Import :=
  if t.isGenerated then .tool (moduleName t.name) (toolFunction t.name)
  else .builtin t.builtinReference

def Agent.toImport (a : Agent) : Import := .subAgent (moduleName a.name) (agentVariable a.name)

def Agent.toEntryImport (a : Agent) : Import := .agent (moduleName a.name) (agentVariable a.name)

end AgentAssembly

import AgentAssembly.Package.Import
import AgentAssembly.Package.Source

/-!
The module through which a package is loaded: it imports every agent and names the root agent.
-/

namespace AgentAssembly

open Source Identifier

structure EntryPoint where
  project : String
  imports : List Import
  root : String
deriving DecidableEq, Repr

namespace EntryPoint

def root? (p : Project) : Option Agent := p.rootName?.bind p.agent?

/-- The entry point of a project with the given root; agents are imported in their order. -/
def ofProject (p : Project) (root : Agent) : EntryPoint where
  project := p.name
  imports := p.agents.map (·.toEntryImport)
  root := agentVariable root.name

def lines (e : EntryPoint) : List String :=
  [docstring "Entry point for the " e.project " agent system.", ""] ++ e.imports.map (·.line) ++
  ["", "root_agent = " ++ e.root, "", "__all__ = [\"root_agent\"]"]

def text (e : EntryPoint) : String := ofLines e.lines

end EntryPoint
end AgentAssembly

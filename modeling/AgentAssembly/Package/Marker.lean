import AgentAssembly.Package.Source
import AgentAssembly.Project

/-!
The files that mark the directories of a package as packages.
-/

namespace AgentAssembly.Marker

open Source

def packageLines (p : Project) : List String :=
  [docstring "" p.name " agent package.", "", "from . import agent"]

def agentsLines (p : Project) : List String := [docstring "Agent definitions for " p.name "."]

def toolsLines (p : Project) : List String := [docstring "Tool implementations for " p.name "."]

end AgentAssembly.Marker

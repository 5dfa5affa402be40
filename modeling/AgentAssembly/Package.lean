import AgentAssembly.Package.AgentModule
import AgentAssembly.Package.EntryPoint
import AgentAssembly.Package.Listing
import AgentAssembly.Package.Marker
import AgentAssembly.Package.Runner
import AgentAssembly.Package.ToolModule

/-!
The package of a project: its files by relative path. Files are written in a fixed order, and a
later one takes the place of an earlier one with the same path.
-/

namespace AgentAssembly

open Identifier

abbrev FileSet := Dict String String

namespace Package

def topFiles : List String :=
  ["__init__.py", "agent.py", "requirements.txt", ".env.example", "quick_start.py"]

def directories : List String := ["agents", "tools"]

def quickStartFlag : String := "quick_start"

def agentPath (a : Agent) : String := "agents/" ++ moduleName a.name ++ ".py"

def toolPath (t : Tool) : String := "tools/" ++ moduleName t.name ++ ".py"

def agentFiles (p : Project) : Except RenderFault (List (String × String)) :=
  p.agents.mapM fun a => (AgentModule.ofAgent p a).map fun m => (agentPath a, m.text)

def toolFiles (p : Project) : List (String × String) :=
  p.generatedTools.map fun t => (toolPath t, ToolModule.text t)

def frameFiles (p : Project) (root : Agent) : List (String × String) :=
  [("agent.py", (EntryPoint.ofProject p root).text),
   ("__init__.py", Source.ofLines (Marker.packageLines p)),
   ("agents/__init__.py", Source.ofLines (Marker.agentsLines p))] ++
  (if p.generatedTools.isEmpty then []
   else [("tools/__init__.py", Source.ofLines (Marker.toolsLines p))]) ++
  [("requirements.txt", Source.ofLines (Listing.requirementLines p)),
   (".env.example", Source.ofLines (Listing.variableHeader p :: Listing.variableLines p))] ++
  (if p.buildContext.flag quickStartFlag true then
     [("quick_start.py", Source.ofLines (Runner.lines p))]
   else [])

end Package

namespace Project

open Package

def render (p : Project) : Except RenderFault FileSet :=
  match agentFiles p with
  | .error fault => .error fault
  | .ok agents =>
    match EntryPoint.root? p with
    | none => .error .noRoot
    | some root => .ok (.ofList (agents ++ toolFiles p ++ frameFiles p root))

end Project
end AgentAssembly

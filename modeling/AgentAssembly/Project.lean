import AgentAssembly.Data.Timestamp
import AgentAssembly.Data.Uuid
import AgentAssembly.Project.BuildContext
import AgentAssembly.Project.Tool

/-!
Projects and the edits of a project. An edit is a program on the project, which checks, writes, and
renews the time of the last update. Names, their uniqueness and the limits are checked here;
references between definitions are not.
-/

namespace AgentAssembly

open Mutation
open Text (isBlank)

structure Limits where
  maxAgents : Nat := 10
  maxTools : Nat := 20
deriving DecidableEq, Repr, Inhabited

structure Project where
  id : Uuid
  name : String
  metadata : Dict String Json := ∅
  agents : List Agent := []
  tools : List Tool := []
  buildContext : BuildContext := {}
  createdAt : Timestamp
  updatedAt : Timestamp
deriving DecidableEq

structure Summary where
  projectId : Uuid
  name : String
  agentNames : List String
  toolNames : List String
  agentCount : Nat
  toolCount : Nat
  buildContext : BuildContext
  createdAt : Timestamp
  updatedAt : Timestamp
deriving DecidableEq

def projectNameFault? (name : String) : Option InputFault :=
  if isBlank name then some (.blankName .project) else lineFault? .projectName name

namespace Project

def blank (id : Uuid) (now : Timestamp) (name : String) : Project :=
  { id, name, createdAt := now, updatedAt := now }

def new (id : Uuid) (now : Timestamp) (name : String) : Except ProjectError Project :=
  match projectNameFault? name with
  | some fault => .error (.invalidInput fault)
  | none => .ok (blank id now name)

def agentNames (p : Project) : List String := p.agents.map (·.name)

def toolNames (p : Project) : List String := p.tools.map (·.name)

def agent? (p : Project) (name : String) : Option Agent := p.agents.find? (·.name == name)

def tool? (p : Project) (name : String) : Option Tool := p.tools.find? (·.name == name)

def hasAgent (p : Project) (name : String) : Bool := (p.agent? name).isSome

def hasTool (p : Project) (name : String) : Bool := (p.tool? name).isSome

def generatedTools (p : Project) : List Tool := p.tools.filter (·.isGenerated)

def description? (p : Project) : Option String :=
  match p.metadata.get? "description" with
  | some (.text s) => some s
  | _ => none

def isDelegate (p : Project) (name : String) : Bool :=
  p.agents.any fun a => a.name != name && a.delegatesTo name

/-- The agent that leads the system: the primary agent if one is set, else the first that no
other agent delegates to, else the first of all. -/
def rootName? (p : Project) : Option String :=
  p.buildContext.primaryAgent.or
    (((p.agents.find? fun a => !p.isDelegate a.name).or p.agents.head?).map (·.name))

def requirements (p : Project) : List String := distinct p.buildContext.requirements

def summary (p : Project) : Summary where
  projectId := p.id
  name := p.name
  agentNames := p.agentNames
  toolNames := p.toolNames
  agentCount := p.agents.length
  toolCount := p.tools.length
  buildContext := p.buildContext
  createdAt := p.createdAt
  updatedAt := p.updatedAt

end Project

abbrev Edit (α : Type) := Mutation Project ProjectError α

namespace Edit

variable {α β : Type}

def refuseInput (fault? : Option InputFault) : Edit Unit :=
  refuse fun _ => fault?.map .invalidInput

def stamp (now : Timestamp) : Edit Unit := modify fun p => { p with updatedAt := now }

/-- Gives back something else, which may depend on the project after the edit. -/
def answering (e : Edit α) (f : α → Project → β) : Edit β := do
  let a ← e
  return f a (← get)

end Edit

namespace Project

open Edit

def changing {α : Type} (change : Mutation α InputFault Unit) : Mutation α ProjectError α := do
  change.adapt .invalidInput
  get

def rename? (patch : Dict String Json) : Edit (Option String) :=
  match patch.get? "name" with
  | none => return none
  | some (.text name) => do
    refuseInput (projectNameFault? name)
    return some name
  | some value => throw (.invalidInput (.projectNameNotText value))

/-- Merges metadata key by key. The entry `name` renames the project and is not stored. -/
def mergeMetadata (now : Timestamp) (patch : Dict String Json) : Edit Unit := do
  let name ← rename? patch
  write name fun name p => { p with name }
  modify fun p => { p with metadata := p.metadata.extend (patch.erase "name") }
  stamp now

def addAgent (now : Timestamp) (limits : Limits) (agent : Agent) : Edit Agent := do
  refuseInput agent.fault?
  refuseIf (limits.maxAgents ≤ ·.agents.length) (.agentLimitExceeded limits.maxAgents)
  refuseIf (·.hasAgent agent.name) (.duplicateName "agent" agent.name)
  modify fun p => { p with agents := p.agents ++ [agent.normalized] }
  stamp now
  return agent.normalized

def updateAgent (now : Timestamp) (name : String) (patch : AgentPatch) : Edit Agent := do
  let agent ← within (·.agents) (fun agents p => { p with agents }) <|
    onFirst (·.name == name) (.agentNotFound name) (changing (Agent.patch patch))
  stamp now
  return agent

def addTool (now : Timestamp) (limits : Limits) (tool : Tool) : Edit Tool := do
  refuseInput tool.fault?
  refuseIf (limits.maxTools ≤ ·.tools.length) (.toolLimitExceeded limits.maxTools)
  refuseIf (·.hasTool tool.name) (.duplicateName "tool" tool.name)
  modify fun p => { p with tools := p.tools ++ [tool.normalized] }
  stamp now
  return tool.normalized

def updateTool (now : Timestamp) (name : String) (patch : ToolPatch) : Edit Tool := do
  let tool ← within (·.tools) (fun tools p => { p with tools }) <|
    onFirst (·.name == name) (.toolNotFound name) (changing (Tool.patch patch))
  stamp now
  return tool

def updateBuildContext (now : Timestamp) (patch : BuildContextPatch) : Edit BuildContext := do
  let context ← within (·.buildContext) (fun buildContext p => { p with buildContext })
    (changing (BuildContext.patch patch))
  stamp now
  return context

def touch (now : Timestamp) : Edit Unit := stamp now

end Project
end AgentAssembly

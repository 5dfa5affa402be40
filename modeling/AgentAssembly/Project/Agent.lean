import AgentAssembly.Data.Distinct
import AgentAssembly.Mutation
import AgentAssembly.Project.Error
import AgentAssembly.Text.Blank

/-!
Agents and partial updates of agents. Tools and sub-agents are referred to by name and need not
exist yet; whether they do is for validation.
-/

namespace AgentAssembly

open Mutation (refuse write)
open Text (isBlank)

structure Agent where
  name : String := ""
  model : String := ""
  description : String := ""
  instruction : String := ""
  tools : List String := []
  subAgents : List String := []
  temperature : Option Double := none
  maxOutputTokens : Option UInt32 := none
deriving DecidableEq, Repr, Inhabited

/-- An update: a field that is present overwrites, a list that is present joins the stored one or,
if `replaceReferences` is set, takes its place. -/
structure AgentPatch where
  model : Option String := none
  description : Option String := none
  instruction : Option String := none
  tools : Option (List String) := none
  subAgents : Option (List String) := none
  temperature : Option Double := none
  maxOutputTokens : Option UInt32 := none
  replaceReferences : Bool := false
deriving DecidableEq, Repr, Inhabited

def inTemperatureRange (t : Double) : Bool :=
  (Double.ofRatio false 0 1).le t && t.le (Double.ofRatio false 2 1)

def generationFault? (temperature : Option Double) (tokens : Option UInt32) : Option InputFault :=
  match temperature.filter fun t => !inTemperatureRange t with
  | some t => some (.temperatureOutOfRange t)
  | none => if tokens = some 0 then some .noOutputTokens else none

/-- Joins a list of references with more of them, or with `replace` drops the first; each is kept
once, where it first occurs. -/
def mergeReferences (current incoming : List String) (replace : Bool) : List String :=
  distinct (if replace then incoming else current ++ incoming)

namespace Agent

def fault? (a : Agent) : Option InputFault :=
  if isBlank a.name then some (.blankName .agent)
  else if isBlank a.model then some (.missingModel a.name)
  else if a.tools.any isBlank then some (.blankReference .tool)
  else if a.subAgents.any isBlank then some (.blankReference .subAgent)
  else generationFault? a.temperature a.maxOutputTokens

def normalized (a : Agent) : Agent :=
  { a with tools := distinct a.tools, subAgents := distinct a.subAgents }

def usesTool (a : Agent) (tool : String) : Bool := a.tools.contains tool

def delegatesTo (a : Agent) (agent : String) : Bool := a.subAgents.contains agent

def hasGenerationSettings (a : Agent) : Bool := a.temperature.isSome || a.maxOutputTokens.isSome

def checked (a : Agent) : Except InputFault Agent :=
  match a.fault? with
  | some fault => .error fault
  | none => .ok a

def new (name model : String) : Except InputFault Agent :=
  { name, model : Agent }.checked

inductive Setting
  | name (value : String)
  | model (value : String)
  | description (value : String)
  | instruction (value : String)
  | tool (value : String)
  | subAgent (value : String)
  | temperature (value : Double)
  | maxOutputTokens (value : UInt32)
deriving DecidableEq, Repr

/-- A later setting overwrites an earlier one of its field; references add up. -/
def set (a : Agent) : Setting → Agent
  | .name s => { a with name := s }
  | .model s => { a with model := s }
  | .description s => { a with description := s }
  | .instruction s => { a with instruction := s }
  | .tool s => { a with tools := a.tools ++ [s] }
  | .subAgent s => { a with subAgents := a.subAgents ++ [s] }
  | .temperature t => { a with temperature := some t }
  | .maxOutputTokens n => { a with maxOutputTokens := some n }

def build (settings : List Setting) : Except InputFault Agent :=
  (settings.foldl set {}).checked.map normalized

end Agent

namespace AgentPatch

def fault? (p : AgentPatch) : Option InputFault :=
  if p.model.any isBlank then some .blankModel
  else if p.tools.any (·.any isBlank) then some (.blankReference .tool)
  else if p.subAgents.any (·.any isBlank) then some (.blankReference .subAgent)
  else generationFault? p.temperature p.maxOutputTokens

def isEmpty (p : AgentPatch) : Bool :=
  p.model.isNone && p.description.isNone && p.instruction.isNone && p.tools.isNone &&
    p.subAgents.isNone && p.temperature.isNone && p.maxOutputTokens.isNone

end AgentPatch

namespace Agent

def patch (p : AgentPatch) : Mutation Agent InputFault Unit := do
  refuse fun _ => p.fault?
  write p.model fun model a => { a with model }
  write p.description fun description a => { a with description }
  write p.instruction fun instruction a => { a with instruction }
  write p.tools fun tools a =>
    { a with tools := mergeReferences a.tools tools p.replaceReferences }
  write p.subAgents fun subAgents a =>
    { a with subAgents := mergeReferences a.subAgents subAgents p.replaceReferences }
  write p.temperature fun t a => { a with temperature := some t }
  write p.maxOutputTokens fun n a => { a with maxOutputTokens := some n }

end Agent
end AgentAssembly

import AgentAssembly.Validation.Collision
import AgentAssembly.Validation.Delegation

/-!
Validation of a whole project. Nothing is refused here: every problem becomes a finding, check
after check, and only a project without findings may be generated.
-/

namespace AgentAssembly.Validation

open Text (isBlank)
open Identifier (isIdentifier)

def toolReferences (p : Project) : List Finding :=
  p.agents.flatMap fun a => (a.tools.filter (!p.hasTool ·)).map (.unresolvedTool a.name)

def subAgentReferences (p : Project) : List Finding :=
  p.agents.flatMap fun a => (a.subAgents.filter (!p.hasAgent ·)).map (.unresolvedSubAgent a.name)

def subAgentCycles (p : Project) : List Finding := (Delegation.cycles p.agents).map .subAgentCycle

def primaryAgent (p : Project) : List Finding :=
  ((p.buildContext.primaryAgent.filter (!p.hasAgent ·)).map .unresolvedPrimaryAgent).toList

def toolCode (p : Project) : List Finding :=
  (p.generatedTools.filter (isBlank ·.code)).map (.missingToolCode ·.name)

def agentCount (p : Project) : List Finding := if p.agents.isEmpty then [.noAgents] else []

/-- What is wrong with a parameter after those with the names `seen`, of which one had a default
value if `optional` is set. -/
def parameterFault? (seen : List String) (optional : Bool) (p : Parameter) : Option String :=
  if !isIdentifier p.name then some "not a valid identifier"
  else if seen.contains p.name then some "declared more than once"
  else if optional && p.defaultValue.isNone then
    some "parameter without a default follows one with a default"
  else none

def parameterFaults (tool : String) (seen : List String) (optional : Bool) :
    List Parameter → List Finding
  | [] => []
  | p :: rest =>
    ((parameterFault? seen optional p).map (.invalidToolParameter tool p.name)).toList ++
      parameterFaults tool (p.name :: seen) (optional || p.defaultValue.isSome) rest

def toolParameters (p : Project) : List Finding :=
  p.generatedTools.flatMap fun t => parameterFaults t.name [] false t.parameters

def builtinReferences (p : Project) : List Finding :=
  (p.tools.filter fun t => !t.isGenerated && !isIdentifier t.builtinReference).map fun t =>
    .invalidBuiltinReference t.name t.builtinReference

end AgentAssembly.Validation

namespace AgentAssembly.Project

def validate (p : Project) : Report where
  findings :=
    Validation.toolReferences p ++ Validation.subAgentReferences p ++
    Validation.subAgentCycles p ++ Validation.primaryAgent p ++ Validation.toolCode p ++
    Validation.agentCount p ++ Validation.toolParameters p ++ Validation.builtinReferences p ++
    Collision.findings p

end AgentAssembly.Project

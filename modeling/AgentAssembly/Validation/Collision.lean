import AgentAssembly.Identifier
import AgentAssembly.Project
import AgentAssembly.Validation.Finding

/-!
Identifiers that two definitions derive alike. Agent modules are one namespace; agent variables,
functions of generated tools, builtin symbols and the names that every agent module uses itself
are another. The first to derive an identifier owns it.
-/

namespace AgentAssembly.Collision

open Identifier

def reservedNames : List String := ["Agent", "types", "INSTRUCTION"]

structure Holder where
  owner : String
  builtin : Bool
deriving DecidableEq, Repr

abbrev Symbols := List (String × Holder)

def reservedOwner (name : String) : String := "the reserved name '" ++ name ++ "'"

def agentOwner (a : Agent) : String := "agent '" ++ a.name ++ "'"

def toolOwner (t : Tool) : String := "tool '" ++ t.name ++ "'"

def reserved : Symbols := reservedNames.map fun name => (name, ⟨reservedOwner name, false⟩)

/-- The collisions of the agents, after the modules and symbols given, and the symbols taken in the
end. An agent whose module is taken takes no symbol. -/
def ofAgents (modules : List (String × String)) (symbols : Symbols) :
    List Agent → List Finding × Symbols
  | [] => ([], symbols)
  | a :: rest =>
    let file := moduleName a.name
    let symbol := agentVariable a.name
    match modules.lookup file with
    | some first =>
      let (findings, symbols) := ofAgents modules symbols rest
      (.identifierCollision file first (agentOwner a) :: findings, symbols)
    | none =>
      let modules := (file, agentOwner a) :: modules
      match symbols.lookup symbol with
      | some holder =>
        let (findings, symbols) := ofAgents modules symbols rest
        (.identifierCollision symbol holder.owner (agentOwner a) :: findings, symbols)
      | none => ofAgents modules ((symbol, ⟨agentOwner a, false⟩) :: symbols) rest

def toolSymbol? (t : Tool) : Option String :=
  if t.isGenerated then some (toolFunction t.name)
  else if isIdentifier t.builtinReference then some t.builtinReference
  else none

/-- The collisions of the tools, after the symbols given. Builtin tools may share a symbol. -/
def ofTools (symbols : Symbols) : List Tool → List Finding
  | [] => []
  | t :: rest =>
    match toolSymbol? t with
    | none => ofTools symbols rest
    | some symbol =>
      match symbols.lookup symbol with
      | none => ofTools ((symbol, ⟨toolOwner t, !t.isGenerated⟩) :: symbols) rest
      | some holder =>
        if holder.builtin && !t.isGenerated then ofTools symbols rest
        else .identifierCollision symbol holder.owner (toolOwner t) :: ofTools symbols rest

def findings (p : Project) : List Finding :=
  let (ofAgents, symbols) := ofAgents [] reserved p.agents
  ofAgents ++ ofTools symbols p.tools

end AgentAssembly.Collision

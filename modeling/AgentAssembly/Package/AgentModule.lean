import AgentAssembly.Package.Import
import AgentAssembly.Package.Source

/-!
The module of one agent. What the module says is a value, `AgentModule`; its text follows from
that value alone.
-/

namespace AgentAssembly

open Source Identifier

inductive RenderFault
  | unknownTool (agent tool : String)
  | unknownSubAgent (agent subAgent : String)
  | noRoot
  | stated (text : String)
deriving DecidableEq, Repr

def RenderFault.message : RenderFault → String
  | .unknownTool agent tool => "Agent '" ++ agent ++ "' references unknown tool '" ++ tool ++ "'"
  | .unknownSubAgent agent subAgent =>
    "Agent '" ++ agent ++ "' references unknown sub-agent '" ++ subAgent ++ "'"
  | .noRoot => "Project has no root agent to expose"
  | .stated text => text

def Agent.generationArguments (a : Agent) : List String :=
  (a.temperature.map fun t => "temperature=" ++ t.plainText).toList ++
    (a.maxOutputTokens.map fun n => "max_output_tokens=" ++ toString n.toNat).toList

structure AgentModule where
  summary : String
  imports : List Import
  instruction : String
  symbol : String
  file : String
  model : String
  description : String
  tools : List String
  subAgents : List String
  generation : Option String
deriving DecidableEq, Repr

namespace AgentModule

def summaryOf (a : Agent) : String :=
  if Text.isBlank a.description then a.name ++ " agent."
  else a.name ++ ": " ++ a.description

def findTools (p : Project) (a : Agent) : Except RenderFault (List Tool) :=
  a.tools.mapM fun name =>
    match p.tool? name with
    | some t => .ok t
    | none => .error (.unknownTool a.name name)

def findSubAgents (p : Project) (a : Agent) : Except RenderFault (List Agent) :=
  a.subAgents.mapM fun name =>
    match p.agent? name with
    | some s => .ok s
    | none => .error (.unknownSubAgent a.name name)

/-- The module of an agent that uses the given tools and sub-agents. Builtin symbols are imported
before generated tools, and these before sub-agents; no line is written twice. -/
def ofParts (a : Agent) (tools : List Tool) (subAgents : List Agent) : AgentModule where
  summary := summaryOf a
  imports :=
    distinct <|
      .agentClass :: (if a.hasGenerationSettings then [.generationTypes] else []) ++
        (tools.filter (!·.isGenerated)).map (·.toImport) ++
        (tools.filter (·.isGenerated)).map (·.toImport) ++
        subAgents.map (·.toImport)
  instruction := a.instruction
  symbol := agentVariable a.name
  file := moduleName a.name
  model := a.model
  description := a.description
  tools := distinct (tools.map (·.toImport.symbol))
  subAgents := subAgents.map (agentVariable ·.name)
  generation :=
    if a.hasGenerationSettings then
      some ("types.GenerateContentConfig(" ++ commaList a.generationArguments ++ ")")
    else none

def ofAgent (p : Project) (a : Agent) : Except RenderFault AgentModule :=
  match findTools p a with
  | .error fault => .error fault
  | .ok tools =>
    match findSubAgents p a with
    | .error fault => .error fault
    | .ok subAgents => .ok (ofParts a tools subAgents)

def lines (m : AgentModule) : List String :=
  [docstring "" m.summary "", ""] ++ m.imports.map (·.line) ++
  ["",
   "INSTRUCTION = " ++ docstring "" m.instruction "",
   "",
   m.symbol ++ " = Agent(",
   "    name=" ++ literal m.file ++ ",",
   "    model=" ++ literal m.model ++ ",",
   "    description=" ++ literal m.description ++ ",",
   "    instruction=INSTRUCTION,",
   "    tools=[" ++ commaList m.tools ++ "],",
   "    sub_agents=[" ++ commaList m.subAgents ++ "],"] ++
  (m.generation.map fun g => "    generate_content_config=" ++ g ++ ",").toList ++
  [")"]

def text (m : AgentModule) : String := ofLines m.lines

end AgentModule
end AgentAssembly

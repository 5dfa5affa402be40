import AgentAssembly.Data.Record

/-!
Findings: what keeps a project from being generated, one value per problem, with its wording and
its record. A report is a list of findings.
-/

namespace AgentAssembly

open Json

inductive Finding
  | unresolvedTool (agent tool : String)
  | unresolvedSubAgent (agent subAgent : String)
  | subAgentCycle (path : List String)
  | unresolvedPrimaryAgent (name : String)
  | missingToolCode (tool : String)
  | noAgents
  | invalidToolParameter (tool parameter reason : String)
  | invalidBuiltinReference (tool reference : String)
  | identifierCollision (identifier first second : String)
deriving DecidableEq, Repr

namespace Finding

def kind : Finding → String
  | .unresolvedTool .. => "unresolved_tool"
  | .unresolvedSubAgent .. => "unresolved_sub_agent"
  | .subAgentCycle _ => "sub_agent_cycle"
  | .unresolvedPrimaryAgent _ => "unresolved_primary_agent"
  | .missingToolCode _ => "missing_tool_code"
  | .noAgents => "no_agents"
  | .invalidToolParameter .. => "invalid_tool_parameter"
  | .invalidBuiltinReference .. => "invalid_builtin_reference"
  | .identifierCollision .. => "identifier_collision"

def message : Finding → String
  | .unresolvedTool agent tool => "Agent '" ++ agent ++ "' references unknown tool '" ++ tool ++ "'"
  | .unresolvedSubAgent agent subAgent =>
    "Agent '" ++ agent ++ "' references unknown sub-agent '" ++ subAgent ++ "'"
  | .subAgentCycle path => "Sub-agent cycle: " ++ " -> ".intercalate path
  | .unresolvedPrimaryAgent name => "Primary agent '" ++ name ++ "' does not exist"
  | .missingToolCode tool => "Generated tool '" ++ tool ++ "' has no code"
  | .noAgents => "Project declares no agents"
  | .invalidToolParameter tool parameter reason =>
    "Tool '" ++ tool ++ "' parameter '" ++ parameter ++ "': " ++ reason
  | .invalidBuiltinReference tool reference =>
    "Builtin tool '" ++ tool ++ "' references '" ++ reference ++
      "', which is not a valid identifier"
  | .identifierCollision identifier first second =>
    "Identifier '" ++ identifier ++ "' is derived from both " ++ first ++ " and " ++ second

def fields : Finding → List (String × Json)
  | .unresolvedTool agent tool => [("agent", .text agent), ("tool", .text tool)]
  | .unresolvedSubAgent agent subAgent => [("agent", .text agent), ("sub_agent", .text subAgent)]
  | .subAgentCycle path => [("path", texts path)]
  | .unresolvedPrimaryAgent name => [("name", .text name)]
  | .missingToolCode tool => [("tool", .text tool)]
  | .noAgents => []
  | .invalidToolParameter tool parameter reason =>
    [("tool", .text tool), ("parameter", .text parameter), ("reason", .text reason)]
  | .invalidBuiltinReference tool reference =>
    [("tool", .text tool), ("reference", .text reference)]
  | .identifierCollision identifier first second =>
    [("identifier", .text identifier), ("first", .text first), ("second", .text second)]

def variant : Finding → String
  | .unresolvedTool .. => "UnresolvedTool"
  | .unresolvedSubAgent .. => "UnresolvedSubAgent"
  | .subAgentCycle _ => "SubAgentCycle"
  | .unresolvedPrimaryAgent _ => "UnresolvedPrimaryAgent"
  | .missingToolCode _ => "MissingToolCode"
  | .noAgents => "NoAgents"
  | .invalidToolParameter .. => "InvalidToolParameter"
  | .invalidBuiltinReference .. => "InvalidBuiltinReference"
  | .identifierCollision .. => "IdentifierCollision"

def toJson (f : Finding) : Json :=
  ofMembers (("kind", .text (snakeCase f.variant)) :: f.fields)

/-- The tag of a record, and the record with its fields. In a list the tag comes first. -/
def tagged? : Json → Option (String × Json)
  | .object members => (Members.required members "kind" text?).map (·, .object members)
  | .array (tag :: fields) => (text? tag).map (·, .array fields)
  | _ => none

def ofJson? (j : Json) : Option Finding := do
  let (kind, j) ← tagged? j
  match kind with
  | "unresolved_tool" =>
    let m ← j.fields? ["agent", "tool"] 2
    return .unresolvedTool (← m.required "agent" text?) (← m.required "tool" text?)
  | "unresolved_sub_agent" =>
    let m ← j.fields? ["agent", "sub_agent"] 2
    return .unresolvedSubAgent (← m.required "agent" text?) (← m.required "sub_agent" text?)
  | "sub_agent_cycle" =>
    let m ← j.fields? ["path"] 1
    return .subAgentCycle (← m.required "path" (list? text?))
  | "unresolved_primary_agent" =>
    let m ← j.fields? ["name"] 1
    return .unresolvedPrimaryAgent (← m.required "name" text?)
  | "missing_tool_code" =>
    let m ← j.fields? ["tool"] 1
    return .missingToolCode (← m.required "tool" text?)
  | "no_agents" =>
    let _ ← j.fields? [] 0
    return .noAgents
  | "invalid_tool_parameter" =>
    let m ← j.fields? ["tool", "parameter", "reason"] 3
    return .invalidToolParameter (← m.required "tool" text?) (← m.required "parameter" text?)
      (← m.required "reason" text?)
  | "invalid_builtin_reference" =>
    let m ← j.fields? ["tool", "reference"] 2
    return .invalidBuiltinReference (← m.required "tool" text?) (← m.required "reference" text?)
  | "identifier_collision" =>
    let m ← j.fields? ["identifier", "first", "second"] 3
    return .identifierCollision (← m.required "identifier" text?) (← m.required "first" text?)
      (← m.required "second" text?)
  | _ => none

end Finding

structure Report where
  findings : List Finding
deriving DecidableEq, Repr

namespace Report

def isOk (r : Report) : Bool := r.findings.isEmpty

def size (r : Report) : Nat := r.findings.length

def messages (r : Report) : List String := r.findings.map (·.message)

def message (r : Report) : String :=
  if r.isOk then "configuration is valid"
  else toString r.size ++ " validation finding(s): " ++ "; ".intercalate r.messages

def toJson (r : Report) : Json := record [("findings", some (ofList Finding.toJson r.findings))]

def ofJson? (j : Json) : Option Report := do
  let m ← j.fields? ["findings"] 1
  return ⟨← m.required "findings" (list? Finding.ofJson?)⟩

end Report
end AgentAssembly

import AgentAssembly.Data.Record
import AgentAssembly.Data.TextForm
import AgentAssembly.Project

/-!
Projects and their parts as records. Reading takes what writing produces; fields with a default
may be missing, and unknown fields are ignored.
-/

namespace AgentAssembly

open Json

def ToolKind.toJson : ToolKind → Json
  | .builtin => .text "builtin"
  | .generated => .text "generated"

def ToolKind.ofName? : String → Option ToolKind
  | "builtin" => some .builtin
  | "generated" | "custom_function" | "function" => some .generated
  | _ => none

/-- A kind is a name, or an object with that name as its only key and null under it. -/
def ToolKind.ofJson? : Json → Option ToolKind
  | .text name => ofName? name
  | .object [(name, .null)] => ofName? name
  | _ => none

namespace Agent

def toJson (a : Agent) : Json :=
  record
    [("name", some (.text a.name)),
     ("model", some (.text a.model)),
     ("description", some (.text a.description)),
     ("instruction", some (.text a.instruction)),
     ("tools", some (texts a.tools)),
     ("sub_agents", some (texts a.subAgents)),
     ("temperature", a.temperature.map ofDouble),
     ("max_output_tokens", a.maxOutputTokens.map fun n => .int n.toNat)]

def ofJson? (j : Json) : Option Agent := do
  let m ← j.fields?
    ["name", "model", "description", "instruction", "tools", "sub_agents", "temperature",
     "max_output_tokens"] 0
  return {
    name := ← m.withDefault "name" text? ""
    model := ← m.withDefault "model" text? ""
    description := ← m.withDefault "description" text? ""
    instruction := ← m.withDefault "instruction" text? ""
    tools := ← m.withDefault "tools" (list? text?) []
    subAgents := ← m.withDefault "sub_agents" (list? text?) []
    temperature := ← m.optional "temperature" double?
    maxOutputTokens := ← m.optional "max_output_tokens" word32? }

end Agent

namespace AgentPatch

def toJson (p : AgentPatch) : Json :=
  record
    [("model", some (ofOption .text p.model)),
     ("description", some (ofOption .text p.description)),
     ("instruction", some (ofOption .text p.instruction)),
     ("tools", some (ofOption texts p.tools)),
     ("sub_agents", some (ofOption texts p.subAgents)),
     ("temperature", some (ofOption ofDouble p.temperature)),
     ("max_output_tokens", some (ofOption (fun n => .int n.toNat) p.maxOutputTokens)),
     ("replace_references", some (.bool p.replaceReferences))]

def ofJson? (j : Json) : Option AgentPatch := do
  let m ← j.fields?
    ["model", "description", "instruction", "tools", "sub_agents", "temperature",
     "max_output_tokens", "replace_references"] 0
  return {
    model := ← m.optional "model" text?
    description := ← m.optional "description" text?
    instruction := ← m.optional "instruction" text?
    tools := ← m.optional "tools" (list? text?)
    subAgents := ← m.optional "sub_agents" (list? text?)
    temperature := ← m.optional "temperature" double?
    maxOutputTokens := ← m.optional "max_output_tokens" word32?
    replaceReferences := ← m.withDefault "replace_references" bool? false }

end AgentPatch

namespace Parameter

def toJson (p : Parameter) : Json :=
  record
    [("name", some (.text p.name)),
     ("type_hint", p.typeHint.map .text),
     ("default", p.defaultValue.map .text)]

def ofJson? (j : Json) : Option Parameter := do
  let m ← j.fields? ["name", "type_hint", "default"] 1
  return {
    name := ← m.required "name" text?
    typeHint := ← m.optional "type_hint" text?
    defaultValue := ← m.optional "default" text? }

end Parameter

namespace Tool

def toJson (t : Tool) : Json :=
  record
    [("name", some (.text t.name)),
     ("kind", some t.kind.toJson),
     ("description", some (.text t.description)),
     ("parameters", some (ofList Parameter.toJson t.parameters)),
     ("code", some (.text t.code)),
     ("imports", some (texts t.imports)),
     ("builtin_type", t.builtinType.map .text)]

def ofJson? (j : Json) : Option Tool := do
  let m ← j.fields?
    ["name", "kind", "description", "parameters", "code", "imports", "builtin_type"] 0
  return {
    name := ← m.withDefault "name" text? ""
    kind := ← m.withDefault "kind" ToolKind.ofJson? .generated
    description := ← m.withDefault "description" text? ""
    parameters := ← m.withDefault "parameters" (list? Parameter.ofJson?) []
    code := ← m.withDefault "code" text? ""
    imports := ← m.withDefault "imports" (list? text?) []
    builtinType := ← m.optional "builtin_type" text? }

end Tool

namespace ToolPatch

def toJson (p : ToolPatch) : Json :=
  record
    [("kind", some (ofOption ToolKind.toJson p.kind)),
     ("description", some (ofOption .text p.description)),
     ("parameters", some (ofOption (ofList Parameter.toJson) p.parameters)),
     ("code", some (ofOption .text p.code)),
     ("imports", some (ofOption texts p.imports)),
     ("builtin_type", some (ofOption .text p.builtinType)),
     ("replace_imports", some (.bool p.replaceImports))]

def ofJson? (j : Json) : Option ToolPatch := do
  let m ← j.fields?
    ["kind", "description", "parameters", "code", "imports", "builtin_type", "replace_imports"] 0
  return {
    kind := ← m.optional "kind" ToolKind.ofJson?
    description := ← m.optional "description" text?
    parameters := ← m.optional "parameters" (list? Parameter.ofJson?)
    code := ← m.optional "code" text?
    imports := ← m.optional "imports" (list? text?)
    builtinType := ← m.optional "builtin_type" text?
    replaceImports := ← m.withDefault "replace_imports" bool? false }

end ToolPatch

namespace BuildContext

def toJson (c : BuildContext) : Json :=
  record
    [("output_directory", some (ofOption .text c.outputDirectory)),
     ("primary_agent_name", some (ofOption .text c.primaryAgent)),
     ("flags", some (ofValues c.flags)),
     ("requirements", some (texts c.requirements)),
     ("environment", some (ofDict .text c.environment))]

def ofJson? (j : Json) : Option BuildContext := do
  let m ← j.fields?
    ["output_directory", "primary_agent_name", "flags", "requirements", "environment"] 0
  return {
    outputDirectory := ← m.optional "output_directory" text?
    primaryAgent := ← m.optional "primary_agent_name" text?
    flags := ← m.withDefault "flags" (dict? any?) ∅
    requirements := ← m.withDefault "requirements" (list? text?) []
    environment := ← m.withDefault "environment" (dict? text?) ∅ }

end BuildContext

namespace BuildContextPatch

def toJson (p : BuildContextPatch) : Json :=
  record
    [("output_directory", some (ofOption .text p.outputDirectory)),
     ("primary_agent_name", some (ofOption .text p.primaryAgent)),
     ("flags", some (ofValues p.flags)),
     ("requirements", some (ofOption texts p.requirements)),
     ("environment", some (ofDict .text p.environment))]

def ofJson? (j : Json) : Option BuildContextPatch := do
  let m ← j.fields?
    ["output_directory", "primary_agent_name", "flags", "requirements", "environment"] 0
  return {
    outputDirectory := ← m.optional "output_directory" text?
    primaryAgent := ← m.optional "primary_agent_name" text?
    flags := ← m.withDefault "flags" (dict? any?) ∅
    requirements := ← m.optional "requirements" (list? text?)
    environment := ← m.withDefault "environment" (dict? text?) ∅ }

end BuildContextPatch

namespace Limits

def toJson (l : Limits) : Json :=
  record [("max_agents", some (.int l.maxAgents)), ("max_tools", some (.int l.maxTools))]

def ofJson? (j : Json) : Option Limits := do
  let m ← j.fields? ["max_agents", "max_tools"] 2
  return {
    maxAgents := ← m.required "max_agents" (natBelow? UInt64.size)
    maxTools := ← m.required "max_tools" (natBelow? UInt64.size) }

end Limits

structure TextForms where
  identifier : TextForm Uuid
  moment : TextForm Timestamp

def TextForms.standard : TextForms where
  identifier := ⟨Uuid.text, Uuid.ofText?⟩
  moment := ⟨Timestamp.text, Timestamp.ofText?⟩

namespace Project

def toJson (forms : TextForms) (p : Project) : Json :=
  record
    [("id", some (forms.identifier.toJson p.id)),
     ("name", some (.text p.name)),
     ("metadata", some (ofValues p.metadata)),
     ("agents", some (ofList Agent.toJson p.agents)),
     ("tools", some (ofList Tool.toJson p.tools)),
     ("build_context", some p.buildContext.toJson),
     ("created_at", some (forms.moment.toJson p.createdAt)),
     ("updated_at", some (forms.moment.toJson p.updatedAt))]

def ofJson? (forms : TextForms) (j : Json) : Option Project := do
  let m ← j.fields?
    ["id", "name", "metadata", "agents", "tools", "build_context", "created_at", "updated_at"] 8
  return {
    id := ← m.required "id" forms.identifier.ofJson?
    name := ← m.required "name" text?
    metadata := ← m.required "metadata" (dict? any?)
    agents := ← m.required "agents" (list? Agent.ofJson?)
    tools := ← m.required "tools" (list? Tool.ofJson?)
    buildContext := ← m.required "build_context" BuildContext.ofJson?
    createdAt := ← m.required "created_at" forms.moment.ofJson?
    updatedAt := ← m.required "updated_at" forms.moment.ofJson? }

end Project

namespace Summary

def toJson (forms : TextForms) (s : Summary) : Json :=
  record
    [("project_id", some (forms.identifier.toJson s.projectId)),
     ("name", some (.text s.name)),
     ("agent_names", some (texts s.agentNames)),
     ("tool_names", some (texts s.toolNames)),
     ("agent_count", some (.int s.agentCount)),
     ("tool_count", some (.int s.toolCount)),
     ("build_context", some s.buildContext.toJson),
     ("created_at", some (forms.moment.toJson s.createdAt)),
     ("updated_at", some (forms.moment.toJson s.updatedAt))]

def ofJson? (forms : TextForms) (j : Json) : Option Summary := do
  let m ← j.fields?
    ["project_id", "name", "agent_names", "tool_names", "agent_count", "tool_count",
     "build_context", "created_at", "updated_at"] 9
  return {
    projectId := ← m.required "project_id" forms.identifier.ofJson?
    name := ← m.required "name" text?
    agentNames := ← m.required "agent_names" (list? text?)
    toolNames := ← m.required "tool_names" (list? text?)
    agentCount := ← m.required "agent_count" (natBelow? UInt64.size)
    toolCount := ← m.required "tool_count" (natBelow? UInt64.size)
    buildContext := ← m.required "build_context" BuildContext.ofJson?
    createdAt := ← m.required "created_at" forms.moment.ofJson?
    updatedAt := ← m.required "updated_at" forms.moment.ofJson? }

end Summary
end AgentAssembly

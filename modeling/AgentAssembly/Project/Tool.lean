import AgentAssembly.Project.Agent

/-!
Tools and partial updates of tools. A builtin tool stands for a symbol of the agent framework; a
generated tool is a function whose body is stored as text. Code may still be missing when a tool
is added, so its presence is for validation.
-/

namespace AgentAssembly

open Mutation (refuse write)
open Text (isBlank)

inductive ToolKind
  | builtin
  | generated
deriving DecidableEq, Repr, Inhabited

structure Parameter where
  name : String
  typeHint : Option String := none
  defaultValue : Option String := none
deriving DecidableEq, Repr, Inhabited

def Parameter.signature (p : Parameter) : String :=
  let typed := match p.typeHint with
    | some hint => p.name ++ ": " ++ hint
    | none => p.name
  match p.defaultValue with
  | some value => typed ++ (if p.typeHint.isSome then " = " else "=") ++ value
  | none => typed

structure Tool where
  name : String := ""
  kind : ToolKind := .generated
  description : String := ""
  parameters : List Parameter := []
  code : String := ""
  imports : List String := []
  builtinType : Option String := none
deriving DecidableEq, Repr, Inhabited

/-- An update: a field that is present overwrites, but imports join the stored ones unless
`replaceImports` is set. -/
structure ToolPatch where
  kind : Option ToolKind := none
  description : Option String := none
  parameters : Option (List Parameter) := none
  code : Option String := none
  imports : Option (List String) := none
  builtinType : Option String := none
  replaceImports : Bool := false
deriving DecidableEq, Repr, Inhabited

namespace Tool

def generated (name code : String) : Tool := { name, code }

def builtin (name : String) : Tool := { name, kind := .builtin }

def isGenerated (t : Tool) : Bool := t.kind == .generated

def builtinReference (t : Tool) : String := t.builtinType.getD t.name

def fault? (t : Tool) : Option InputFault :=
  if isBlank t.name then some (.blankName .tool)
  else if t.imports.any isBlank then some .blankImport
  else if t.parameters.any (isBlank ·.name) then some (.unnamedParameter t.name)
  else none

def normalized (t : Tool) : Tool := { t with imports := distinct t.imports }

end Tool

namespace ToolPatch

def fault? (p : ToolPatch) : Option InputFault :=
  if p.imports.any (·.any isBlank) then some .blankImport
  else if p.parameters.any (·.any (isBlank ·.name)) then some .unnamedParameters
  else if p.builtinType.any isBlank then some .blankBuiltinType
  else none

end ToolPatch

namespace Tool

def patch (p : ToolPatch) : Mutation Tool InputFault Unit := do
  refuse fun _ => p.fault?
  write p.kind fun kind t => { t with kind }
  write p.description fun description t => { t with description }
  write p.parameters fun parameters t => { t with parameters }
  write p.code fun code t => { t with code }
  write p.imports fun imports t =>
    { t with imports := mergeReferences t.imports imports p.replaceImports }
  write p.builtinType fun builtinType t => { t with builtinType := some builtinType }

end Tool
end AgentAssembly

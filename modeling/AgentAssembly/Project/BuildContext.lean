import AgentAssembly.Project.Agent
import AgentAssembly.Text.Lines

/-!
What steers the generation of a project: where it goes, which agent leads, flags, requirements
and example variables. Values that are written on one line must stay on one line.
-/

namespace AgentAssembly

open Mutation (refuse write)
open Text (isBlank hasLineBreak)

structure BuildContext where
  outputDirectory : Option String := none
  primaryAgent : Option String := none
  flags : Dict String Json := ∅
  requirements : List String := []
  environment : Dict String String := ∅
deriving DecidableEq, Inhabited

/-- An update: flags and variables are written key by key, requirements join the stored ones. -/
structure BuildContextPatch where
  outputDirectory : Option String := none
  primaryAgent : Option String := none
  flags : Dict String Json := ∅
  requirements : Option (List String) := none
  environment : Dict String String := ∅
deriving DecidableEq, Inhabited

def lineFault? (what : SingleLine) (value : String) : Option InputFault :=
  if hasLineBreak value then some (.lineBreak what value) else none

def variableFault? (key value : String) : Option InputFault :=
  if isBlank key ∨ key.toList.contains '=' then some .badVariableName
  else (lineFault? .variableName key).or (lineFault? .variableValue value)

def requirementsFault? (requirements : List String) : Option InputFault :=
  if requirements.any isBlank then some .blankRequirement
  else requirements.findSome? (lineFault? .requirement)

namespace BuildContext

def flag (c : BuildContext) (key : String) (unset : Bool) : Bool :=
  match c.flags.get? key with
  | some (.bool b) => b
  | _ => unset

end BuildContext

namespace BuildContextPatch

/-- The first rule that the fields of a patch break; variables are looked at in the order of
their names. -/
def fault? (p : BuildContextPatch) : Option InputFault :=
  if p.outputDirectory.any isBlank then some .blankOutputDirectory
  else if p.primaryAgent.any isBlank then some (.blankName .primaryAgent)
  else
    (p.requirements.bind requirementsFault?).or
      (p.environment.entries.findSome? fun e => variableFault? e.1 e.2)

end BuildContextPatch

namespace BuildContext

def patch (p : BuildContextPatch) : Mutation BuildContext InputFault Unit := do
  refuse fun _ => p.fault?
  write p.outputDirectory fun directory c => { c with outputDirectory := some directory }
  write p.primaryAgent fun name c => { c with primaryAgent := some name }
  modify fun c => { c with flags := c.flags.extend p.flags }
  write p.requirements fun requirements c =>
    { c with requirements := mergeReferences c.requirements requirements false }
  modify fun c => { c with environment := c.environment.extend p.environment }

end BuildContext
end AgentAssembly

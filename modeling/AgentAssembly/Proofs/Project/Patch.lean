import AgentAssembly.Project
import AgentAssembly.Proofs.Mutation

/-!
Records under patches. Main statement: a patch that breaks a rule leaves the record as it was, and
any other writes all its fields at once.
-/

namespace AgentAssembly

open Mutation

def AgentPatch.mergeInto (p : AgentPatch) (current : List String) :
    Option (List String) → List String
  | none => current
  | some incoming => mergeReferences current incoming p.replaceReferences

def ToolPatch.mergeInto (p : ToolPatch) (current : List String) : List String :=
  match p.imports with
  | none => current
  | some incoming => mergeReferences current incoming p.replaceImports

namespace Agent

def patched (a : Agent) (p : AgentPatch) : Agent :=
  { a with
    model := p.model.getD a.model
    description := p.description.getD a.description
    instruction := p.instruction.getD a.instruction
    tools := p.mergeInto a.tools p.tools
    subAgents := p.mergeInto a.subAgents p.subAgents
    temperature := p.temperature.or a.temperature
    maxOutputTokens := p.maxOutputTokens.or a.maxOutputTokens }

def applyPatch (a : Agent) (p : AgentPatch) : Except InputFault Agent := (patch p).outcome a

theorem patch_apply (p : AgentPatch) (a : Agent) :
    patch p a = (p.fault?.elim (.ok ()) .error, p.fault?.elim (a.patched p) fun _ => a) := by
  have hmodel : ∀ b : Agent, p.model.elim b (fun model => { b with model }) =
      { b with model := p.model.getD b.model } := fun _ => by cases p.model <;> rfl
  have hdescription : ∀ b : Agent, p.description.elim b (fun description =>
      { b with description }) = { b with description := p.description.getD b.description } :=
    fun _ => by cases p.description <;> rfl
  have hinstruction : ∀ b : Agent, p.instruction.elim b (fun instruction =>
      { b with instruction }) = { b with instruction := p.instruction.getD b.instruction } :=
    fun _ => by cases p.instruction <;> rfl
  have htools : ∀ b : Agent, p.tools.elim b (fun tools =>
      { b with tools := mergeReferences b.tools tools p.replaceReferences }) =
        { b with tools := p.mergeInto b.tools p.tools } := fun _ => by cases p.tools <;> rfl
  have hsubAgents : ∀ b : Agent, p.subAgents.elim b (fun subAgents =>
      { b with subAgents := mergeReferences b.subAgents subAgents p.replaceReferences }) =
        { b with subAgents := p.mergeInto b.subAgents p.subAgents } :=
    fun _ => by cases p.subAgents <;> rfl
  have htemperature : ∀ b : Agent, p.temperature.elim b (fun t =>
      { b with temperature := some t }) =
        { b with temperature := p.temperature.or b.temperature } :=
    fun _ => by cases p.temperature <;> rfl
  have htokens : ∀ b : Agent, p.maxOutputTokens.elim b (fun n =>
      { b with maxOutputTokens := some n }) =
        { b with maxOutputTokens := p.maxOutputTokens.or b.maxOutputTokens } :=
    fun _ => by cases p.maxOutputTokens <;> rfl
  rw [patch]
  cases p.fault? with
  | some fault => exact refuse_bind_of_some rfl
  | none =>
    rw [refuse_bind_of_none rfl]
    simp only [write_bind_apply, write_apply, hmodel, hdescription, hinstruction, htools,
      hsubAgents, htemperature, htokens]
    rfl

theorem isAtomic_patch (p : AgentPatch) : (patch p).IsAtomic :=
  (isCheck_refuse _).bind fun _ => IsWrite.isAtomic <|
    (isWrite_write _ _).bind fun _ => (isWrite_write _ _).bind fun _ =>
    (isWrite_write _ _).bind fun _ => (isWrite_write _ _).bind fun _ =>
    (isWrite_write _ _).bind fun _ => (isWrite_write _ _).bind fun _ => isWrite_write _ _

theorem applyPatch_eq (a : Agent) (patch : AgentPatch) :
    a.applyPatch patch = patch.fault?.elim (.ok (a.patched patch)) .error := by
  rw [applyPatch, outcome, patch_apply]
  cases patch.fault? <;> rfl

theorem applyPatch_eq_ok_iff {a b : Agent} {patch : AgentPatch} :
    a.applyPatch patch = .ok b ↔ patch.fault? = none ∧ b = a.patched patch := by
  rw [applyPatch_eq]
  cases patch.fault? <;> simp [eq_comm]

end Agent

namespace Tool

def patched (t : Tool) (p : ToolPatch) : Tool :=
  { t with
    kind := p.kind.getD t.kind
    description := p.description.getD t.description
    parameters := p.parameters.getD t.parameters
    code := p.code.getD t.code
    imports := p.mergeInto t.imports
    builtinType := p.builtinType.or t.builtinType }

def applyPatch (t : Tool) (p : ToolPatch) : Except InputFault Tool := (patch p).outcome t

theorem patch_apply (p : ToolPatch) (t : Tool) :
    patch p t = (p.fault?.elim (.ok ()) .error, p.fault?.elim (t.patched p) fun _ => t) := by
  have hkind : ∀ u : Tool, p.kind.elim u (fun kind => { u with kind }) =
      { u with kind := p.kind.getD u.kind } := fun _ => by cases p.kind <;> rfl
  have hdescription : ∀ u : Tool, p.description.elim u (fun description =>
      { u with description }) = { u with description := p.description.getD u.description } :=
    fun _ => by cases p.description <;> rfl
  have hparameters : ∀ u : Tool, p.parameters.elim u (fun parameters =>
      { u with parameters }) = { u with parameters := p.parameters.getD u.parameters } :=
    fun _ => by cases p.parameters <;> rfl
  have hcode : ∀ u : Tool, p.code.elim u (fun code => { u with code }) =
      { u with code := p.code.getD u.code } := fun _ => by cases p.code <;> rfl
  have himports : ∀ u : Tool, p.imports.elim u (fun imports =>
      { u with imports := mergeReferences u.imports imports p.replaceImports }) =
        { u with imports := p.mergeInto u.imports } := fun _ => by
    rw [ToolPatch.mergeInto]
    cases p.imports <;> rfl
  have hbuiltinType : ∀ u : Tool, p.builtinType.elim u (fun builtinType =>
      { u with builtinType := some builtinType }) =
        { u with builtinType := p.builtinType.or u.builtinType } :=
    fun _ => by cases p.builtinType <;> rfl
  rw [patch]
  cases p.fault? with
  | some fault => exact refuse_bind_of_some rfl
  | none =>
    rw [refuse_bind_of_none rfl]
    simp only [write_bind_apply, write_apply, hkind, hdescription, hparameters, hcode, himports,
      hbuiltinType]
    rfl

theorem isAtomic_patch (p : ToolPatch) : (patch p).IsAtomic :=
  (isCheck_refuse _).bind fun _ => IsWrite.isAtomic <|
    (isWrite_write _ _).bind fun _ => (isWrite_write _ _).bind fun _ =>
    (isWrite_write _ _).bind fun _ => (isWrite_write _ _).bind fun _ =>
    (isWrite_write _ _).bind fun _ => isWrite_write _ _

theorem applyPatch_eq (t : Tool) (patch : ToolPatch) :
    t.applyPatch patch = patch.fault?.elim (.ok (t.patched patch)) .error := by
  rw [applyPatch, outcome, patch_apply]
  cases patch.fault? <;> rfl

theorem applyPatch_eq_ok_iff {t u : Tool} {patch : ToolPatch} :
    t.applyPatch patch = .ok u ↔ patch.fault? = none ∧ u = t.patched patch := by
  rw [applyPatch_eq]
  cases patch.fault? <;> simp [eq_comm]

end Tool

namespace BuildContext

def patched (c : BuildContext) (p : BuildContextPatch) : BuildContext :=
  { outputDirectory := p.outputDirectory.or c.outputDirectory
    primaryAgent := p.primaryAgent.or c.primaryAgent
    flags := c.flags.extend p.flags
    requirements := match p.requirements with
      | none => c.requirements
      | some incoming => mergeReferences c.requirements incoming false
    environment := c.environment.extend p.environment }

def applyPatch (c : BuildContext) (p : BuildContextPatch) : Except InputFault BuildContext :=
  (patch p).outcome c

theorem patch_apply (p : BuildContextPatch) (c : BuildContext) :
    patch p c = (p.fault?.elim (.ok ()) .error, p.fault?.elim (c.patched p) fun _ => c) := by
  have hdirectory : ∀ d : BuildContext, p.outputDirectory.elim d (fun directory =>
      { d with outputDirectory := some directory }) =
        { d with outputDirectory := p.outputDirectory.or d.outputDirectory } :=
    fun _ => by cases p.outputDirectory <;> rfl
  have hprimary : ∀ d : BuildContext, p.primaryAgent.elim d (fun name =>
      { d with primaryAgent := some name }) =
        { d with primaryAgent := p.primaryAgent.or d.primaryAgent } :=
    fun _ => by cases p.primaryAgent <;> rfl
  have hrequirements : ∀ d : BuildContext, p.requirements.elim d (fun requirements =>
      { d with requirements := mergeReferences d.requirements requirements false }) =
        { d with requirements := match p.requirements with
          | none => d.requirements
          | some incoming => mergeReferences d.requirements incoming false } :=
    fun _ => by cases p.requirements <;> rfl
  rw [patch]
  cases p.fault? with
  | some fault => exact refuse_bind_of_some rfl
  | none =>
    rw [refuse_bind_of_none rfl]
    simp only [write_bind_apply, modify_bind_apply, modify_apply, hdirectory, hprimary,
      hrequirements]
    rfl

theorem isAtomic_patch (p : BuildContextPatch) : (patch p).IsAtomic :=
  (isCheck_refuse _).bind fun _ => IsWrite.isAtomic <|
    (isWrite_write _ _).bind fun _ => (isWrite_write _ _).bind fun _ =>
    (isWrite_modify _).bind fun _ => (isWrite_write _ _).bind fun _ => isWrite_modify _

theorem applyPatch_eq (c : BuildContext) (patch : BuildContextPatch) :
    c.applyPatch patch = patch.fault?.elim (.ok (c.patched patch)) .error := by
  rw [applyPatch, outcome, patch_apply]
  cases patch.fault? <;> rfl

end BuildContext
end AgentAssembly

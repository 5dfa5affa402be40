import AgentAssembly.Generation
import AgentAssembly.Proofs.Collections
import AgentAssembly.Proofs.Validation.WellFormed

/-!
When rendering fails. Main statement: it fails exactly when a report has one of the findings that
block it, which are about references and about the root agent.
-/

namespace AgentAssembly

variable {p : Project} {a : Agent}

/-- The kinds of findings without which every reference of a rendering is resolved. -/
def Finding.blocksRendering : Finding → Bool
  | .unresolvedTool .. | .unresolvedSubAgent .. | .unresolvedPrimaryAgent _ | .noAgents => true
  | _ => false

namespace Project

theorem hasTool_eq_false_iff {name : String} : p.hasTool name = false ↔ p.tool? name = none := by
  simp [hasTool]

theorem hasAgent_eq_false_iff {name : String} : p.hasAgent name = false ↔ p.agent? name = none := by
  simp [hasAgent]

theorem unresolvedTool_mem_findings {x name : String} :
    .unresolvedTool x name ∈ p.validate.findings ↔
      ∃ a ∈ p.agents, a.name = x ∧ name ∈ a.tools ∧ p.tool? name = none := by
  have hc : ("unresolved_tool", Validation.toolReferences p) ∈ Validation.checks p := by
    simp [Validation.checks]
  rw [Validation.mem_findings_iff hc rfl]
  simp [Validation.toolReferences, ← hasTool_eq_false_iff]
  tauto

theorem unresolvedSubAgent_mem_findings {x name : String} :
    .unresolvedSubAgent x name ∈ p.validate.findings ↔
      ∃ a ∈ p.agents, a.name = x ∧ name ∈ a.subAgents ∧ p.agent? name = none := by
  have hc : ("unresolved_sub_agent", Validation.subAgentReferences p) ∈ Validation.checks p := by
    simp [Validation.checks]
  rw [Validation.mem_findings_iff hc rfl]
  simp [Validation.subAgentReferences, ← hasAgent_eq_false_iff]
  tauto

theorem unresolvedPrimaryAgent_mem_findings {name : String} :
    .unresolvedPrimaryAgent name ∈ p.validate.findings ↔
      p.buildContext.primaryAgent = some name ∧ p.agent? name = none := by
  have hc : ("unresolved_primary_agent", Validation.primaryAgent p) ∈ Validation.checks p := by
    simp [Validation.checks]
  rw [Validation.mem_findings_iff hc rfl]
  simp [Validation.primaryAgent, ← hasAgent_eq_false_iff, Option.filter_eq_some_iff]

theorem noAgents_mem_findings : .noAgents ∈ p.validate.findings ↔ p.agents = [] := by
  have hc : ("no_agents", Validation.agentCount p) ∈ Validation.checks p := by
    simp [Validation.checks]
  rw [Validation.mem_findings_iff hc rfl]
  simp [Validation.agentCount]

def HasDanglingReference (p : Project) : Prop :=
  ∃ a ∈ p.agents,
    (∃ name ∈ a.tools, p.tool? name = none) ∨ ∃ name ∈ a.subAgents, p.agent? name = none

end Project

namespace AgentModule

theorem findTools_eq_ok_iff {tools : List Tool} :
    findTools p a = .ok tools ↔ a.tools.map p.tool? = tools.map some :=
  mapM_lookup_eq_ok_iff (e := .unknownTool a.name) fun name => by cases p.tool? name <;> rfl

theorem findSubAgents_eq_ok_iff {subAgents : List Agent} :
    findSubAgents p a = .ok subAgents ↔ a.subAgents.map p.agent? = subAgents.map some :=
  mapM_lookup_eq_ok_iff (e := .unknownSubAgent a.name) fun name => by cases p.agent? name <;> rfl

theorem exists_findTools_error_iff :
    (∃ fault, findTools p a = .error fault) ↔ ∃ name ∈ a.tools, p.tool? name = none :=
  exists_mapM_lookup_error_iff (e := .unknownTool a.name) fun name => by
    cases p.tool? name <;> rfl

theorem exists_findSubAgents_error_iff :
    (∃ fault, findSubAgents p a = .error fault) ↔ ∃ name ∈ a.subAgents, p.agent? name = none :=
  exists_mapM_lookup_error_iff (e := .unknownSubAgent a.name) fun name => by
    cases p.agent? name <;> rfl

theorem ofAgent_eq_ok_iff {m : AgentModule} :
    ofAgent p a = .ok m ↔
      ∃ tools subAgents, a.tools.map p.tool? = tools.map some ∧
        a.subAgents.map p.agent? = subAgents.map some ∧ m = ofParts a tools subAgents := by
  simp only [← findTools_eq_ok_iff, ← findSubAgents_eq_ok_iff]
  rw [ofAgent]
  cases findTools p a with
  | error fault => simp
  | ok tools => cases findSubAgents p a <;> simp [eq_comm]

theorem exists_ofAgent_error_iff :
    (∃ fault, ofAgent p a = .error fault) ↔
      (∃ name ∈ a.tools, p.tool? name = none) ∨ ∃ name ∈ a.subAgents, p.agent? name = none := by
  rw [← exists_findTools_error_iff, ← exists_findSubAgents_error_iff, ofAgent]
  cases findTools p a with
  | error fault => simp
  | ok tools => cases findSubAgents p a <;> simp

end AgentModule

namespace EntryPoint

theorem exists_rootName? (hprimary : p.buildContext.primaryAgent = none) (h : p.agents ≠ []) :
    ∃ a ∈ p.agents, p.rootName? = some a.name := by
  rw [Project.rootName?, hprimary, Option.none_or]
  cases hfirst : p.agents.find? fun a => !p.isDelegate a.name with
  | some a => exact ⟨a, List.mem_of_find?_eq_some hfirst, rfl⟩
  | none =>
    obtain ⟨a, rest, hcons⟩ := List.exists_cons_of_ne_nil h
    exact ⟨a, by simp [hcons], by simp [hcons]⟩

theorem root?_eq_none_iff :
    root? p = none ↔
      (∃ name, p.buildContext.primaryAgent = some name ∧ p.agent? name = none) ∨
        p.buildContext.primaryAgent = none ∧ p.agents = [] := by
  cases hprimary : p.buildContext.primaryAgent with
  | some name => simp [root?, Project.rootName?, hprimary]
  | none =>
    by_cases h : p.agents = []
    · simp [root?, Project.rootName?, hprimary, h]
    · obtain ⟨a, ha, hname⟩ := exists_rootName? hprimary h
      have hborne : p.hasAgent a.name = true := Project.hasAgent_iff.mpr ⟨a, ha, rfl⟩
      have hsome : p.agent? a.name ≠ none := fun hnone =>
        absurd (Project.hasAgent_eq_false_iff.mpr hnone) (by simp [hborne])
      simp [root?, hname, hsome, h]

end EntryPoint

namespace Project

theorem exists_agentFiles_error_iff :
    (∃ fault, Package.agentFiles p = .error fault) ↔ p.HasDanglingReference := by
  rw [Package.agentFiles, exists_mapM_error_iff, HasDanglingReference]
  simp only [← AgentModule.exists_ofAgent_error_iff]
  constructor
  · intro h
    obtain ⟨a, ha, fault, h⟩ := h
    cases hm : AgentModule.ofAgent p a with
    | error fault => exact ⟨a, ha, fault, hm⟩
    | ok m => simp [hm, Except.map] at h
  · intro h
    obtain ⟨a, ha, fault, h⟩ := h
    exact ⟨a, ha, fault, by simp [h, Except.map]⟩

theorem exists_render_error_iff :
    (∃ fault, p.render = .error fault) ↔
      p.HasDanglingReference ∨ EntryPoint.root? p = none := by
  rw [← exists_agentFiles_error_iff, render]
  cases Package.agentFiles p with
  | error fault => simp
  | ok agents => cases EntryPoint.root? p <;> simp

theorem exists_blocking_iff :
    (∃ f ∈ p.validate.findings, f.blocksRendering) ↔
      p.HasDanglingReference ∨ EntryPoint.root? p = none := by
  rw [EntryPoint.root?_eq_none_iff]
  constructor
  · intro h
    obtain ⟨f, hf, hblocks⟩ := h
    cases f with
    | unresolvedTool x name =>
      obtain ⟨a, ha, -, hname, hnone⟩ := unresolvedTool_mem_findings.mp hf
      exact .inl ⟨a, ha, .inl ⟨name, hname, hnone⟩⟩
    | unresolvedSubAgent x name =>
      obtain ⟨a, ha, -, hname, hnone⟩ := unresolvedSubAgent_mem_findings.mp hf
      exact .inl ⟨a, ha, .inr ⟨name, hname, hnone⟩⟩
    | unresolvedPrimaryAgent name =>
      exact .inr (.inl ⟨name, unresolvedPrimaryAgent_mem_findings.mp hf⟩)
    | noAgents =>
      -- A primary agent that is set keeps the root from being looked for elsewhere.
      have hagents := noAgents_mem_findings.mp hf
      cases hprimary : p.buildContext.primaryAgent with
      | none => exact .inr (.inr ⟨rfl, hagents⟩)
      | some name => exact .inr (.inl ⟨name, rfl, by simp [agent?, hagents]⟩)
    | _ => simp [Finding.blocksRendering] at hblocks
  · intro h
    obtain ⟨a, ha, ⟨name, hname, hnone⟩ | ⟨name, hname, hnone⟩⟩ |
      ⟨name, hname, hnone⟩ | ⟨-, hagents⟩ := h
    · exact ⟨_, unresolvedTool_mem_findings.mpr ⟨a, ha, rfl, hname, hnone⟩, rfl⟩
    · exact ⟨_, unresolvedSubAgent_mem_findings.mpr ⟨a, ha, rfl, hname, hnone⟩, rfl⟩
    · exact ⟨_, unresolvedPrimaryAgent_mem_findings.mpr ⟨hname, hnone⟩, rfl⟩
    · exact ⟨_, noAgents_mem_findings.mpr hagents, rfl⟩

theorem exists_render_error_iff_blocking :
    (∃ fault, p.render = .error fault) ↔ ∃ f ∈ p.validate.findings, f.blocksRendering :=
  exists_render_error_iff.trans exists_blocking_iff.symm

theorem preview_of_findings (h : p.validate.findings ≠ []) :
    p.preview = .error (.invalid p.validate) := by
  simp [preview, Report.isOk, h]

theorem exists_preview_ok_iff : (∃ files, p.preview = .ok files) ↔ p.validate.findings = [] := by
  constructor
  · intro h
    obtain ⟨files, hfiles⟩ := h
    by_contra h
    simp [preview_of_findings h] at hfiles
  · intro h
    cases hrender : p.render with
    | ok files => exact ⟨files, by simp [preview, Report.isOk, h, hrender, Except.mapError]⟩
    | error fault =>
      obtain ⟨f, hf, -⟩ := exists_render_error_iff_blocking.mp ⟨fault, hrender⟩
      simp [h] at hf

end Project
end AgentAssembly

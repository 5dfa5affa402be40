import AgentAssembly.Proofs.Collections
import AgentAssembly.Proofs.Delegation.Cycles
import AgentAssembly.Proofs.Identifier
import AgentAssembly.Proofs.Validation.Collision

/-!
Projects that can be generated. Main statement: a report is empty exactly when the project is
well-formed, a notion that is told without the checks.
-/

namespace AgentAssembly

open Identifier

structure WellFormedParameters (ps : List Parameter) : Prop where
  identifiers : ∀ q ∈ ps, IsIdentifier q.name
  distinct : (ps.map (·.name)).Nodup
  defaultsLast : ps.Pairwise fun q r => q.defaultValue.isSome → r.defaultValue.isSome

namespace Project

/-- An agent of the name `a` has `b` among its sub-agents, and some agent bears `b`. -/
def Refers (p : Project) (a b : String) : Prop :=
  (∃ x ∈ p.agents, x.name = a ∧ b ∈ x.subAgents) ∧ ∃ y ∈ p.agents, y.name = b

structure WellFormed (p : Project) : Prop where
  hasAgent : p.agents ≠ []
  tools : ∀ a ∈ p.agents, ∀ name ∈ a.tools, ∃ t ∈ p.tools, t.name = name
  subAgents : ∀ a ∈ p.agents, ∀ name ∈ a.subAgents, ∃ b ∈ p.agents, b.name = name
  acyclic : Acyclic p.Refers
  primary : ∀ name ∈ p.buildContext.primaryAgent, ∃ a ∈ p.agents, a.name = name
  code : ∀ t ∈ p.tools, t.kind = .generated → Text.trim t.code ≠ ""
  parameters : ∀ t ∈ p.tools, t.kind = .generated → WellFormedParameters t.parameters
  builtins : ∀ t ∈ p.tools, t.kind = .builtin → IsIdentifier t.builtinReference
  modules : (p.agents.map (moduleName ·.name)).Nodup
  symbols : p.symbols.Pairwise Symbol.Compatible

theorem hasTool_iff {p : Project} {name : String} :
    p.hasTool name = true ↔ ∃ t ∈ p.tools, t.name = name := by
  simp [hasTool, tool?]

theorem hasAgent_iff {p : Project} {name : String} :
    p.hasAgent name = true ↔ ∃ a ∈ p.agents, a.name = name := by
  simp [hasAgent, agent?]

end Project

theorem Tool.isGenerated_iff {t : Tool} : t.isGenerated = true ↔ t.kind = .generated := by
  simp [Tool.isGenerated]

theorem Tool.isGenerated_eq_false_iff {t : Tool} : t.isGenerated = false ↔ t.kind = .builtin := by
  cases h : t.kind <;> simp [Tool.isGenerated, h]

namespace Validation

variable {p : Project}

theorem toolReferences_eq_nil_iff :
    toolReferences p = [] ↔ ∀ a ∈ p.agents, ∀ name ∈ a.tools, ∃ t ∈ p.tools, t.name = name := by
  simp only [← Project.hasTool_iff]
  simp [toolReferences]

theorem subAgentReferences_eq_nil_iff :
    subAgentReferences p = [] ↔
      ∀ a ∈ p.agents, ∀ name ∈ a.subAgents, ∃ b ∈ p.agents, b.name = name := by
  simp only [← Project.hasAgent_iff]
  simp [subAgentReferences]

theorem subAgentCycles_eq_nil_iff :
    subAgentCycles p = [] ↔ Acyclic (Delegation.Edge p.agents) := by
  rw [subAgentCycles, List.map_eq_nil_iff, Delegation.cycles_eq_nil_iff]

theorem primaryAgent_eq_nil_iff :
    primaryAgent p = [] ↔
      ∀ name ∈ p.buildContext.primaryAgent, ∃ a ∈ p.agents, a.name = name := by
  simp only [← Project.hasAgent_iff]
  cases h : p.buildContext.primaryAgent with
  | none => simp [primaryAgent, h]
  | some name => cases hn : p.hasAgent name <;> simp [primaryAgent, h, hn, Option.filter]

theorem toolCode_eq_nil_iff :
    toolCode p = [] ↔ ∀ t ∈ p.tools, t.kind = .generated → Text.trim t.code ≠ "" := by
  have hnone : toolCode p = [] ↔ ∀ t ∈ p.tools, t.isGenerated → ¬ Text.isBlank t.code := by
    simp only [toolCode, Project.generatedTools, List.map_eq_nil_iff, List.filter_eq_nil_iff,
      List.mem_filter, and_imp]
  simp only [hnone, Tool.isGenerated_iff, Text.isBlank_iff_trim, ne_eq]

theorem agentCount_eq_nil_iff : agentCount p = [] ↔ p.agents ≠ [] := by
  cases h : p.agents <;> simp [agentCount, h]

theorem parameterFault?_eq_none_iff {seen : List String} {optional : Bool} {q : Parameter} :
    parameterFault? seen optional q = none ↔
      IsIdentifier q.name ∧ q.name ∉ seen ∧ (optional = true → q.defaultValue.isSome) := by
  rw [parameterFault?, ← isIdentifier_iff]
  by_cases hseen : q.name ∈ seen <;> cases isIdentifier q.name <;> cases optional <;>
    cases q.defaultValue <;> simp [hseen]

theorem parameterFaults_eq_nil_iff {tool : String} {seen : List String} {optional : Bool}
    {ps : List Parameter} :
    parameterFaults tool seen optional ps = [] ↔
      (∀ q ∈ ps, IsIdentifier q.name) ∧ Novel seen (ps.map (·.name)) ∧
      (optional = true → ∀ q ∈ ps, q.defaultValue.isSome) ∧
      ps.Pairwise fun q r => q.defaultValue.isSome → r.defaultValue.isSome := by
  induction ps generalizing seen optional with
  | nil => simp [parameterFaults]
  | cons q rest ih =>
    rw [parameterFaults, List.append_eq_nil_iff, ih, List.map_cons, novel_cons,
      List.pairwise_cons, List.forall_mem_cons, List.forall_mem_cons]
    simp only [Option.toList_eq_nil_iff, Option.map_eq_none_iff, parameterFault?_eq_none_iff]
    cases optional <;> cases q.defaultValue <;> simp <;> tauto

theorem toolParameters_eq_nil_iff :
    toolParameters p = [] ↔
      ∀ t ∈ p.tools, t.kind = .generated → WellFormedParameters t.parameters := by
  have hparameters : ∀ t : Tool, parameterFaults t.name [] false t.parameters = [] ↔
      WellFormedParameters t.parameters := by
    intro t
    rw [parameterFaults_eq_nil_iff, novel_empty]
    constructor
    · intro h
      obtain ⟨hids, hdistinct, -, hdefaults⟩ := h
      exact ⟨hids, hdistinct, hdefaults⟩
    · intro h
      exact ⟨h.identifiers, h.distinct, by simp, h.defaultsLast⟩
  simp only [toolParameters, Project.generatedTools, List.flatMap_eq_nil_iff, List.mem_filter,
    and_imp, hparameters, Tool.isGenerated_iff]

theorem builtinReferences_eq_nil_iff :
    builtinReferences p = [] ↔
      ∀ t ∈ p.tools, t.kind = .builtin → IsIdentifier t.builtinReference := by
  simp only [← Tool.isGenerated_eq_false_iff, ← isIdentifier_iff]
  simp [builtinReferences]

theorem collisions_eq_nil_iff
    (hids : ∀ t ∈ p.tools, t.kind = .builtin → IsIdentifier t.builtinReference) :
    Collision.findings p = [] ↔
      (p.agents.map (moduleName ·.name)).Nodup ∧ p.symbols.Pairwise Symbol.Compatible := by
  refine Collision.findings_eq_nil_iff fun t ht => ?_
  cases hg : t.isGenerated with
  | true => exact .inl rfl
  | false => exact .inr (isIdentifier_iff.mpr (hids t ht (Tool.isGenerated_eq_false_iff.mp hg)))

end Validation

namespace Project

variable {p : Project}

theorem mem_of_agent? {name : String} {x : Agent} (h : p.agent? name = some x) :
    x ∈ p.agents ∧ x.name = name := Delegation.mem_of_find?_name h

theorem agent?_eq_some_iff (h : (p.agents.map (·.name)).Nodup) {name : String} {x : Agent} :
    p.agent? name = some x ↔ x ∈ p.agents ∧ x.name = name := find?_name_eq_some_iff h

theorem nodup_names (h : (p.agents.map (moduleName ·.name)).Nodup) :
    (p.agents.map (·.name)).Nodup := by
  refine List.Nodup.of_map moduleName ?_
  simpa [List.map_map, Function.comp_def] using h

theorem WellFormed.toolModules (h : p.WellFormed) :
    (p.generatedTools.map (moduleName ·.name)).Nodup := by
  have hgenerated : ∀ t ∈ p.generatedTools, t.packageSymbol = ⟨moduleName t.name, false⟩ := by
    intro t ht
    have ht : t.isGenerated = true := (List.mem_filter.mp ht).2
    rw [Tool.packageSymbol, if_pos ht, toolFunction]
  have hsublist : (p.generatedTools.map (·.packageSymbol)).Sublist p.symbols :=
    (List.filter_sublist.map _).trans (List.sublist_append_right _ _)
  have hpairs := h.symbols.sublist hsublist
  rw [List.map_congr_left hgenerated, Collision.pairwise_compatible_iff (by simp)] at hpairs
  simpa [Function.comp_def] using hpairs

theorem refers_of_edge {a b : String} (h : Delegation.Edge p.agents a b) : p.Refers a b := by
  obtain ⟨⟨x, hx, hb⟩, hborne⟩ := h
  obtain ⟨hmem, hname⟩ := mem_of_agent? hx
  exact ⟨⟨x, hmem, hname, hb⟩, hborne⟩

/-- Where names are distinct it makes no difference that names lead to first agents. -/
theorem edge_of_refers (h : (p.agents.map (·.name)).Nodup) {a b : String} (hab : p.Refers a b) :
    Delegation.Edge p.agents a b := by
  obtain ⟨⟨x, hx, hname, hb⟩, hborne⟩ := hab
  exact ⟨⟨x, (agent?_eq_some_iff h).mpr ⟨hx, hname⟩, hb⟩, hborne⟩

theorem findings_eq_nil_iff_checks :
    p.validate.findings = [] ↔ ∀ c ∈ Validation.checks p, c.2 = [] := by
  rw [Validation.findings_validate, List.flatMap_eq_nil_iff]

theorem WellFormed.of_findings (h : p.validate.findings = []) : p.WellFormed := by
  have hchecks := findings_eq_nil_iff_checks.mp h
  simp only [Validation.checks, List.forall_mem_cons] at hchecks
  obtain ⟨htools, hsubs, hcycles, hprimary, hcode, hagents, hparams, hbuiltins, hcollisions, -⟩ :=
    hchecks
  have hids := Validation.builtinReferences_eq_nil_iff.mp hbuiltins
  obtain ⟨hmodules, hsymbols⟩ := (Validation.collisions_eq_nil_iff hids).mp hcollisions
  have hedges : ∀ a b, p.Refers a b → Delegation.Edge p.agents a b :=
    fun a b => edge_of_refers (nodup_names hmodules)
  exact {
    hasAgent := Validation.agentCount_eq_nil_iff.mp hagents
    tools := Validation.toolReferences_eq_nil_iff.mp htools
    subAgents := Validation.subAgentReferences_eq_nil_iff.mp hsubs
    acyclic := (Validation.subAgentCycles_eq_nil_iff.mp hcycles).mono hedges
    primary := Validation.primaryAgent_eq_nil_iff.mp hprimary
    code := Validation.toolCode_eq_nil_iff.mp hcode
    parameters := Validation.toolParameters_eq_nil_iff.mp hparams
    builtins := hids
    modules := hmodules
    symbols := hsymbols }

theorem WellFormed.findings_eq_nil (h : p.WellFormed) : p.validate.findings = [] := by
  rw [findings_eq_nil_iff_checks]
  simp only [Validation.checks, List.forall_mem_cons]
  have hcycles : Acyclic (Delegation.Edge p.agents) := h.acyclic.mono fun a b => refers_of_edge
  refine ⟨Validation.toolReferences_eq_nil_iff.mpr h.tools,
    Validation.subAgentReferences_eq_nil_iff.mpr h.subAgents,
    Validation.subAgentCycles_eq_nil_iff.mpr hcycles,
    Validation.primaryAgent_eq_nil_iff.mpr h.primary,
    Validation.toolCode_eq_nil_iff.mpr h.code,
    Validation.agentCount_eq_nil_iff.mpr h.hasAgent,
    Validation.toolParameters_eq_nil_iff.mpr h.parameters,
    Validation.builtinReferences_eq_nil_iff.mpr h.builtins,
    (Validation.collisions_eq_nil_iff h.builtins).mpr ⟨h.modules, h.symbols⟩, ?_⟩
  simp

/-- A report is empty exactly when the project is well-formed. -/
theorem findings_eq_nil_iff_wellFormed (p : Project) :
    p.validate.findings = [] ↔ p.WellFormed :=
  ⟨WellFormed.of_findings, WellFormed.findings_eq_nil⟩

end Project
end AgentAssembly

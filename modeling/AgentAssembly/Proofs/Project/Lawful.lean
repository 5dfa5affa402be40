import AgentAssembly.Proofs.Collections
import AgentAssembly.Proofs.Project.Patch

/-!
The rules that the fields of agents, tools and build contexts obey. Main statements: what is
accepted obeys them once it is normalized, and a patch that is accepted keeps them.
-/

namespace AgentAssembly

open Text (isBlank hasLineBreak)

structure IsReferenceList (l : List String) : Prop where
  named : ∀ s ∈ l, isBlank s = false
  nodup : l.Nodup

structure Agent.Lawful (a : Agent) : Prop where
  name : isBlank a.name = false
  model : isBlank a.model = false
  tools : IsReferenceList a.tools
  subAgents : IsReferenceList a.subAgents
  temperature : ∀ t ∈ a.temperature, Double.ofRatio false 0 1 ≤ t ∧ t ≤ Double.ofRatio false 2 1
  maxOutputTokens : ∀ n ∈ a.maxOutputTokens, 0 < n

structure Tool.Lawful (t : Tool) : Prop where
  name : isBlank t.name = false
  imports : IsReferenceList t.imports
  parameters : ∀ q ∈ t.parameters, isBlank q.name = false

structure BuildContext.Lawful (c : BuildContext) : Prop where
  outputDirectory : ∀ s ∈ c.outputDirectory, isBlank s = false
  primaryAgent : ∀ s ∈ c.primaryAgent, isBlank s = false
  requirements : IsReferenceList c.requirements
  requirementLines : ∀ s ∈ c.requirements, hasLineBreak s = false
  environment : ∀ key value, c.environment.get? key = some value →
    isBlank key = false ∧ '=' ∉ key.toList ∧ hasLineBreak key = false ∧ hasLineBreak value = false

structure Project.Lawful (limits : Limits) (p : Project) : Prop where
  name : isBlank p.name = false
  nameLine : hasLineBreak p.name = false
  metadata : p.metadata.get? "name" = none
  agents : ∀ a ∈ p.agents, a.Lawful
  agentNames : p.agentNames.Nodup
  agentCount : p.agents.length ≤ limits.maxAgents
  tools : ∀ t ∈ p.tools, t.Lawful
  toolNames : p.toolNames.Nodup
  toolCount : p.tools.length ≤ limits.maxTools
  buildContext : p.buildContext.Lawful

section references

variable {l current incoming : List String}

theorem any_isBlank_eq_false_iff : l.any isBlank = false ↔ ∀ s ∈ l, isBlank s = false := by
  simp

theorem IsReferenceList.distinct (h : ∀ s ∈ l, isBlank s = false) :
    IsReferenceList (distinct l) where
  named := fun s hs => h s (mem_distinct.mp hs)
  nodup := nodup_distinct l

theorem IsReferenceList.merge (hcurrent : IsReferenceList current)
    (hincoming : ∀ s ∈ incoming, isBlank s = false) (replace : Bool) :
    IsReferenceList (mergeReferences current incoming replace) := by
  refine IsReferenceList.distinct fun s hs => ?_
  split at hs
  · exact hincoming s hs
  · obtain hs | hs := List.mem_append.mp hs
    · exact hcurrent.named s hs
    · exact hincoming s hs

end references

section lines

theorem lineFault?_eq_none_iff {what : SingleLine} {s : String} :
    lineFault? what s = none ↔ hasLineBreak s = false := by
  simp [lineFault?]

theorem projectNameFault?_eq_none_iff {name : String} :
    projectNameFault? name = none ↔ isBlank name = false ∧ hasLineBreak name = false := by
  rw [projectNameFault?]
  split <;> simp_all [lineFault?_eq_none_iff]

theorem requirementsFault?_eq_none_iff {l : List String} :
    requirementsFault? l = none ↔ ∀ s ∈ l, isBlank s = false ∧ hasLineBreak s = false := by
  rw [requirementsFault?]
  split
  · rename_i h
    obtain ⟨s, hs, hblank⟩ := List.any_eq_true.mp h
    simpa using ⟨s, hs, fun hnot => by simp [hblank] at hnot⟩
  · rename_i h
    have hnone := any_isBlank_eq_false_iff.mp (Bool.not_eq_true _ ▸ h)
    simp only [List.findSome?_eq_none_iff, lineFault?_eq_none_iff]
    exact ⟨fun hline s hs => ⟨hnone s hs, hline s hs⟩, fun hboth s hs => (hboth s hs).2⟩

theorem variableFault?_eq_none_iff {key value : String} :
    variableFault? key value = none ↔
      isBlank key = false ∧ '=' ∉ key.toList ∧ hasLineBreak key = false ∧
        hasLineBreak value = false := by
  rw [variableFault?]
  split
  · rename_i h
    simp only [reduceCtorEq, false_iff]
    rintro ⟨hblank, hsign, -⟩
    simp_all
  · rename_i h
    simp only [not_or, Bool.not_eq_true, List.contains_eq_mem, decide_eq_false_iff_not] at h
    simp [Option.or_eq_none_iff, lineFault?_eq_none_iff, h]

end lines

section fields

theorem generationFault?_eq_none_iff {temperature : Option Double} {tokens : Option UInt32} :
    generationFault? temperature tokens = none ↔
      (∀ t ∈ temperature, Double.ofRatio false 0 1 ≤ t ∧ t ≤ Double.ofRatio false 2 1) ∧
        ∀ n ∈ tokens, 0 < n := by
  have hrange : ∀ t, inTemperatureRange t = true ↔
      Double.ofRatio false 0 1 ≤ t ∧ t ≤ Double.ofRatio false 2 1 := fun t => by
    simp only [inTemperatureRange, Bool.and_eq_true]
    rfl
  have htokens : tokens ≠ some 0 ↔ ∀ n ∈ tokens, 0 < n := by
    cases tokens with
    | none => simp
    | some n => simp [UInt32.pos_iff_ne_zero]
  simp only [← hrange, ← htokens]
  cases temperature with
  | none => simp [generationFault?]
  | some t => cases h : inTemperatureRange t <;> simp [generationFault?, Option.filter, h]

theorem Agent.fault?_eq_none_iff {a : Agent} :
    a.fault? = none ↔ isBlank a.name = false ∧ isBlank a.model = false ∧
      (∀ s ∈ a.tools, isBlank s = false) ∧ (∀ s ∈ a.subAgents, isBlank s = false) ∧
        generationFault? a.temperature a.maxOutputTokens = none := by
  rw [Agent.fault?, ← any_isBlank_eq_false_iff, ← any_isBlank_eq_false_iff]
  grind

theorem AgentPatch.fault?_eq_none_iff {p : AgentPatch} :
    p.fault? = none ↔ (∀ s ∈ p.model, isBlank s = false) ∧
      (∀ l ∈ p.tools, ∀ s ∈ l, isBlank s = false) ∧
        (∀ l ∈ p.subAgents, ∀ s ∈ l, isBlank s = false) ∧
          generationFault? p.temperature p.maxOutputTokens = none := by
  simp only [← any_isBlank_eq_false_iff]
  rw [AgentPatch.fault?]
  cases p.model <;> cases p.tools <;> cases p.subAgents <;> grind

theorem Tool.fault?_eq_none_iff {t : Tool} :
    t.fault? = none ↔ isBlank t.name = false ∧ (∀ s ∈ t.imports, isBlank s = false) ∧
      ∀ q ∈ t.parameters, isBlank q.name = false := by
  have hparameters : t.parameters.any (isBlank ·.name) = false ↔
      ∀ q ∈ t.parameters, isBlank q.name = false := by simp
  rw [Tool.fault?, ← any_isBlank_eq_false_iff, ← hparameters]
  grind

theorem ToolPatch.fault?_eq_none_iff {p : ToolPatch} :
    p.fault? = none ↔ (∀ l ∈ p.imports, ∀ s ∈ l, isBlank s = false) ∧
      (∀ l ∈ p.parameters, ∀ q ∈ l, isBlank q.name = false) ∧
        ∀ s ∈ p.builtinType, isBlank s = false := by
  have hparameters : ∀ l : List Parameter, l.any (isBlank ·.name) = false ↔
      ∀ q ∈ l, isBlank q.name = false := fun l => by simp
  simp only [← any_isBlank_eq_false_iff, ← hparameters]
  rw [ToolPatch.fault?]
  cases p.imports <;> cases p.parameters <;> cases p.builtinType <;> grind

theorem BuildContextPatch.fault?_eq_none_iff {p : BuildContextPatch} :
    p.fault? = none ↔ (∀ s ∈ p.outputDirectory, isBlank s = false) ∧
      (∀ s ∈ p.primaryAgent, isBlank s = false) ∧
        (∀ l ∈ p.requirements, ∀ s ∈ l, isBlank s = false ∧ hasLineBreak s = false) ∧
          ∀ key value, p.environment.get? key = some value →
            isBlank key = false ∧ '=' ∉ key.toList ∧ hasLineBreak key = false ∧
              hasLineBreak value = false := by
  have henvironment : (p.environment.entries.findSome? fun e => variableFault? e.1 e.2) = none ↔
      ∀ key value, p.environment.get? key = some value → variableFault? key value = none := by
    simp [List.findSome?_eq_none_iff, Dict.get?_eq_some_iff]
  simp only [← requirementsFault?_eq_none_iff, ← variableFault?_eq_none_iff]
  rw [← henvironment, BuildContextPatch.fault?]
  cases p.outputDirectory <;> cases p.primaryAgent <;> cases p.requirements <;> grind

end fields

namespace Agent.Lawful

variable {a : Agent}

theorem normalized (h : a.fault? = none) : a.normalized.Lawful := by
  obtain ⟨hname, hmodel, htools, hsubs, hgeneration⟩ := Agent.fault?_eq_none_iff.mp h
  obtain ⟨htemperature, htokens⟩ := generationFault?_eq_none_iff.mp hgeneration
  exact {
    name := hname
    model := hmodel
    tools := .distinct htools
    subAgents := .distinct hsubs
    temperature := htemperature
    maxOutputTokens := htokens }

theorem patched (h : a.Lawful) {p : AgentPatch} (hp : p.fault? = none) : (a.patched p).Lawful := by
  obtain ⟨hmodel, htools, hsubs, hgeneration⟩ := AgentPatch.fault?_eq_none_iff.mp hp
  obtain ⟨htemperature, htokens⟩ := generationFault?_eq_none_iff.mp hgeneration
  have hmerge : ∀ {l : List String} {more : Option (List String)}, IsReferenceList l →
      (∀ m ∈ more, ∀ s ∈ m, isBlank s = false) → IsReferenceList (p.mergeInto l more) := by
    intro l more hl hmore
    cases more with
    | none => exact hl
    | some m => exact hl.merge (hmore m rfl) p.replaceReferences
  refine ⟨h.name, ?_, hmerge h.tools htools, hmerge h.subAgents hsubs, ?_, ?_⟩
  · cases hm : p.model with
    | none => simpa [Agent.patched, hm] using h.model
    | some model => simpa [Agent.patched, hm] using hmodel model hm
  · intro t ht
    obtain ht | ⟨-, ht⟩ := Option.or_eq_some_iff.mp ht
    · exact htemperature t ht
    · exact h.temperature t ht
  · intro n hn
    obtain hn | ⟨-, hn⟩ := Option.or_eq_some_iff.mp hn
    · exact htokens n hn
    · exact h.maxOutputTokens n hn

end Agent.Lawful

namespace Tool.Lawful

variable {t : Tool}

theorem normalized (h : t.fault? = none) : t.normalized.Lawful := by
  obtain ⟨hname, himports, hparameters⟩ := Tool.fault?_eq_none_iff.mp h
  exact {
    name := hname
    imports := .distinct himports
    parameters := hparameters }

theorem patched (h : t.Lawful) {p : ToolPatch} (hp : p.fault? = none) : (t.patched p).Lawful := by
  obtain ⟨himports, hparameters, -⟩ := ToolPatch.fault?_eq_none_iff.mp hp
  refine ⟨h.name, ?_, ?_⟩
  · cases hi : p.imports with
    | none => simpa [Tool.patched, ToolPatch.mergeInto, hi] using h.imports
    | some incoming =>
      simpa [Tool.patched, ToolPatch.mergeInto, hi] using
        h.imports.merge (himports incoming hi) p.replaceImports
  · cases hq : p.parameters with
    | none => simpa [Tool.patched, hq] using h.parameters
    | some parameters => simpa [Tool.patched, hq] using hparameters parameters hq

end Tool.Lawful

namespace BuildContext.Lawful

variable {c : BuildContext}

theorem empty : ({} : BuildContext).Lawful where
  outputDirectory := by simp
  primaryAgent := by simp
  requirements := ⟨by simp, List.nodup_nil⟩
  requirementLines := by simp
  environment := by simp

theorem patched (h : c.Lawful) {p : BuildContextPatch} (hp : p.fault? = none) :
    (c.patched p).Lawful := by
  obtain ⟨houtput, hprimary, hrequirements, henvironment⟩ :=
    BuildContextPatch.fault?_eq_none_iff.mp hp
  refine ⟨?_, ?_, ?_, ?_, ?_⟩
  · intro s hs
    obtain hs | ⟨-, hs⟩ := Option.or_eq_some_iff.mp hs
    · exact houtput s hs
    · exact h.outputDirectory s hs
  · intro s hs
    obtain hs | ⟨-, hs⟩ := Option.or_eq_some_iff.mp hs
    · exact hprimary s hs
    · exact h.primaryAgent s hs
  · cases hr : p.requirements with
    | none => simpa [BuildContext.patched, hr] using h.requirements
    | some l =>
      simpa [BuildContext.patched, hr] using
        h.requirements.merge (fun s hs => (hrequirements l hr s hs).1) false
  · intro s hs
    cases hr : p.requirements with
    | none =>
      rw [BuildContext.patched, hr] at hs
      exact h.requirementLines s hs
    | some l =>
      rw [BuildContext.patched, hr] at hs
      obtain hs | hs := by simpa [mergeReferences] using hs
      · exact h.requirementLines s hs
      · exact (hrequirements l hr s hs).2
  · intro key value hvalue
    rw [BuildContext.patched, Dict.get?_extend] at hvalue
    obtain hvalue | ⟨-, hvalue⟩ := Option.or_eq_some_iff.mp hvalue
    · exact henvironment key value hvalue
    · exact h.environment key value hvalue

end BuildContext.Lawful

end AgentAssembly

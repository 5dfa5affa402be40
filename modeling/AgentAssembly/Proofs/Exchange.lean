import AgentAssembly.Proofs.Project.Record
import AgentAssembly.Proofs.Validation.Record

/-!
The records that are exchanged. Main statement: each kind of record survives its form, and a
finding is tagged with its kind.
-/

namespace AgentAssembly

open Json

/-- Temperatures have to be finite. Counts fit their words and moments lie in the years of the
calendar, as they do by their types. Identifiers and moments may have any text forms that lose
nothing. -/
theorem records_survive {forms : TextForms} (hforms : forms.Lossless) :
    Agent.form.Survives Agent.HasFiniteTemperature ∧
    AgentPatch.form.Survives AgentPatch.HasFiniteTemperature ∧
    Tool.form.Survives (fun _ => True) ∧
    ToolPatch.form.Survives (fun _ => True) ∧
    Parameter.form.Survives (fun _ => True) ∧
    BuildContext.form.Survives (fun _ => True) ∧
    BuildContextPatch.form.Survives (fun _ => True) ∧
    (Project.form forms).Survives Project.IsWritable ∧
    (Summary.form forms).Survives Summary.IsWritable ∧
    Report.form.Survives (fun _ => True) ∧
    Finding.form.Survives (fun _ => True) ∧
    ∀ f : Finding, f.toJson.members? >>= Dict.find? "kind" = some (.text f.kind) := by
  refine ⟨Agent.form_survives, AgentPatch.form_survives, Tool.form_survives,
    ToolPatch.form_survives, Parameter.form_survives, BuildContext.form_survives,
    BuildContextPatch.form_survives, Project.form_survives hforms, Summary.form_survives hforms,
    Report.form_survives, Finding.form_survives, fun f => ?_⟩
  rw [f.toJson_eq]
  exact f.find?_members List.mem_cons_self

def warmAgent : Agent := { name := "helper", temperature := some (Double.ofInt 1) }

def freshProject : Project := .blank ⟨7⟩ ⟨1704067200000000000⟩ "demo"

theorem records_survive_warmAgent :
    Agent.ofJson? warmAgent.toJson = some warmAgent ∧
    (Agent.ofJson? (ofMembers [("name", .text "helper"), ("temperature", .int 1)]) =
        some warmAgent ↔
      Agent.ofJson? (ofMembers [("name", .text "helper"), ("color", .text "red"),
        ("temperature", .int 1), ("tools", .array [])]) = some warmAgent) ∧
    Project.ofJson? .standard (freshProject.toJson .standard) = some freshProject ∧
    Finding.noAgents.toJson.members? >>= Dict.find? "kind" = some (.text "no_agents") := by
  have h := records_survive TextForms.standard_lossless
  refine ⟨h.1.read_write warmAgent ?_, ?_, ?_, ?_⟩
  · simp only [Agent.HasFiniteTemperature, warmAgent, Option.mem_some_iff, forall_eq']
    decide
  · refine h.1.read_kept warmAgent
      [("name", .text "helper"), ("color", .text "red"), ("temperature", .int 1),
        ("tools", .array [])] (fun e => e.1 == "name" || e.1 == "temperature") (by decide) ?_
    simp only [List.forall_mem_cons]
    exact ⟨by simp, fun _ => isIdle_of_unknown rfl, by simp,
      fun _ => isIdle_of_default rfl rfl, by simp⟩
  · refine h.2.2.2.2.2.2.2.1.read_write freshProject ⟨?_, ?_, ?_⟩
    · simp [freshProject, Project.blank]
    · unfold Timestamp.IsDated
      decide
    · unfold Timestamp.IsDated
      decide
  · exact h.2.2.2.2.2.2.2.2.2.2.2 .noAgents

end AgentAssembly

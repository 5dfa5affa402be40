import Mathlib.Data.List.Nodup
import AgentAssembly.Validation

/-!
Which check makes which finding. Main statement: the findings of one kind in a report are those
of the one check that has this kind.
-/

namespace AgentAssembly.Validation

def checks (p : Project) : List (String × List Finding) :=
  [("unresolved_tool", toolReferences p),
   ("unresolved_sub_agent", subAgentReferences p),
   ("sub_agent_cycle", subAgentCycles p),
   ("unresolved_primary_agent", primaryAgent p),
   ("missing_tool_code", toolCode p),
   ("no_agents", agentCount p),
   ("invalid_tool_parameter", toolParameters p),
   ("invalid_builtin_reference", builtinReferences p),
   ("identifier_collision", Collision.findings p)]

theorem findings_validate (p : Project) :
    p.validate.findings = (checks p).flatMap (·.2) := by
  simp [Project.validate, checks]

theorem kind_of_mem_parameterFaults {tool : String} {seen : List String} {optional : Bool}
    {ps : List Parameter} {f : Finding} (h : f ∈ parameterFaults tool seen optional ps) :
    f.kind = "invalid_tool_parameter" := by
  induction ps generalizing seen optional with
  | nil => simp [parameterFaults] at h
  | cons q rest ih =>
    obtain h | h := List.mem_append.mp h
    · obtain ⟨reason, -, rfl⟩ :
          ∃ reason, _ ∧ Finding.invalidToolParameter tool q.name reason = f := by
        simpa using h
      rfl
    · exact ih h

theorem kind_of_mem_ofAgents {modules : List (String × String)} {symbols : Collision.Symbols}
    {agents : List Agent} {f : Finding} (h : f ∈ (Collision.ofAgents modules symbols agents).1) :
    f.kind = "identifier_collision" := by
  induction agents generalizing modules symbols with
  | nil => simp [Collision.ofAgents] at h
  | cons a rest ih =>
    rw [Collision.ofAgents] at h
    split at h
    · obtain rfl | h := List.mem_cons.mp h
      · rfl
      · exact ih h
    · split at h
      · obtain rfl | h := List.mem_cons.mp h
        · rfl
        · exact ih h
      · exact ih h

theorem kind_of_mem_ofTools {symbols : Collision.Symbols} {tools : List Tool} {f : Finding}
    (h : f ∈ Collision.ofTools symbols tools) : f.kind = "identifier_collision" := by
  induction tools generalizing symbols with
  | nil => simp [Collision.ofTools] at h
  | cons t rest ih =>
    rw [Collision.ofTools] at h
    split at h
    · exact ih h
    · split at h
      · exact ih h
      · split at h
        · exact ih h
        · obtain rfl | h := List.mem_cons.mp h
          · rfl
          · exact ih h

theorem kind_of_mem_checks {p : Project} {c : String × List Finding} (hc : c ∈ checks p)
    {f : Finding} (hf : f ∈ c.2) : f.kind = c.1 := by
  simp only [checks, List.mem_cons, List.not_mem_nil, or_false] at hc
  obtain rfl | rfl | rfl | rfl | rfl | rfl | rfl | rfl | rfl := hc
  · obtain ⟨a, -, t, -, rfl⟩ := by simpa [toolReferences] using hf
    rfl
  · obtain ⟨a, -, t, -, rfl⟩ := by simpa [subAgentReferences] using hf
    rfl
  · obtain ⟨path, -, rfl⟩ := by simpa [subAgentCycles] using hf
    rfl
  · obtain ⟨name, -, rfl⟩ := by simpa [primaryAgent] using hf
    rfl
  · obtain ⟨t, -, rfl⟩ := by simpa [toolCode] using hf
    rfl
  · obtain ⟨-, rfl⟩ := by simpa [agentCount] using hf
    rfl
  · obtain ⟨t, -, ht⟩ := List.mem_flatMap.mp hf
    exact kind_of_mem_parameterFaults ht
  · obtain ⟨t, -, rfl⟩ := by simpa [builtinReferences] using hf
    rfl
  · obtain hf | hf := List.mem_append.mp hf
    · exact kind_of_mem_ofAgents hf
    · exact kind_of_mem_ofTools hf

theorem nodup_kinds (p : Project) : ((checks p).map (·.1)).Nodup := by
  simp [checks]

theorem mem_findings_iff {p : Project} {c : String × List Finding} (hc : c ∈ checks p)
    {f : Finding} (hf : f.kind = c.1) : f ∈ p.validate.findings ↔ f ∈ c.2 := by
  rw [findings_validate, List.mem_flatMap]
  constructor
  · intro h
    obtain ⟨d, hd, hfd⟩ := h
    have hkey : d.1 = c.1 := (kind_of_mem_checks hd hfd).symm.trans hf
    have hdc : d = c := List.inj_on_of_nodup_map (nodup_kinds p) hd hc hkey
    exact hdc ▸ hfd
  · exact fun hfc => ⟨c, hc, hfc⟩

theorem filter_kind {p : Project} {c d : String × List Finding} (hd : d ∈ checks p) :
    d.2.filter (·.kind == c.1) = if d.1 = c.1 then d.2 else [] := by
  split
  · rename_i hkey
    exact List.filter_eq_self.mpr fun f hf => by simp [kind_of_mem_checks hd hf, hkey]
  · rename_i hkey
    exact List.filter_eq_nil_iff.mpr fun f hf => by simp [kind_of_mem_checks hd hf, hkey]

/-- The findings of one kind are those of the check of this kind, in its order. -/
theorem filter_findings_validate {p : Project} {c : String × List Finding} (hc : c ∈ checks p) :
    p.validate.findings.filter (·.kind == c.1) = c.2 := by
  have hself : ∀ d ∈ checks p, d.2.filter (·.kind == c.1) = if d = c then c.2 else [] := by
    intro d hd
    have hkey : d.1 = c.1 ↔ d = c :=
      ⟨fun h => List.inj_on_of_nodup_map (nodup_kinds p) hd hc h, fun h => h ▸ rfl⟩
    rw [filter_kind hd]
    by_cases hdc : d = c
    · rw [if_pos (hkey.mpr hdc), if_pos hdc, hdc]
    · rw [if_neg (mt hkey.mp hdc), if_neg hdc]
  obtain ⟨before, after, hsplit⟩ := List.append_of_mem hc
  have hnodup : (checks p).Nodup := (nodup_kinds p).of_map
  rw [hsplit, List.nodup_middle, List.nodup_cons, List.mem_append, not_or] at hnodup
  obtain ⟨⟨hbefore, hafter⟩, -⟩ := hnodup
  have hnone : ∀ l : List (String × List Finding), c ∉ l →
      l.flatMap (fun d => if d = c then c.2 else []) = [] := by
    intro l hl
    refine List.flatMap_eq_nil_iff.mpr fun d hd => if_neg ?_
    exact fun h => hl (h ▸ hd)
  rw [findings_validate, List.filter_flatMap, List.flatMap_congr hself, hsplit,
    List.flatMap_append, List.flatMap_cons, hnone before hbefore, hnone after hafter]
  simp

end AgentAssembly.Validation

import AgentAssembly.Proofs.Project.Lawful
import AgentAssembly.Proofs.Project.Roster

/-!
What an edit of a project can do. Main statements: each plan that succeeds passed its checks and
made the one change told here, and every edit leads from a lawful project to a lawful one, whether
it succeeds or not.
-/

namespace AgentAssembly

def Edit.Keeps {α : Type} (e : Edit α) (I : Project → Prop) : Prop := ∀ p, I p → I (e p).2

namespace Edit.Keeps

variable {α β : Type} {I : Project → Prop}

theorem ofPlan {now : Timestamp} {plan : Project → Except ProjectError (α × Project)}
    (hplan : ∀ p a q, I p → plan p = .ok (a, q) → I { q with updatedAt := now }) :
    (Edit.ofPlan now plan).Keeps I := by
  intro p hp
  rw [Edit.ofPlan]
  split
  · exact hp
  · rename_i a q hq
    exact hplan p a q hp hq

theorem answering {e : Edit α} (he : e.Keeps I) (f : α → Project → β) :
    (e.answering f).Keeps I := by
  intro p hp
  rw [Edit.answering_apply]
  exact he p hp

end Edit.Keeps

namespace Project

variable {p q : Project} {limits : Limits}

/-- All that an accepted agent tells: it passed each check and stands behind the others. -/
theorem planAgent_eq_ok {agent a : Agent} (h : planAgent limits agent p = .ok (a, q)) :
    agent.fault? = none ∧ p.agents.length < limits.maxAgents ∧
      (∀ b ∈ p.agents, b.name ≠ agent.normalized.name) ∧ a = agent.normalized ∧
        q = { p with agents := p.agents ++ [agent.normalized] } := by
  rw [planAgent_eq_lift] at h
  exact Roster.agents.lift_add_eq_ok h

theorem planTool_eq_ok {tool t : Tool} (h : planTool limits tool p = .ok (t, q)) :
    tool.fault? = none ∧ p.tools.length < limits.maxTools ∧
      (∀ b ∈ p.tools, b.name ≠ tool.normalized.name) ∧ t = tool.normalized ∧
        q = { p with tools := p.tools ++ [tool.normalized] } := by
  rw [planTool_eq_lift] at h
  exact Roster.tools.lift_add_eq_ok h

theorem planAgentUpdate_eq_ok {name : String} {patch : AgentPatch} {a : Agent}
    (h : planAgentUpdate name patch p = .ok (a, q)) :
    ∃ before b after, p.agents = before ++ b :: after ∧ (∀ x ∈ before, x.name ≠ name) ∧
      b.name = name ∧ patch.fault? = none ∧ a = b.patched patch ∧
        q = { p with agents := before ++ b.patched patch :: after } := by
  rw [planAgentUpdate_eq_lift] at h
  obtain ⟨before, b, after, hagents, hbefore, hb, hpatch, rfl⟩ := Roster.agents.lift_update_eq_ok h
  obtain ⟨hfault, rfl⟩ := Agent.applyPatch_eq_ok_iff.mp hpatch
  exact ⟨before, b, after, hagents, hbefore, hb, hfault, rfl, rfl⟩

theorem planToolUpdate_eq_ok {name : String} {patch : ToolPatch} {t : Tool}
    (h : planToolUpdate name patch p = .ok (t, q)) :
    ∃ before b after, p.tools = before ++ b :: after ∧ (∀ x ∈ before, x.name ≠ name) ∧
      b.name = name ∧ patch.fault? = none ∧ t = b.patched patch ∧
        q = { p with tools := before ++ b.patched patch :: after } := by
  rw [planToolUpdate_eq_lift] at h
  obtain ⟨before, b, after, htools, hbefore, hb, hpatch, rfl⟩ := Roster.tools.lift_update_eq_ok h
  obtain ⟨hfault, rfl⟩ := Tool.applyPatch_eq_ok_iff.mp hpatch
  exact ⟨before, b, after, htools, hbefore, hb, hfault, rfl, rfl⟩

/-- Metadata are merged under the old name, or under a new one that passed its check. -/
theorem planMetadata_eq_ok {patch : Dict String Json} {a : Unit}
    (h : planMetadata patch p = .ok (a, q)) :
    ∃ name, q = { p with name, metadata := p.metadata.extend (patch.erase "name") } ∧
      (patch.get? "name" = none ∧ name = p.name ∨
        patch.get? "name" = some (.text name) ∧ projectNameFault? name = none) := by
  rw [planMetadata] at h
  split at h
  · rename_i hnone
    obtain ⟨-, rfl⟩ := Prod.mk.inj (Except.ok.inj h)
    exact ⟨p.name, rfl, .inl ⟨hnone, rfl⟩⟩
  · rename_i name hname
    split at h
    · simp at h
    · rename_i hfault
      obtain ⟨-, rfl⟩ := Prod.mk.inj (Except.ok.inj h)
      exact ⟨name, rfl, .inr ⟨hname, hfault⟩⟩
  · simp at h

theorem planBuildContext_eq_ok {patch : BuildContextPatch} {c : BuildContext}
    (h : planBuildContext patch p = .ok (c, q)) :
    patch.fault? = none ∧ c = p.buildContext.patched patch ∧
      q = { p with buildContext := p.buildContext.patched patch } := by
  rw [planBuildContext, BuildContext.applyPatch_eq] at h
  cases hfault : patch.fault? with
  | some fault => simp [hfault] at h
  | none =>
    obtain ⟨rfl, rfl⟩ : p.buildContext.patched patch = c ∧ _ = q := by simpa [hfault] using h
    exact ⟨rfl, rfl, rfl⟩

end Project

section lists

variable {α : Type}

theorem nodup_map_concat {f : α → String} {l : List α} {a : α} (h : (l.map f).Nodup)
    (hnew : ∀ b ∈ l, f b ≠ f a) : ((l ++ [a]).map f).Nodup := by
  rw [List.map_append, List.map_singleton, List.nodup_append]
  exact ⟨h, by simp, by simpa using hnew⟩

theorem forall_mem_replace {P : α → Prop} {before after : List α} {a b : α}
    (h : ∀ x ∈ before ++ a :: after, P x) (hb : P a → P b) : ∀ x ∈ before ++ b :: after, P x := by
  simp only [List.forall_mem_append, List.forall_mem_cons] at h ⊢
  exact ⟨h.1, hb h.2.1, h.2.2⟩

end lists

namespace Project.Lawful

variable {p : Project} {limits : Limits} {now : Timestamp}

theorem touched (h : p.Lawful limits) (now : Timestamp) :
    Lawful limits { p with updatedAt := now } :=
  ⟨h.name, h.nameLine, h.metadata, h.agents, h.agentNames, h.agentCount, h.tools, h.toolNames,
    h.toolCount, h.buildContext⟩

theorem new {id : Uuid} {name : String} (h : Project.new id now name = .ok p) :
    p.Lawful limits := by
  rw [Project.new] at h
  split at h
  · simp at h
  · rename_i hname
    obtain ⟨hblank, hline⟩ := projectNameFault?_eq_none_iff.mp hname
    obtain rfl := Except.ok.inj h
    exact {
      name := hblank
      nameLine := hline
      metadata := rfl
      agents := by simp [blank]
      agentNames := List.nodup_nil
      agentCount := Nat.zero_le _
      tools := by simp [blank]
      toolNames := List.nodup_nil
      toolCount := Nat.zero_le _
      buildContext := .empty }

theorem mergeMetadata (patch : Dict String Json) :
    (Project.mergeMetadata now patch).Keeps (Lawful limits) := by
  rw [mergeMetadata_eq_ofPlan]
  refine .ofPlan fun p a q h hplan => Lawful.touched ?_ now
  have hmetadata : (p.metadata.extend (patch.erase "name")).get? "name" = none := by
    simp [Dict.get?_extend, Dict.get?_erase, h.metadata]
  obtain ⟨name, rfl, ⟨-, rfl⟩ | ⟨-, hname⟩⟩ := planMetadata_eq_ok hplan
  · exact { h with metadata := hmetadata }
  · obtain ⟨hblank, hline⟩ := projectNameFault?_eq_none_iff.mp hname
    exact { h with name := hblank, nameLine := hline, metadata := hmetadata }

theorem addAgent (agent : Agent) : (Project.addAgent now limits agent).Keeps (Lawful limits) := by
  rw [addAgent_eq_ofPlan]
  refine .ofPlan fun p a q h hplan => Lawful.touched ?_ now
  obtain ⟨hfault, hlimit, hnew, -, rfl⟩ := planAgent_eq_ok hplan
  refine { h with agents := ?_, agentNames := nodup_map_concat h.agentNames hnew, agentCount := ?_ }
  · intro b hb
    obtain hb | hb := List.mem_append.mp hb
    · exact h.agents b hb
    · obtain rfl := List.mem_singleton.mp hb
      exact .normalized hfault
  · rw [List.length_append, List.length_singleton]
    omega

theorem addTool (tool : Tool) : (Project.addTool now limits tool).Keeps (Lawful limits) := by
  rw [addTool_eq_ofPlan]
  refine .ofPlan fun p a q h hplan => Lawful.touched ?_ now
  obtain ⟨hfault, hlimit, hnew, -, rfl⟩ := planTool_eq_ok hplan
  refine { h with tools := ?_, toolNames := nodup_map_concat h.toolNames hnew, toolCount := ?_ }
  · intro t ht
    obtain ht | ht := List.mem_append.mp ht
    · exact h.tools t ht
    · obtain rfl := List.mem_singleton.mp ht
      exact .normalized hfault
  · rw [List.length_append, List.length_singleton]
    omega

theorem updateAgent (name : String) (patch : AgentPatch) :
    (Project.updateAgent now name patch).Keeps (Lawful limits) := by
  rw [updateAgent_eq_ofPlan]
  refine .ofPlan fun p a q h hplan => Lawful.touched ?_ now
  obtain ⟨before, b, after, hagents, -, -, hfault, rfl, rfl⟩ := planAgentUpdate_eq_ok hplan
  have hnames : (before ++ b.patched patch :: after).map (·.name) = p.agents.map (·.name) := by
    simp [hagents, Agent.patched]
  have hlength : (before ++ b.patched patch :: after).length = p.agents.length := by simp [hagents]
  have hnodup := (congrArg List.Nodup hnames).mpr h.agentNames
  refine { h with agents := ?_, agentNames := hnodup, agentCount := ?_ }
  · exact forall_mem_replace (hagents ▸ h.agents) fun hb => hb.patched hfault
  · exact hlength ▸ h.agentCount

theorem updateTool (name : String) (patch : ToolPatch) :
    (Project.updateTool now name patch).Keeps (Lawful limits) := by
  rw [updateTool_eq_ofPlan]
  refine .ofPlan fun p a q h hplan => Lawful.touched ?_ now
  obtain ⟨before, t, after, htools, -, -, hfault, rfl, rfl⟩ := planToolUpdate_eq_ok hplan
  have hnames : (before ++ t.patched patch :: after).map (·.name) = p.tools.map (·.name) := by
    simp [htools, Tool.patched]
  have hlength : (before ++ t.patched patch :: after).length = p.tools.length := by simp [htools]
  have hnodup := (congrArg List.Nodup hnames).mpr h.toolNames
  refine { h with tools := ?_, toolNames := hnodup, toolCount := ?_ }
  · exact forall_mem_replace (htools ▸ h.tools) fun ht => ht.patched hfault
  · exact hlength ▸ h.toolCount

theorem updateBuildContext (patch : BuildContextPatch) :
    (Project.updateBuildContext now patch).Keeps (Lawful limits) := by
  rw [updateBuildContext_eq_ofPlan]
  refine .ofPlan fun p a q h hplan => Lawful.touched ?_ now
  obtain ⟨hfault, -, rfl⟩ := planBuildContext_eq_ok hplan
  exact { h with buildContext := h.buildContext.patched hfault }

end Project.Lawful

end AgentAssembly

import AgentAssembly.Proofs.Validation.WellFormed

/-!
The root agent. Main statement: where a report is empty and no primary agent is set, some agent is
nobody's sub-agent, and the first such agent is the root.
-/

namespace AgentAssembly.Project

variable {p : Project}

/-- References to oneself are left out of the search for delegates, but where no agent refers to
itself that makes no difference. -/
theorem WellFormed.isDelegate_iff (h : p.WellFormed) {name : String} :
    p.isDelegate name = true ↔ ∃ b ∈ p.agents, name ∈ b.subAgents := by
  have hother : ∀ b ∈ p.agents, name ∈ b.subAgents → b.name ≠ name := fun b hb hsub hself =>
    h.acyclic name (.single ⟨⟨b, hb, hself, hsub⟩, b, hb, hself⟩)
  rw [isDelegate, List.any_eq_true]
  constructor
  · intro hdelegate
    obtain ⟨b, hb, hlisted⟩ := hdelegate
    exact ⟨b, hb, by simp_all [Agent.delegatesTo]⟩
  · intro hlisted
    obtain ⟨b, hb, hsub⟩ := hlisted
    exact ⟨b, hb, by simp [Agent.delegatesTo, hother b hb hsub, hsub]⟩

theorem WellFormed.exists_unlisted (h : p.WellFormed) :
    ∃ a ∈ p.agents, ∀ b ∈ p.agents, a.name ∉ b.subAgents := by
  have hnames : p.agents.map (·.name) ≠ [] := by simpa using h.hasAgent
  obtain ⟨name, hname, hsource⟩ := h.acyclic.exists_source hnames
  obtain ⟨a, ha, rfl⟩ := List.mem_map.mp hname
  refine ⟨a, ha, fun b hb hsub => hsource b.name (List.mem_map_of_mem hb) ?_⟩
  exact .single ⟨⟨b, hb, rfl, hsub⟩, a, ha, rfl⟩

/-- The search for an agent that is no delegate succeeds at the first agent that nobody lists. -/
theorem WellFormed.find?_not_isDelegate (h : p.WellFormed) :
    ∃ before a after, p.agents = before ++ a :: after ∧
      (∀ b ∈ p.agents, a.name ∉ b.subAgents) ∧
      (∀ x ∈ before, ∃ b ∈ p.agents, x.name ∈ b.subAgents) ∧
      p.agents.find? (fun a => !p.isDelegate a.name) = some a := by
  obtain ⟨x, hx, hunlisted⟩ := h.exists_unlisted
  have hfree : p.isDelegate x.name = false := by
    rw [← Bool.not_eq_true, h.isDelegate_iff]
    simpa using hunlisted
  have hsome : (p.agents.find? fun a => !p.isDelegate a.name).isSome :=
    List.find?_isSome.mpr ⟨x, hx, by simp [hfree]⟩
  obtain ⟨a, hfirst⟩ := Option.isSome_iff_exists.mp hsome
  obtain ⟨ha, before, after, hsplit, hbefore⟩ := List.find?_eq_some_iff_append.mp hfirst
  refine ⟨before, a, after, hsplit, ?_, fun y hy => ?_, hfirst⟩
  · have hnot : ¬ p.isDelegate a.name = true := by simpa using ha
    simpa [h.isDelegate_iff] using hnot
  · exact h.isDelegate_iff.mp (by simpa using hbefore y hy)

/-- Where a report is empty, the root is the primary agent if one is set, and it exists. Otherwise
it is the first agent that is nobody's sub-agent: such an agent is always found, so that the first
agent of all never stands in for it. -/
theorem root_is_unlisted (p : Project) (h : p.validate.findings = []) :
    (p.buildContext.primaryAgent = none →
      ∃ before a after, p.agents = before ++ a :: after ∧
        (∀ b ∈ p.agents, a.name ∉ b.subAgents) ∧
        (∀ x ∈ before, ∃ b ∈ p.agents, x.name ∈ b.subAgents) ∧
        p.agents.find? (fun a => !p.isDelegate a.name) = some a ∧
        p.rootName? = some a.name ∧ p.agent? a.name = some a) ∧
    ∀ name, p.buildContext.primaryAgent = some name →
      p.rootName? = some name ∧ ∃ a, p.agent? name = some a ∧ a.name = name := by
  have hwell := WellFormed.of_findings h
  have hnames := nodup_names hwell.modules
  constructor
  · intro hprimary
    obtain ⟨before, a, after, hsplit, hunlisted, hbefore, hfirst⟩ := hwell.find?_not_isDelegate
    refine ⟨before, a, after, hsplit, hunlisted, hbefore, hfirst, ?_, ?_⟩
    · rw [rootName?, hprimary, hfirst, Option.none_or, Option.some_or, Option.map_some]
    · exact (agent?_eq_some_iff hnames).mpr ⟨List.mem_of_find?_eq_some hfirst, rfl⟩
  · intro name hprimary
    obtain ⟨a, ha, hname⟩ := hwell.primary name hprimary
    refine ⟨?_, a, (agent?_eq_some_iff hnames).mpr ⟨ha, hname⟩, hname⟩
    rw [rootName?, hprimary, Option.some_or]

def relayProject : Project where
  id := ⟨0⟩
  name := "Relay"
  agents :=
    [{ name := "helper", model := "m" },
     { name := "lead", model := "m", subAgents := ["helper"] },
     { name := "spare", model := "m" }]
  createdAt := ⟨0⟩
  updatedAt := ⟨0⟩

def spareRelayProject : Project :=
  { relayProject with buildContext := { primaryAgent := some "spare" } }

theorem root_is_unlisted_relayProject :
    relayProject.validate.findings = [] ∧ relayProject.buildContext.primaryAgent = none ∧
      (∃ a, relayProject.agent? "lead" = some a ∧ relayProject.rootName? = some a.name ∧
        ∀ b ∈ relayProject.agents, a.name ∉ b.subAgents) ∧
      spareRelayProject.validate.findings = [] ∧
      spareRelayProject.buildContext.primaryAgent = some "spare" ∧
      spareRelayProject.rootName? = some "spare" := by
  have hfindings : relayProject.validate.findings = [] := by decide
  have hspare : spareRelayProject.validate.findings = [] := by decide
  obtain ⟨before, a, after, hsplit, hunlisted, hbefore, hfirst, hroot, hagent⟩ :=
    (root_is_unlisted relayProject hfindings).1 rfl
  obtain ⟨hprimary, -⟩ := (root_is_unlisted spareRelayProject hspare).2 "spare" rfl
  have hlead : a.name = "lead" := by
    have hname : relayProject.rootName? = some "lead" := by decide
    exact Option.some.inj (hroot.symm.trans hname)
  exact ⟨hfindings, rfl, ⟨a, hlead ▸ hagent, hroot, hunlisted⟩, hspare, rfl, hprimary⟩

end AgentAssembly.Project

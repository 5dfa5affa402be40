import AgentAssembly.Proofs.Package.Imports
import AgentAssembly.Proofs.Package.Ownership

/-!
The order of definitions. Main statement: a project with an empty report keeps it when its tools or
agents are put in another order, and its files stay the same but for the import lines of the entry
point, which follow the order of the agents.
-/

namespace AgentAssembly

open Identifier Package

/-- The project holds the definitions of the other one, maybe in another order. -/
structure Project.Reorders (q p : Project) : Prop where
  name : q.name = p.name
  buildContext : q.buildContext = p.buildContext
  agents : q.agents.Perm p.agents
  tools : q.tools.Perm p.tools

namespace Project.Reorders

variable {p q : Project}

theorem generatedTools (h : q.Reorders p) : q.generatedTools.Perm p.generatedTools :=
  h.tools.filter _

theorem refers_iff (h : q.Reorders p) {a b : String} : q.Refers a b ↔ p.Refers a b := by
  simp only [Refers, h.agents.mem_iff]

theorem symbols (h : q.Reorders p) : q.symbols.Perm p.symbols :=
  ((h.agents.map _).append_left _).append (h.tools.map _)

theorem wellFormed (h : q.Reorders p) (hp : p.WellFormed) : q.WellFormed where
  hasAgent := fun hnil => hp.hasAgent (List.perm_nil.mp (hnil ▸ h.agents.symm))
  tools := by simpa only [h.agents.mem_iff, h.tools.mem_iff] using hp.tools
  subAgents := by simpa only [h.agents.mem_iff] using hp.subAgents
  acyclic := hp.acyclic.mono fun a b => h.refers_iff.mp
  primary := by simpa only [h.buildContext, h.agents.mem_iff] using hp.primary
  code := by simpa only [h.tools.mem_iff] using hp.code
  parameters := by simpa only [h.tools.mem_iff] using hp.parameters
  builtins := by simpa only [h.tools.mem_iff] using hp.builtins
  modules := (h.agents.map _).nodup_iff.mpr hp.modules
  symbols := h.symbols.symm.pairwise hp.symbols fun hxy => Std.Symm.symm _ _ hxy

theorem findings_eq_nil (h : q.Reorders p) (hp : p.validate.findings = []) :
    q.validate.findings = [] :=
  (h.wellFormed (WellFormed.of_findings hp)).findings_eq_nil

theorem agent?_eq (h : q.Reorders p) (hp : p.WellFormed) (name : String) :
    q.agent? name = p.agent? name :=
  find?_name_eq_of_perm h.agents (nodup_names hp.modules) name

theorem tool?_eq (h : q.Reorders p) (hp : p.toolNames.Nodup) (name : String) :
    q.tool? name = p.tool? name :=
  find?_name_eq_of_perm h.tools hp name

theorem tail_frameFiles (h : q.Reorders p) (root root' : Agent) :
    (frameFiles q root').tail = (frameFiles p root).tail := by
  have hnone : q.generatedTools.isEmpty = p.generatedTools.isEmpty := by
    rw [Bool.eq_iff_iff, List.isEmpty_iff, List.isEmpty_iff]
    exact ⟨fun hnil => List.perm_nil.mp (hnil ▸ h.generatedTools.symm),
      fun hnil => List.perm_nil.mp (hnil ▸ h.generatedTools)⟩
  simp only [frameFiles, hnone, List.cons_append, List.tail_cons]
  obtain ⟨hname, hcontext, -, -⟩ := h
  cases p
  cases q
  cases hname
  cases hcontext
  rfl

end Project.Reorders

theorem AgentModule.ofAgent_congr {p q : Project} (htools : ∀ name, q.tool? name = p.tool? name)
    (hagents : ∀ name, q.agent? name = p.agent? name) (a : Agent) :
    ofAgent q a = ofAgent p a := by
  simp only [ofAgent, findTools, findSubAgents, htools, hagents]

namespace Package

variable {p : Project} {e : String × String}

theorem mem_frameFiles_iff (root : Agent) (he : e.1 ≠ "agent.py") :
    e ∈ frameFiles p root ↔ e ∈ (frameFiles p root).tail := by
  have hcons : frameFiles p root =
      ("agent.py", (EntryPoint.ofProject p root).text) :: (frameFiles p root).tail := rfl
  have hne : e ≠ ("agent.py", (EntryPoint.ofProject p root).text) := fun heq => he (heq ▸ rfl)
  rw [hcons, List.mem_cons, or_iff_right hne, List.tail_cons]

end Package

namespace Project

variable {p q : Project}

def IsUnlisted (p : Project) (a : Agent) : Prop :=
  a ∈ p.agents ∧ ∀ b ∈ p.agents, b ≠ a → a.name ∉ b.subAgents

instance (p : Project) (a : Agent) : Decidable (p.IsUnlisted a) :=
  inferInstanceAs (Decidable (_ ∧ _))

theorem isUnlisted_iff (h : p.WellFormed) {a : Agent} :
    p.IsUnlisted a ↔ a ∈ p.agents ∧ p.isDelegate a.name = false := by
  refine and_congr_right fun ha => ?_
  have hname : ∀ b ∈ p.agents, b.name ≠ a.name ↔ b ≠ a := fun b hb =>
    not_congr ⟨fun heq => List.inj_on_of_nodup_map (nodup_names h.modules) hb ha heq,
      fun heq => heq ▸ rfl⟩
  rw [isDelegate, List.any_eq_false]
  constructor
  · intro hfree b hb
    by_cases hne : b.name = a.name
    · simp [hne]
    · simp [Agent.delegatesTo, hfree b hb ((hname b hb).mp hne)]
  · intro hfree b hb hne
    simpa [(hname b hb).mpr hne, Agent.delegatesTo] using hfree b hb

theorem rootName?_eq_of_isUnlisted (h : p.WellFormed)
    (hprimary : p.buildContext.primaryAgent = none) {a : Agent} (ha : p.IsUnlisted a) (hone : ∀ b, p.IsUnlisted b → b = a) :
    p.rootName? = some a.name := by
  have hfind : p.agents.find? (fun b => !p.isDelegate b.name) = some a := by
    obtain ⟨hmem, hfree⟩ := (isUnlisted_iff h).mp ha
    cases hfirst : p.agents.find? fun b => !p.isDelegate b.name with
    | none => simpa [hfree] using List.find?_eq_none.mp hfirst a hmem
    | some b =>
      have hb : p.isDelegate b.name = false := by simpa using List.find?_some hfirst
      rw [hone b ((isUnlisted_iff h).mpr ⟨List.mem_of_find?_eq_some hfirst, hb⟩)]
  rw [rootName?, hprimary, hfind, Option.none_or, Option.some_or, Option.map_some]

end Project

namespace Project.Reorders

variable {p q : Project}

theorem mem_inserts_iff (h : q.Reorders p) (hp : p.WellFormed)
    (htools : ∀ name, q.tool? name = p.tool? name) {entries entries' : List (String × String)}
    (hentries : Inserts p entries) (hentries' : Inserts q entries') {e : String × String}
    (he : e.1 ≠ "agent.py") : e ∈ entries' ↔ e ∈ entries := by
  obtain ⟨agents, root, hagents, -, rfl⟩ := hentries
  obtain ⟨agents', root', hagents', -, rfl⟩ := hentries'
  have hagent : e ∈ agents' ↔ e ∈ agents := by
    rw [mem_agentFiles_iff hagents', mem_agentFiles_iff hagents]
    simp only [h.agents.mem_iff, AgentModule.ofAgent_congr htools (h.agent?_eq hp)]
  have htool : e ∈ toolFiles q ↔ e ∈ toolFiles p := (h.generatedTools.map _).mem_iff
  have hframe : e ∈ frameFiles q root' ↔ e ∈ frameFiles p root := by
    rw [mem_frameFiles_iff root' he, mem_frameFiles_iff root he, h.tail_frameFiles]
  rw [List.mem_append, List.mem_append, List.mem_append, List.mem_append, hagent, htool, hframe]

theorem get?_eq (h : q.Reorders p) (hp : p.WellFormed)
    (htools : ∀ name, q.tool? name = p.tool? name) {files files' : FileSet}
    (hfiles : p.render = .ok files) (hfiles' : q.render = .ok files') {path : String}
    (hpath : path ≠ "agent.py") : files'.get? path = files.get? path := by
  obtain ⟨entries, hentries, rfl⟩ := exists_inserts_of_render hfiles
  obtain ⟨entries', hentries', rfl⟩ := exists_inserts_of_render hfiles'
  have hperm := Dict.ofList_perm (nodup_keys hp hentries)
  have hperm' := Dict.ofList_perm (nodup_keys (h.wellFormed hp) hentries')
  refine Option.ext fun text => ?_
  rw [Dict.get?_eq_some_iff, Dict.get?_eq_some_iff, hperm.mem_iff, hperm'.mem_iff,
    h.mem_inserts_iff hp htools hentries hentries' hpath]

theorem isUnlisted_iff (h : q.Reorders p) {a : Agent} : q.IsUnlisted a ↔ p.IsUnlisted a := by
  simp only [IsUnlisted, h.agents.mem_iff]

theorem root?_eq (h : q.Reorders p) (hp : p.WellFormed)
    (hone : p.buildContext.primaryAgent.isSome ∨ ∃! a, p.IsUnlisted a) :
    EntryPoint.root? q = EntryPoint.root? p := by
  have hname : q.rootName? = p.rootName? := by
    cases hprimary : p.buildContext.primaryAgent with
    | some name =>
      rw [rootName?, rootName?, h.buildContext, hprimary, Option.some_or, Option.some_or]
    | none =>
      rw [hprimary] at hone
      obtain ⟨a, ha, huniq⟩ := hone.resolve_left (by simp)
      have hq : q.rootName? = some a.name :=
        rootName?_eq_of_isUnlisted (h.wellFormed hp) (h.buildContext ▸ hprimary)
          (h.isUnlisted_iff.mpr ha) fun b hb => huniq b (h.isUnlisted_iff.mp hb)
      rw [hq, rootName?_eq_of_isUnlisted hp hprimary ha huniq]
  rw [EntryPoint.root?, EntryPoint.root?, hname, funext (h.agent?_eq hp)]

end Project.Reorders

namespace Project

end Project
end AgentAssembly

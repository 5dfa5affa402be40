import AgentAssembly.Proofs.Project.Edit

/-!
What an edit leaves alone. Main statements: an edit that is refused leaves the project as it was in
every field, and one that is accepted renews the time of the last update and makes one change,
told for each edit here.
-/

namespace AgentAssembly

/-- A field under a patch: what the patch gives is written, and without it the field stands. -/
structure Writes {α β : Type} (given : Option β) (write : β → α) (old new : α) : Prop where
  written : ∀ b ∈ given, new = write b
  kept : given = none → new = old

/-- A map under a patch: the entries of the patch are written, and all others stand. -/
structure WritesEntries {α : Type} (given old new : Dict String α) : Prop where
  written : ∀ key value, given.get? key = some value → new.get? key = some value
  kept : ∀ key, given.get? key = none → new.get? key = old.get? key

structure AgentPatch.Changes (patch : AgentPatch) (a b : Agent) : Prop where
  name : b.name = a.name
  model : Writes patch.model id a.model b.model
  description : Writes patch.description id a.description b.description
  instruction : Writes patch.instruction id a.instruction b.instruction
  tools : Writes patch.tools (mergeReferences a.tools · patch.replaceReferences) a.tools b.tools
  subAgents :
    Writes patch.subAgents (mergeReferences a.subAgents · patch.replaceReferences)
      a.subAgents b.subAgents
  temperature : Writes patch.temperature some a.temperature b.temperature
  maxOutputTokens : Writes patch.maxOutputTokens some a.maxOutputTokens b.maxOutputTokens

structure ToolPatch.Changes (patch : ToolPatch) (t u : Tool) : Prop where
  name : u.name = t.name
  kind : Writes patch.kind id t.kind u.kind
  description : Writes patch.description id t.description u.description
  parameters : Writes patch.parameters id t.parameters u.parameters
  code : Writes patch.code id t.code u.code
  imports : Writes patch.imports (mergeReferences t.imports · patch.replaceImports)
    t.imports u.imports
  builtinType : Writes patch.builtinType some t.builtinType u.builtinType

structure BuildContextPatch.Changes (patch : BuildContextPatch) (c d : BuildContext) : Prop where
  outputDirectory : Writes patch.outputDirectory some c.outputDirectory d.outputDirectory
  primaryAgent : Writes patch.primaryAgent some c.primaryAgent d.primaryAgent
  flags : WritesEntries patch.flags c.flags d.flags
  requirements :
    Writes patch.requirements (mergeReferences c.requirements · false) c.requirements d.requirements
  environment : WritesEntries patch.environment c.environment d.environment

section fields

variable {α : Type}

theorem writes_of_eq_elim {β : Type} {given : Option β} {write : β → α} {old new : α}
    (h : new = given.elim old write) : Writes given write old new := by
  cases given with
  | none => exact ⟨by simp, fun _ => h⟩
  | some b => exact ⟨by simpa using h, by simp⟩

theorem writes_getD (given : Option α) (old : α) : Writes given id old (given.getD old) :=
  writes_of_eq_elim (by cases given <;> rfl)

theorem writes_or (given old : Option α) : Writes given some old (given.or old) :=
  writes_of_eq_elim (by cases given <;> rfl)

theorem writesEntries_extend (old given : Dict String α) :
    WritesEntries given old (old.extend given) := by
  constructor
  · intro key value h
    rw [Dict.get?_extend, h]
    rfl
  · intro key h
    rw [Dict.get?_extend, h]
    rfl

theorem AgentPatch.writes_mergeInto (patch : AgentPatch) (current : List String)
    (given : Option (List String)) :
    Writes given (mergeReferences current · patch.replaceReferences) current
      (patch.mergeInto current given) :=
  writes_of_eq_elim (by cases given <;> rfl)

theorem ToolPatch.writes_mergeInto (patch : ToolPatch) (current : List String) :
    Writes patch.imports (mergeReferences current · patch.replaceImports) current
      (patch.mergeInto current) :=
  writes_of_eq_elim (by rw [mergeInto]; cases patch.imports <;> rfl)

theorem AgentPatch.changes_patched (patch : AgentPatch) (a : Agent) :
    patch.Changes a (a.patched patch) where
  name := rfl
  model := writes_getD _ _
  description := writes_getD _ _
  instruction := writes_getD _ _
  tools := patch.writes_mergeInto _ _
  subAgents := patch.writes_mergeInto _ _
  temperature := writes_or _ _
  maxOutputTokens := writes_or _ _

theorem ToolPatch.changes_patched (patch : ToolPatch) (t : Tool) :
    patch.Changes t (t.patched patch) where
  name := rfl
  kind := writes_getD _ _
  description := writes_getD _ _
  parameters := writes_getD _ _
  code := writes_getD _ _
  imports := patch.writes_mergeInto _
  builtinType := writes_or _ _

theorem BuildContextPatch.changes_patched (patch : BuildContextPatch) (c : BuildContext) :
    patch.Changes c (c.patched patch) where
  outputDirectory := writes_or _ _
  primaryAgent := writes_or _ _
  flags := writesEntries_extend _ _
  requirements :=
    writes_of_eq_elim (by rw [BuildContext.patched]; cases patch.requirements <;> rfl)
  environment := writesEntries_extend _ _

end fields

/-- All or nothing: an edit that is refused leaves the project as it was, and one that is accepted
makes the change told. -/
structure Edit.AllOrNothing {α : Type} (e : Edit α) (Change : α → Project → Project → Prop) :
    Prop where
  refused : ∀ p fault, (e p).1 = .error fault → (e p).2 = p
  accepted : ∀ p a, (e p).1 = .ok a → Change a p (e p).2

theorem Edit.AllOrNothing.ofPlan {α : Type} {e : Edit α} {now : Timestamp}
    {plan : Project → Except ProjectError (α × Project)} {Change : α → Project → Project → Prop}
    (hatomic : e.IsAtomic) (hplan : e = .ofPlan now plan)
    (h : ∀ p a q, plan p = .ok (a, q) → Change a p { q with updatedAt := now }) :
    e.AllOrNothing Change := by
  refine ⟨hatomic, fun p a ha => ?_⟩
  rw [hplan, Edit.ofPlan] at ha ⊢
  cases hp : plan p with
  | error fault => simp [hp] at ha
  | ok r =>
    obtain rfl : r.1 = a := by simpa [hp] using ha
    exact h p r.1 r.2 hp

theorem Edit.AllOrNothing.answering {α β : Type} {e : Edit α}
    {Change : α → Project → Project → Prop} (h : e.AllOrNothing Change) (f : α → Project → β) :
    (e.answering f).AllOrNothing fun b p q => ∃ a, b = f a q ∧ Change a p q := by
  constructor
  · intro p fault hfault
    rw [Edit.answering_apply] at hfault ⊢
    cases he : (e p).1 with
    | error err => exact h.refused p err he
    | ok a => simp [he, Except.map] at hfault
  · intro p b hb
    rw [Edit.answering_apply] at hb ⊢
    cases he : (e p).1 with
    | error err => simp [he, Except.map] at hb
    | ok a => exact ⟨a, by simpa [he, Except.map, eq_comm] using hb, h.accepted p a he⟩

namespace Project

variable {now : Timestamp}

/-- A text under `name` renames the project and is not stored; the other entries are written. -/
structure MetadataMerged (now : Timestamp) (patch : Dict String Json) (p q : Project) : Prop where
  frame : q = { p with name := q.name, metadata := q.metadata, updatedAt := now }
  name : patch.get? "name" = none ∧ q.name = p.name ∨ patch.get? "name" = some (.text q.name)
  metadata : WritesEntries (patch.erase "name") p.metadata q.metadata

/-- The agent that is given back is the one asked for, each reference once, and stands at the
end. -/
structure AgentAppended (now : Timestamp) (agent added : Agent) (p q : Project) : Prop where
  normalized : added = agent.normalized
  frame : q = { p with agents := p.agents ++ [added], updatedAt := now }

structure AgentUpdated (now : Timestamp) (name : String) (patch : AgentPatch) (updated : Agent)
    (p q : Project) : Prop where
  frame : ∃ before a after, p.agents = before ++ a :: after ∧ (∀ x ∈ before, x.name ≠ name) ∧
    a.name = name ∧ patch.Changes a updated ∧
      q = { p with agents := before ++ updated :: after, updatedAt := now }

structure ToolAppended (now : Timestamp) (tool added : Tool) (p q : Project) : Prop where
  normalized : added = tool.normalized
  frame : q = { p with tools := p.tools ++ [added], updatedAt := now }

structure ToolUpdated (now : Timestamp) (name : String) (patch : ToolPatch) (updated : Tool)
    (p q : Project) : Prop where
  frame : ∃ before t after, p.tools = before ++ t :: after ∧ (∀ x ∈ before, x.name ≠ name) ∧
    t.name = name ∧ patch.Changes t updated ∧
      q = { p with tools := before ++ updated :: after, updatedAt := now }

structure BuildContextUpdated (now : Timestamp) (patch : BuildContextPatch)
    (updated : BuildContext) (p q : Project) : Prop where
  changes : patch.Changes p.buildContext updated
  frame : q = { p with buildContext := updated, updatedAt := now }

theorem allOrNothing_mergeMetadata (patch : Dict String Json) :
    (mergeMetadata now patch).AllOrNothing fun _ => MetadataMerged now patch := by
  refine .ofPlan (isAtomic_mergeMetadata patch) (mergeMetadata_eq_ofPlan patch) fun p a q h => ?_
  obtain ⟨name, rfl, hname⟩ := planMetadata_eq_ok h
  exact ⟨rfl, hname.imp_right (·.1), writesEntries_extend _ _⟩

theorem allOrNothing_addAgent (limits : Limits) (agent : Agent) :
    (addAgent now limits agent).AllOrNothing (AgentAppended now agent) := by
  refine .ofPlan (isAtomic_addAgent limits agent) (addAgent_eq_ofPlan agent) fun p a q h => ?_
  obtain ⟨-, -, -, rfl, rfl⟩ := planAgent_eq_ok h
  exact ⟨rfl, rfl⟩

theorem allOrNothing_updateAgent (name : String) (patch : AgentPatch) :
    (updateAgent now name patch).AllOrNothing (AgentUpdated now name patch) := by
  refine .ofPlan (isAtomic_updateAgent name patch) (updateAgent_eq_ofPlan name patch)
    fun p a q h => ?_
  obtain ⟨before, b, after, hagents, hbefore, hname, -, rfl, rfl⟩ := planAgentUpdate_eq_ok h
  exact ⟨before, b, after, hagents, hbefore, hname, patch.changes_patched b, rfl⟩

theorem allOrNothing_addTool (limits : Limits) (tool : Tool) :
    (addTool now limits tool).AllOrNothing (ToolAppended now tool) := by
  refine .ofPlan (isAtomic_addTool limits tool) (addTool_eq_ofPlan tool) fun p t q h => ?_
  obtain ⟨-, -, -, rfl, rfl⟩ := planTool_eq_ok h
  exact ⟨rfl, rfl⟩

theorem allOrNothing_updateTool (name : String) (patch : ToolPatch) :
    (updateTool now name patch).AllOrNothing (ToolUpdated now name patch) := by
  refine .ofPlan (isAtomic_updateTool name patch) (updateTool_eq_ofPlan name patch)
    fun p t q h => ?_
  obtain ⟨before, u, after, htools, hbefore, hname, -, rfl, rfl⟩ := planToolUpdate_eq_ok h
  exact ⟨before, u, after, htools, hbefore, hname, patch.changes_patched u, rfl⟩

theorem allOrNothing_updateBuildContext (patch : BuildContextPatch) :
    (updateBuildContext now patch).AllOrNothing (BuildContextUpdated now patch) := by
  refine .ofPlan (isAtomic_updateBuildContext patch) (updateBuildContext_eq_ofPlan patch)
    fun p c q h => ?_
  obtain ⟨-, rfl, rfl⟩ := planBuildContext_eq_ok h
  exact ⟨patch.changes_patched p.buildContext, rfl⟩

end Project
end AgentAssembly

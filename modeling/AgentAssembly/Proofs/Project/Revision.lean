import AgentAssembly.Proofs.Project.Roster

/-!
Revisions of a project: the edits, each with all that it is given. Main statement: two revisions of
different kinds that are not about the same record, or two updates of different records, may be
carried out in either order, and each is answered the same and the project comes out the same,
apart from the time of the last update.
-/

namespace AgentAssembly

inductive Revision
  | mergeMetadata (patch : Dict String Json)
  | updateBuildContext (patch : BuildContextPatch)
  | addAgent (agent : Agent)
  | updateAgent (name : String) (patch : AgentPatch)
  | addTool (tool : Tool)
  | updateTool (name : String) (patch : ToolPatch)
  | touch

inductive Topic
  | heading
  | context
  | agents
  | tools
  | nothing

namespace Topic

abbrev State : Topic → Type
  | heading => String × Dict String Json
  | context => BuildContext
  | agents => List Agent
  | tools => List Tool
  | nothing => Unit

def facet : (t : Topic) → Facet t.State
  | heading => Project.heading
  | context => Project.context
  | agents => Project.agentList
  | tools => Project.toolList
  | nothing => Project.nothing

theorem independent {t u : Topic} (h : t ≠ u) : t.facet.Independent u.facet := by
  cases t <;> cases u <;> first | exact {} | exact absurd rfl h

theorem independent_updateTime (t : Topic) : t.facet.Independent Project.updateTime := by
  cases t <;> exact {}

end Topic

namespace Revision

abbrev Answer : Revision → Type
  | mergeMetadata _ | touch => Unit
  | updateBuildContext _ => BuildContext
  | addAgent _ | updateAgent .. => Agent
  | addTool _ | updateTool .. => Tool

def edit (limits : Limits) (now : Timestamp) : (r : Revision) → Edit r.Answer
  | mergeMetadata patch => Project.mergeMetadata now patch
  | updateBuildContext patch => Project.updateBuildContext now patch
  | addAgent agent => Project.addAgent now limits agent
  | updateAgent name patch => Project.updateAgent now name patch
  | addTool tool => Project.addTool now limits tool
  | updateTool name patch => Project.updateTool now name patch
  | touch => Project.touch now

abbrev topic : Revision → Topic
  | mergeMetadata _ => .heading
  | updateBuildContext _ => .context
  | addAgent _ | updateAgent .. => .agents
  | addTool _ | updateTool .. => .tools
  | touch => .nothing

def plan (limits : Limits) : (r : Revision) → Plan r.topic.State r.Answer
  | mergeMetadata patch => Project.mergeHeading patch
  | updateBuildContext patch => Project.patchContext patch
  | addAgent agent => Roster.agents.add limits agent
  | updateAgent name patch => Roster.agents.update name (·.applyPatch patch)
  | addTool tool => Roster.tools.add limits tool
  | updateTool name patch => Roster.tools.update name (·.applyPatch patch)
  | touch => fun _ => .ok ((), ())

variable {r r' : Revision} {limits limits' : Limits}

theorem edit_eq (limits : Limits) (now : Timestamp) (r : Revision) :
    r.edit limits now = .ofPlan now (r.topic.facet.lift (r.plan limits)) := by
  cases r with
  | mergeMetadata patch =>
    rw [edit, Project.mergeMetadata_eq_ofPlan, Project.planMetadata_eq_lift]
    rfl
  | updateBuildContext patch =>
    rw [edit, Project.updateBuildContext_eq_ofPlan, Project.planBuildContext_eq_lift]
    rfl
  | addAgent agent =>
    rw [edit, Project.addAgent_eq_ofPlan, Project.planAgent_eq_lift]
    rfl
  | updateAgent name patch =>
    rw [edit, Project.updateAgent_eq_ofPlan, Project.planAgentUpdate_eq_lift]
    rfl
  | addTool tool =>
    rw [edit, Project.addTool_eq_ofPlan, Project.planTool_eq_lift]
    rfl
  | updateTool name patch =>
    rw [edit, Project.updateTool_eq_ofPlan, Project.planToolUpdate_eq_lift]
    rfl
  | touch => rfl

/-- The two are of different kinds and not about the same record, or are updates of different
records. -/
def IndependentOf : Revision → Revision → Prop
  | addAgent agent, updateAgent name _ | updateAgent name _, addAgent agent => agent.name ≠ name
  | addTool tool, updateTool name _ | updateTool name _, addTool tool => tool.name ≠ name
  | updateAgent name _, updateAgent name' _ | updateTool name _, updateTool name' _ => name ≠ name'
  | mergeMetadata _, mergeMetadata _ | updateBuildContext _, updateBuildContext _
  | addAgent _, addAgent _ | addTool _, addTool _ => False
  | _, _ => True

theorem commute_plans (h : r.IndependentOf r') (limits limits' : Limits) :
    (r.topic.facet.lift (r.plan limits)).Commute (r'.topic.facet.lift (r'.plan limits')) := by
  by_cases htopic : r.topic = r'.topic
  · cases r with
    | mergeMetadata _ | updateBuildContext _ =>
      cases r' with
      | mergeMetadata _ | updateBuildContext _ => simp [IndependentOf, topic] at h htopic
      | _ => cases htopic
    | addAgent agent =>
      cases r' with
      | addAgent _ => exact h.elim
      | updateAgent name patch =>
        exact Facet.commute_lift (Roster.commute_add_update (Roster.agents_keepsName patch) h)
      | _ => cases htopic
    | updateAgent name patch =>
      cases r' with
      | addAgent agent =>
        exact (Facet.commute_lift
          (Roster.commute_add_update (Roster.agents_keepsName patch) h)).symm
      | updateAgent name' patch' =>
        exact Facet.commute_lift (Roster.commute_updates (Roster.agents_keepsName patch)
          (Roster.agents_keepsName patch') h)
      | _ => cases htopic
    | addTool tool =>
      cases r' with
      | addTool _ => exact h.elim
      | updateTool name patch =>
        exact Facet.commute_lift (Roster.commute_add_update (Roster.tools_keepsName patch) h)
      | _ => cases htopic
    | updateTool name patch =>
      cases r' with
      | addTool tool =>
        exact (Facet.commute_lift
          (Roster.commute_add_update (Roster.tools_keepsName patch) h)).symm
      | updateTool name' patch' =>
        exact Facet.commute_lift (Roster.commute_updates (Roster.tools_keepsName patch)
          (Roster.tools_keepsName patch') h)
      | _ => cases htopic
    | touch =>
      cases r' with
      | touch => exact Facet.commute_lift ⟨fun _ => rfl, fun _ => rfl, fun _ => rfl⟩
      | _ => cases htopic
  · exact (Topic.independent htopic).commute _ _

/-- Revisions of different kinds that are not about the same record, and updates of different
records, are independent: neither is answered otherwise for the other, and the project comes out
the same in either order. -/
theorem independent_revisions_commute (h : r.IndependentOf r') (limits limits' : Limits) :
    Edit.Commute (fun now => r.edit limits now) fun now => r'.edit limits' now := by
  simp only [edit_eq]
  exact Edit.commute_of_plans r.topic.independent_updateTime r'.topic.independent_updateTime
    (commute_plans h limits limits')

def desk : Project :=
  { Project.blank ⟨0⟩ ⟨0⟩ "Desk" with agents := [{ name := "guide", model := "m" }] }

def hireClerk : Revision := .addAgent { name := "clerk", model := "m" }

def briefGuide : Revision := .updateAgent "guide" { subAgents := some ["clerk"] }

/-- The clerk takes the last place, and the guide hears of it, in either order. -/
theorem independent_revisions_commute_desk :
    hireClerk.IndependentOf briefGuide ∧
    Edit.Commute (fun now => hireClerk.edit { maxAgents := 2 } now) (briefGuide.edit {}) ∧
    (hireClerk.edit { maxAgents := 2 } ⟨2⟩ (briefGuide.edit {} ⟨1⟩ desk).2).2.agents =
      [{ name := "guide", model := "m", subAgents := ["clerk"] },
        { name := "clerk", model := "m" }] := by
  have hindependent : hireClerk.IndependentOf briefGuide := show "clerk" ≠ "guide" by decide
  exact ⟨hindependent, independent_revisions_commute hindependent { maxAgents := 2 } {}, by decide⟩

end Revision
end AgentAssembly

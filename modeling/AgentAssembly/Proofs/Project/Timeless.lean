import AgentAssembly.Proofs.Project.Roster

/-!
Projects apart from their identifiers and times. Main statement: an edit reads neither, so two
projects that differ in nothing else stay so under the same edit at any two readings of the clock.
-/

namespace AgentAssembly

namespace Project

def timeless (p : Project) : Project := { p with id := ⟨0⟩, createdAt := ⟨0⟩, updatedAt := ⟨0⟩ }

def PlanIsTimeless {α : Type} (plan : Project → Except ProjectError (α × Project)) : Prop :=
  ∀ p, plan p.timeless = (plan p).map fun r => (r.1, r.2.timeless)

def identity : Facet (Uuid × Timestamp × Timestamp) where
  get p := (p.id, p.createdAt, p.updatedAt)
  set p s := { p with id := s.1, createdAt := s.2.1, updatedAt := s.2.2 }

section plans

variable {limits : Limits}

theorem planIsTimeless_lift {σ α : Type} {F : Facet σ} (h : F.Independent identity)
    (f : Plan σ α) : PlanIsTimeless (F.lift f) := by
  intro p
  have hget : F.get p.timeless = F.get p := h.get_left p (⟨0⟩, ⟨0⟩, ⟨0⟩)
  have hset : ∀ s, F.set p.timeless s = (F.set p s).timeless :=
    fun s => (h.set_set p s (⟨0⟩, ⟨0⟩, ⟨0⟩)).symm
  rw [Facet.lift, Facet.lift, hget]
  cases f (F.get p) with
  | error e => rfl
  | ok r => simp only [Except.map, hset]

theorem planMetadata_timeless (patch : Dict String Json) : PlanIsTimeless (planMetadata patch) := by
  rw [planMetadata_eq_lift]
  exact planIsTimeless_lift {} _

theorem planAgent_timeless (agent : Agent) : PlanIsTimeless (planAgent limits agent) := by
  rw [planAgent_eq_lift]
  exact planIsTimeless_lift {} _

theorem planTool_timeless (tool : Tool) : PlanIsTimeless (planTool limits tool) := by
  rw [planTool_eq_lift]
  exact planIsTimeless_lift {} _

theorem planAgentUpdate_timeless (name : String) (patch : AgentPatch) :
    PlanIsTimeless (planAgentUpdate name patch) := by
  rw [planAgentUpdate_eq_lift]
  exact planIsTimeless_lift {} _

theorem planToolUpdate_timeless (name : String) (patch : ToolPatch) :
    PlanIsTimeless (planToolUpdate name patch) := by
  rw [planToolUpdate_eq_lift]
  exact planIsTimeless_lift {} _

theorem planBuildContext_timeless (patch : BuildContextPatch) :
    PlanIsTimeless (planBuildContext patch) := by
  rw [planBuildContext_eq_lift]
  exact planIsTimeless_lift {} _

end plans

end Project

namespace Edit

variable {α β : Type}

/-- Two edits that do the same to projects that differ in identifiers and times alone; `blot` says
what of their answers counts. -/
def Alike (blot : α → β) (e e' : Edit α) : Prop :=
  ∀ p q, p.timeless = q.timeless →
    (e p).1.map blot = (e' q).1.map blot ∧ (e p).2.timeless = (e' q).2.timeless

theorem Alike.ofPlan {plan : Project → Except ProjectError (α × Project)}
    (h : Project.PlanIsTimeless plan) (now now' : Timestamp) {f : α → Project → β}
    {γ : Type} {blot : β → γ} (hf : ∀ a p, blot (f a p) = blot (f a p.timeless)) :
    Alike blot ((Edit.ofPlan now plan).answering f) ((Edit.ofPlan now' plan).answering f) := by
  intro p q hpq
  have hsame : (plan p).map (fun r => (r.1, r.2.timeless)) =
      (plan q).map fun r => (r.1, r.2.timeless) := by
    rw [← h p, ← h q, hpq]
  rw [Edit.answering_apply, Edit.answering_apply]
  simp only [Edit.ofPlan]
  cases hp : plan p with
  | error e =>
    cases hq : plan q with
    | error e' =>
      rw [hp, hq] at hsame
      obtain rfl := Except.error.inj hsame
      exact ⟨rfl, hpq⟩
    | ok r' => simp [hp, hq, Except.map] at hsame
  | ok r =>
    cases hq : plan q with
    | error e' => simp [hp, hq, Except.map] at hsame
    | ok r' =>
      rw [hp, hq] at hsame
      obtain ⟨hanswer, hproject⟩ := Prod.mk.inj (Except.ok.inj hsame)
      refine ⟨?_, hproject⟩
      have htouched : Project.timeless { r.2 with updatedAt := now } =
          Project.timeless { r'.2 with updatedAt := now' } := hproject
      have hblot : blot (f r.1 { r.2 with updatedAt := now }) =
          blot (f r'.1 { r'.2 with updatedAt := now' }) := by
        rw [hf r.1, htouched, hanswer, ← hf r'.1]
      exact congrArg Except.ok hblot

theorem Alike.view {f : Project → α} {blot : α → β} (hf : ∀ p, blot (f p) = blot (f p.timeless)) :
    Alike blot (fun p => (.ok (f p), p)) (fun p => (.ok (f p), p)) := by
  intro p q hpq
  refine ⟨congrArg Except.ok ?_, hpq⟩
  rw [hf p, hf q, hpq]

end Edit
end AgentAssembly

import AgentAssembly.Proofs.Project.Roster

/-!
Patches that are applied again. Main statement: whatever the project and the patch, an update that
is carried out a second time gives the same answer, and the project stays as the first time left
it, apart from the time of the last update.
-/

namespace AgentAssembly

section fields

variable {α : Type}

theorem getD_again (given : Option α) (old : α) :
    given.getD (given.getD old) = given.getD old := by
  cases given <;> rfl

theorem or_again (given old : Option α) : given.or (given.or old) = given.or old := by
  cases given <;> rfl

theorem mergeReferences_again (current incoming : List String) (replace : Bool) :
    mergeReferences (mergeReferences current incoming replace) incoming replace =
      mergeReferences current incoming replace := by
  cases replace with
  | true => rfl
  | false =>
    have hmerged : ∀ l, mergeReferences l incoming false = distinct (l ++ incoming) := fun _ => rfl
    rw [hmerged, hmerged, distinct_distinct_append]
    exact distinct_append_of_subset (List.subset_append_right _ _)

theorem AgentPatch.mergeInto_again (p : AgentPatch) (current : List String)
    (given : Option (List String)) :
    p.mergeInto (p.mergeInto current given) given = p.mergeInto current given := by
  cases given with
  | none => rfl
  | some incoming => exact mergeReferences_again current incoming p.replaceReferences

theorem ToolPatch.mergeInto_again (p : ToolPatch) (current : List String) :
    p.mergeInto (p.mergeInto current) = p.mergeInto current := by
  simp only [mergeInto]
  cases p.imports with
  | none => rfl
  | some incoming => exact mergeReferences_again current incoming p.replaceImports

end fields

theorem Agent.patched_patched (a : Agent) (p : AgentPatch) :
    (a.patched p).patched p = a.patched p := by
  simp only [patched, getD_again, or_again, p.mergeInto_again]

theorem Tool.patched_patched (t : Tool) (p : ToolPatch) :
    (t.patched p).patched p = t.patched p := by
  simp only [patched, getD_again, or_again, p.mergeInto_again]

theorem BuildContext.patched_patched (c : BuildContext) (p : BuildContextPatch) :
    (c.patched p).patched p = c.patched p := by
  cases h : p.requirements with
  | none => simp only [patched, h, or_again, Dict.extend_again]
  | some incoming => simp only [patched, h, or_again, Dict.extend_again, mergeReferences_again]

namespace Project

theorem settles_mergeHeading (patch : Dict String Json) : (mergeHeading patch).Settles := by
  refine Plan.settles_of_ok fun s _ t h => ?_
  obtain ⟨name, hname, heq⟩ := map_eq_ok_iff.mp h
  obtain ⟨-, rfl⟩ := Prod.mk.inj heq
  have hagain : renamed patch name = .ok name := by
    rw [renamed] at hname ⊢
    split at hname
    · rfl
    · split at hname
      · cases hname
      · exact hname
    · cases hname
  rw [mergeHeading, hagain, Except.map, Dict.extend_again]

theorem settles_patchContext (patch : BuildContextPatch) : (patchContext patch).Settles := by
  refine Plan.settles_of_ok fun c d e h => ?_
  rw [patchContext] at h ⊢
  cases hfault : patch.fault? with
  | some fault => simp [hfault] at h
  | none =>
    obtain ⟨rfl, rfl⟩ : c.patched patch = d ∧ c.patched patch = e := by simpa [hfault] using h
    simp only [BuildContext.patched_patched]

theorem settles_agentUpdate (name : String) (patch : AgentPatch) :
    (Roster.agents.update name (·.applyPatch patch)).Settles := by
  refine Roster.settles_update (Roster.agents_keepsName patch) fun a b h => ?_
  obtain ⟨hfault, rfl⟩ := Agent.applyPatch_eq_ok_iff.mp h
  exact Agent.applyPatch_eq_ok_iff.mpr ⟨hfault, (a.patched_patched patch).symm⟩

theorem settles_toolUpdate (name : String) (patch : ToolPatch) :
    (Roster.tools.update name (·.applyPatch patch)).Settles := by
  refine Roster.settles_update (Roster.tools_keepsName patch) fun t u h => ?_
  obtain ⟨hfault, rfl⟩ := Tool.applyPatch_eq_ok_iff.mp h
  exact Tool.applyPatch_eq_ok_iff.mpr ⟨hfault, (t.patched_patched patch).symm⟩

/-- Applied a second time a patch is answered as it was the first time, accepted or refused, and
changes nothing but the time of the last update. -/
theorem patches_replay :
    (∀ name patch, Edit.Replays fun now => updateAgent now name patch) ∧
    (∀ name patch, Edit.Replays fun now => updateTool now name patch) ∧
    (∀ patch, Edit.Replays fun now => updateBuildContext now patch) ∧
    ∀ patch, Edit.Replays fun now => mergeMetadata now patch := by
  refine ⟨fun name patch => ?_, fun name patch => ?_, fun patch => ?_, fun patch => ?_⟩
  · simp only [updateAgent_eq_ofPlan, planAgentUpdate_eq_lift]
    exact Edit.replays_of_settles {} (settles_agentUpdate name patch)
  · simp only [updateTool_eq_ofPlan, planToolUpdate_eq_lift]
    exact Edit.replays_of_settles {} (settles_toolUpdate name patch)
  · simp only [updateBuildContext_eq_ofPlan, planBuildContext_eq_lift]
    exact Edit.replays_of_settles {} (settles_patchContext patch)
  · simp only [mergeMetadata_eq_ofPlan, planMetadata_eq_lift]
    exact Edit.replays_of_settles {} (settles_mergeHeading patch)

end Project
end AgentAssembly

import AgentAssembly.Proofs.Project.Frame

/-!
The rules of fields, asked of patches and of whole records. Main statement: a patch to a record that
passed its check is accepted exactly when the record that it makes would pass the check too, but for
the builtin type of a tool, which must not be blank in a patch alone.
-/

namespace AgentAssembly

open Text (isBlank)

section fields

variable {α β : Type} {given : Option β} {write : β → α} {old new : α}

/-- A rule that the old value obeys holds for the new one exactly when what is given obeys it. -/
theorem Writes.holds_iff {P : α → Prop} {Q : β → Prop} (h : Writes given write old new)
    (hold : P old) (hwrite : ∀ b, P (write b) ↔ Q b) : P new ↔ ∀ b ∈ given, Q b := by
  cases given with
  | none => simp [h.kept rfl, hold]
  | some b => simp [h.written b rfl, hwrite]

theorem Writes.eq_of_writes {new' : α} (h : Writes given write old new)
    (h' : Writes given write old new') : new = new' := by
  cases given with
  | none => rw [h.kept rfl, h'.kept rfl]
  | some b => rw [h.written b rfl, h'.written b rfl]

theorem Writes.forall_mem_iff {given old new : Option α} (h : Writes given some old new)
    {P : α → Prop} (hold : ∀ x ∈ old, P x) : (∀ x ∈ new, P x) ↔ ∀ x ∈ given, P x :=
  h.holds_iff (P := fun o => ∀ x ∈ o, P x) hold fun x => by simp

/-- What is merged holds all that is given and nothing but this and old references. -/
theorem Writes.forall_merged_iff {given : Option (List String)} {old new : List String}
    {replace : Bool} (h : Writes given (mergeReferences old · replace) old new)
    {P : String → Prop} (hold : ∀ s ∈ old, P s) :
    (∀ s ∈ new, P s) ↔ ∀ l ∈ given, ∀ s ∈ l, P s := by
  refine h.holds_iff (P := fun l => ∀ s ∈ l, P s) hold fun incoming => ?_
  cases replace with
  | true => simp [mergeReferences]
  | false =>
    simp only [mergeReferences, Bool.false_eq_true, if_false, mem_distinct, List.forall_mem_append]
    exact and_iff_right hold

end fields

namespace AgentPatch.Changes

variable {p : AgentPatch} {a b : Agent}

theorem eq_patched (h : p.Changes a b) : b = a.patched p := by
  have h' := p.changes_patched a
  cases b
  rw [Agent.patched, Agent.mk.injEq]
  exact ⟨h.name, h.model.eq_of_writes h'.model, h.description.eq_of_writes h'.description,
    h.instruction.eq_of_writes h'.instruction, h.tools.eq_of_writes h'.tools,
    h.subAgents.eq_of_writes h'.subAgents, h.temperature.eq_of_writes h'.temperature,
    h.maxOutputTokens.eq_of_writes h'.maxOutputTokens⟩

/-- Field by field the check of the new agent comes down to the check of the patch. -/
theorem fault?_eq_none_iff (h : p.Changes a b) (ha : a.fault? = none) :
    b.fault? = none ↔ p.fault? = none := by
  obtain ⟨hname, hmodel, htools, hsubs, hgeneration⟩ := Agent.fault?_eq_none_iff.mp ha
  obtain ⟨htemperature, htokens⟩ := generationFault?_eq_none_iff.mp hgeneration
  have hmodel' := h.model.holds_iff (P := (isBlank · = false)) hmodel fun _ => Iff.rfl
  have htools' := h.tools.forall_merged_iff htools
  have hsubs' := h.subAgents.forall_merged_iff hsubs
  have htemperature' := h.temperature.forall_mem_iff htemperature
  have htokens' := h.maxOutputTokens.forall_mem_iff htokens
  rw [Agent.fault?_eq_none_iff, AgentPatch.fault?_eq_none_iff, generationFault?_eq_none_iff,
    generationFault?_eq_none_iff, h.name, hmodel', htools', hsubs', htemperature', htokens']
  exact and_iff_right hname

end AgentPatch.Changes

namespace ToolPatch.Changes

variable {p : ToolPatch} {t u : Tool}

theorem eq_patched (h : p.Changes t u) : u = t.patched p := by
  have h' := p.changes_patched t
  cases u
  rw [Tool.patched, Tool.mk.injEq]
  exact ⟨h.name, h.kind.eq_of_writes h'.kind, h.description.eq_of_writes h'.description,
    h.parameters.eq_of_writes h'.parameters, h.code.eq_of_writes h'.code,
    h.imports.eq_of_writes h'.imports, h.builtinType.eq_of_writes h'.builtinType⟩

theorem fault?_eq_none_iff (h : p.Changes t u) (ht : t.fault? = none) :
    p.fault? = none ↔ u.fault? = none ∧ ∀ s ∈ p.builtinType, isBlank s = false := by
  obtain ⟨hname, himports, hparameters⟩ := Tool.fault?_eq_none_iff.mp ht
  have himports' := h.imports.forall_merged_iff himports
  have hparameters' : (∀ q ∈ u.parameters, isBlank q.name = false) ↔
      ∀ l ∈ p.parameters, ∀ q ∈ l, isBlank q.name = false :=
    h.parameters.holds_iff (P := fun l => ∀ q ∈ l, isBlank q.name = false) hparameters
      fun _ => Iff.rfl
  rw [ToolPatch.fault?_eq_none_iff, Tool.fault?_eq_none_iff, h.name, and_iff_right hname,
    himports', hparameters', and_assoc]

end ToolPatch.Changes

/-- A patch to an agent is accepted exactly when the agent that it makes passes the check of agents
that are added. A patch to a tool is accepted exactly when the tool that it makes passes the check
of tools that are added and the patch gives no blank builtin type. So the two checks agree on a tool
unless a blank builtin type is all that is wrong with it. -/
theorem patches_checked_like_records (a b : Agent) (p : AgentPatch) (t u : Tool) (q : ToolPatch) :
    (a.fault? = none → p.Changes a b →
      ∀ c, a.applyPatch p = .ok c ↔ c = b ∧ b.fault? = none) ∧
    (t.fault? = none → q.Changes t u →
      (∀ c, t.applyPatch q = .ok c ↔
        c = u ∧ u.fault? = none ∧ ∀ s ∈ q.builtinType, isBlank s = false) ∧
      (((∃ c, t.applyPatch q = .ok c) ↔ u.fault? = none) ↔
        (u.fault? = none → ∀ s ∈ q.builtinType, isBlank s = false))) := by
  refine ⟨fun ha h c => ?_, fun ht h => ?_⟩
  · rw [Agent.applyPatch_eq_ok_iff, ← h.fault?_eq_none_iff ha, h.eq_patched, and_comm]
  · have haccepted : ∀ c, t.applyPatch q = .ok c ↔
        c = u ∧ u.fault? = none ∧ ∀ s ∈ q.builtinType, isBlank s = false := fun c => by
      rw [Tool.applyPatch_eq_ok_iff, h.fault?_eq_none_iff ht, h.eq_patched, and_comm]
    refine ⟨haccepted, ?_⟩
    simp only [haccepted, exists_eq_left]
    exact and_iff_left_iff_imp

def scribe : Agent := { name := "scribe", model := "m", tools := ["search"] }

def blankReference : AgentPatch := { tools := some [" "] }

def webSearch : ToolPatch := { builtinType := some "google_search" }

theorem patches_checked_like_records_search :
    (scribe.fault? = none ∧ blankReference.Changes scribe (scribe.patched blankReference) ∧
      ∀ c, scribe.applyPatch blankReference ≠ .ok c) ∧
      (Tool.builtin "search").fault? = none ∧
        webSearch.Changes (.builtin "search") ((Tool.builtin "search").patched webSearch) ∧
          (Tool.builtin "search").applyPatch webSearch =
            .ok { name := "search", kind := .builtin, builtinType := some "google_search" } := by
  have hscribe : scribe.fault? = none := by decide
  have hblank := blankReference.changes_patched scribe
  have htool : (Tool.builtin "search").fault? = none := by decide
  have hweb := webSearch.changes_patched (.builtin "search")
  obtain ⟨hagents, htools⟩ := patches_checked_like_records scribe (scribe.patched blankReference)
    blankReference (.builtin "search") ((Tool.builtin "search").patched webSearch) webSearch
  refine ⟨⟨hscribe, hblank, fun c hc => ?_⟩, htool, hweb, ?_⟩
  · obtain ⟨-, hfault⟩ := (hagents hscribe hblank c).mp hc
    exact absurd hfault (by decide)
  · exact ((htools htool hweb).1 _).mpr ⟨rfl, by decide, by decide⟩

def typelessTool : Tool := { name := "search", kind := .builtin, builtinType := some "" }

def blankType : ToolPatch := { builtinType := some "" }

/-- An update refuses to blank the builtin type of a tool, and an addition stores the same tool. -/
theorem blank_builtin_type_added_not_patched :
    (Tool.builtin "search").fault? = none ∧ blankType.Changes (.builtin "search") typelessTool ∧
      (Tool.builtin "search").applyPatch blankType = .error .blankBuiltinType ∧
        typelessTool.fault? = none ∧
          (Project.addTool ⟨0⟩ {} typelessTool (.blank ⟨0⟩ ⟨0⟩ "p")).1 = .ok typelessTool := by
  refine ⟨by decide, ?_, by decide, by decide, by decide⟩
  exact blankType.changes_patched (.builtin "search")

end AgentAssembly

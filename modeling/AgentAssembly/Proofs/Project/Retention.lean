import AgentAssembly.Proofs.Project.Frame

/-!
What a project keeps once it has it. Main statements: each change that an edit makes to a lawful
project adds or overwrites but takes nothing away, and only a patch that says so puts new
references in the place of old ones.
-/

namespace AgentAssembly

/-- Each member of the first list has its place in the second, and is related to what stands
there. -/
def KeepsPlaces {α : Type} (R : α → α → Prop) (l m : List α) : Prop :=
  ∀ (i : Nat) (x : α), l[i]? = some x → ∃ y, m[i]? = some y ∧ R x y

/-- What became of an agent; its references need only stay where `stay` holds. -/
structure Agent.Retained (stay : Prop) (a b : Agent) : Prop where
  name : b.name = a.name
  temperature : a.temperature.isSome → b.temperature.isSome
  maxOutputTokens : a.maxOutputTokens.isSome → b.maxOutputTokens.isSome
  tools : stay → a.tools <+: b.tools
  subAgents : stay → a.subAgents <+: b.subAgents

structure Tool.Retained (stay : Prop) (t u : Tool) : Prop where
  name : u.name = t.name
  builtinType : t.builtinType.isSome → u.builtinType.isSome
  imports : stay → t.imports <+: u.imports

structure BuildContext.Retained (c d : BuildContext) : Prop where
  outputDirectory : c.outputDirectory.isSome → d.outputDirectory.isSome
  primaryAgent : c.primaryAgent.isSome → d.primaryAgent.isSome
  flags : ∀ key ∈ c.flags.keys, key ∈ d.flags.keys
  requirements : c.requirements <+: d.requirements
  environment : ∀ key ∈ c.environment.keys, key ∈ d.environment.keys

/-- What became of a project. `agentsStay` and `toolsStay` tell by name whose references and imports
must stay. -/
structure Project.Retained (agentsStay toolsStay : String → Prop) (p q : Project) : Prop where
  agentNames : p.agentNames <+: q.agentNames
  toolNames : p.toolNames <+: q.toolNames
  agents : KeepsPlaces (fun a b => a.Retained (agentsStay a.name) b) p.agents q.agents
  tools : KeepsPlaces (fun t u => t.Retained (toolsStay t.name) u) p.tools q.tools
  metadata : ∀ key ∈ p.metadata.keys, key ∈ q.metadata.keys
  buildContext : p.buildContext.Retained q.buildContext

namespace KeepsPlaces

variable {α : Type} {R : α → α → Prop} {l m n : List α}

theorem refl (hrefl : ∀ x, R x x) (l : List α) : KeepsPlaces R l l :=
  fun _ x hx => ⟨x, hx, hrefl x⟩

theorem trans (htrans : ∀ x y z, R x y → R y z → R x z) (hlm : KeepsPlaces R l m)
    (hmn : KeepsPlaces R m n) : KeepsPlaces R l n := by
  intro i x hx
  obtain ⟨y, hy, hxy⟩ := hlm i x hx
  obtain ⟨z, hz, hyz⟩ := hmn i y hy
  exact ⟨z, hz, htrans x y z hxy hyz⟩

theorem append (hrefl : ∀ x, R x x) (l more : List α) : KeepsPlaces R l (l ++ more) := by
  intro i x hx
  obtain ⟨hi, -⟩ := List.getElem?_eq_some_iff.mp hx
  exact ⟨x, by rw [List.getElem?_append_left hi, hx], hrefl x⟩

theorem replace (hrefl : ∀ x, R x x) {before after : List α} {a b : α} (hab : R a b) :
    KeepsPlaces R (before ++ a :: after) (before ++ b :: after) := by
  intro i x hx
  have hset : before ++ b :: after = (before ++ a :: after).set before.length b := by simp
  rw [hset, List.getElem?_set]
  split
  · rename_i hi
    subst hi
    obtain rfl : a = x := by simpa using hx
    exact ⟨b, by simp, hab⟩
  · exact ⟨x, hx, hrefl x⟩

end KeepsPlaces

section fields

variable {α : Type}

theorem prefix_distinct_append {l : List String} (h : l.Nodup) (more : List String) :
    l <+: distinct (l ++ more) := by
  induction l with
  | nil => exact List.nil_prefix
  | cons a rest ih =>
    obtain ⟨ha, hrest⟩ := List.nodup_cons.mp h
    obtain ⟨tail, htail⟩ := ih hrest
    have hkept : rest.filter (· ≠ a) = rest := by
      refine List.filter_eq_self.mpr fun b hb => ?_
      have hne : b ≠ a := fun heq => ha (heq ▸ hb)
      simpa using hne
    refine ⟨tail.filter (· ≠ a), ?_⟩
    rw [List.cons_append, List.cons_append, distinct, ← htail, List.filter_append, hkept]

theorem Writes.isSome {given old new : Option α} (h : Writes given some old new)
    (hold : old.isSome) : new.isSome := by
  cases given with
  | none => rwa [h.kept rfl]
  | some b => rw [h.written b rfl, Option.isSome_some]

theorem Writes.prefix {given : Option (List String)} {old new : List String} {replace : Bool}
    (h : Writes given (mergeReferences old · replace) old new) (hold : old.Nodup)
    (hreplace : replace = false) : old <+: new := by
  cases given with
  | none => exact h.kept rfl ▸ List.prefix_rfl
  | some incoming =>
    rw [h.written incoming rfl, hreplace]
    exact prefix_distinct_append hold incoming

theorem WritesEntries.mem_keys {given old new : Dict String α} (h : WritesEntries given old new)
    {key : String} (hkey : key ∈ old.keys) : key ∈ new.keys := by
  rw [Dict.mem_keys] at hkey ⊢
  cases hgiven : given.get? key with
  | none => rwa [h.kept key hgiven]
  | some value => exact ⟨value, h.written key value hgiven⟩

end fields

namespace Agent.Retained

variable {stay : Prop} {a b c : Agent}

theorem refl (a : Agent) : a.Retained stay a :=
  ⟨rfl, id, id, fun _ => List.prefix_rfl, fun _ => List.prefix_rfl⟩

theorem trans (hab : a.Retained stay b) (hbc : b.Retained stay c) : a.Retained stay c where
  name := hbc.name.trans hab.name
  temperature h := hbc.temperature (hab.temperature h)
  maxOutputTokens h := hbc.maxOutputTokens (hab.maxOutputTokens h)
  tools h := (hab.tools h).trans (hbc.tools h)
  subAgents h := (hab.subAgents h).trans (hbc.subAgents h)

theorem of_changes {patch : AgentPatch} (h : patch.Changes a b) (ha : a.Lawful)
    (hstay : stay → patch.replaceReferences = false) : a.Retained stay b where
  name := h.name
  temperature := h.temperature.isSome
  maxOutputTokens := h.maxOutputTokens.isSome
  tools hs := h.tools.prefix ha.tools.nodup (hstay hs)
  subAgents hs := h.subAgents.prefix ha.subAgents.nodup (hstay hs)

end Agent.Retained

namespace Tool.Retained

variable {stay : Prop} {t u v : Tool}

theorem refl (t : Tool) : t.Retained stay t := ⟨rfl, id, fun _ => List.prefix_rfl⟩

theorem trans (htu : t.Retained stay u) (huv : u.Retained stay v) : t.Retained stay v where
  name := huv.name.trans htu.name
  builtinType h := huv.builtinType (htu.builtinType h)
  imports h := (htu.imports h).trans (huv.imports h)

theorem of_changes {patch : ToolPatch} (h : patch.Changes t u) (ht : t.Lawful)
    (hstay : stay → patch.replaceImports = false) : t.Retained stay u where
  name := h.name
  builtinType := h.builtinType.isSome
  imports hs := h.imports.prefix ht.imports.nodup (hstay hs)

end Tool.Retained

namespace BuildContext.Retained

variable {c d e : BuildContext}

theorem refl (c : BuildContext) : c.Retained c :=
  ⟨id, id, fun _ h => h, List.prefix_rfl, fun _ h => h⟩

theorem trans (hcd : c.Retained d) (hde : d.Retained e) : c.Retained e where
  outputDirectory h := hde.outputDirectory (hcd.outputDirectory h)
  primaryAgent h := hde.primaryAgent (hcd.primaryAgent h)
  flags key h := hde.flags key (hcd.flags key h)
  requirements := hcd.requirements.trans hde.requirements
  environment key h := hde.environment key (hcd.environment key h)

theorem of_changes {patch : BuildContextPatch} (h : patch.Changes c d) (hc : c.Lawful) :
    c.Retained d where
  outputDirectory := h.outputDirectory.isSome
  primaryAgent := h.primaryAgent.isSome
  flags _ := h.flags.mem_keys
  requirements := h.requirements.prefix hc.requirements.nodup rfl
  environment _ := h.environment.mem_keys

end BuildContext.Retained

namespace Project.Retained

variable {agentsStay toolsStay : String → Prop} {p q r : Project} {limits : Limits}
  {now : Timestamp}

theorem refl (p : Project) : p.Retained agentsStay toolsStay p where
  agentNames := List.prefix_rfl
  toolNames := List.prefix_rfl
  agents := .refl (fun _ => .refl _) _
  tools := .refl (fun _ => .refl _) _
  metadata _ h := h
  buildContext := .refl _

theorem trans (hpq : p.Retained agentsStay toolsStay q) (hqr : q.Retained agentsStay toolsStay r) :
    p.Retained agentsStay toolsStay r where
  agentNames := hpq.agentNames.trans hqr.agentNames
  toolNames := hpq.toolNames.trans hqr.toolNames
  agents := by
    refine hpq.agents.trans (fun a b c hab hbc => ?_) hqr.agents
    rw [hab.name] at hbc
    exact hab.trans hbc
  tools := by
    refine hpq.tools.trans (fun t u v htu huv => ?_) hqr.tools
    rw [htu.name] at huv
    exact htu.trans huv
  metadata key h := hqr.metadata key (hpq.metadata key h)
  buildContext := hpq.buildContext.trans hqr.buildContext

theorem of_metadataMerged {patch : Dict String Json} (h : MetadataMerged now patch p q) :
    p.Retained agentsStay toolsStay q := by
  rw [h.frame]
  have hsame : p.Retained agentsStay toolsStay p := refl p
  exact { hsame with metadata := fun _ => h.metadata.mem_keys }

theorem of_agentAppended {agent a : Agent} (h : AgentAppended now agent a p q) :
    p.Retained agentsStay toolsStay q := by
  rw [h.frame]
  have hsame : p.Retained agentsStay toolsStay p := refl p
  refine { hsame with agentNames := ?_, agents := .append (fun _ => .refl _) _ _ }
  rw [Project.agentNames, Project.agentNames, List.map_append]
  exact List.prefix_append _ _

theorem of_toolAppended {tool t : Tool} (h : ToolAppended now tool t p q) :
    p.Retained agentsStay toolsStay q := by
  rw [h.frame]
  have hsame : p.Retained agentsStay toolsStay p := refl p
  refine { hsame with toolNames := ?_, tools := .append (fun _ => .refl _) _ _ }
  rw [Project.toolNames, Project.toolNames, List.map_append]
  exact List.prefix_append _ _

theorem of_agentUpdated {name : String} {patch : AgentPatch} {b : Agent}
    (h : AgentUpdated now name patch b p q) (hp : p.Lawful limits)
    (hstay : agentsStay name → patch.replaceReferences = false) :
    p.Retained agentsStay toolsStay q := by
  obtain ⟨before, a, after, hagents, -, rfl, hchanges, hframe⟩ := h.frame
  have hlawful : a.Lawful := hp.agents a (by simp [hagents])
  have hkept : a.Retained (agentsStay a.name) b := .of_changes hchanges hlawful hstay
  rw [hframe]
  have hsame : p.Retained agentsStay toolsStay p := refl p
  refine { hsame with agentNames := ?_, agents := ?_ }
  · simp [Project.agentNames, hagents, hkept.name]
  · rw [hagents]
    exact .replace (fun _ => .refl _) hkept

theorem of_toolUpdated {name : String} {patch : ToolPatch} {u : Tool}
    (h : ToolUpdated now name patch u p q) (hp : p.Lawful limits)
    (hstay : toolsStay name → patch.replaceImports = false) :
    p.Retained agentsStay toolsStay q := by
  obtain ⟨before, t, after, htools, -, rfl, hchanges, hframe⟩ := h.frame
  have hlawful : t.Lawful := hp.tools t (by simp [htools])
  have hkept : t.Retained (toolsStay t.name) u := .of_changes hchanges hlawful hstay
  rw [hframe]
  have hsame : p.Retained agentsStay toolsStay p := refl p
  refine { hsame with toolNames := ?_, tools := ?_ }
  · simp [Project.toolNames, htools, hkept.name]
  · rw [htools]
    exact .replace (fun _ => .refl _) hkept

theorem of_buildContextUpdated {patch : BuildContextPatch} {c : BuildContext}
    (h : BuildContextUpdated now patch c p q) (hp : p.Lawful limits) :
    p.Retained agentsStay toolsStay q := by
  rw [h.frame]
  have hsame : p.Retained agentsStay toolsStay p := refl p
  exact { hsame with buildContext := .of_changes h.changes hp.buildContext }

end Project.Retained
end AgentAssembly

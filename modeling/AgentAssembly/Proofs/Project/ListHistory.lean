import Mathlib.Data.List.DropRight
import Mathlib.Data.List.Induction
import AgentAssembly.Proofs.Project.Edit

/-!
Lists of references under a history of patches. Main statement: what accepted patches make of a list
without repetition is the last list that took the place of another, joined with all that was given
behind it, and one patch that gives this at once makes the same list.
-/

namespace AgentAssembly

/-- What a patch asks of one list: references to join it, or to take its place. -/
structure ListChange where
  given : Option (List String)
  replace : Bool

namespace ListChange

variable {changes : List ListChange} {c : ListChange} {l : List String}

def apply (l : List String) (c : ListChange) : List String :=
  c.given.elim l (mergeReferences l · c.replace)

def resets (c : ListChange) : Bool := c.given.isSome && c.replace

def base? (changes : List ListChange) : Option (List String) :=
  (changes.filter resets).getLast?.bind given

/-- What is given behind the last change that resets, one list after the other. -/
def added (changes : List ListChange) : List String :=
  ((changes.rtakeWhile (!resets ·)).filterMap given).flatten

def batch (changes : List ListChange) : ListChange where
  given := some ((base? changes).getD [] ++ added changes)
  replace := (base? changes).isSome

theorem base?_concat (changes : List ListChange) (c : ListChange) :
    base? (changes ++ [c]) = if c.resets then c.given else base? changes := by
  cases h : c.resets <;> simp [base?, h]

theorem added_concat (changes : List ListChange) (c : ListChange) :
    added (changes ++ [c]) = if c.resets then [] else added changes ++ c.given.getD [] := by
  cases h : c.resets with
  | true => simp [added, h]
  | false => cases hgiven : c.given <;> simp [added, h, hgiven]

theorem getD_base?_append_added (h : ∀ c ∈ changes, c.replace = false) (l : List String) :
    (base? changes).getD l ++ added changes = l ++ (changes.filterMap given).flatten := by
  have hresets : ∀ c ∈ changes, c.resets = false := fun c hc => by simp [resets, h c hc]
  have hbase : changes.filter resets = [] := by simpa using hresets
  have hadded : changes.rtakeWhile (!resets ·) = changes :=
    List.rtakeWhile_eq_self_iff.mpr fun c hc => by simp [hresets c hc]
  simp [base?, added, hbase, hadded]

theorem foldl_apply (h : l.Nodup) (changes : List ListChange) :
    changes.foldl apply l = distinct ((base? changes).getD l ++ added changes) := by
  induction changes using List.reverseRecOn with
  | nil => simp [base?, added, distinct_eq_self h]
  | append_singleton changes c ih =>
    rw [List.foldl_concat, ih, base?_concat, added_concat]
    obtain ⟨given, replace⟩ := c
    cases given with
    | none => simp [apply, resets]
    | some incoming =>
      cases replace with
      | true => simp [apply, resets, mergeReferences]
      | false => simp [apply, resets, mergeReferences, distinct_distinct_append]

theorem apply_batch (l : List String) (changes : List ListChange) :
    apply l (batch changes) = distinct ((base? changes).getD l ++ added changes) := by
  cases h : base? changes <;> simp [apply, batch, mergeReferences, h]

theorem foldl_apply_filter (l : List String) (changes : List ListChange) :
    (changes.filter (·.given.isSome)).foldl apply l = changes.foldl apply l := by
  induction changes generalizing l with
  | nil => rfl
  | cons c rest ih =>
    obtain ⟨given, replace⟩ := c
    cases given <;> simp [ih, apply]

theorem replace_of_base? (h : (base? changes).isSome) : ∃ c ∈ changes, c.replace = true := by
  induction changes using List.reverseRecOn with
  | nil => simp [base?] at h
  | append_singleton changes c ih =>
    rw [base?_concat] at h
    cases hc : c.resets with
    | true => exact ⟨c, by simp, (Bool.and_eq_true_iff.mp hc).2⟩
    | false =>
      obtain ⟨d, hd, hreplace⟩ := ih (by simpa [hc] using h)
      exact ⟨d, List.mem_append_left _ hd, hreplace⟩

theorem mem_batch {m : List String} {r : String} (hm : m ∈ (batch changes).given) (hr : r ∈ m) :
    ∃ c ∈ changes, ∃ given ∈ c.given, r ∈ given := by
  obtain rfl := Option.some.inj hm
  rcases List.mem_append.mp hr with hbase | hadded
  · cases hb : base? changes with
    | none => simp [hb] at hbase
    | some given =>
      obtain ⟨c, hc, hgiven⟩ := Option.bind_eq_some_iff.mp hb
      have hmem := (List.mem_filter.mp (List.mem_of_getLast? hc)).1
      exact ⟨c, hmem, given, hgiven, by simpa [hb] using hbase⟩
  · obtain ⟨given, hgiven, hr⟩ := List.mem_flatten.mp hadded
    obtain ⟨c, hc, hgiven⟩ := List.mem_filterMap.mp hgiven
    exact ⟨c, (List.rtakeWhile_suffix _ _).mem hc, given, hgiven, hr⟩

end ListChange

structure ListField (σ π : Type) where
  applyPatch : σ → π → Except InputFault σ
  fault? : π → Option InputFault
  patched : σ → π → σ
  applyPatch_eq : ∀ s p, applyPatch s p = (fault? p).elim (.ok (patched s p)) .error
  list : σ → List String
  change : π → ListChange
  /-- The patch that changes the list and nothing else. -/
  ofChange : ListChange → π

namespace ListField

variable {σ π : Type} {F : ListField σ π} {s s' : σ} {patches : List π}

structure Lawful (F : ListField σ π) : Prop where
  list_patched : ∀ s p, F.list (F.patched s p) = (F.change p).apply (F.list s)
  /-- A patch of references that accepted patches may give is accepted. -/
  accepts : ∀ c : ListChange,
    (∀ m ∈ c.given, ∀ r ∈ m, ∃ p, F.fault? p = none ∧ ∃ given ∈ (F.change p).given, r ∈ given) →
      F.fault? (F.ofChange c) = none
  change_ofChange : ∀ c : ListChange,
    (c.replace = true → ∃ p, (F.change p).replace = true) → F.change (F.ofChange c) = c

/-- What a history of accepted patches that leads from `s` to `s'` makes of the list. -/
structure Assembles (F : ListField σ π) (s : σ) (patches : List π) (s' : σ) : Prop where
  closed_form : F.list s' = distinct
    ((ListChange.base? (patches.map F.change)).getD (F.list s) ++
      ListChange.added (patches.map F.change))
  /-- The patches that do not give the list may as well be left out. -/
  silent : ∃ r, (patches.filter fun p => (F.change p).given.isSome).foldlM F.applyPatch s = .ok r ∧
    F.list r = F.list s'
  /-- One patch makes the same list. -/
  batch : ∃ r, F.applyPatch s (F.ofChange (.batch (patches.map F.change))) = .ok r ∧
    F.list r = F.list s'

theorem foldlM_applyPatch_eq_ok_iff :
    patches.foldlM F.applyPatch s = .ok s' ↔
      (∀ p ∈ patches, F.fault? p = none) ∧ s' = patches.foldl F.patched s := by
  induction patches generalizing s with
  | nil => simp [pure, Except.pure, eq_comm]
  | cons p rest ih =>
    rw [List.foldlM_cons, F.applyPatch_eq]
    cases h : F.fault? p with
    | some fault => simp [bind, Except.bind, h]
    | none => simp [bind, Except.bind, h, ih]

theorem Lawful.list_foldl (hF : F.Lawful) (s : σ) (patches : List π) :
    F.list (patches.foldl F.patched s) =
      (patches.map F.change).foldl ListChange.apply (F.list s) := by
  rw [List.foldl_map]
  exact (List.foldl_hom F.list fun s p => (hF.list_patched s p).symm).symm

theorem Lawful.list_foldl_filter (hF : F.Lawful) (s : σ) (patches : List π) :
    F.list ((patches.filter fun p => (F.change p).given.isSome).foldl F.patched s) =
      F.list (patches.foldl F.patched s) := by
  have hgiven := List.filter_map (p := fun c : ListChange => c.given.isSome) (f := F.change)
    (l := patches)
  rw [hF.list_foldl, hF.list_foldl, ← ListChange.foldl_apply_filter _ (patches.map _), hgiven]
  rfl

theorem Lawful.fault?_batch (hF : F.Lawful) (h : ∀ p ∈ patches, F.fault? p = none) :
    F.fault? (F.ofChange (.batch (patches.map F.change))) = none := by
  refine hF.accepts _ fun m hm r hr => ?_
  obtain ⟨c, hc, given, hgiven, hr⟩ := ListChange.mem_batch hm hr
  obtain ⟨p, hp, rfl⟩ := List.mem_map.mp hc
  exact ⟨p, h p hp, given, hgiven, hr⟩

theorem Lawful.change_batch (hF : F.Lawful) (patches : List π) :
    F.change (F.ofChange (.batch (patches.map F.change))) = .batch (patches.map F.change) := by
  refine hF.change_ofChange _ fun hreplace => ?_
  obtain ⟨c, hc, hreplace⟩ := ListChange.replace_of_base? hreplace
  obtain ⟨p, -, rfl⟩ := List.mem_map.mp hc
  exact ⟨p, hreplace⟩

theorem Lawful.assembles (hF : F.Lawful) (hpatches : patches.foldlM F.applyPatch s = .ok s')
    (hs : (F.list s).Nodup) : F.Assembles s patches s' := by
  obtain ⟨haccepted, rfl⟩ := foldlM_applyPatch_eq_ok_iff.mp hpatches
  have hclosed := (hF.list_foldl s patches).trans (ListChange.foldl_apply hs _)
  refine ⟨hclosed, ?_, ?_⟩
  · have hgiven : ∀ p ∈ patches.filter fun p => (F.change p).given.isSome, F.fault? p = none :=
      fun p hp => haccepted p (List.mem_filter.mp hp).1
    exact ⟨_, foldlM_applyPatch_eq_ok_iff.mpr ⟨hgiven, rfl⟩, hF.list_foldl_filter s patches⟩
  · refine ⟨_, by rw [F.applyPatch_eq, hF.fault?_batch haccepted]; rfl, ?_⟩
    rw [hF.list_patched, hF.change_batch, ListChange.apply_batch, hclosed]

end ListField

section lists

variable {c d : BuildContext}

def Agent.toolList : ListField Agent AgentPatch where
  applyPatch := Agent.applyPatch
  fault? := AgentPatch.fault?
  patched := Agent.patched
  applyPatch_eq := Agent.applyPatch_eq
  list := Agent.tools
  change p := ⟨p.tools, p.replaceReferences⟩
  ofChange c := { tools := c.given, replaceReferences := c.replace }

def Agent.subAgentList : ListField Agent AgentPatch where
  applyPatch := Agent.applyPatch
  fault? := AgentPatch.fault?
  patched := Agent.patched
  applyPatch_eq := Agent.applyPatch_eq
  list := Agent.subAgents
  change p := ⟨p.subAgents, p.replaceReferences⟩
  ofChange c := { subAgents := c.given, replaceReferences := c.replace }

def Tool.importList : ListField Tool ToolPatch where
  applyPatch := Tool.applyPatch
  fault? := ToolPatch.fault?
  patched := Tool.patched
  applyPatch_eq := Tool.applyPatch_eq
  list := Tool.imports
  change p := ⟨p.imports, p.replaceImports⟩
  ofChange c := { imports := c.given, replaceImports := c.replace }

def BuildContext.requirementList : ListField BuildContext BuildContextPatch where
  applyPatch := BuildContext.applyPatch
  fault? := BuildContextPatch.fault?
  patched := BuildContext.patched
  applyPatch_eq := BuildContext.applyPatch_eq
  list := BuildContext.requirements
  change p := ⟨p.requirements, false⟩
  ofChange c := { requirements := c.given }

theorem Agent.lawful_toolList : Agent.toolList.Lawful where
  list_patched _ p := by
    change p.mergeInto _ p.tools = _
    cases h : p.tools <;> simp [AgentPatch.mergeInto, ListChange.apply, toolList, h]
  accepts c h := by
    refine (AgentPatch.fault?_eq_none_iff (p := toolList.ofChange c)).mpr
      ⟨by simp [toolList], fun m hm r hr => ?_, by simp [toolList], ?_⟩
    · obtain ⟨p, hp, given, hgiven, hmem⟩ := h m hm r hr
      exact (AgentPatch.fault?_eq_none_iff.mp hp).2.1 given hgiven r hmem
    · simp [toolList, generationFault?_eq_none_iff]
  change_ofChange _ _ := rfl

theorem Agent.lawful_subAgentList : Agent.subAgentList.Lawful where
  list_patched _ p := by
    change p.mergeInto _ p.subAgents = _
    cases h : p.subAgents <;> simp [AgentPatch.mergeInto, ListChange.apply, subAgentList, h]
  accepts c h := by
    refine (AgentPatch.fault?_eq_none_iff (p := subAgentList.ofChange c)).mpr
      ⟨by simp [subAgentList], by simp [subAgentList], fun m hm r hr => ?_, ?_⟩
    · obtain ⟨p, hp, given, hgiven, hmem⟩ := h m hm r hr
      exact (AgentPatch.fault?_eq_none_iff.mp hp).2.2.1 given hgiven r hmem
    · simp [subAgentList, generationFault?_eq_none_iff]
  change_ofChange _ _ := rfl

theorem Tool.lawful_importList : Tool.importList.Lawful where
  list_patched _ p := by
    change p.mergeInto _ = _
    cases h : p.imports <;> simp [ToolPatch.mergeInto, ListChange.apply, importList, h]
  accepts c h := by
    refine (ToolPatch.fault?_eq_none_iff (p := importList.ofChange c)).mpr
      ⟨fun m hm r hr => ?_, by simp [importList], by simp [importList]⟩
    obtain ⟨p, hp, given, hgiven, hmem⟩ := h m hm r hr
    exact (ToolPatch.fault?_eq_none_iff.mp hp).1 given hgiven r hmem
  change_ofChange _ _ := rfl

theorem BuildContext.lawful_requirementList : BuildContext.requirementList.Lawful where
  list_patched _ p := by
    cases h : p.requirements <;>
      simp [requirementList, ListChange.apply, BuildContext.patched, h]
  accepts c h := by
    refine (BuildContextPatch.fault?_eq_none_iff (p := requirementList.ofChange c)).mpr
      ⟨by simp [requirementList], by simp [requirementList], fun m hm r hr => ?_, ?_⟩
    · obtain ⟨p, hp, given, hgiven, hmem⟩ := h m hm r hr
      exact (BuildContextPatch.fault?_eq_none_iff.mp hp).2.2.1 given hgiven r hmem
    · simp [requirementList]
  change_ofChange := fun ⟨_, replace⟩ h => by
    cases replace with
    | false => rfl
    | true =>
      obtain ⟨p, hp⟩ := h rfl
      cases hp

/-- What patches make of the requirements of a context: nothing ever takes their place. -/
theorem BuildContext.requirements_of_patches (hc : c.requirements.Nodup)
    {patches : List BuildContextPatch}
    (hpatches : patches.foldlM BuildContext.applyPatch c = .ok d) :
    d.requirements =
      distinct (c.requirements ++ (patches.filterMap (·.requirements)).flatten) := by
  have hassembled : requirementList.Assembles c patches d :=
    lawful_requirementList.assembles hpatches hc
  have h := hassembled.closed_form
  rw [ListChange.getD_base?_append_added] at h
  · simpa [requirementList, List.filterMap_map, Function.comp_def] using h
  · intro change hchange
    obtain ⟨p, -, rfl⟩ := List.mem_map.mp hchange
    rfl

/-- Lists of references hold what their history of patches gave them: the list that last took the
place of another, then all that was given behind it, each once. -/
theorem lists_of_patches :
    (∀ (a b : Agent) (patches : List AgentPatch), patches.foldlM Agent.applyPatch a = .ok b →
      (a.tools.Nodup → Agent.toolList.Assembles a patches b) ∧
        (a.subAgents.Nodup → Agent.subAgentList.Assembles a patches b)) ∧
    (∀ (t u : Tool) (patches : List ToolPatch), patches.foldlM Tool.applyPatch t = .ok u →
      t.imports.Nodup → Tool.importList.Assembles t patches u) ∧
    (∀ (c d : BuildContext) (patches : List BuildContextPatch),
      patches.foldlM BuildContext.applyPatch c = .ok d → c.requirements.Nodup →
        BuildContext.requirementList.Assembles c patches d ∧
          d.requirements =
            distinct (c.requirements ++ (patches.filterMap (·.requirements)).flatten)) := by
  refine ⟨fun a b patches h => ⟨fun ha => ?_, fun ha => ?_⟩, fun t u patches h ht => ?_,
    fun c d patches h hc => ⟨?_, ?_⟩⟩
  · exact Agent.lawful_toolList.assembles h ha
  · exact Agent.lawful_subAgentList.assembles h ha
  · exact Tool.lawful_importList.assembles h ht
  · exact BuildContext.lawful_requirementList.assembles h hc
  · exact BuildContext.requirements_of_patches hc h

def planner : Agent := { name := "planner", model := "m", tools := ["find", "read"] }

def plannerHistory : List AgentPatch :=
  [{ tools := some ["read", "write"] },
    { subAgents := some ["clerk"], replaceReferences := true },
    { tools := some ["list", "list"], replaceReferences := true },
    { tools := some ["find", "list"], subAgents := some ["guide", "clerk"] }]

def importHistory : List ToolPatch :=
  [{ imports := some ["import os"] },
    { imports := some ["import re", "import os"], replaceImports := true },
    { imports := some ["import os", "import io"] }]

def requirementHistory : List BuildContextPatch :=
  [{ requirements := some ["rich", "numpy"] }, {}, { requirements := some ["numpy", "flask"] }]

theorem lists_of_patches_planner :
    (∃ b, plannerHistory.foldlM Agent.applyPatch planner = .ok b ∧
      b.tools = ["list", "find"] ∧ b.subAgents = ["clerk", "guide"] ∧
        Agent.toolList.Assembles planner plannerHistory b ∧
          Agent.subAgentList.Assembles planner plannerHistory b) ∧
    (∃ u, importHistory.foldlM Tool.applyPatch (.generated "fetch" "return 1") = .ok u ∧
      u.imports = ["import re", "import os", "import io"] ∧
        Tool.importList.Assembles (.generated "fetch" "return 1") importHistory u) ∧
    ∃ d, requirementHistory.foldlM BuildContext.applyPatch {} = .ok d ∧
      d.requirements = ["rich", "numpy", "flask"] ∧
        BuildContext.requirementList.Assembles {} requirementHistory d := by
  obtain ⟨hagents, htools, hcontexts⟩ := lists_of_patches
  have hplanner : plannerHistory.foldlM Agent.applyPatch planner =
      .ok { planner with tools := ["list", "find"], subAgents := ["clerk", "guide"] } := by decide
  have himports : importHistory.foldlM Tool.applyPatch (.generated "fetch" "return 1") =
      .ok { Tool.generated "fetch" "return 1" with
        imports := ["import re", "import os", "import io"] } := by decide
  have hrequirements : requirementHistory.foldlM BuildContext.applyPatch {} =
      .ok { requirements := ["rich", "numpy", "flask"] } := by decide
  refine ⟨⟨_, hplanner, rfl, rfl, ?_, ?_⟩, ⟨_, himports, rfl, ?_⟩, ⟨_, hrequirements, rfl, ?_⟩⟩
  · exact (hagents _ _ _ hplanner).1 (by decide)
  · exact (hagents _ _ _ hplanner).2 (by decide)
  · exact htools _ _ _ himports (by decide)
  · exact (hcontexts _ _ _ hrequirements (by decide)).1

end lists
end AgentAssembly

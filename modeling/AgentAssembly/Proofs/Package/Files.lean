import AgentAssembly.Proofs.Package.Rendering

/-!
The files of a package. Main statement: a project is previewed exactly when its report is empty,
and then no file takes the place of another and the paths are those that its names call for.
-/

namespace AgentAssembly

open Identifier

variable {p : Project}

namespace Package

def framePaths (p : Project) : List String :=
  ["agent.py", "__init__.py", "agents/__init__.py", "requirements.txt", ".env.example"] ++
  (if p.generatedTools = [] then [] else ["tools/__init__.py"]) ++
  (if p.buildContext.flag "quick_start" true then ["quick_start.py"] else [])

def paths (p : Project) : List String :=
  framePaths p ++ p.agents.map (fun a => "agents/" ++ moduleName a.name ++ ".py") ++
    p.generatedTools.map (fun t => "tools/" ++ moduleName t.name ++ ".py")

def Inserts (p : Project) (entries : List (String × String)) : Prop :=
  ∃ agents root, agentFiles p = .ok agents ∧ EntryPoint.root? p = some root ∧
    entries = agents ++ toolFiles p ++ frameFiles p root

theorem Inserts.render_eq {entries : List (String × String)} (h : Inserts p entries) :
    p.render = .ok (.ofList entries) := by
  obtain ⟨agents, root, hagents, hroot, rfl⟩ := h
  simp [Project.render, hagents, hroot]

theorem Inserts.preview_eq {entries : List (String × String)} (h : Inserts p entries)
    (hfindings : p.validate.findings = []) : p.preview = .ok (.ofList entries) := by
  simp [Project.preview, Report.isOk, hfindings, h.render_eq, Except.mapError]

theorem Inserts.exists_root {entries : List (String × String)} (h : Inserts p entries) :
    ∃ root, EntryPoint.root? p = some root := by
  obtain ⟨-, root, -, hroot, -⟩ := h
  exact ⟨root, hroot⟩

theorem map_fst_agentFiles {files : List (String × String)} (h : agentFiles p = .ok files) :
    files.map (·.1) = p.agents.map agentPath := by
  refine map_eq_of_mapM_eq_ok h fun a file hfile => ?_
  obtain ⟨m, -, rfl⟩ := map_eq_ok_iff.mp hfile
  rfl

theorem framePaths_perm (p : Project) (root : Agent) :
    ((frameFiles p root).map (·.1)).Perm (framePaths p) := by
  rw [frameFiles, framePaths, quickStartFlag, List.perm_iff_count]
  intro path
  by_cases hg : p.generatedTools = []
  · simp only [hg, List.isEmpty_nil, if_true]
    split <;> simp [List.count_cons]
  · rw [if_neg (by simpa using hg), if_neg hg]
    split <;> simp [List.count_cons] <;> omega

theorem map_fst_perm_paths {entries : List (String × String)} (h : Inserts p entries) :
    (entries.map (·.1)).Perm (paths p) := by
  obtain ⟨agents, root, hagents, -, rfl⟩ := h
  have htools : (toolFiles p).map (·.1) = p.generatedTools.map toolPath := by
    rw [toolFiles, List.map_map]
    rfl
  rw [List.map_append, List.map_append, map_fst_agentFiles hagents, htools]
  have hpaths : paths p =
      framePaths p ++ (p.agents.map agentPath ++ p.generatedTools.map toolPath) :=
    List.append_assoc _ _ _
  rw [hpaths]
  exact List.perm_append_comm.trans ((framePaths_perm p root).append_right _)

def fixedPaths : List String :=
  ["agent.py", "__init__.py", "agents/__init__.py", "requirements.txt", ".env.example",
    "tools/__init__.py", "quick_start.py"]

theorem framePaths_sublist (p : Project) : (framePaths p).Sublist fixedPaths := by
  rw [framePaths]
  split <;> split <;> decide

theorem eq_init_of_prefix :
    ∀ d ∈ ["agents/", "tools/"], ∀ path ∈ fixedPaths, d.toList <+: path.toList →
      path = d ++ "__init__" ++ ".py" := by
  decide

theorem modulePath_not_mem {d : String} (hd : d ∈ ["agents/", "tools/"]) (label : String) :
    d ++ moduleName label ++ ".py" ∉ fixedPaths := by
  intro h
  -- The marker of the directory is the only fixed path below it.
  have hinit := eq_init_of_prefix d hd _ h (by simp)
  have hname : moduleName label = "__init__" := by simpa using hinit
  exact moduleName_ne_init label hname

theorem modulePath_ne_entryPoint {d : String} (hd : d ∈ ["agents/", "tools/"]) (label : String) :
    d ++ moduleName label ++ ".py" ≠ "agent.py" := by
  intro h
  have hfixed : "agent.py" ∈ fixedPaths := by decide
  exact modulePath_not_mem hd label (h ▸ hfixed)

theorem modulePath_ne (s t : String) : "agents/" ++ s ++ ".py" ≠ "tools/" ++ t ++ ".py" := by
  intro h
  have hagents : "agents/".toList <+: ("agents/" ++ s ++ ".py").toList := by simp
  have htools : "tools/".toList <+: ("agents/" ++ s ++ ".py").toList := by simp [h]
  have hneither :
      ¬ ("agents/".toList <+: "tools/".toList ∨ "tools/".toList <+: "agents/".toList) := by
    decide
  exact hneither (List.prefix_or_prefix_of_prefix hagents htools)

theorem nodup_map_modulePath {d : String} {names : List String} (h : names.Nodup) :
    (names.map fun name => d ++ name ++ ".py").Nodup := by
  refine h.map fun s t hst => ?_
  simpa using hst

theorem nodup_paths (h : p.WellFormed) : (paths p).Nodup := by
  have hfixed : fixedPaths.Nodup := by decide
  have hframe : ∀ path ∈ framePaths p, path ∈ fixedPaths :=
    fun _ hpath => (framePaths_sublist p).subset hpath
  have hagents : (p.agents.map fun a => "agents/" ++ moduleName a.name ++ ".py").Nodup := by
    simpa [Function.comp_def] using nodup_map_modulePath (d := "agents/") h.modules
  have htools : (p.generatedTools.map fun t => "tools/" ++ moduleName t.name ++ ".py").Nodup := by
    simpa [Function.comp_def] using nodup_map_modulePath (d := "tools/") h.toolModules
  rw [paths, List.nodup_append, List.nodup_append]
  refine ⟨⟨(framePaths_sublist p).nodup hfixed, hagents, ?_⟩, htools, ?_⟩
  · intro path hpath path' ha hsame
    subst hsame
    obtain ⟨a, -, rfl⟩ := List.mem_map.mp ha
    exact modulePath_not_mem (by simp) a.name (hframe _ hpath)
  · intro path hpath path' ht hsame
    subst hsame
    obtain ⟨t, -, rfl⟩ := List.mem_map.mp ht
    obtain hpath | ha := List.mem_append.mp hpath
    · exact modulePath_not_mem (by simp) t.name (hframe _ hpath)
    · obtain ⟨a, -, heq⟩ := List.mem_map.mp ha
      exact modulePath_ne _ _ heq

theorem exists_inserts (h : p.validate.findings = []) : ∃ entries, Inserts p entries := by
  have hopen : ¬ (p.HasDanglingReference ∨ EntryPoint.root? p = none) := by
    rw [← Project.exists_blocking_iff]
    simp [h]
  obtain ⟨hdangling, hroot⟩ := not_or.mp hopen
  obtain ⟨root, hroot⟩ := Option.ne_none_iff_exists'.mp hroot
  cases hagents : agentFiles p with
  | error fault => exact absurd (Project.exists_agentFiles_error_iff.mp ⟨fault, hagents⟩) hdangling
  | ok agents => exact ⟨_, agents, root, hagents, hroot, rfl⟩

theorem nodup_keys {entries : List (String × String)} (h : p.WellFormed)
    (hentries : Inserts p entries) : (entries.map (·.1)).Nodup :=
  (map_fst_perm_paths hentries).nodup_iff.mpr (nodup_paths h)

theorem get?_of_inserts {entries : List (String × String)} (h : p.WellFormed)
    (hentries : Inserts p entries) {path text : String} (he : (path, text) ∈ entries) :
    (Dict.ofList entries).get? path = some text := by
  rw [Dict.get?_eq_some_iff, (Dict.ofList_perm (nodup_keys h hentries)).mem_iff]
  exact he

theorem length_paths (p : Project) :
    (paths p).length = 5 + p.agents.length +
      (if p.generatedTools = [] then 0 else p.generatedTools.length + 1) +
      (if p.buildContext.flag "quick_start" true then 1 else 0) := by
  rw [paths, framePaths]
  by_cases hg : p.generatedTools = []
  · rw [if_pos hg, if_pos hg, hg]
    split <;> simp <;> omega
  · rw [if_neg hg, if_neg hg]
    split <;> simp <;> omega

end Package

namespace Project

open Package

/-- Rendering fails exactly on findings about references and the root, a preview is refused with
the very report that is not empty, and every file of a preview stays at its own path. -/
theorem preview_exact (p : Project) :
    ((∃ fault, p.render = .error fault) ↔ ∃ f ∈ p.validate.findings, f.blocksRendering) ∧
    ((∃ files, p.preview = .ok files) ↔ p.validate.findings = []) ∧
    (p.validate.findings ≠ [] → p.preview = .error (.invalid p.validate)) ∧
    (p.validate.findings = [] → ∃ entries files,
      Inserts p entries ∧ p.preview = .ok files ∧ files = .ofList entries ∧
      (∀ before e after, entries = before ++ e :: after →
        (Dict.ofList before).contains e.1 = false) ∧
      (∀ e ∈ entries, files.get? e.1 = some e.2) ∧
      files.keys.Perm (paths p) ∧ (paths p).Nodup ∧
      files.size = 5 + p.agents.length +
        (if p.generatedTools = [] then 0 else p.generatedTools.length + 1) +
        (if p.buildContext.flag "quick_start" true then 1 else 0)) := by
  refine ⟨exists_render_error_iff_blocking, exists_preview_ok_iff, preview_of_findings, ?_⟩
  intro h
  obtain ⟨entries, hentries⟩ := exists_inserts h
  have hwell := WellFormed.of_findings h
  have hkeys := nodup_keys hwell hentries
  have hsame : (Dict.ofList entries).keys.Perm (entries.map (·.1)) :=
    (Dict.ofList_perm hkeys).map _
  have hfiles : (Dict.ofList entries).keys.Perm (paths p) :=
    hsame.trans (map_fst_perm_paths hentries)
  refine ⟨entries, .ofList entries, hentries, ?_, rfl, ?_, ?_, hfiles, nodup_paths hwell, ?_⟩
  · simp [preview, Report.isOk, h, hentries.render_eq, Except.mapError]
  · intro before e after hsplit
    subst hsplit
    rw [← Bool.not_eq_true, Dict.contains_ofList]
    rw [List.map_append, List.map_cons, List.nodup_middle, List.nodup_cons] at hkeys
    exact fun hmem => hkeys.1 (List.mem_append_left _ hmem)
  · exact fun e he => get?_of_inserts hwell hentries he
  · rw [← length_paths, ← hfiles.length_eq]
    simp [Dict.size, Dict.keys]

end Project

/-- Two agents, one under the other, with a generated tool and a builtin symbol that two tools
share. -/
def deskProject : Project where
  id := ⟨0⟩
  name := "Travel Desk"
  agents :=
    [{ name := "Travel Desk", model := "m", tools := ["search", "Look Up"],
       subAgents := ["planner"] },
     { name := "planner", model := "m", tools := ["web search"] }]
  tools :=
    [{ name := "search", kind := .builtin, builtinType := some "google_search" },
     { name := "web search", kind := .builtin, builtinType := some "google_search" },
     { name := "Look Up", code := "return 1" }]
  createdAt := ⟨0⟩
  updatedAt := ⟨0⟩

theorem Project.preview_exact_deskProject :
    deskProject.validate.findings = [] ∧
      ∃ files, deskProject.preview = .ok files ∧ files.size = 10 := by
  have hfindings : deskProject.validate.findings = [] := by decide
  obtain ⟨entries, files, -, hpreview, -, -, -, -, -, hsize⟩ :=
    (preview_exact deskProject).2.2.2 hfindings
  exact ⟨hfindings, files, hpreview, hsize.trans (by decide)⟩

end AgentAssembly

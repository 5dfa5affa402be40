import AgentAssembly.Proofs.Package.Bindings

/-!
The package as a whole, read from the texts of its files. Main statement: where a report is empty
every import finds a file of the package that defines what it takes, no module binds a name twice or
imports itself through others, and the entry point imports every agent and names the root.
-/

namespace AgentAssembly

open Identifier Package
open Relation (TransGen)
open Text (pieces statements)

variable {p : Project} {a b : Agent} {m : AgentModule} {entries : List (String × String)}

/-- The path of the module that an import names, seen from a module in the directory: one dot is the
directory itself, and each further dot the one above. What starts with no dot is no module of the
package. -/
def target? (directory : List String) (origin : String) : Option String :=
  let names := origin.toList.dropWhile (· == '.')
  match origin.toList.length - names.length with
  | 0 => none
  | up + 1 =>
    some ("/".intercalate (directory.take (directory.length - up) ++
      (pieces (· == '.') names).map String.ofList) ++ ".py")

section targets

theorem dots_moduleName (label : String) :
    (moduleName label).toList.dropWhile (· == '.') = (moduleName label).toList ∧
      pieces (· == '.') (moduleName label).toList = [(moduleName label).toList] := by
  have hdot : ∀ c ∈ (moduleName label).toList, (c == '.') = false := by
    intro c hc
    have hne : c ≠ '.' := by
      rintro rfl
      exact (isIdentifier_moduleName label).not_mem (by decide) hc
    simpa using hne
  refine ⟨?_, Text.pieces_of_forall_not hdot⟩
  cases hname : (moduleName label).toList with
  | nil => rfl
  | cons c cs =>
    have hc := hdot c (by rw [hname]; exact List.mem_cons_self)
    rw [List.dropWhile_cons, hc, if_neg Bool.false_ne_true]

theorem target?_agent (label : String) : target? ["agents"] ("." ++ moduleName label) =
    some ("agents/" ++ moduleName label ++ ".py") := by
  obtain ⟨hdrop, hpieces⟩ := dots_moduleName label
  simp [target?, hdrop, hpieces]

theorem target?_tool (label : String) : target? ["agents"] ("..tools." ++ moduleName label) =
    some ("tools/" ++ moduleName label ++ ".py") := by
  obtain ⟨hdrop, hpieces⟩ := dots_moduleName label
  simp [target?, pieces, hpieces]

theorem target?_entry (label : String) : target? [] (".agents." ++ moduleName label) =
    some ("agents/" ++ moduleName label ++ ".py") := by
  obtain ⟨hdrop, hpieces⟩ := dots_moduleName label
  simp [target?, pieces, hpieces]

theorem target?_framework :
    ∀ origin ∈ ["google.adk.agents", "google.genai", "google.adk.tools"],
      target? ["agents"] origin = none := by
  simp [target?]

end targets

inductive Resolves (p : Project) (files : FileSet) : String → String → Prop
  | agent {file text name : String} (htext : files.get? ("agents/" ++ file ++ ".py") = some text)
    (hdefines : AgentModule.Defines text name) : Resolves p files ("agents/" ++ file ++ ".py") name
  | tool {t : Tool} {text name : String} (ht : t ∈ p.generatedTools)
    (htext : files.get? (toolPath t) = some text) (hdefines : ToolModule.Defines t text name) :
    Resolves p files (toolPath t) name

/-- The text of the module at one path takes a name from the module at the other. -/
inductive ImportsFile (p : Project) (files : FileSet) : String → String → Prop
  | fromAgent {a : Agent} {text origin name path : String} (ha : a ∈ p.agents)
    (htext : files.get? (agentPath a) = some text)
    (htaken : .taken origin name ∈ Binding.ofText text)
    (hpath : target? ["agents"] origin = some path) : ImportsFile p files (agentPath a) path
  | fromEntryPoint {text origin name path : String} (htext : files.get? "agent.py" = some text)
    (htaken : .taken origin name ∈ Binding.ofText text) (hpath : target? [] origin = some path) :
    ImportsFile p files "agent.py" path

section bindings

variable {origin name path : String}

theorem AgentModule.bindings_eq (h : p.WellFormed) (hm : ofAgent p a = .ok m) :
    Binding.ofText m.text = m.imports.map .ofImport ++
      [.assigned "INSTRUCTION", .assigned (agentVariable a.name)] := by
  rw [bindings_text (regular h hm), symbol_eq hm]

theorem AgentModule.of_taken (h : p.WellFormed) (hm : ofAgent p a = .ok m)
    (htaken : .taken origin name ∈ Binding.ofText m.text) :
    ∃ i ∈ m.imports, i.origin = origin ∧ i.symbol = name := by
  simpa [bindings_eq h hm, Binding.ofImport] using htaken

theorem EntryPoint.bindings_eq (p : Project) (root : Agent) :
    Binding.ofText (ofProject p root).text =
      p.agents.map (fun a => .taken (".agents." ++ moduleName a.name) (agentVariable a.name)) ++
        [.assigned "root_agent", .assigned "__all__"] := by
  have himports : (ofProject p root).imports.map Binding.ofImport = p.agents.map fun a =>
      .taken (".agents." ++ moduleName a.name) (agentVariable a.name) := by
    rw [ofProject, List.map_map]
    refine List.map_congr_left fun a _ => ?_
    rw [Function.comp_apply, Agent.toEntryImport, Binding.ofImport, Import.origin, Import.symbol]
  rw [bindings_text (regular p root), himports]

theorem EntryPoint.of_taken {root : Agent}
    (htaken : .taken origin name ∈ Binding.ofText (ofProject p root).text) :
    ∃ b ∈ p.agents, origin = ".agents." ++ moduleName b.name ∧ name = agentVariable b.name := by
  rw [bindings_eq] at htaken
  simp only [List.mem_append, List.mem_map, List.mem_cons, List.not_mem_nil, or_false,
    Binding.taken.injEq, reduceCtorEq] at htaken
  obtain ⟨b, hb, rfl, rfl⟩ := htaken
  exact ⟨b, hb, rfl, rfl⟩

end bindings

section files

theorem resolves_agent (hentries : Inserts p entries) (h : p.WellFormed) (hb : b ∈ p.agents) :
    Resolves p (.ofList entries) (agentPath b) (agentVariable b.name) := by
  obtain ⟨m, hm⟩ := h.exists_ofAgent hb
  have hregular := AgentModule.regular h hm
  have hdefines := AgentModule.defines_symbol (fun i hi => (hregular.imports i hi).symbol)
    fun l hl => AgentModule.isLine_of_mem hregular hl
  rw [AgentModule.symbol_eq hm] at hdefines
  exact .agent (hentries.get?_agentPath h hb hm) hdefines

theorem resolves_of_taken (hentries : Inserts p entries) (h : p.WellFormed)
    (hm : AgentModule.ofAgent p a = .ok m) {origin name path : String}
    (htaken : .taken origin name ∈ Binding.ofText m.text)
    (hpath : target? ["agents"] origin = some path) : Resolves p (.ofList entries) path name := by
  obtain ⟨i, hi, rfl, rfl⟩ := AgentModule.of_taken h hm htaken
  obtain rfl | rfl | ⟨t, ht, rfl⟩ | ⟨b, hb, -, rfl⟩ := AgentModule.mem_imports_cases hm hi
  · rw [Import.origin, target?_framework _ (by simp)] at hpath
    cases hpath
  · rw [Import.origin, target?_framework _ (by simp)] at hpath
    cases hpath
  · by_cases hg : t.isGenerated
    · rw [Tool.toImport, if_pos hg, Import.origin, target?_tool] at hpath
      obtain rfl := Option.some.inj hpath
      rw [Tool.toImport, if_pos hg, Import.symbol]
      have ht : t ∈ p.generatedTools := List.mem_filter.mpr ⟨ht, hg⟩
      exact .tool ht (hentries.get?_toolPath h ht) (ToolModule.defines_toolFunction t)
    · rw [Tool.toImport, if_neg hg, Import.origin, target?_framework _ (by simp)] at hpath
      cases hpath
  · rw [Agent.toImport, Import.origin, target?_agent] at hpath
    obtain rfl := Option.some.inj hpath
    rw [Agent.toImport, Import.symbol]
    exact resolves_agent hentries h hb

end files

namespace ImportsFile

variable {source path : String}

/-- Where one step leads: from the module of an agent to a tool's or to that of an agent delegated
to, and from the entry point to an agent's. -/
theorem step_cases (hentries : Inserts p entries) (h : p.WellFormed)
    (hstep : ImportsFile p (.ofList entries) source path) :
    (∃ a ∈ p.agents, source = agentPath a ∧
      ((∃ t ∈ p.tools, path = toolPath t) ∨
        ∃ b ∈ p.agents, path = agentPath b ∧ p.Refers a.name b.name)) ∨
    (source = "agent.py" ∧ ∃ b ∈ p.agents, path = agentPath b) := by
  cases hstep with
  | fromAgent ha htext htaken hpath =>
    rename_i a text origin name
    refine .inl ⟨a, ha, rfl, ?_⟩
    obtain ⟨m, hm⟩ := h.exists_ofAgent ha
    obtain rfl := Option.some.inj ((hentries.get?_agentPath h ha hm).symm.trans htext)
    obtain ⟨i, hi, rfl, rfl⟩ := AgentModule.of_taken h hm htaken
    obtain rfl | rfl | ⟨t, ht, rfl⟩ | ⟨b, hb, hsub, rfl⟩ := AgentModule.mem_imports_cases hm hi
    · rw [Import.origin, target?_framework _ (by simp)] at hpath
      cases hpath
    · rw [Import.origin, target?_framework _ (by simp)] at hpath
      cases hpath
    · refine .inl ⟨t, ht, ?_⟩
      rw [Tool.toImport] at hpath
      split at hpath
      · rw [Import.origin, target?_tool] at hpath
        exact (Option.some.inj hpath).symm
      · rw [Import.origin, target?_framework _ (by simp)] at hpath
        cases hpath
    · refine .inr ⟨b, hb, ?_, Project.refers_of_mem ha hb hsub⟩
      rw [Agent.toImport, Import.origin, target?_agent] at hpath
      exact (Option.some.inj hpath).symm
  | fromEntryPoint htext htaken hpath =>
    obtain ⟨root, hroot⟩ := hentries.exists_root
    obtain rfl := Option.some.inj ((hentries.get?_entryPoint h hroot).symm.trans htext)
    obtain ⟨b, hb, rfl, rfl⟩ := EntryPoint.of_taken htaken
    rw [target?_entry] at hpath
    exact .inr ⟨rfl, b, hb, (Option.some.inj hpath).symm⟩

theorem not_from_toolPath (hentries : Inserts p entries) (h : p.WellFormed) {t : Tool} :
    ¬ ImportsFile p (.ofList entries) (toolPath t) path := by
  intro hstep
  obtain ⟨a, -, hpath, -⟩ | ⟨hpath, -⟩ := hstep.step_cases hentries h
  · exact modulePath_ne _ _ hpath.symm
  · exact modulePath_ne_entryPoint (by simp) t.name hpath

/-- What is reached is the module of a tool, or of an agent that the source delegates to through
others. -/
theorem reaches_cases (hentries : Inserts p entries) (h : p.WellFormed)
    (hreach : TransGen (ImportsFile p (.ofList entries)) source path) :
    (∃ t ∈ p.tools, path = toolPath t) ∨
    ∃ b ∈ p.agents, path = agentPath b ∧
      ∀ a ∈ p.agents, source = agentPath a → TransGen p.Refers a.name b.name := by
  have hentry : ∀ a : Agent, agentPath a ≠ "agent.py" :=
    fun a => modulePath_ne_entryPoint (by simp) a.name
  have hsame : ∀ a ∈ p.agents, ∀ b ∈ p.agents, agentPath a = agentPath b → a = b := by
    intro a ha b hb hpath
    exact h.agent_ext ha hb (by simpa [agentPath] using hpath)
  -- By the last step: agents in between pass on what they delegate to, tools and the entry point
  -- never stand in between.
  induction hreach with
  | single hstep =>
    obtain ⟨a, ha, rfl, htool | ⟨b, hb, rfl, hrefers⟩⟩ | ⟨rfl, b, hb, rfl⟩ :=
      hstep.step_cases hentries h
    · exact .inl htool
    · refine .inr ⟨b, hb, rfl, fun c hc hpath => ?_⟩
      obtain rfl := hsame a ha c hc hpath
      exact .single hrefers
    · exact .inr ⟨b, hb, rfl, fun a _ hpath => absurd hpath.symm (hentry a)⟩
  | tail _ hstep ih =>
    obtain ⟨t, -, rfl⟩ | ⟨b, hb, rfl, hdelegates⟩ := ih
    · exact absurd hstep (not_from_toolPath hentries h)
    · obtain ⟨c, hc, hpath, htool | ⟨d, hd, rfl, hrefers⟩⟩ | ⟨hpath, -⟩ :=
        hstep.step_cases hentries h
      · exact .inl htool
      · obtain rfl := hsame b hb c hc hpath
        exact .inr ⟨d, hd, rfl, fun a ha hsource => (hdelegates a ha hsource).tail hrefers⟩
      · exact absurd hpath (hentry b)

theorem acyclic (hentries : Inserts p entries) (h : p.WellFormed) :
    Acyclic (ImportsFile p (.ofList entries)) := by
  intro path hpath
  obtain ⟨t, -, rfl⟩ | ⟨b, hb, rfl, hdelegates⟩ := reaches_cases hentries h hpath
  · obtain ⟨next, hstep, -⟩ := TransGen.head'_iff.mp hpath
    exact not_from_toolPath hentries h hstep
  · exact h.acyclic b.name (hdelegates b hb rfl)

end ImportsFile

namespace EntryPoint

theorem root_agent_iff (p : Project) (root : Agent) {v : String} :
    "root_agent = " ++ v ∈ statements (ofProject p root).text ↔ v = agentVariable root.name := by
  have hne : "root_agent = " ++ v ∉ [""] := by simp
  rw [statements_text (regular p root), List.mem_append, or_iff_left hne,
    root_agent_mem_lines_iff, ofProject]

end EntryPoint

namespace Project

/-- The package of a project without findings is closed, by the texts of its files. What the module
of an agent binds are the imports that were written and then its own two names; no two of these are
the same, and each import from the package finds a file that defines what it takes. No module
imports itself through others. The entry point imports every agent once, in their order, and names
the root. -/
theorem package_closed (p : Project) (h : p.validate.findings = []) :
    ∃ files root, p.preview = .ok files ∧
      (∀ a ∈ p.agents, ∃ m text, AgentModule.ofAgent p a = .ok m ∧
        files.get? (agentPath a) = some text ∧
        Binding.ofText text = m.imports.map .ofImport ++
          [.assigned "INSTRUCTION", .assigned (agentVariable a.name)] ∧
        ((Binding.ofText text).map (·.name)).Nodup ∧
        AgentModule.Defines text (agentVariable a.name) ∧
        ∀ origin name path, .taken origin name ∈ Binding.ofText text →
          target? ["agents"] origin = some path → Resolves p files path name) ∧
      Acyclic (ImportsFile p files) ∧
      ∃ text, files.get? "agent.py" = some text ∧
        Binding.ofText text =
          p.agents.map (fun a => .taken (".agents." ++ moduleName a.name) (agentVariable a.name)) ++
            [.assigned "root_agent", .assigned "__all__"] ∧
        (p.agents.map fun a => moduleName a.name).Nodup ∧
        (∀ origin name path, .taken origin name ∈ Binding.ofText text →
          target? [] origin = some path → Resolves p files path name) ∧
        p.rootName? = some root.name ∧ p.agent? root.name = some root ∧
        ∀ v, "root_agent = " ++ v ∈ statements text ↔ v = agentVariable root.name := by
  have hwell := WellFormed.of_findings h
  obtain ⟨entries, hentries⟩ := exists_inserts h
  obtain ⟨root, hroot⟩ := hentries.exists_root
  obtain ⟨hname, hfind⟩ := EntryPoint.rootName?_of_root? hroot
  refine ⟨.ofList entries, root, hentries.preview_eq h, fun a ha => ?_,
    ImportsFile.acyclic hentries hwell, _, hentries.get?_entryPoint hwell hroot,
    EntryPoint.bindings_eq p root, hwell.modules, fun origin name path htaken hpath => ?_, hname,
    hfind, fun v => EntryPoint.root_agent_iff p root⟩
  · obtain ⟨m, hm⟩ := hwell.exists_ofAgent ha
    have hbindings := AgentModule.bindings_eq hwell hm
    have hbound := hwell.nodup_bound ha hm
    have hregular := AgentModule.regular hwell hm
    have hdefines := AgentModule.defines_symbol (fun i hi => (hregular.imports i hi).symbol)
      fun l hl => AgentModule.isLine_of_mem hregular hl
    rw [AgentModule.symbol_eq hm] at hbound hdefines
    refine ⟨m, m.text, hm, hentries.get?_agentPath hwell ha hm, hbindings, ?_, hdefines,
      fun origin name path htaken hpath => resolves_of_taken hentries hwell hm htaken hpath⟩
    rw [hbindings, List.map_append, Binding.map_name_ofImport]
    simpa only [List.map_cons, List.map_nil, Binding.name] using hbound
  · obtain ⟨b, hb, rfl, rfl⟩ := EntryPoint.of_taken htaken
    rw [target?_entry] at hpath
    obtain rfl := Option.some.inj hpath
    exact resolves_agent hentries hwell hb

def deskAgent : Agent where
  name := "Travel Desk"
  model := "m"
  tools := ["search", "Look Up"]
  subAgents := ["planner"]

theorem package_closed_deskProject :
    deskProject.validate.findings = [] ∧
      ∃ files text, deskProject.preview = .ok files ∧
        files.get? "agents/travel_desk.py" = some text ∧
        Binding.ofText text =
          [.taken "google.adk.agents" "Agent", .taken "google.adk.tools" "google_search",
            .taken "..tools.look_up" "look_up", .taken ".planner" "planner_agent",
            .assigned "INSTRUCTION", .assigned "travel_desk_agent"] ∧
        Resolves deskProject files "tools/look_up.py" "look_up" ∧
        Resolves deskProject files "agents/planner.py" "planner_agent" := by
  have hfindings : deskProject.validate.findings = [] := by decide
  obtain ⟨files, root, hpreview, hmodules, -⟩ := package_closed deskProject hfindings
  obtain ⟨m, text, hm, htext, hbindings, -, -, hresolves⟩ :=
    hmodules deskAgent (by simp [deskProject, deskAgent])
  have hpath : agentPath deskAgent = "agents/travel_desk.py" := by decide
  have hvariable : agentVariable deskAgent.name = "travel_desk_agent" := by decide
  have hwritten : (AgentModule.ofAgent deskProject deskAgent).map (·.imports) =
      .ok [.agentClass, .builtin "google_search", .tool "look_up" "look_up",
        .subAgent "planner" "planner_agent"] := by
    decide
  have himports : m.imports = [.agentClass, .builtin "google_search", .tool "look_up" "look_up",
      .subAgent "planner" "planner_agent"] := by
    rw [hm] at hwritten
    exact Except.ok.inj hwritten
  rw [hpath] at htext
  rw [himports, hvariable] at hbindings
  refine ⟨hfindings, files, text, hpreview, htext, hbindings, ?_, ?_⟩
  · exact hresolves "..tools.look_up" "look_up" _ (by rw [hbindings]; decide) (by decide)
  · exact hresolves ".planner" "planner_agent" _ (by rw [hbindings]; decide) (by decide)

end Project
end AgentAssembly

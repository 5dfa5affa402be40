import AgentAssembly.Proofs.Number
import AgentAssembly.Proofs.Package.Definitions
import AgentAssembly.Proofs.Package.Files

/-!
What is put into the modules of a package. Main statements: where a report is empty, among all
imports a symbol tells its line, no module of an agent is to bind a name twice, and every module is
the file at its path.
-/

namespace AgentAssembly

open Identifier Package

variable {p : Project} {a b : Agent} {m : AgentModule} {i j : Import}

namespace Import

def packageSymbol (i : Import) : Symbol := ⟨i.symbol, i matches .builtin _⟩

theorem eq_builtin (h : i.packageSymbol.builtin = true) : i = .builtin i.symbol := by
  cases i with
  | builtin symbol => rfl
  | _ => simp [packageSymbol] at h

end Import

def Project.importable (p : Project) : List Import :=
  .agentClass :: .generationTypes :: p.agents.map (·.toImport) ++ p.tools.map (·.toImport)

theorem Tool.packageSymbol_toImport (t : Tool) : t.toImport.packageSymbol = t.packageSymbol := by
  rw [Tool.toImport, Tool.packageSymbol]
  split <;> simp [Import.packageSymbol, Import.symbol]

theorem Agent.packageSymbol_toImport (a : Agent) : a.toImport.packageSymbol = a.packageSymbol := by
  simp [Agent.toImport, Agent.packageSymbol, Import.packageSymbol, Import.symbol]

theorem symbols_perm (p : Project) :
    p.symbols.Perm (⟨"INSTRUCTION", false⟩ :: p.importable.map (·.packageSymbol)) := by
  have htools : (p.tools.map (·.toImport)).map (·.packageSymbol) =
      p.tools.map (·.packageSymbol) := by
    rw [List.map_map]
    exact List.map_congr_left fun t _ => t.packageSymbol_toImport
  have hagents : (p.agents.map (·.toImport)).map (·.packageSymbol) =
      p.agents.map (·.packageSymbol) := by
    rw [List.map_map]
    exact List.map_congr_left fun a _ => a.packageSymbol_toImport
  rw [Project.importable, List.map_append, htools, List.map_cons, List.map_cons, hagents]
  have hreserved : p.symbols = [Symbol.mk "Agent" false, Symbol.mk "types" false] ++
      Symbol.mk "INSTRUCTION" false ::
        (p.agents.map (·.packageSymbol) ++ p.tools.map (·.packageSymbol)) := rfl
  rw [hreserved]
  exact List.perm_middle

instance : Std.Symm Symbol.Compatible where
  symm _ _ h hname := (h hname.symm).symm

namespace Project.WellFormed

theorem compatible (h : p.WellFormed) :
    (Symbol.mk "INSTRUCTION" false :: p.importable.map (·.packageSymbol)).Pairwise
      Symbol.Compatible :=
  (symbols_perm p).pairwise h.symbols fun hxy => Std.Symm.symm _ _ hxy

theorem import_ext (h : p.WellFormed) (hi : i ∈ p.importable) (hj : j ∈ p.importable)
    (hsymbol : i.symbol = j.symbol) : i = j := by
  by_contra hne
  -- Two lines may share a symbol only if both are builtin, and such a line is its symbol.
  have hpairs := List.pairwise_map.mp (List.pairwise_cons.mp h.compatible).2
  obtain ⟨hbi, hbj⟩ := hpairs.forall hi hj hne hsymbol
  rw [Import.eq_builtin hbi, Import.eq_builtin hbj, hsymbol] at hne
  exact hne rfl

theorem symbol_ne_instruction (h : p.WellFormed) (hi : i ∈ p.importable) :
    i.symbol ≠ "INSTRUCTION" := by
  intro hsymbol
  have hall := (List.pairwise_cons.mp h.compatible).1
  have hbuiltin := hall _ (List.mem_map_of_mem hi) hsymbol.symm
  exact absurd hbuiltin.1 (by simp)

theorem isIdentifier_symbol (h : p.WellFormed) (hi : i ∈ p.importable) :
    IsIdentifier i.symbol := by
  have hreserved : ∀ name ∈ ["Agent", "types"], IsIdentifier name := by
    simp only [← isIdentifier_iff]
    decide
  simp only [importable, List.mem_append, List.mem_cons, List.mem_map] at hi
  obtain (rfl | rfl | ⟨b, -, rfl⟩) | ⟨t, ht, rfl⟩ := hi
  · exact hreserved _ (by simp [Import.symbol])
  · exact hreserved _ (by simp [Import.symbol])
  · rw [Agent.toImport, Import.symbol]
    exact isIdentifier_agentVariable b.name
  · by_cases hg : t.isGenerated
    · rw [Tool.toImport, if_pos hg, Import.symbol]
      exact isIdentifier_toolFunction t.name
    · rw [Tool.toImport, if_neg hg, Import.symbol]
      exact h.builtins t ht (Tool.isGenerated_eq_false_iff.mp (by simpa using hg))

end Project.WellFormed

theorem mem_of_map_eq_map_some {α β : Type} {g : α → Option β} {l : List α} {bs : List β}
    (h : l.map g = bs.map some) {b : β} (hb : b ∈ bs) : ∃ a ∈ l, g a = some b := by
  have hmem : some b ∈ l.map g := h ▸ List.mem_map_of_mem hb
  simpa using hmem

theorem AgentModule.symbol_eq (hm : AgentModule.ofAgent p a = .ok m) :
    m.symbol = agentVariable a.name := by
  obtain ⟨tools, subAgents, -, -, rfl⟩ := ofAgent_eq_ok_iff.mp hm
  simp only [ofParts]

theorem AgentModule.mem_imports_cases (hm : AgentModule.ofAgent p a = .ok m)
    (hi : i ∈ m.imports) :
    i = .agentClass ∨ i = .generationTypes ∨ (∃ t ∈ p.tools, i = t.toImport) ∨
      ∃ b ∈ p.agents, b.name ∈ a.subAgents ∧ i = b.toImport := by
  obtain ⟨tools, subAgents, htools, hsubs, rfl⟩ := ofAgent_eq_ok_iff.mp hm
  have htool : ∀ t ∈ tools, t ∈ p.tools := by
    intro t ht
    obtain ⟨name, -, hname⟩ := mem_of_map_eq_map_some htools ht
    exact List.mem_of_find?_eq_some hname
  have hsub : ∀ b ∈ subAgents, b ∈ p.agents ∧ b.name ∈ a.subAgents := by
    intro b hb
    obtain ⟨name, hname, hfind⟩ := mem_of_map_eq_map_some hsubs hb
    obtain ⟨hmem, hborne⟩ := Project.mem_of_agent? hfind
    exact ⟨hmem, hborne ▸ hname⟩
  simp only [ofParts, mem_distinct, List.cons_append, List.mem_cons, List.mem_append,
    List.mem_map, List.mem_filter] at hi
  obtain rfl | ((hgeneration | ⟨t, ⟨ht, -⟩, rfl⟩) | ⟨t, ⟨ht, -⟩, rfl⟩) | ⟨b, hb, rfl⟩ := hi
  · exact .inl rfl
  · split at hgeneration
    · exact .inr (.inl (List.mem_singleton.mp hgeneration))
    · exact absurd hgeneration List.not_mem_nil
  · exact .inr (.inr (.inl ⟨t, htool t ht, rfl⟩))
  · exact .inr (.inr (.inl ⟨t, htool t ht, rfl⟩))
  · exact .inr (.inr (.inr ⟨b, (hsub b hb).1, (hsub b hb).2, rfl⟩))

theorem AgentModule.mem_importable (hm : AgentModule.ofAgent p a = .ok m) (hi : i ∈ m.imports) :
    i ∈ p.importable := by
  rw [Project.importable, List.mem_append, List.mem_cons, List.mem_cons]
  obtain rfl | rfl | ⟨t, ht, rfl⟩ | ⟨b, hb, -, rfl⟩ := mem_imports_cases hm hi
  · exact .inl (.inl rfl)
  · exact .inl (.inr (.inl rfl))
  · exact .inr (List.mem_map_of_mem ht)
  · exact .inl (.inr (.inr (List.mem_map_of_mem hb)))

theorem AgentModule.nodup_imports (hm : AgentModule.ofAgent p a = .ok m) : m.imports.Nodup := by
  obtain ⟨tools, subAgents, -, -, rfl⟩ := ofAgent_eq_ok_iff.mp hm
  exact nodup_distinct _

theorem Project.refers_of_mem (ha : a ∈ p.agents) (hb : b ∈ p.agents)
    (hsub : b.name ∈ a.subAgents) : p.Refers a.name b.name :=
  ⟨⟨a, ha, rfl, hsub⟩, b, hb, rfl⟩

namespace Project.WellFormed

theorem agent_ext (h : p.WellFormed) (ha : a ∈ p.agents) (hb : b ∈ p.agents)
    (hname : moduleName a.name = moduleName b.name) : a = b :=
  List.inj_on_of_nodup_map h.modules ha hb hname

theorem toImport_not_mem (h : p.WellFormed) (ha : a ∈ p.agents)
    (hm : AgentModule.ofAgent p a = .ok m) : a.toImport ∉ m.imports := by
  intro hi
  obtain hi | hi | ⟨t, -, hi⟩ | ⟨b, hb, hsub, hi⟩ := AgentModule.mem_imports_cases hm hi
  · simp [Agent.toImport] at hi
  · simp [Agent.toImport] at hi
  · rw [Agent.toImport, Tool.toImport] at hi
    split at hi <;> simp at hi
  · have hname : moduleName a.name = moduleName b.name := by
      simp only [Agent.toImport, Import.subAgent.injEq] at hi
      exact hi.1
    obtain rfl := h.agent_ext ha hb hname
    exact h.acyclic a.name (.single (refers_of_mem ha ha hsub))

theorem nodup_bound (h : p.WellFormed) (ha : a ∈ p.agents)
    (hm : AgentModule.ofAgent p a = .ok m) :
    (m.imports.map (·.symbol) ++ ["INSTRUCTION", m.symbol]).Nodup := by
  have hown : a.toImport ∈ p.importable := by
    rw [importable, List.mem_append, List.mem_cons, List.mem_cons]
    exact .inl (.inr (.inr (List.mem_map_of_mem ha)))
  have hsymbol : m.symbol = a.toImport.symbol := by
    rw [AgentModule.symbol_eq hm, Agent.toImport, Import.symbol]
  have hfamily : ∀ i ∈ m.imports, i ∈ p.importable := fun _ => AgentModule.mem_importable hm
  have hsymbols : (m.imports.map (·.symbol)).Nodup :=
    (AgentModule.nodup_imports hm).map_on fun i hi j hj =>
      h.import_ext (hfamily i hi) (hfamily j hj)
  rw [hsymbol, List.nodup_append]
  refine ⟨hsymbols, ?_, ?_⟩
  · simpa using (h.symbol_ne_instruction hown).symm
  · intro name hname other hother hsame
    subst hsame
    obtain ⟨i, hi, rfl⟩ := List.mem_map.mp hname
    obtain hother | hother := List.mem_pair.mp hother
    · exact h.symbol_ne_instruction (hfamily i hi) hother
    · have hsame : i = a.toImport := h.import_ext (hfamily i hi) hown hother
      exact h.toImport_not_mem ha hm (hsame ▸ hi)

theorem exists_ofAgent (h : p.WellFormed) (ha : a ∈ p.agents) :
    ∃ m, AgentModule.ofAgent p a = .ok m := by
  cases hm : AgentModule.ofAgent p a with
  | ok m => exact ⟨m, rfl⟩
  | error fault =>
    obtain ⟨name, hname, hnone⟩ | ⟨name, hname, hnone⟩ :=
      AgentModule.exists_ofAgent_error_iff.mp ⟨fault, hm⟩
    · have hborne := hasTool_iff.mpr (h.tools a ha name hname)
      rw [hasTool_eq_false_iff.mpr hnone] at hborne
      cases hborne
    · have hborne := hasAgent_iff.mpr (h.subAgents a ha name hname)
      rw [hasAgent_eq_false_iff.mpr hnone] at hborne
      cases hborne

end Project.WellFormed

section files

variable {entries : List (String × String)}

theorem Package.mem_agentFiles_iff {files : List (String × String)} (h : agentFiles p = .ok files)
    {e : String × String} :
    e ∈ files ↔
      ∃ a ∈ p.agents, ∃ m, AgentModule.ofAgent p a = .ok m ∧ (agentPath a, m.text) = e := by
  rw [agentFiles, mapM_eq_ok_iff] at h
  have hmem : e ∈ files ↔ (.ok e : Except RenderFault (String × String)) ∈ files.map .ok := by simp
  rw [hmem, ← h, List.mem_map]
  simp only [map_eq_ok_iff]

theorem Package.Inserts.get?_agentPath (hentries : Inserts p entries) (h : p.WellFormed)
    (ha : a ∈ p.agents) (hm : AgentModule.ofAgent p a = .ok m) :
    (Dict.ofList entries).get? (agentPath a) = some m.text := by
  refine get?_of_inserts h hentries ?_
  obtain ⟨agents, root, hagents, -, rfl⟩ := hentries
  have hfile := (mem_agentFiles_iff hagents).mpr ⟨a, ha, m, hm, rfl⟩
  exact List.mem_append_left _ (List.mem_append_left _ hfile)

theorem Package.Inserts.get?_toolPath (hentries : Inserts p entries) (h : p.WellFormed) {t : Tool}
    (ht : t ∈ p.generatedTools) :
    (Dict.ofList entries).get? (toolPath t) = some (ToolModule.text t) := by
  refine get?_of_inserts h hentries ?_
  obtain ⟨agents, root, -, -, rfl⟩ := hentries
  exact List.mem_append_left _ (List.mem_append_right _ (List.mem_map.mpr ⟨t, ht, rfl⟩))

theorem Package.Inserts.get?_entryPoint (hentries : Inserts p entries) (h : p.WellFormed)
    {root : Agent} (hroot : EntryPoint.root? p = some root) :
    (Dict.ofList entries).get? "agent.py" = some (EntryPoint.ofProject p root).text := by
  refine get?_of_inserts h hentries ?_
  obtain ⟨agents, root', -, hroot', rfl⟩ := hentries
  obtain rfl : root = root' := Option.some.inj (hroot.symm.trans hroot')
  exact List.mem_append_right _ (by simp [frameFiles])

end files

namespace EntryPoint

theorem rootName?_of_root? {root : Agent} (hroot : root? p = some root) :
    p.rootName? = some root.name ∧ p.agent? root.name = some root := by
  obtain ⟨name, hname, hfind⟩ := Option.bind_eq_some_iff.mp hroot
  obtain rfl := (Project.mem_of_agent? hfind).2
  exact ⟨hname, hfind⟩

theorem nodup_imports (h : p.WellFormed) : (p.agents.map (·.toEntryImport)).Nodup := by
  refine (List.Nodup.of_map _ h.modules).map_on fun a ha b hb heq => ?_
  simp only [Agent.toEntryImport, Import.agent.injEq] at heq
  exact h.agent_ext ha hb heq.1

end EntryPoint

theorem Agent.mem_generationArguments {argument : String} {c : Char}
    (h : argument ∈ a.generationArguments) (hc : c ∈ argument.toList) :
    isPart c = true ∨ c = '=' ∨ c = '.' ∨ c = '-' := by
  have hlabel : ∀ label ∈ ["temperature=", "max_output_tokens="], ∀ c ∈ label.toList,
      isPart c = true ∨ c = '=' := by
    simp [isPart]
  rw [generationArguments, List.mem_append, Option.mem_toList, Option.mem_toList,
    Option.map_eq_some_iff, Option.map_eq_some_iff] at h
  obtain ⟨t, -, rfl⟩ | ⟨n, -, rfl⟩ := h
  · obtain hc | hc := List.mem_append.mp (String.toList_append ▸ hc)
    · exact (hlabel _ (by simp) c hc).imp_right .inl
    · obtain hpart | hrest := Double.mem_plainText hc
      · exact .inl (by simp [isPart, hpart])
      · exact .inr (.inr hrest)
  · obtain hc | hc := List.mem_append.mp (String.toList_append ▸ hc)
    · exact (hlabel _ (by simp) c hc).imp_right .inl
    · rw [Nat.toString_eq_ofList_toDigits, String.toList_ofList] at hc
      have hdigit := Nat.isDigit_of_mem_toDigits (by decide) (by decide) hc
      exact .inl (by simp [isPart, Char.isAlphanum, hdigit])

namespace AgentModule

theorem isIdentifier_of_mem_tools (h : p.WellFormed) (hm : ofAgent p a = .ok m) {n : String}
    (hn : n ∈ m.tools) : IsIdentifier n := by
  obtain ⟨tools, subAgents, htools, -, rfl⟩ := ofAgent_eq_ok_iff.mp hm
  simp only [ofParts, mem_distinct, List.mem_map] at hn
  obtain ⟨t, ht, rfl⟩ := hn
  obtain ⟨name, -, hname⟩ := mem_of_map_eq_map_some htools ht
  have hmem : t ∈ p.tools := List.mem_of_find?_eq_some hname
  exact h.isIdentifier_symbol (List.mem_append_right _ (List.mem_map_of_mem hmem))

theorem map_name_of_lookup {names : List String} {agents : List Agent}
    (h : names.map p.agent? = agents.map some) : agents.map (·.name) = names := by
  induction names generalizing agents with
  | nil => cases agents with
    | nil => rfl
    | cons b rest => cases h
  | cons name names ih => cases agents with
    | nil => cases h
    | cons b rest =>
      obtain ⟨hb, hrest⟩ := List.cons_eq_cons.mp h
      rw [List.map_cons, (Project.mem_of_agent? hb).2, ih hrest]

theorem subAgents_eq (hm : ofAgent p a = .ok m) : m.subAgents = a.subAgents.map agentVariable := by
  obtain ⟨tools, subAgents, -, hsubs, rfl⟩ := ofAgent_eq_ok_iff.mp hm
  simp only [ofParts, ← map_name_of_lookup hsubs, List.map_map, Function.comp_def]

end AgentModule
end AgentAssembly

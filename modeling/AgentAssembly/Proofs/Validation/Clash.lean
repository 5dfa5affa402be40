import Mathlib.Data.List.FinRange
import AgentAssembly.Proofs.Validation.Collision
import AgentAssembly.Proofs.Validation.Report

/-!
What a collision says. Main statement: each agent and each tool makes at most one finding, which
names an identifier it derives and the first who derived it before.
-/

namespace AgentAssembly.Collision

open Identifier

variable {α : Type}

def IsFirst (table : List (String × α)) (key : String) (a : α) : Prop :=
  ∃ earlier later, table = earlier ++ (key, a) :: later ∧ key ∉ earlier.map (·.1)

theorem isFirst_iff {table : List (String × α)} {key : String} {a : α} :
    IsFirst table key a ↔ table.lookup key = some a := by
  have hkeys : ∀ earlier : List (String × α),
      (∀ e ∈ earlier, (key != e.1) = true) ↔ key ∉ earlier.map (·.1) := by
    intro earlier
    simpa using ⟨fun h b hmem => h key b hmem rfl, fun h k b hmem he => h b (he ▸ hmem)⟩
  rw [IsFirst, List.lookup_eq_some_iff]
  simp only [hkeys]

def moduleOwners (agents : List Agent) : List (String × String) :=
  agents.map fun a => (moduleName a.name, agentOwner a)

def toolHolder? (t : Tool) : Option (String × Holder) :=
  (toolSymbol? t).map (·, ⟨toolOwner t, !t.isGenerated⟩)

/-- The symbols and who has them: the reserved names, agents and tools in this order. -/
def symbolHolders (agents : List Agent) (tools : List Tool) : Symbols :=
  reserved ++ agents.map (fun a => (agentVariable a.name, ⟨agentOwner a, false⟩)) ++
    tools.filterMap toolHolder?

def agentClash? (before : List Agent) (a : Agent) : Option Finding :=
  match (moduleOwners before).lookup (moduleName a.name) with
  | some first => some (.identifierCollision (moduleName a.name) first (agentOwner a))
  | none =>
    ((symbolHolders before []).lookup (agentVariable a.name)).map fun holder =>
      .identifierCollision (agentVariable a.name) holder.owner (agentOwner a)

def toolClash? (agents : List Agent) (before : List Tool) (t : Tool) : Option Finding :=
  (toolSymbol? t).bind fun symbol =>
    ((symbolHolders agents before).lookup symbol).bind fun holder =>
      if holder.builtin && !t.isGenerated then none
      else some (.identifierCollision symbol holder.owner (toolOwner t))

def scan (clash? : List α → α → Option Finding) (before : List α) : List α → List Finding
  | [] => []
  | a :: rest => (clash? before a).toList ++ scan clash? (before ++ [a]) rest

theorem scan_eq (clash? : List α → α → Option Finding) (before l : List α) :
    scan clash? before l =
      (List.finRange l.length).filterMap fun i : Fin l.length =>
        clash? (before ++ l.take i) l[i] := by
  induction l generalizing before with
  | nil => rfl
  | cons a rest ih =>
    have htail : ∀ i : Fin rest.length,
        clash? (before ++ (a :: rest).take i.succ) (a :: rest)[i.succ] =
          clash? (before ++ [a] ++ rest.take i) rest[i] := by
      intro i
      simp
    rw [scan, ih]
    simp only [List.length_cons, List.finRange_succ, List.filterMap_cons, List.filterMap_map,
      Function.comp_def, htail]
    cases h : clash? before a <;> simp [h]

section tables

variable {t u : List (String × α)} {k : String} {a b : α}

def Agree (t u : List (String × α)) : Prop := ∀ key, t.lookup key = u.lookup key

theorem Agree.add (h : Agree t u) (hk : t.lookup k = none) :
    Agree ((k, a) :: t) (u ++ [(k, a)]) := by
  intro key
  rw [List.lookup_append, ← h key, List.lookup_cons, List.lookup_cons]
  by_cases hkey : key = k
  · simp [hkey, hk]
  · have hne : (key == k) = false := by simpa using hkey
    simp [hne]

theorem Agree.repeat (h : Agree t u) (hk : t.lookup k = some b) : Agree t (u ++ [(k, a)]) := by
  intro key
  rw [List.lookup_append, ← h key, List.lookup_cons]
  by_cases hkey : key = k
  · simp [hkey, hk]
  · have hne : (key == k) = false := by simpa using hkey
    simp [hne]

end tables

theorem moduleOwners_concat (before : List Agent) (a : Agent) :
    moduleOwners (before ++ [a]) = moduleOwners before ++ [(moduleName a.name, agentOwner a)] := by
  simp [moduleOwners]

theorem symbolHolders_concat_agent (before : List Agent) (a : Agent) :
    symbolHolders (before ++ [a]) [] =
      symbolHolders before [] ++ [(agentVariable a.name, ⟨agentOwner a, false⟩)] := by
  simp [symbolHolders]

theorem symbolHolders_concat_tool (agents : List Agent) (before : List Tool) (t : Tool) :
    symbolHolders agents (before ++ [t]) =
      symbolHolders agents before ++ (toolHolder? t).toList := by
  cases h : toolHolder? t <;> simp [symbolHolders, List.filterMap_append, h]

theorem agentVariable_congr {a b : String} (h : moduleName a = moduleName b) :
    agentVariable a = agentVariable b := by
  rw [agentVariable, agentVariable, h]

theorem lookup_moduleOwners_isSome_iff {before : List Agent} {key : String} :
    ((moduleOwners before).lookup key).isSome ↔ ∃ b ∈ before, moduleName b.name = key := by
  rw [← Option.ne_none_iff_isSome, Ne, lookup_eq_none_iff_keys, not_not]
  simp [moduleOwners]

theorem lookup_agentSymbols_isSome_iff {before : List Agent} {key : String} :
    ((symbolHolders before []).lookup key).isSome ↔
      key ∈ reservedNames ∨ ∃ b ∈ before, agentVariable b.name = key := by
  rw [← Option.ne_none_iff_isSome, Ne, lookup_eq_none_iff_keys, not_not]
  simp [symbolHolders, reserved]

/-- Agents of one module have one variable, so nothing is lost where the variable of an agent is
not looked at. -/
theorem exists_holder_of_module_taken {before : List Agent} {name first : String}
    (h : (moduleOwners before).lookup (moduleName name) = some first) :
    ∃ holder, (symbolHolders before []).lookup (agentVariable name) = some holder := by
  obtain ⟨b, hb, hmodule⟩ := lookup_moduleOwners_isSome_iff.mp (Option.isSome_of_eq_some h)
  refine Option.isSome_iff_exists.mp (lookup_agentSymbols_isSome_iff.mpr (.inr ⟨b, hb, ?_⟩))
  exact agentVariable_congr hmodule

theorem ofAgents_eq {modules : List (String × String)} {symbols : Symbols} {before : List Agent}
    (hmodules : Agree modules (moduleOwners before))
    (hsymbols : Agree symbols (symbolHolders before [])) (agents : List Agent) :
    (ofAgents modules symbols agents).1 = scan agentClash? before agents ∧
      Agree (ofAgents modules symbols agents).2 (symbolHolders (before ++ agents) []) := by
  induction agents generalizing modules symbols before with
  | nil => exact ⟨rfl, by simpa [ofAgents] using hsymbols⟩
  | cons a rest ih =>
    have hsplit : before ++ a :: rest = before ++ [a] ++ rest := by simp
    rw [ofAgents, scan, agentClash?, ← hmodules, ← hsymbols, hsplit]
    cases hm : modules.lookup (moduleName a.name) with
    | some first =>
      obtain ⟨holder, hholder⟩ :=
        exists_holder_of_module_taken ((hmodules _).symm.trans hm)
      have h := @ih modules symbols (before ++ [a])
        (moduleOwners_concat before a ▸ hmodules.repeat hm)
        (symbolHolders_concat_agent before a ▸ hsymbols.repeat ((hsymbols _).trans hholder))
      exact ⟨by simp [h.1], h.2⟩
    | none =>
      have hmodules := moduleOwners_concat before a ▸ hmodules.add (a := agentOwner a) hm
      cases hs : symbols.lookup (agentVariable a.name) with
      | some holder =>
        have h := ih hmodules (symbolHolders_concat_agent before a ▸ hsymbols.repeat hs)
        exact ⟨by simp [h.1], h.2⟩
      | none =>
        have h := ih hmodules (symbolHolders_concat_agent before a ▸ hsymbols.add hs)
        exact ⟨by simp [h.1], h.2⟩

/-- The table of the pass over tools answers as that of all definitions before. -/
theorem ofTools_eq {symbols : Symbols} {agents : List Agent} {before : List Tool}
    (hsymbols : Agree symbols (symbolHolders agents before)) (tools : List Tool) :
    ofTools symbols tools = scan (toolClash? agents) before tools := by
  induction tools generalizing symbols before with
  | nil => rfl
  | cons t rest ih =>
    have hconcat := symbolHolders_concat_tool agents before t
    rw [ofTools, scan, toolClash?]
    cases ht : toolSymbol? t with
    | none =>
      have hentry : toolHolder? t = none := by simp [toolHolder?, ht]
      rw [hentry, Option.toList_none, List.append_nil] at hconcat
      simpa using ih (hconcat ▸ hsymbols)
    | some symbol =>
      have hentry : toolHolder? t = some (symbol, ⟨toolOwner t, !t.isGenerated⟩) := by
        simp [toolHolder?, ht]
      rw [hentry, Option.toList_some] at hconcat
      simp only [Option.bind_some, ← hsymbols symbol]
      cases hs : symbols.lookup symbol with
      | none => simpa using ih (hconcat ▸ hsymbols.add hs)
      | some holder =>
        have hrest := ih (hconcat ▸ hsymbols.repeat hs)
        simp only [Option.bind_some]
        by_cases hshared : (holder.builtin && !t.isGenerated) = true
        · rw [if_pos hshared, if_pos hshared, hrest, Option.toList_none, List.nil_append]
        · rw [if_neg hshared, if_neg hshared, hrest, Option.toList_some, List.singleton_append]

theorem findings_eq_scan (p : Project) :
    findings p = scan agentClash? [] p.agents ++ scan (toolClash? p.agents) [] p.tools := by
  have hmodules : Agree [] (moduleOwners []) := fun _ => rfl
  have hreserved : Agree reserved (symbolHolders [] []) := fun _ => by simp [symbolHolders]
  obtain ⟨hagents, hsymbols⟩ := ofAgents_eq hmodules hreserved p.agents
  have htools := ofTools_eq (by simpa using hsymbols) p.tools
  rw [← hagents, ← htools]
  rfl

/-- The finding tells what an agent derives, and who is the first of those before to derive it. -/
def TellsAgentClash (before : List Agent) (a : Agent) (f : Finding) : Prop :=
  (∃ first, IsFirst (moduleOwners before) (moduleName a.name) first ∧
    f = .identifierCollision (moduleName a.name) first (agentOwner a)) ∨
  ∃ holder, IsFirst (symbolHolders before []) (agentVariable a.name) holder ∧
    f = .identifierCollision (agentVariable a.name) holder.owner (agentOwner a)

/-- The finding tells what a tool derives, and who is the first of those before to derive it; they
are not both builtin. -/
def TellsToolClash (agents : List Agent) (before : List Tool) (t : Tool) (f : Finding) : Prop :=
  ∃ symbol holder, toolSymbol? t = some symbol ∧
    IsFirst (symbolHolders agents before) symbol holder ∧
    ¬ (holder.builtin = true ∧ t.isGenerated = false) ∧
    f = .identifierCollision symbol holder.owner (toolOwner t)

theorem tellsAgentClash {before : List Agent} {a : Agent} {f : Finding}
    (h : agentClash? before a = some f) : TellsAgentClash before a f := by
  rw [agentClash?] at h
  cases hm : (moduleOwners before).lookup (moduleName a.name) with
  | some first =>
    obtain rfl : _ = f := by simpa [hm] using h
    exact .inl ⟨first, isFirst_iff.mpr hm, rfl⟩
  | none =>
    obtain ⟨holder, hholder, rfl⟩ := by simpa [hm] using h
    exact .inr ⟨holder, isFirst_iff.mpr hholder, rfl⟩

theorem agentClash?_isSome_iff {before : List Agent} {a : Agent} :
    (agentClash? before a).isSome ↔
      (∃ b ∈ before, moduleName b.name = moduleName a.name) ∨
      agentVariable a.name ∈ reservedNames ∨
      ∃ b ∈ before, agentVariable b.name = agentVariable a.name := by
  rw [← lookup_moduleOwners_isSome_iff, ← lookup_agentSymbols_isSome_iff, agentClash?]
  cases (moduleOwners before).lookup (moduleName a.name) <;> simp

theorem toolClash?_eq_some_iff {agents : List Agent} {before : List Tool} {t : Tool}
    {f : Finding} : toolClash? agents before t = some f ↔ TellsToolClash agents before t f := by
  simp only [toolClash?, TellsToolClash, isFirst_iff, Option.bind_eq_some_iff]
  constructor
  · intro h
    obtain ⟨symbol, hsymbol, holder, hholder, hf⟩ := h
    by_cases hshared : (holder.builtin && !t.isGenerated) = true
    · simp [hshared] at hf
    · rw [if_neg hshared, Option.some.injEq] at hf
      exact ⟨symbol, holder, hsymbol, hholder, by simpa using hshared, hf.symm⟩
  · intro h
    obtain ⟨symbol, holder, hsymbol, hholder, hshared, rfl⟩ := h
    refine ⟨symbol, hsymbol, holder, hholder, if_neg ?_⟩
    simpa using hshared

end AgentAssembly.Collision

namespace AgentAssembly.Project

open Collision Identifier

def agentClash? (p : Project) (i : Fin p.agents.length) : Option Finding :=
  Collision.agentClash? (p.agents.take i) p.agents[i]

/-- What is found of the tool at a place, after all agents and the tools before it. -/
def toolClash? (p : Project) (i : Fin p.tools.length) : Option Finding :=
  Collision.toolClash? p.agents (p.tools.take i) p.tools[i]

/-- Every place makes at most one finding of a collision. It names an identifier that is derived
at the place, with the first who derives it before, and agents make one exactly when there is
such a clash. -/
theorem collisions_exact (p : Project) :
    p.validate.findings.filter (·.kind == "identifier_collision") =
      (List.finRange p.agents.length).filterMap p.agentClash? ++
        (List.finRange p.tools.length).filterMap p.toolClash? ∧
    (∀ i f, p.agentClash? i = some f → TellsAgentClash (p.agents.take i) p.agents[i] f) ∧
    (∀ i f, p.toolClash? i = some f ↔
      TellsToolClash p.agents (p.tools.take i) p.tools[i] f) ∧
    ∀ i, (p.agentClash? i).isSome ↔
      (∃ b ∈ p.agents.take i, moduleName b.name = moduleName p.agents[i].name) ∨
      agentVariable p.agents[i].name ∈ reservedNames ∨
      ∃ b ∈ p.agents.take i, agentVariable b.name = agentVariable p.agents[i].name := by
  refine ⟨?_, fun i f => tellsAgentClash, fun i f => toolClash?_eq_some_iff,
    fun i => agentClash?_isSome_iff⟩
  have hcheck : ("identifier_collision", Collision.findings p) ∈ Validation.checks p := by
    simp [Validation.checks]
  rw [Validation.filter_findings_validate hcheck, findings_eq_scan, scan_eq, scan_eq]
  rfl

/-- Two agents of one module, an agent whose variable is taken, and tools that want the symbol of
an agent or of the package. -/
def crowdedProject : Project where
  id := ⟨0⟩
  name := "Crowded"
  agents :=
    [{ name := "helper", model := "m" }, { name := "Helper", model := "m" },
     { name := "helper agent", model := "m" }]
  tools := [{ name := "helper_agent", code := "return 1" }, { name := "types", kind := .builtin }]
  createdAt := ⟨0⟩
  updatedAt := ⟨0⟩

theorem collisions_exact_crowdedProject :
    crowdedProject.agentClash? ⟨1, by decide⟩ =
      some (.identifierCollision "helper" "agent 'helper'" "agent 'Helper'") ∧
    crowdedProject.toolClash? ⟨1, by decide⟩ =
      some (.identifierCollision "types" "the reserved name 'types'" "tool 'types'") ∧
    TellsAgentClash [{ name := "helper", model := "m" }] { name := "Helper", model := "m" }
      (.identifierCollision "helper" "agent 'helper'" "agent 'Helper'") ∧
    TellsToolClash crowdedProject.agents [{ name := "helper_agent", code := "return 1" }]
      { name := "types", kind := .builtin }
      (.identifierCollision "types" "the reserved name 'types'" "tool 'types'") := by
  have hagent : crowdedProject.agentClash? ⟨1, by decide⟩ =
      some (.identifierCollision "helper" "agent 'helper'" "agent 'Helper'") := by decide
  have htool : crowdedProject.toolClash? ⟨1, by decide⟩ =
      some (.identifierCollision "types" "the reserved name 'types'" "tool 'types'") := by decide
  exact ⟨hagent, htool, (collisions_exact crowdedProject).2.1 ⟨1, by decide⟩ _ hagent,
    ((collisions_exact crowdedProject).2.2.1 ⟨1, by decide⟩ _).mp htool⟩

end AgentAssembly.Project

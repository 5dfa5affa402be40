import AgentAssembly.Proofs.Collections
import AgentAssembly.Validation

/-!
The namespaces of a package. Main statement: there is no collision exactly when the modules of the
agents are distinct and symbols of one name are all builtin.
-/

namespace AgentAssembly

open Identifier

def Novel (taken keys : List String) : Prop := keys.Nodup ∧ ∀ k ∈ keys, k ∉ taken

@[simp] theorem novel_nil (taken : List String) : Novel taken [] := by simp [Novel]

theorem novel_cons {taken keys : List String} {k : String} :
    Novel taken (k :: keys) ↔ k ∉ taken ∧ Novel (k :: taken) keys := by
  rw [Novel, Novel, List.nodup_cons, List.forall_mem_cons]
  constructor
  · intro h
    obtain ⟨⟨hk, hnodup⟩, htaken, hkeys⟩ := h
    refine ⟨htaken, hnodup, fun x hx => ?_⟩
    have hxk : x ≠ k := fun he => hk (he ▸ hx)
    simp [hxk, hkeys x hx]
  · intro h
    obtain ⟨htaken, hnodup, hkeys⟩ := h
    refine ⟨⟨fun hk => hkeys k hk List.mem_cons_self, hnodup⟩, htaken, fun x hx hmem => ?_⟩
    exact hkeys x hx (List.mem_cons_of_mem k hmem)

@[simp] theorem novel_empty {keys : List String} : Novel [] keys ↔ keys.Nodup := by simp [Novel]

structure Symbol where
  name : String
  builtin : Bool
deriving DecidableEq, Repr

def Symbol.Compatible (x y : Symbol) : Prop := x.name = y.name → x.builtin ∧ y.builtin

def Agent.packageSymbol (a : Agent) : Symbol := ⟨agentVariable a.name, false⟩

/-- The function of a generated tool, or the symbol that a builtin tool stands for. -/
def Tool.packageSymbol (t : Tool) : Symbol :=
  if t.isGenerated then ⟨toolFunction t.name, false⟩ else ⟨t.builtinReference, true⟩

def reservedSymbols : List Symbol := Collision.reservedNames.map (⟨·, false⟩)

def Project.symbols (p : Project) : List Symbol :=
  reservedSymbols ++ p.agents.map (·.packageSymbol) ++ p.tools.map (·.packageSymbol)

namespace Collision

variable {modules : List (String × String)} {symbols : Symbols} {agents : List Agent}
  {tools : List Tool}

theorem ofAgents_eq_nil_iff :
    (ofAgents modules symbols agents).1 = [] ↔
      Novel (modules.map (·.1)) (agents.map (moduleName ·.name)) ∧
      Novel (symbols.map (·.1)) (agents.map (agentVariable ·.name)) := by
  induction agents generalizing modules symbols with
  | nil => simp [ofAgents]
  | cons a rest ih =>
    rw [ofAgents, List.map_cons, List.map_cons, novel_cons, novel_cons]
    rw [← lookup_eq_none_iff_keys, ← lookup_eq_none_iff_keys]
    cases hm : modules.lookup (moduleName a.name) with
    | some first => simp
    | none =>
      cases hs : symbols.lookup (agentVariable a.name) with
      | some holder => simp
      | none => simp [ih]

theorem ofAgents_symbols (h : (ofAgents modules symbols agents).1 = []) :
    (ofAgents modules symbols agents).2 =
      (agents.map fun a => (agentVariable a.name, ⟨agentOwner a, false⟩)).reverse ++ symbols := by
  induction agents generalizing modules symbols with
  | nil => rfl
  | cons a rest ih =>
    rw [ofAgents] at h ⊢
    cases hm : modules.lookup (moduleName a.name) with
    | some first => simp [hm] at h
    | none =>
      cases hs : symbols.lookup (agentVariable a.name) with
      | some holder => simp [hm, hs] at h
      | none =>
        simp only [hm, hs] at h ⊢
        simpa using ih h

def Admits (symbols : Symbols) (x : Symbol) : Prop :=
  ∀ holder, symbols.lookup x.name = some holder → holder.builtin ∧ x.builtin

theorem toolSymbol?_eq {t : Tool} (h : t.isGenerated ∨ isIdentifier t.builtinReference) :
    toolSymbol? t = some t.packageSymbol.name := by
  rw [toolSymbol?, Tool.packageSymbol]
  cases hg : t.isGenerated with
  | true => simp
  | false => simpa [hg] using h

theorem packageSymbol_builtin (t : Tool) : t.packageSymbol.builtin = !t.isGenerated := by
  rw [Tool.packageSymbol]
  cases t.isGenerated <;> simp

theorem admits_iff {x : Symbol} {holder : Holder} (h : symbols.lookup x.name = some holder) :
    Admits symbols x ↔ holder.builtin ∧ x.builtin := by
  simp [Admits, h]

theorem admits_of_lookup_none {x : Symbol} (h : symbols.lookup x.name = none) :
    Admits symbols x := by
  simp [Admits, h]

theorem admits_cons {x y : Symbol} {owner : String} (h : symbols.lookup x.name = none) :
    Admits ((x.name, ⟨owner, x.builtin⟩) :: symbols) y ↔ Admits symbols y ∧ x.Compatible y := by
  by_cases hxy : x.name = y.name
  · have hy : Admits symbols y := admits_of_lookup_none (hxy ▸ h)
    simp [Admits, Symbol.Compatible, ← hxy, h]
  · have hyx : (y.name == x.name) = false := by simpa using Ne.symm hxy
    simp [Admits, Symbol.Compatible, List.lookup_cons, hyx, hxy]

theorem ofTools_eq_nil_iff
    (hid : ∀ t ∈ tools, t.isGenerated ∨ isIdentifier t.builtinReference) :
    ofTools symbols tools = [] ↔
      (∀ t ∈ tools, Admits symbols t.packageSymbol) ∧
      (tools.map (·.packageSymbol)).Pairwise Symbol.Compatible := by
  induction tools generalizing symbols with
  | nil => simp [ofTools]
  | cons t rest ih =>
    have ih := fun symbols => @ih symbols fun u hu => hid u (List.mem_cons_of_mem t hu)
    rw [List.map_cons, List.pairwise_cons, List.forall_mem_cons, List.forall_mem_map, ofTools,
      toolSymbol?_eq (hid t List.mem_cons_self)]
    simp only [← packageSymbol_builtin]
    cases hs : symbols.lookup t.packageSymbol.name with
    | none =>
      simp only [ih, admits_cons hs, forall_and, admits_of_lookup_none hs, true_and, and_assoc]
    | some holder =>
      have hcompatible : ∀ u ∈ rest, Admits symbols u.packageSymbol →
          holder.builtin ∧ t.packageSymbol.builtin →
          t.packageSymbol.Compatible u.packageSymbol := by
        intro u _ hu ht hname
        exact ⟨ht.2, (hu holder (hname ▸ hs)).2⟩
      simp only [admits_iff hs]
      by_cases hb : holder.builtin ∧ t.packageSymbol.builtin
      · rw [if_pos (by simpa using hb), ih]
        constructor
        · intro h
          obtain ⟨hrest, hpairs⟩ := h
          exact ⟨⟨hb, hrest⟩, fun u hu => hcompatible u hu (hrest u hu) hb, hpairs⟩
        · intro h
          obtain ⟨⟨-, hrest⟩, -, hpairs⟩ := h
          exact ⟨hrest, hpairs⟩
      · have hnot : ¬ (holder.builtin && t.packageSymbol.builtin) = true := by simpa using hb
        simp only [if_neg hnot, List.cons_ne_nil, hb, false_and]

theorem admits_iff_not_mem (h : ∀ e ∈ symbols, e.2.builtin = false) {x : Symbol} :
    Admits symbols x ↔ x.name ∉ symbols.map (·.1) := by
  rw [← lookup_eq_none_iff_keys]
  cases hs : symbols.lookup x.name with
  | none => simp [admits_of_lookup_none hs]
  | some holder =>
    obtain ⟨before, after, hsplit, -⟩ := List.lookup_eq_some_iff.mp hs
    have hb : holder.builtin = false := h (x.name, holder) (by simp [hsplit])
    simp [admits_iff hs, hb]

theorem pairwise_compatible_iff {xs : List Symbol} (h : ∀ x ∈ xs, x.builtin = false) :
    xs.Pairwise Symbol.Compatible ↔ (xs.map (·.name)).Nodup := by
  rw [List.Nodup, List.pairwise_map]
  refine List.Pairwise.iff_of_mem fun {x y} hx _ => ?_
  simp [Symbol.Compatible, h x hx]

theorem forall_compatible_iff {xs : List Symbol} (h : ∀ x ∈ xs, x.builtin = false) {y : Symbol} :
    (∀ x ∈ xs, x.Compatible y) ↔ y.name ∉ xs.map (·.name) := by
  rw [List.mem_map]
  constructor
  · intro hall hmem
    obtain ⟨x, hx, hname⟩ := hmem
    simpa [h x hx] using (hall x hx hname).1
  · intro hnot x hx hname
    exact absurd ⟨x, hx, hname⟩ hnot

def ownSymbols (agents : List Agent) : List Symbol :=
  reservedSymbols ++ agents.map (·.packageSymbol)

theorem builtin_of_mem_ownSymbols {x : Symbol} (h : x ∈ ownSymbols agents) : x.builtin = false := by
  simp only [ownSymbols, reservedSymbols, List.mem_append, List.mem_map] at h
  obtain ⟨name, -, rfl⟩ | ⟨a, -, rfl⟩ := h <;> rfl

theorem nodup_ownSymbols_iff :
    ((ownSymbols agents).map (·.name)).Nodup ↔
      Novel (reserved.map (·.1)) (agents.map (agentVariable ·.name)) := by
  have hnames : (ownSymbols agents).map (·.name) =
      reserved.map (·.1) ++ agents.map (agentVariable ·.name) := by
    simp [ownSymbols, reservedSymbols, reserved, Agent.packageSymbol, Function.comp_def]
  have hreserved : (reserved.map (·.1)).Nodup := by decide
  rw [hnames, List.nodup_append, Novel]
  constructor
  · intro h
    obtain ⟨-, hvariables, hapart⟩ := h
    exact ⟨hvariables, fun k hk hmem => hapart k hmem k hk rfl⟩
  · intro h
    obtain ⟨hvariables, hfresh⟩ := h
    exact ⟨hreserved, hvariables, fun k hk v hv he => hfresh v hv (he ▸ hk)⟩

/-- After agents that collide with nothing the table holds all symbols that are no tools'. -/
theorem admits_after_agents (h : (ofAgents [] reserved agents).1 = []) {y : Symbol} :
    Admits (ofAgents [] reserved agents).2 y ↔ ∀ x ∈ ownSymbols agents, x.Compatible y := by
  rw [forall_compatible_iff fun x => builtin_of_mem_ownSymbols, ofAgents_symbols h,
    admits_iff_not_mem]
  · simp [ownSymbols, reservedSymbols, reserved, Agent.packageSymbol, or_comm]
  · intro e he
    simp only [reserved, List.mem_append, List.mem_reverse, List.mem_map] at he
    obtain ⟨a, -, rfl⟩ | ⟨name, -, rfl⟩ := he <;> rfl

theorem findings_eq_nil_iff {p : Project}
    (hid : ∀ t ∈ p.tools, t.isGenerated ∨ isIdentifier t.builtinReference) :
    findings p = [] ↔
      (p.agents.map (moduleName ·.name)).Nodup ∧ p.symbols.Pairwise Symbol.Compatible := by
  have hfindings : findings p = (ofAgents [] reserved p.agents).1 ++
      ofTools (ofAgents [] reserved p.agents).2 p.tools := rfl
  have hsymbols : p.symbols = ownSymbols p.agents ++ p.tools.map (·.packageSymbol) := rfl
  rw [hfindings, hsymbols, List.append_eq_nil_iff, ofTools_eq_nil_iff hid, List.pairwise_append,
    pairwise_compatible_iff fun x => builtin_of_mem_ownSymbols, nodup_ownSymbols_iff]
  constructor
  · intro h
    obtain ⟨ha, hadmits, htools⟩ := h
    obtain ⟨hmodules, hvariables⟩ := ofAgents_eq_nil_iff.mp ha
    refine ⟨by simpa using hmodules, hvariables, htools, ?_⟩
    intro x hx y hy
    obtain ⟨t, ht, rfl⟩ := List.mem_map.mp hy
    exact (admits_after_agents ha).mp (hadmits t ht) x hx
  · intro h
    obtain ⟨hmodules, hvariables, htools, hacross⟩ := h
    have ha : (ofAgents [] reserved p.agents).1 = [] :=
      ofAgents_eq_nil_iff.mpr ⟨by simpa using hmodules, hvariables⟩
    refine ⟨ha, fun t ht => ?_, htools⟩
    exact (admits_after_agents ha).mpr fun x hx => hacross x hx _ (List.mem_map_of_mem ht)

end Collision
end AgentAssembly

import AgentAssembly.Proofs.Delegation.Search
import AgentAssembly.Proofs.Validation.Report

/-!
Cycles among sub-agents, told by names. Main statements: every cycle in a report is a circuit of
references, and every closed walk of references runs over the closing edge of one of them, so that
taking these references away leaves no cycle.
-/

namespace AgentAssembly.Delegation

variable {agents : List Agent}

/-- The first agent of the name `a` has `b` among its sub-agents, and some agent bears `b`. -/
def Edge (agents : List Agent) (a b : String) : Prop :=
  (∃ x, agents.find? (·.name == a) = some x ∧ b ∈ x.subAgents) ∧ ∃ y ∈ agents, y.name = b

theorem mem_of_find?_name {name : String} {x : Agent}
    (h : agents.find? (·.name == name) = some x) : x ∈ agents ∧ x.name = name :=
  ⟨List.mem_of_find?_eq_some h, by simpa using List.find?_some h⟩

theorem node?_eq_some {name : String} {n : Nat} (h : node? agents name = some n) :
    ∃ x, agents[n]? = some x ∧ agents.find? (·.name == name) = some x ∧ x.name = name := by
  have hfind : agents.find? (·.name == name) = agents[n]? := by
    rw [List.find?_eq_bind_findIdx?_getElem?]
    exact congrArg (Option.bind · _) h
  obtain ⟨hn, hname, -⟩ := List.findIdx?_eq_some_iff_getElem.mp h
  have hx : agents[n]? = some agents[n] := List.getElem?_eq_getElem hn
  exact ⟨agents[n], hx, hfind.trans hx, by simpa using hname⟩

theorem nameOf_of_node? {name : String} {n : Nat} (h : node? agents name = some n) :
    nameOf agents n = name := by
  obtain ⟨x, hx, -, hname⟩ := node?_eq_some h
  simp [nameOf, hx, hname]

theorem lt_of_node? {name : String} {n : Nat} (h : node? agents name = some n) :
    n < agents.length := (List.findIdx?_eq_some_iff_getElem.mp h).1

theorem exists_node? {name : String} (h : ∃ x ∈ agents, x.name = name) :
    ∃ n, node? agents name = some n := by
  obtain ⟨x, hx, hname⟩ := h
  have hany : agents.any (·.name == name) = true :=
    List.any_eq_true.mpr ⟨x, hx, by simp [hname]⟩
  exact Option.isSome_iff_exists.mp (List.findIdx?_isSome ▸ hany)

theorem node?_nameOf_of_step {n m : Nat} (h : Step (successors agents) n m) :
    node? agents (nameOf agents m) = some m := by
  rw [Step, successors] at h
  split at h
  · simp at h
  · obtain ⟨name, -, hm⟩ := List.mem_filterMap.mp h
    rwa [nameOf_of_node? hm]

theorem lt_of_step (agents : List Agent) (n m : Nat) (h : Step (successors agents) n m) :
    m < agents.length :=
  lt_of_node? (node?_nameOf_of_step h)

theorem edge_iff {a b : String} {n m : Nat} (hn : node? agents a = some n)
    (hm : node? agents b = some m) : Edge agents a b ↔ Step (successors agents) n m := by
  obtain ⟨x, hx, hfind, -⟩ := node?_eq_some hn
  have hstep : Step (successors agents) n m ↔ ∃ c ∈ x.subAgents, node? agents c = some m := by
    simp [Step, successors, hx]
  rw [hstep]
  constructor
  · intro h
    obtain ⟨⟨x', hx', hb⟩, -⟩ := h
    have : x = x' := Option.some.inj (hfind.symm.trans hx')
    exact ⟨b, this ▸ hb, hm⟩
  · intro h
    obtain ⟨c, hc, hcm⟩ := h
    have hcb : c = b := (nameOf_of_node? hcm).symm.trans (nameOf_of_node? hm)
    obtain ⟨y, -, hy, -⟩ := node?_eq_some hm
    exact ⟨⟨x, hfind, hcb ▸ hc⟩, y, mem_of_find?_name hy⟩

theorem Edge.exists_nodes {a b : String} (h : Edge agents a b) :
    ∃ n m, node? agents a = some n ∧ node? agents b = some m := by
  obtain ⟨⟨x, hx, -⟩, hb⟩ := h
  obtain ⟨m, hm⟩ := exists_node? hb
  obtain ⟨n, hn⟩ := exists_node? ⟨x, mem_of_find?_name hx⟩
  exact ⟨n, m, hn, hm⟩

theorem circuit_map_nameOf {c : List Nat} (h : Circuit (Step (successors agents)) c) :
    Circuit (Edge agents) (c.map (nameOf agents)) := by
  have hfirst : ∀ n ∈ c, node? agents (nameOf agents n) = some n := by
    intro n hn
    obtain ⟨m, hm⟩ := h.exists_edge_to hn
    exact node?_nameOf_of_step hm
  refine ⟨h.toClosedWalk.map fun n hn m hm => (edge_iff (hfirst n hn) (hfirst m hm)).mpr, ?_⟩
  rw [← List.map_tail]
  refine List.Nodup.map_on ?_ h.simple
  intro n hn m hm heq
  have hn := hfirst n (List.mem_of_mem_tail hn)
  have hm := hfirst m (List.mem_of_mem_tail hm)
  exact Option.some.inj (hn.symm.trans (heq ▸ hm))

theorem circuit_of_mem_cycles {path : List String} (h : path ∈ cycles agents) :
    Circuit (Edge agents) path := by
  obtain ⟨c, hc, rfl⟩ := List.mem_map.mp h
  exact circuit_map_nameOf (circuit_of_mem_cyclesOf (lt_of_step agents) hc)

theorem exists_rank_name (agents : List Agent) :
    ∃ rank : String → Nat, ∀ a b, Edge agents a b →
      rank a < rank b ∨ Closes (cycles agents) a b := by
  obtain ⟨rank, hrank⟩ := exists_rank (lt_of_step agents)
  refine ⟨fun name => ((node? agents name).map rank).getD 0, ?_⟩
  intro a b hab
  obtain ⟨n, m, hn, hm⟩ := hab.exists_nodes
  obtain hlt | ⟨c, hc, hlast⟩ := hrank n (lt_of_node? hn) m ((edge_iff hn hm).mp hab)
  · exact .inl (by simpa [hn, hm] using hlt)
  · refine .inr ⟨c.map (nameOf agents), List.mem_map_of_mem hc, ?_⟩
    simpa [nameOf_of_node? hn, nameOf_of_node? hm] using hlast.map (nameOf agents)

theorem exists_closing_edge {walk : List String} (h : ClosedWalk (Edge agents) walk) :
    ∃ a b, [a, b] <:+: walk ∧ Closes (cycles agents) a b := by
  obtain ⟨rank, hrank⟩ := exists_rank_name agents
  obtain ⟨a, b, hab, hedge, hnot⟩ := h.exists_not_lt rank
  exact ⟨a, b, hab, (hrank a b hedge).resolve_left hnot⟩

theorem cycles_eq_nil_iff : cycles agents = [] ↔ Acyclic (Edge agents) := by
  rw [acyclic_iff_not_closedWalk]
  constructor
  · intro h walk hw
    obtain ⟨a, b, -, c, hc, -⟩ := exists_closing_edge hw
    simp [h] at hc
  · intro h
    refine List.eq_nil_iff_forall_not_mem.mpr fun path hpath => ?_
    exact h path (circuit_of_mem_cycles hpath).toClosedWalk

def dropReference (agents : List Agent) (reference : String × String) : List Agent :=
  match agents with
  | [] => []
  | x :: rest =>
    if x.name = reference.1 then
      { x with subAgents := x.subAgents.filter (· ≠ reference.2) } :: rest
    else x :: dropReference rest reference

def dropReferences (agents : List Agent) (references : List (String × String)) : List Agent :=
  references.foldl dropReference agents

theorem map_name_dropReference (agents : List Agent) (reference : String × String) :
    (dropReference agents reference).map (·.name) = agents.map (·.name) := by
  induction agents with
  | nil => rfl
  | cons x rest ih => by_cases h : x.name = reference.1 <;> simp [dropReference, h, ih]

theorem find?_dropReference (agents : List Agent) (reference : String × String) (a : String) :
    (dropReference agents reference).find? (·.name == a) =
      (agents.find? (·.name == a)).map fun x =>
        if a = reference.1 then { x with subAgents := x.subAgents.filter (· ≠ reference.2) }
        else x := by
  induction agents with
  | nil => rfl
  | cons x rest ih =>
    by_cases hx : x.name = reference.1
    · by_cases ha : x.name = a
      · have har : a = reference.1 := ha.symm.trans hx
        simp [dropReference, hx, har]
      · have har : ¬ reference.1 = a := fun he => ha (hx.trans he)
        have har' : ¬ a = reference.1 := fun he => har he.symm
        simp [dropReference, hx, har, har']
    · by_cases ha : x.name = a
      · subst ha
        simp [dropReference, hx]
      · simp [dropReference, hx, ha, ih]

theorem edge_dropReference {reference : String × String} {a b : String} :
    Edge (dropReference agents reference) a b ↔ Edge agents a b ∧ (a, b) ≠ reference := by
  obtain ⟨from', to'⟩ := reference
  rw [Edge, Edge, ← List.mem_map, ← List.mem_map, map_name_dropReference, find?_dropReference]
  cases hx : agents.find? (·.name == a) with
  | none => simp
  | some x =>
    by_cases ha : a = from'
    · by_cases hb : b = to' <;> simp [ha, hb]
    · simp [ha]

theorem edge_dropReferences {references : List (String × String)} {a b : String} :
    Edge (dropReferences agents references) a b ↔ Edge agents a b ∧ (a, b) ∉ references := by
  induction references generalizing agents with
  | nil => simp [dropReferences]
  | cons reference rest ih =>
    have hstep := @ih (dropReference agents reference)
    rw [edge_dropReference] at hstep
    rw [dropReferences, List.foldl_cons, ← dropReferences, hstep, List.mem_cons, not_or, and_assoc]

theorem acyclic_dropReferences {references : List (String × String)}
    (h : ∀ a b, Closes (cycles agents) a b → (a, b) ∈ references) :
    Acyclic (Edge (dropReferences agents references)) := by
  obtain ⟨rank, hrank⟩ := exists_rank_name agents
  refine acyclic_of_rank rank fun a b hab => ?_
  obtain ⟨hedge, hkept⟩ := edge_dropReferences.mp hab
  exact (hrank a b hedge).resolve_right fun hclose => hkept (h a b hclose)

end AgentAssembly.Delegation

namespace AgentAssembly

open Delegation

def Finding.closingReference? : Finding → Option (String × String)
  | .subAgentCycle path => lastEdge? path
  | _ => none

def Report.closingReferences (r : Report) : List (String × String) :=
  r.findings.filterMap (·.closingReference?)

namespace Project

theorem subAgentCycle_mem_findings {p : Project} {path : List String} :
    .subAgentCycle path ∈ p.validate.findings ↔ path ∈ cycles p.agents := by
  have hc : ("sub_agent_cycle", Validation.subAgentCycles p) ∈ Validation.checks p := by
    simp [Validation.checks]
  rw [Validation.mem_findings_iff hc rfl]
  simp [Validation.subAgentCycles]

theorem mem_closingReferences_of_closes {p : Project} {a b : String}
    (h : Closes (cycles p.agents) a b) : (a, b) ∈ p.validate.closingReferences := by
  obtain ⟨path, hpath, hlast⟩ := h
  refine List.mem_filterMap.mpr ⟨.subAgentCycle path, subAgentCycle_mem_findings.mpr hpath, ?_⟩
  exact lastEdge?_eq_some_iff.mpr hlast

/-- The cycles in a report are circuits of references, every closed walk of references runs over
the closing reference of one of them, and without these references no walk is closed. -/
theorem subAgentCycle_findings_exact (p : Project) :
    (∀ path, .subAgentCycle path ∈ p.validate.findings →
      2 ≤ path.length ∧ path.head? = path.getLast? ∧ path.tail.Nodup ∧
        path.IsChain (Edge p.agents)) ∧
    (∀ walk, ClosedWalk (Edge p.agents) walk →
      ∃ path a b, .subAgentCycle path ∈ p.validate.findings ∧
        [a, b] <:+ path ∧ [a, b] <:+: walk) ∧
    ((∃ path, .subAgentCycle path ∈ p.validate.findings) ↔
      ∃ walk, ClosedWalk (Edge p.agents) walk) ∧
    ∀ walk, ¬ ClosedWalk (Edge (dropReferences p.agents p.validate.closingReferences)) walk := by
  have hsound : ∀ path, .subAgentCycle path ∈ p.validate.findings →
      Circuit (Edge p.agents) path :=
    fun path hpath => circuit_of_mem_cycles (subAgentCycle_mem_findings.mp hpath)
  have hcomplete : ∀ walk, ClosedWalk (Edge p.agents) walk →
      ∃ path a b, .subAgentCycle path ∈ p.validate.findings ∧
        [a, b] <:+ path ∧ [a, b] <:+: walk := by
    intro walk hw
    obtain ⟨a, b, hab, path, hpath, hlast⟩ := exists_closing_edge hw
    exact ⟨path, a, b, subAgentCycle_mem_findings.mpr hpath, hlast, hab⟩
  refine ⟨fun path hpath => ?_, hcomplete, ⟨?_, ?_⟩, ?_⟩
  · have hc := hsound path hpath
    exact ⟨hc.long, hc.closed, hc.simple, hc.edges⟩
  · intro h
    obtain ⟨path, hpath⟩ := h
    exact ⟨path, (hsound path hpath).toClosedWalk⟩
  · intro h
    obtain ⟨walk, hw⟩ := h
    obtain ⟨path, -, -, hpath, -⟩ := hcomplete walk hw
    exact ⟨path, hpath⟩
  · exact acyclic_iff_not_closedWalk.mp
      (acyclic_dropReferences fun a b => mem_closingReferences_of_closes)

end Project
end AgentAssembly

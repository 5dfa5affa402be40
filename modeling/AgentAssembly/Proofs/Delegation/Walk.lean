import Mathlib.Data.List.Chain

/-!
Walks in a graph that is given by a relation. Main statements: a relation is acyclic exactly when
it has no closed walk, a numbering that grows along every edge excludes closed walks, and a finite
acyclic graph has a node that no edge enters.
-/

namespace AgentAssembly

open Relation (TransGen ReflTransGen)

variable {α β : Type} {r : α → α → Prop}

/-- No sequence of steps leads from a node back to it. -/
def Acyclic (r : α → α → Prop) : Prop := ∀ a, ¬ TransGen r a a

structure ClosedWalk (r : α → α → Prop) (walk : List α) : Prop where
  long : 2 ≤ walk.length
  closed : walk.head? = walk.getLast?
  edges : walk.IsChain r

def lastEdge? (walk : List α) : Option (α × α) :=
  match walk.reverse with
  | b :: a :: _ => some (a, b)
  | _ => none

theorem lastEdge?_eq_some_iff {walk : List α} {a b : α} :
    lastEdge? walk = some (a, b) ↔ [a, b] <:+ walk := by
  rw [← List.reverse_prefix]
  cases h : walk.reverse with
  | nil => simp [lastEdge?, h]
  | cons x rest =>
    cases rest with
    | nil => simp [lastEdge?, h, List.cons_prefix_cons]
    | cons y rest => simp [lastEdge?, h, List.cons_prefix_cons, and_comm, eq_comm]

theorem acyclic_iff_not_closedWalk : Acyclic r ↔ ∀ walk, ¬ ClosedWalk r walk := by
  constructor
  · intro h walk hw
    match walk, hw with
    | [], hw => simpa using hw.long
    | [_], hw => simpa using hw.long
    | a :: b :: rest, hw =>
      obtain ⟨hab, hrest⟩ := List.isChain_cons_cons.mp hw.edges
      have hlast : (b :: rest).getLast (List.cons_ne_nil _ _) = a := by
        simpa [List.getLast?_eq_some_getLast] using hw.closed.symm
      have hba : ReflTransGen r b a :=
        List.relationReflTransGen_of_exists_isChain_cons rest hrest hlast
      exact h a (TransGen.head'_iff.mpr ⟨b, hab, hba⟩)
  · intro h a ha
    obtain ⟨b, hab, hba⟩ := TransGen.head'_iff.mp ha
    obtain ⟨rest, hrest, hlast⟩ := List.exists_isChain_cons_of_relationReflTransGen hba
    refine h (a :: b :: rest) ⟨by simp, ?_, List.isChain_cons_cons.mpr ⟨hab, hrest⟩⟩
    simp [List.getLast?_eq_some_getLast, hlast]

theorem acyclic_of_rank (rank : α → Nat) (h : ∀ a b, r a b → rank a < rank b) : Acyclic r := by
  intro a ha
  have hgrow : ∀ b, TransGen r a b → rank a < rank b := by
    intro b hb
    induction hb with
    | single hab => exact h _ _ hab
    | tail _ hbc ih => exact ih.trans (h _ _ hbc)
  exact lt_irrefl _ (hgrow a ha)

theorem Acyclic.mono {s : α → α → Prop} (h : Acyclic s) (hrs : ∀ a b, r a b → s a b) :
    Acyclic r := fun a ha => h a (TransGen.mono hrs a a ha)

/-- Among finitely many nodes of an acyclic graph one is not reached from any of them. -/
theorem Acyclic.exists_source (h : Acyclic r) {l : List α} (hl : l ≠ []) :
    ∃ a ∈ l, ∀ b ∈ l, ¬ TransGen r b a := by
  induction l with
  | nil => exact absurd rfl hl
  | cons c rest ih =>
    by_cases hrest : rest = []
    · exact ⟨c, List.mem_cons_self, by simpa [hrest] using h c⟩
    · obtain ⟨a, ha, hsource⟩ := ih hrest
      by_cases hca : TransGen r c a
      · -- What reaches the new node reaches the old source through it.
        refine ⟨c, List.mem_cons_self, fun b hb hbc => ?_⟩
        obtain rfl | hb := List.mem_cons.mp hb
        · exact h b hbc
        · exact hsource b hb (hbc.trans hca)
      · refine ⟨a, List.mem_cons_of_mem c ha, fun b hb => ?_⟩
        obtain rfl | hb := List.mem_cons.mp hb
        · exact hca
        · exact hsource b hb

theorem ClosedWalk.exists_not_lt {walk : List α} (h : ClosedWalk r walk) (rank : α → Nat) :
    ∃ a b, [a, b] <:+: walk ∧ r a b ∧ ¬ rank a < rank b := by
  by_contra hall
  have hgrow : walk.IsChain fun a b => rank a < rank b := by
    refine (List.isChain_isInfix walk).imp fun a b hab => ?_
    have hr : r a b := by simpa using h.edges.infix hab
    exact Decidable.byContradiction fun hn => hall ⟨a, b, hab, hr, hn⟩
  have hup : Acyclic fun a b => rank a < rank b := acyclic_of_rank rank fun _ _ => id
  exact acyclic_iff_not_closedWalk.mp hup walk ⟨h.long, h.closed, hgrow⟩

theorem exists_edge_to_of_isChain {a b : α} {rest : List α} (h : (a :: rest).IsChain r)
    (hb : b ∈ rest) : ∃ x, r x b := by
  induction rest generalizing a with
  | nil => simp at hb
  | cons c rest ih =>
    obtain ⟨hac, hrest⟩ := List.isChain_cons_cons.mp h
    obtain rfl | hb := List.mem_cons.mp hb
    · exact ⟨a, hac⟩
    · exact ih hrest hb

theorem ClosedWalk.exists_edge_to {walk : List α} (h : ClosedWalk r walk) {b : α}
    (hb : b ∈ walk) : ∃ x, r x b := by
  match walk, h with
  | [], h => simpa using h.long
  | [_], h => simpa using h.long
  | a :: c :: rest, h =>
    have htail : b ∈ c :: rest := by
      obtain rfl | hb := List.mem_cons.mp hb
      · exact List.mem_of_getLast? (by simpa using h.closed.symm)
      · exact hb
    exact exists_edge_to_of_isChain h.edges htail

theorem ClosedWalk.map {s : β → β → Prop} {walk : List α} (h : ClosedWalk r walk) {f : α → β}
    (hf : ∀ a ∈ walk, ∀ b ∈ walk, r a b → s (f a) (f b)) : ClosedWalk s (walk.map f) where
  long := by simpa using h.long
  closed := by simp [h.closed]
  edges := by
    rw [List.isChain_map]
    exact h.edges.imp_of_mem_imp fun a b ha hb => hf a ha b hb

end AgentAssembly

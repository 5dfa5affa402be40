import Mathlib.Data.List.Perm.Subperm
import AgentAssembly.Proofs.Delegation.Walk
import AgentAssembly.Validation.Delegation

/-!
The search in depth, on any graph. Main statements: every cycle it notes is a circuit of the
graph, and there is a numbering of the nodes that grows along every edge which closes none of
the cycles noted.
-/

namespace AgentAssembly

def Closes {α : Type} (cycles : List (List α)) (a b : α) : Prop := ∃ c ∈ cycles, [a, b] <:+ c

theorem Closes.mono {α : Type} {cycles cycles' : List (List α)} {a b : α} (h : Closes cycles a b)
    (hsub : cycles ⊆ cycles') : Closes cycles' a b := by
  obtain ⟨c, hc, hab⟩ := h
  exact ⟨c, hsub hc, hab⟩

structure Circuit {α : Type} (r : α → α → Prop) (walk : List α) : Prop
    extends ClosedWalk r walk where
  simple : walk.tail.Nodup

namespace Delegation

variable {next : Nat → List Nat} {size fuel node : Nat} {path : List Nat} {s : Search}

def Step (next : Nat → List Nat) (a b : Nat) : Prop := b ∈ next a

/-- Every edge of a node that was left leads to a node left before, or closes a cycle. -/
def Settled (next : Nat → List Nat) (cycles : List (List Nat)) : List Nat → Prop
  | [] => True
  | n :: older => (∀ m, Step next n m → m ∈ older ∨ Closes cycles n m) ∧ Settled next cycles older

/-- The state of a search that has entered the nodes of `path`, the latest first. -/
structure Sound (next : Nat → List Nat) (size : Nat) (path : List Nat) (s : Search) : Prop where
  fresh : (path ++ s.left).Nodup
  inside : ∀ n ∈ path, n < size
  walk : path.IsChain fun m n => Step next n m
  circuits : ∀ c ∈ s.cycles, Circuit (Step next) c
  settled : Settled next s.cycles s.left

structure Search.Extends (s t : Search) : Prop where
  left : s.left ⊆ t.left
  cycles : s.cycles ⊆ t.cycles

theorem Search.Extends.refl (s : Search) : s.Extends s := ⟨fun _ => id, fun _ => id⟩

theorem Search.Extends.trans {s t u : Search} (h : s.Extends t) (h' : t.Extends u) :
    s.Extends u :=
  ⟨fun _ hn => h'.left (h.left hn), fun _ hc => h'.cycles (h.cycles hc)⟩

theorem Settled.mono {cycles cycles' : List (List Nat)} {left : List Nat}
    (h : Settled next cycles left) (hsub : cycles ⊆ cycles') : Settled next cycles' left := by
  induction left with
  | nil => trivial
  | cons n older ih =>
    refine ⟨fun m hm => ?_, ih h.2⟩
    obtain hold | hclose := h.1 m hm
    · exact .inl hold
    · exact .inr (hclose.mono hsub)

theorem closing_eq {above below : List Nat} {n : Nat} (hn : n ∉ above) :
    closing (above ++ n :: below) n = (above ++ [n]).reverse ++ [n] := by
  have hall : ∀ m ∈ above, decide (m ≠ n) = true := by
    intro m hm
    exact decide_eq_true fun he => hn (he ▸ hm)
  rw [closing, List.takeWhile_append_of_pos hall, List.takeWhile_cons_of_neg (by simp)]
  simp

theorem closing_spec {head n : Nat} {below : List Nat}
    (hw : (head :: below).IsChain fun m n => Step next n m) (hd : (head :: below).Nodup)
    (hn : n ∈ head :: below) (hstep : Step next head n) :
    Circuit (Step next) (closing (head :: below) n) ∧
      [head, n] <:+ closing (head :: below) n := by
  obtain ⟨above, under, hsplit⟩ := List.append_of_mem hn
  have hnot : n ∉ above := by
    intro hmem
    rw [hsplit, List.nodup_append] at hd
    exact hd.2.2 n hmem n (by simp) rfl
  -- The part of the path that the cycle runs along starts at the same head.
  obtain ⟨rest, hrest⟩ : ∃ rest, above ++ [n] = head :: rest := by
    cases above with
    | nil =>
      have : head = n := (List.cons.inj hsplit).1
      exact ⟨[], by simp [this]⟩
    | cons a above =>
      have : head = a := (List.cons.inj hsplit).1
      exact ⟨above ++ [n], by simp [this]⟩
  have hpart : above ++ [n] <+: head :: below := ⟨under, by simp [hsplit]⟩
  have heq : closing (head :: below) n = (above ++ [n]).reverse ++ [n] := by
    rw [hsplit, closing_eq hnot]
  have hsuffix : [head, n] <:+ closing (head :: below) n :=
    ⟨rest.reverse, by simp [heq, hrest]⟩
  refine ⟨⟨⟨?_, ?_, ?_⟩, ?_⟩, hsuffix⟩
  · simp [heq]
  · rw [heq, List.getLast?_concat, List.reverse_concat, List.cons_append, List.head?_cons]
  · rw [heq, List.isChain_append]
    have hup := hw.infix hpart.isInfix
    refine ⟨List.isChain_reverse.mpr hup, by simp, ?_⟩
    simpa [hrest] using hstep
  · have hnodup : (above ++ [n]).Nodup := hpart.sublist.nodup hd
    have htail : (closing (head :: below) n).tail = above.reverse ++ [n] := by simp [heq]
    rw [htail]
    exact ((List.reverse_perm above).append_right [n]).nodup_iff.mpr hnodup

theorem sound_start (next : Nat → List Nat) (size : Nat) : Sound next size [] {} :=
  ⟨by simp, by simp, by simp, by simp, trivial⟩

theorem Sound.note (h : Sound next size path s) {c : List Nat} (hc : Circuit (Step next) c) :
    Sound next size path { s with cycles := s.cycles ++ [c] } where
  fresh := h.fresh
  inside := h.inside
  walk := h.walk
  circuits := by
    intro d hd
    obtain hd | hd := List.mem_append.mp hd
    · exact h.circuits d hd
    · exact (List.mem_singleton.mp hd) ▸ hc
  settled := h.settled.mono (List.subset_append_left _ _)

theorem Sound.enter (h : Sound next size path s) (hpath : node ∉ path) (hleft : node ∉ s.left)
    (hsize : node < size) (hstep : ∀ a ∈ path.head?, Step next a node) :
    Sound next size (node :: path) s where
  fresh := by
    rw [List.cons_append, List.nodup_cons]
    exact ⟨by simp [hpath, hleft], h.fresh⟩
  inside := by
    intro n hn
    obtain rfl | hn := List.mem_cons.mp hn
    · exact hsize
    · exact h.inside n hn
  walk := List.isChain_cons.mpr ⟨hstep, h.walk⟩
  circuits := h.circuits
  settled := h.settled

theorem Sound.leave (h : Sound next size (node :: path) s)
    (hall : ∀ m, Step next node m → m ∈ s.left ∨ Closes s.cycles node m) :
    Sound next size path { s with left := node :: s.left } where
  fresh := List.perm_middle.nodup_iff.mpr h.fresh
  inside := fun n hn => h.inside n (List.mem_cons_of_mem node hn)
  walk := h.walk.of_cons
  circuits := h.circuits
  settled := ⟨hall, h.settled⟩

theorem Sound.length_lt (h : Sound next size path s) (hpath : node ∉ path) (hsize : node < size) :
    path.length < size := by
  have hnodup : (node :: path).Nodup :=
    List.nodup_cons.mpr ⟨hpath, (List.nodup_append.mp h.fresh).1⟩
  have hsub : node :: path ⊆ List.range size := by
    intro n hn
    obtain rfl | hn := List.mem_cons.mp hn
    · exact List.mem_range.mpr hsize
    · exact List.mem_range.mpr (h.inside n hn)
  have hlength := (List.subperm_of_subset hnodup hsub).length_le
  rw [List.length_cons, List.length_range] at hlength
  omega

def Enters (next : Nat → List Nat) (size : Nat) (path : List Nat)
    (enter : Nat → Search → Search) : Prop :=
  ∀ n s, Sound next size path s → n ∉ path → n ∉ s.left → n < size →
    (∀ a ∈ path.head?, Step next a n) →
    Sound next size path (enter n s) ∧ s.Extends (enter n s) ∧ n ∈ (enter n s).left

theorem follow_spec {enter : Nat → Search → Search} {edges : List Nat}
    (henter : Enters next size (node :: path) enter)
    (hedges : ∀ m ∈ edges, Step next node m ∧ m < size)
    (hs : Sound next size (node :: path) s) :
    let t := follow enter (node :: path) edges s
    Sound next size (node :: path) t ∧ s.Extends t ∧
      ∀ m ∈ edges, m ∈ t.left ∨ Closes t.cycles node m := by
  induction edges generalizing s with
  | nil => exact ⟨hs, .refl s, by simp⟩
  | cons n rest ih =>
    have hn := hedges n List.mem_cons_self
    -- The state after the first edge, whichever way it leads.
    obtain ⟨t, ht, hsound, hext, hfirst⟩ : ∃ t,
        follow enter (node :: path) (n :: rest) s = follow enter (node :: path) rest t ∧
        Sound next size (node :: path) t ∧ s.Extends t ∧
        (n ∈ t.left ∨ Closes t.cycles node n) := by
      rw [follow]
      by_cases hpath : n ∈ node :: path
      · have hd : (node :: path).Nodup := (List.nodup_append.mp hs.fresh).1
        obtain ⟨hc, hlast⟩ := closing_spec hs.walk hd hpath hn.1
        refine ⟨_, by rw [if_pos hpath], hs.note hc, ⟨fun _ => id, ?_⟩, .inr ⟨_, ?_, hlast⟩⟩
        · exact List.subset_append_left _ _
        · simp
      · rw [if_neg hpath]
        by_cases hleft : n ∈ s.left
        · exact ⟨s, by rw [if_pos hleft], hs, .refl s, .inl hleft⟩
        · obtain ⟨h1, h2, h3⟩ := henter n s hs hpath hleft hn.2 (by simpa using hn.1)
          exact ⟨_, by rw [if_neg hleft], h1, h2, .inl h3⟩
    rw [ht]
    obtain ⟨h1, h2, h3⟩ := ih (fun m hm => hedges m (List.mem_cons_of_mem n hm)) hsound
    refine ⟨h1, hext.trans h2, ?_⟩
    intro m hm
    obtain rfl | hm := List.mem_cons.mp hm
    · obtain hleft | hclose := hfirst
      · exact .inl (h2.left hleft)
      · exact .inr (hclose.mono h2.cycles)
    · exact h3 m hm

/-- The fuel is never used up: it makes up for the nodes that are not on the path. -/
theorem explore_enters (hnext : ∀ a b, Step next a b → b < size)
    (hfuel : size ≤ fuel + path.length) : Enters next size path (explore next fuel path) := by
  induction fuel generalizing path with
  | zero =>
    intro n s hs hpath hleft hsize hstep
    have := hs.length_lt hpath hsize
    omega
  | succ fuel ih =>
    intro n s hs hpath hleft hsize hstep
    have henter : Enters next size (n :: path) (explore next fuel (n :: path)) :=
      ih (by rw [List.length_cons]; omega)
    obtain ⟨h1, h2, h3⟩ := follow_spec henter (fun m hm => ⟨hm, hnext n m hm⟩)
      (hs.enter hpath hleft hsize hstep)
    refine ⟨h1.leave h3, ⟨?_, h2.cycles⟩, List.mem_cons_self⟩
    exact fun m hm => List.mem_cons_of_mem n (h2.left hm)

theorem searchFrom_spec (hnext : ∀ a b, Step next a b → b < size) {starts : List Nat}
    (hstarts : ∀ n ∈ starts, n < size) (hs : Sound next size [] s) :
    let t := searchFrom next size starts s
    Sound next size [] t ∧ s.Extends t ∧ ∀ n ∈ starts, n ∈ t.left := by
  induction starts generalizing s with
  | nil => exact ⟨hs, .refl s, by simp⟩
  | cons n rest ih =>
    have hrest : ∀ m ∈ rest, m < size := fun m hm => hstarts m (List.mem_cons_of_mem n hm)
    rw [searchFrom]
    by_cases hleft : n ∈ s.left
    · rw [if_pos hleft]
      obtain ⟨h1, h2, h3⟩ := ih hrest hs
      refine ⟨h1, h2, List.forall_mem_cons.mpr ⟨h2.left hleft, h3⟩⟩
    · rw [if_neg hleft]
      obtain ⟨hn1, hn2, hn3⟩ :=
        explore_enters hnext (Nat.le_add_right size _) n s hs (by simp) hleft
        (hstarts n List.mem_cons_self) (by simp)
      obtain ⟨h1, h2, h3⟩ := ih hrest hn1
      exact ⟨h1, hn2.trans h2, List.forall_mem_cons.mpr ⟨h2.left hn3, h3⟩⟩

theorem circuit_of_mem_cyclesOf (hnext : ∀ a b, Step next a b → b < size) {c : List Nat}
    (hc : c ∈ cyclesOf next size) : Circuit (Step next) c := by
  obtain ⟨hsound, -, -⟩ :=
    searchFrom_spec hnext (fun _ => List.mem_range.mp) (sound_start next size)
  exact hsound.circuits c hc

theorem Settled.idxOf_lt {cycles : List (List Nat)} {left : List Nat} {a b : Nat}
    (h : Settled next cycles left) (hd : left.Nodup) (ha : a ∈ left) (hab : Step next a b)
    (hopen : ¬ Closes cycles a b) : b ∈ left ∧ left.idxOf a < left.idxOf b := by
  induction left with
  | nil => simp at ha
  | cons n older ih =>
    obtain ⟨hn, hd⟩ := List.nodup_cons.mp hd
    by_cases hna : n = a
    · subst hna
      have hb : b ∈ older := (h.1 b hab).resolve_right hopen
      have hnb : n ≠ b := fun he => hn (he ▸ hb)
      exact ⟨List.mem_cons_of_mem n hb, by simp [List.idxOf_cons_ne, hnb]⟩
    · have ha : a ∈ older := (List.mem_cons.mp ha).resolve_left (Ne.symm hna)
      obtain ⟨hb, hlt⟩ := ih h.2 hd ha
      have hnb : n ≠ b := fun he => hn (he ▸ hb)
      refine ⟨List.mem_cons_of_mem n hb, ?_⟩
      rw [List.idxOf_cons_ne _ hna, List.idxOf_cons_ne _ hnb]
      omega

/-- The edges that close the cycles noted are all that keeps the graph from being numbered
upwards: the later a node is left, the smaller is its number. -/
theorem exists_rank (hnext : ∀ a b, Step next a b → b < size) :
    ∃ rank : Nat → Nat, ∀ a < size, ∀ b, Step next a b →
      rank a < rank b ∨ Closes (cyclesOf next size) a b := by
  obtain ⟨hsound, -, hleft⟩ :=
    searchFrom_spec hnext (fun _ => List.mem_range.mp) (sound_start next size)
  refine ⟨fun n => (searchFrom next size (List.range size) {}).left.idxOf n, ?_⟩
  intro a ha b hab
  by_cases hclose : Closes (cyclesOf next size) a b
  · exact .inr hclose
  · have hmem := hleft a (List.mem_range.mpr ha)
    have hd : (searchFrom next size (List.range size) {}).left.Nodup := by
      simpa using hsound.fresh
    exact .inl (hsound.settled.idxOf_lt hd hmem hab hclose).2

end Delegation
end AgentAssembly

import Mathlib.Tactic.SplitIfs
import AgentAssembly.Proofs.Collections
import AgentAssembly.Proofs.Project.Facet

/-!
Lists of records that are told apart by name, as a project holds its agents and its tools. Main
statements: an addition looks at nothing but the names that are taken, an update leaves the names
as they are, and so additions and updates of different names commute.
-/

namespace AgentAssembly

/-- The change that a successful update makes: at the first member of its kind, and nowhere
else. -/
theorem updateFirst_eq_ok {α ε : Type} {p : α → Bool} {f : α → Except ε α} {l l' : List α} {b : α}
    (h : updateFirst p f l = some (.ok (b, l'))) :
    ∃ before a after, l = before ++ a :: after ∧ (∀ x ∈ before, p x = false) ∧ p a = true ∧
      f a = .ok b ∧ l' = before ++ b :: after := by
  induction l generalizing l' with
  | nil => simp [updateFirst] at h
  | cons a rest ih =>
    rw [updateFirst] at h
    split at h
    · rename_i ha
      obtain ⟨c, hc, heq⟩ := map_eq_ok_iff.mp (Option.some.inj h)
      obtain ⟨rfl, rfl⟩ := Prod.mk.inj heq
      exact ⟨[], a, rest, rfl, by simp, ha, hc, rfl⟩
    · rename_i ha
      obtain ⟨outcome, houtcome, hmap⟩ := Option.map_eq_some_iff.mp h
      obtain ⟨⟨c, m⟩, rfl, heq⟩ := map_eq_ok_iff.mp hmap
      obtain ⟨rfl, rfl⟩ := Prod.mk.inj heq
      obtain ⟨before, x, after, rfl, hbefore, hx, hf, rfl⟩ := ih houtcome
      refine ⟨a :: before, x, after, rfl, ?_, hx, hf, rfl⟩
      simpa using ⟨by simpa using ha, hbefore⟩

structure Roster (α : Type) where
  list : Facet (List α)
  name : α → String
  fault? : α → Option InputFault
  normalized : α → α
  kind : String
  limit : Limits → Nat
  full : Nat → ProjectError
  missing : String → ProjectError
  name_normalized : ∀ a, name (normalized a) = name a := by intros; rfl
  full_inj : ∀ m n, full m = full n → m = n := by intro _ _ h; cases h; rfl
  full_isLimitExceeded : ∀ n, (full n).isLimitExceeded = true := by intros; rfl

namespace Roster

variable {α : Type} (R : Roster α)

def verdict (limits : Limits) (a : α) (taken : List String) : Except ProjectError α :=
  match R.fault? a with
  | some fault => .error (.invalidInput fault)
  | none =>
    if R.limit limits ≤ taken.length then .error (R.full (R.limit limits))
    else if R.name a ∈ taken then .error (.duplicateName R.kind (R.name a))
    else .ok (R.normalized a)

def add (limits : Limits) (a : α) : Plan (List α) α := fun l =>
  (R.verdict limits a (l.map R.name)).map fun b => (b, l ++ [b])

def update (name : String) (f : α → Except InputFault α) : Plan (List α) α := fun l =>
  match updateFirst (R.name · == name) f l with
  | none => .error (R.missing name)
  | some (.error fault) => .error (.invalidInput fault)
  | some (.ok r) => .ok r

def KeepsName (f : α → Except InputFault α) : Prop := ∀ a b, f a = .ok b → R.name b = R.name a

def changed (f : α → Except InputFault α) (a : α) : α :=
  match f a with
  | .ok b => b
  | .error _ => a

variable {R} {limits : Limits} {a b : α} {l : List α} {taken : List String}
  {f g : α → Except InputFault α} {n m : String}

theorem name_changed (hf : R.KeepsName f) (a : α) : R.name (changed f a) = R.name a := by
  cases h : f a with
  | error fault => simp only [changed, h]
  | ok b => simp only [changed, h, hf a b h]

section additions

theorem full_ne_invalid (R : Roster α) (n : Nat) (fault : InputFault) :
    R.full n ≠ .invalidInput fault := by
  intro h
  simpa [h, ProjectError.isLimitExceeded] using R.full_isLimitExceeded n

theorem full_ne_duplicate (R : Roster α) (n : Nat) (kind name : String) :
    R.full n ≠ .duplicateName kind name := by
  intro h
  simpa [h, ProjectError.isLimitExceeded] using R.full_isLimitExceeded n

theorem verdict_eq_invalid_iff {fault : InputFault} :
    R.verdict limits a taken = .error (.invalidInput fault) ↔ R.fault? a = some fault := by
  rw [verdict]
  cases R.fault? a with
  | some fault' => simp
  | none =>
    split_ifs
    · simpa using R.full_ne_invalid _ fault
    · simp
    · simp

theorem verdict_eq_full_iff {n : Nat} : R.verdict limits a taken = .error (R.full n) ↔
    n = R.limit limits ∧ R.fault? a = none ∧ R.limit limits ≤ taken.length := by
  rw [verdict]
  cases R.fault? a with
  | some fault => simpa using (R.full_ne_invalid n fault).symm
  | none =>
    split_ifs with hfull hname
    · simpa [hfull] using ⟨fun h => (R.full_inj _ _ h).symm, fun h => h ▸ rfl⟩
    · simpa [hfull] using (R.full_ne_duplicate n _ _).symm
    · simp [hfull]

theorem verdict_eq_duplicate_iff {kind name : String} :
    R.verdict limits a taken = .error (.duplicateName kind name) ↔
      kind = R.kind ∧ name = R.name a ∧ R.fault? a = none ∧ taken.length < R.limit limits ∧
        R.name a ∈ taken := by
  rw [verdict]
  cases R.fault? a with
  | some fault => simp
  | none =>
    split_ifs with hfull hname
    · simpa [Nat.not_lt.mpr hfull] using R.full_ne_duplicate _ kind name
    · simp [Nat.not_le.mp hfull, hname, eq_comm]
    · simp [hname]

theorem verdict_eq_ok_iff : R.verdict limits a taken = .ok b ↔
    b = R.normalized a ∧ R.fault? a = none ∧ taken.length < R.limit limits ∧
      R.name a ∉ taken := by
  rw [verdict]
  cases R.fault? a with
  | some fault => simp
  | none =>
    split_ifs with hfull hname
    · simp [Nat.not_lt.mpr hfull]
    · simp [hname]
    · simp [Nat.not_le.mp hfull, hname, eq_comm]

theorem name_of_verdict (h : R.verdict limits a taken = .ok b) : R.name b = R.name a := by
  rw [(verdict_eq_ok_iff.mp h).1, R.name_normalized]

theorem answer_add : (R.add limits a).answer l = R.verdict limits a (l.map R.name) := by
  cases h : R.verdict limits a (l.map R.name) <;> simp only [Plan.answer, add, h, Except.map]

theorem after_add_of_ok (h : R.verdict limits a (l.map R.name) = .ok b) :
    (R.add limits a).after l = l ++ [b] := by
  simp only [Plan.after, add, h, Except.map]

theorem after_add_of_error {e : ProjectError} (h : R.verdict limits a (l.map R.name) = .error e) :
    (R.add limits a).after l = l := by
  simp only [Plan.after, add, h, Except.map]

end additions

section updates

theorem answer_update_of_eq (h : R.name a = n) :
    (R.update n f).answer (a :: l) = (f a).mapError .invalidInput := by
  cases hf : f a <;> simp [Plan.answer, update, updateFirst, h, hf, Except.map, Except.mapError]

theorem after_update_of_eq (h : R.name a = n) :
    (R.update n f).after (a :: l) = changed f a :: l := by
  cases hf : f a <;> simp [Plan.after, update, updateFirst, changed, h, hf, Except.map]

theorem answer_update_of_ne (h : R.name a ≠ n) :
    (R.update n f).answer (a :: l) = (R.update n f).answer l := by
  rcases hl : updateFirst (R.name · == n) f l with _ | _ | r <;>
    simp [Plan.answer, update, updateFirst, h, hl, Except.map]

theorem after_update_of_ne (h : R.name a ≠ n) :
    (R.update n f).after (a :: l) = a :: (R.update n f).after l := by
  rcases hl : updateFirst (R.name · == n) f l with _ | _ | r <;>
    simp [Plan.after, update, updateFirst, h, hl, Except.map]

theorem names_after_update (hf : R.KeepsName f) :
    ((R.update n f).after l).map R.name = l.map R.name := by
  induction l with
  | nil => rfl
  | cons a l ih =>
    by_cases h : R.name a = n
    · rw [after_update_of_eq h, List.map_cons, List.map_cons, name_changed hf]
    · rw [after_update_of_ne h, List.map_cons, List.map_cons, ih]

theorem answer_update_concat (h : R.name b ≠ n) :
    (R.update n f).answer (l ++ [b]) = (R.update n f).answer l := by
  induction l with
  | nil => exact answer_update_of_ne h
  | cons a l ih =>
    by_cases ha : R.name a = n
    · rw [List.cons_append, answer_update_of_eq ha, answer_update_of_eq ha]
    · rw [List.cons_append, answer_update_of_ne ha, answer_update_of_ne ha, ih]

theorem after_update_concat (h : R.name b ≠ n) :
    (R.update n f).after (l ++ [b]) = (R.update n f).after l ++ [b] := by
  induction l with
  | nil => exact after_update_of_ne h
  | cons a l ih =>
    by_cases ha : R.name a = n
    · rw [List.cons_append, after_update_of_eq ha, after_update_of_eq ha, List.cons_append]
    · rw [List.cons_append, after_update_of_ne ha, after_update_of_ne ha, ih, List.cons_append]

theorem answer_update_after_update (hg : R.KeepsName g) (h : n ≠ m) :
    (R.update n f).answer ((R.update m g).after l) = (R.update n f).answer l := by
  induction l with
  | nil => rfl
  | cons a l ih =>
    by_cases hm : R.name a = m
    · have hn : R.name a ≠ n := fun hn => h (hn.symm.trans hm)
      rw [after_update_of_eq hm, answer_update_of_ne hn,
        answer_update_of_ne ((name_changed hg a).trans_ne hn)]
    · rw [after_update_of_ne hm]
      by_cases hn : R.name a = n
      · rw [answer_update_of_eq hn, answer_update_of_eq hn]
      · rw [answer_update_of_ne hn, answer_update_of_ne hn, ih]

theorem after_update_after_update (hf : R.KeepsName f) (hg : R.KeepsName g) (h : n ≠ m) :
    (R.update m g).after ((R.update n f).after l) =
      (R.update n f).after ((R.update m g).after l) := by
  induction l with
  | nil => rfl
  | cons a l ih =>
    by_cases hn : R.name a = n
    · have hm : R.name a ≠ m := fun hm => h (hn.symm.trans hm)
      rw [after_update_of_eq hn, after_update_of_ne hm, after_update_of_eq hn,
        after_update_of_ne ((name_changed hf a).trans_ne hm)]
    · rw [after_update_of_ne hn]
      by_cases hm : R.name a = m
      · rw [after_update_of_eq hm, after_update_of_eq hm,
          after_update_of_ne ((name_changed hg a).trans_ne hn)]
      · rw [after_update_of_ne hm, after_update_of_ne hm, after_update_of_ne hn, ih]

end updates

theorem commute_updates (hf : R.KeepsName f) (hg : R.KeepsName g) (h : n ≠ m) :
    (R.update n f).Commute (R.update m g) where
  answer_left _ := answer_update_after_update hg h
  answer_right _ := answer_update_after_update hf h.symm
  after_after _ := after_update_after_update hf hg h

theorem commute_add_update (hf : R.KeepsName f) (h : R.name a ≠ n) :
    (R.add limits a).Commute (R.update n f) := by
  have hnames : ∀ l, ((R.update n f).after l).map R.name = l.map R.name :=
    fun l => names_after_update hf
  refine ⟨fun l => ?_, fun l => ?_, fun l => ?_⟩
  · rw [answer_add, answer_add, hnames]
  · cases hv : R.verdict limits a (l.map R.name) with
    | error e => rw [after_add_of_error hv]
    | ok b => rw [after_add_of_ok hv, answer_update_concat ((name_of_verdict hv).trans_ne h)]
  · cases hv : R.verdict limits a (l.map R.name) with
    | error e => rw [after_add_of_error hv, after_add_of_error (by rw [hnames, hv])]
    | ok b =>
      rw [after_add_of_ok hv, after_add_of_ok (by rw [hnames, hv]),
        after_update_concat ((name_of_verdict hv).trans_ne h)]

theorem settles_update (hf : R.KeepsName f) (hagain : ∀ a b, f a = .ok b → f b = .ok b) :
    (R.update n f).Settles := by
  have hchanged : ∀ a, f (changed f a) = f a ∧ changed f (changed f a) = changed f a := by
    intro a
    cases h : f a with
    | error fault => simp only [changed, h, and_self]
    | ok b => simp only [changed, h, hagain a b h, and_self]
  constructor
  all_goals
    intro l
    induction l with
    | nil => rfl
    | cons a l ih =>
      by_cases h : R.name a = n
      · have hname : R.name (changed f a) = n := (name_changed hf a).trans h
        rw [after_update_of_eq h]
        simp only [answer_update_of_eq, after_update_of_eq, h, hname, hchanged]
      · simp only [after_update_of_ne h, answer_update_of_ne h, ih]

theorem lift_add (R : Roster α) (limits : Limits) (a : α) (p : Project) :
    R.list.lift (R.add limits a) p =
    match R.fault? a with
    | some fault => .error (.invalidInput fault)
    | none =>
      if R.limit limits ≤ (R.list.get p).length then .error (R.full (R.limit limits))
      else if ((R.list.get p).find? (R.name · == R.name a)).isSome then
        .error (.duplicateName R.kind (R.name a))
      else .ok (R.normalized a, R.list.set p (R.list.get p ++ [R.normalized a])) := by
  have htaken : ((R.list.get p).find? (R.name · == R.name a)).isSome = true ↔
      R.name a ∈ (R.list.get p).map R.name := by simp
  simp only [Facet.lift, add, verdict, List.length_map, htaken]
  split
  · rfl
  · split_ifs <;> rfl

/-- All that an accepted record tells: it passed each check and stands behind the others. -/
theorem lift_add_eq_ok (R : Roster α) {p q : Project}
    (h : R.list.lift (R.add limits a) p = .ok (b, q)) :
    R.fault? a = none ∧ (R.list.get p).length < R.limit limits ∧
      (∀ c ∈ R.list.get p, R.name c ≠ R.name a) ∧ b = R.normalized a ∧
        q = R.list.set p (R.list.get p ++ [R.normalized a]) := by
  obtain ⟨r, hadd, hq⟩ := map_eq_ok_iff.mp h
  obtain ⟨c, hverdict, rfl⟩ := map_eq_ok_iff.mp hadd
  obtain ⟨rfl, rfl⟩ := Prod.mk.inj hq
  obtain ⟨rfl, hfault, hroom, hnew⟩ := verdict_eq_ok_iff.mp hverdict
  exact ⟨hfault, by simpa using hroom, by simpa using hnew, rfl, rfl⟩

theorem lift_update_eq_ok (R : Roster α) {p q : Project}
    (h : R.list.lift (R.update n f) p = .ok (b, q)) :
    ∃ before a after, R.list.get p = before ++ a :: after ∧ (∀ x ∈ before, R.name x ≠ n) ∧
      R.name a = n ∧ f a = .ok b ∧ q = R.list.set p (before ++ b :: after) := by
  obtain ⟨r, hupdate, hq⟩ := map_eq_ok_iff.mp h
  obtain ⟨rfl, rfl⟩ := Prod.mk.inj hq
  rw [update] at hupdate
  split at hupdate
  · cases hupdate
  · cases hupdate
  · rename_i r' hfirst
    obtain rfl := Except.ok.inj hupdate
    obtain ⟨before, a, after, hlist, hbefore, ha, hf, hafter⟩ := updateFirst_eq_ok hfirst
    exact ⟨before, a, after, hlist, by simpa using hbefore, by simpa using ha, hf, by rw [hafter]⟩

def agents : Roster Agent where
  list := Project.agentList
  name := Agent.name
  fault? := Agent.fault?
  normalized := Agent.normalized
  kind := "agent"
  limit := Limits.maxAgents
  full := .agentLimitExceeded
  missing := .agentNotFound

def tools : Roster Tool where
  list := Project.toolList
  name := Tool.name
  fault? := Tool.fault?
  normalized := Tool.normalized
  kind := "tool"
  limit := Limits.maxTools
  full := .toolLimitExceeded
  missing := .toolNotFound

theorem agents_keepsName (patch : AgentPatch) : agents.KeepsName (·.applyPatch patch) := by
  intro a b h
  rw [(Agent.applyPatch_eq_ok_iff.mp h).2]
  rfl

theorem tools_keepsName (patch : ToolPatch) : tools.KeepsName (·.applyPatch patch) := by
  intro t u h
  rw [(Tool.applyPatch_eq_ok_iff.mp h).2]
  rfl

end Roster

namespace Project

theorem planAgent_eq_lift (limits : Limits) (agent : Agent) :
    planAgent limits agent = agentList.lift (Roster.agents.add limits agent) :=
  funext fun p => (Roster.agents.lift_add limits agent p).symm

theorem planTool_eq_lift (limits : Limits) (tool : Tool) :
    planTool limits tool = toolList.lift (Roster.tools.add limits tool) :=
  funext fun p => (Roster.tools.lift_add limits tool p).symm

theorem planAgentUpdate_eq_lift (name : String) (patch : AgentPatch) :
    planAgentUpdate name patch =
      agentList.lift (Roster.agents.update name (·.applyPatch patch)) := by
  funext p
  rcases h : updateFirst (·.name == name) (·.applyPatch patch) p.agents with _ | _ | _ <;>
    simp only [planAgentUpdate, Facet.lift, Roster.update, Roster.agents, agentList, h, Except.map]

theorem planToolUpdate_eq_lift (name : String) (patch : ToolPatch) :
    planToolUpdate name patch = toolList.lift (Roster.tools.update name (·.applyPatch patch)) := by
  funext p
  rcases h : updateFirst (·.name == name) (·.applyPatch patch) p.tools with _ | _ | _ <;>
    simp only [planToolUpdate, Facet.lift, Roster.update, Roster.tools, toolList, h, Except.map]

end Project
end AgentAssembly

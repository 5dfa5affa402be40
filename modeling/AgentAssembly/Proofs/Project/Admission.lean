import Mathlib.Data.List.Induction
import AgentAssembly.Proofs.Project.Revision

/-!
Admission under limits. Main statement: a project that starts without records of a kind holds,
after any revisions, the first names of those asked for, each once and as many as the limit allows;
what the next request is answered can be told from these.
-/

namespace AgentAssembly

namespace Roster

variable {α : Type} {R : Roster α} {limits : Limits} {requests held : List α} {a : α}
  {answer : Timestamp → α → Except ProjectError α}

def asked (R : Roster α) (requests : List α) : List String :=
  (requests.filter fun a => (R.fault? a).isNone).map R.name

/-- The names that come in: those asked for, each once and as many as the limit allows. -/
def admitted (R : Roster α) (limits : Limits) (requests : List α) : List String :=
  (distinct (R.asked requests)).take (R.limit limits)

def joined (R : Roster α) (limits : Limits) (taken : List String) (a : α) : List String :=
  match R.verdict limits a taken with
  | .ok b => taken ++ [R.name b]
  | .error _ => taken

/-- What requests to an empty list make of it, and how the next request is answered. -/
structure Admits (R : Roster α) (limits : Limits) (requests held : List α)
    (answer : Timestamp → α → Except ProjectError α) : Prop where
  names : held.map R.name = R.admitted limits requests
  invalid : ∀ now a fault, answer now a = .error (.invalidInput fault) ↔ R.fault? a = some fault
  /-- This comes before the look at the name, so the name may be a stored one. -/
  full : ∀ now a n, answer now a = .error (R.full n) ↔
    n = R.limit limits ∧ R.fault? a = none ∧ held.length = R.limit limits
  duplicate : ∀ now a kind name, answer now a = .error (.duplicateName kind name) ↔
    kind = R.kind ∧ name = R.name a ∧ R.fault? a = none ∧ held.length ≠ R.limit limits ∧
      R.name a ∈ held.map R.name
  success : ∀ now a b, answer now a = .ok b ↔
    b = R.normalized a ∧ R.fault? a = none ∧ held.length ≠ R.limit limits ∧
      R.name a ∉ held.map R.name

theorem names_after_add (R : Roster α) (limits : Limits) (a : α) (l : List α) :
    ((R.add limits a).after l).map R.name = R.joined limits (l.map R.name) a := by
  cases h : R.verdict limits a (l.map R.name) with
  | error e => simp only [after_add_of_error h, joined, h]
  | ok b => simp only [after_add_of_ok h, joined, h, List.map_append, List.map_singleton]

/-- One more request takes the names that are in to those that come in with it. -/
theorem joined_admitted (R : Roster α) (limits : Limits) (requests : List α) (a : α) :
    R.joined limits (R.admitted limits requests) a = R.admitted limits (requests ++ [a]) := by
  cases hfault : R.fault? a with
  | some fault => simp [joined, verdict, admitted, asked, hfault]
  | none =>
    have hasked : R.asked (requests ++ [a]) = R.asked requests ++ [R.name a] := by
      simp [asked, hfault]
    rw [admitted, admitted, hasked, distinct_concat]
    obtain hroom | hfull := Nat.lt_or_ge (distinct (R.asked requests)).length (R.limit limits)
    · rw [List.take_of_length_le (Nat.le_of_lt hroom)]
      by_cases hname : R.name a ∈ R.asked requests
      · have hverdict : R.verdict limits a (distinct (R.asked requests)) =
            .error (.duplicateName R.kind (R.name a)) :=
          verdict_eq_duplicate_iff.mpr ⟨rfl, rfl, hfault, hroom, mem_distinct.mpr hname⟩
        simp only [joined, hverdict, if_pos hname, List.take_of_length_le (Nat.le_of_lt hroom)]
      · have hverdict : R.verdict limits a (distinct (R.asked requests)) = .ok (R.normalized a) :=
          verdict_eq_ok_iff.mpr ⟨rfl, hfault, hroom, mem_distinct.not.mpr hname⟩
        have hlength : (distinct (R.asked requests) ++ [R.name a]).length ≤ R.limit limits := by
          rw [List.length_append, List.length_singleton]
          exact hroom
        simp only [joined, hverdict, if_neg hname, R.name_normalized,
          List.take_of_length_le hlength]
    · have hverdict : R.verdict limits a ((distinct (R.asked requests)).take (R.limit limits)) =
          .error (R.full (R.limit limits)) :=
        verdict_eq_full_iff.mpr ⟨rfl, hfault, by simp [hfull]⟩
      simp only [joined, hverdict]
      split
      · rfl
      · rw [List.take_append_of_le_length hfull]

theorem admits_of_verdict (hnames : held.map R.name = R.admitted limits requests)
    (hanswer : ∀ now a, answer now a = R.verdict limits a (held.map R.name)) :
    R.Admits limits requests held answer := by
  have hlength : (held.map R.name).length = held.length := List.length_map ..
  have hlimit : held.length ≤ R.limit limits := by
    rw [← hlength, hnames, admitted, List.length_take]
    exact Nat.min_le_left ..
  have hfull : R.limit limits ≤ (held.map R.name).length ↔ held.length = R.limit limits := by omega
  have hroom : (held.map R.name).length < R.limit limits ↔ held.length ≠ R.limit limits := by omega
  constructor
  · exact hnames
  · exact fun now a fault => by rw [hanswer, verdict_eq_invalid_iff]
  · exact fun now a n => by rw [hanswer, verdict_eq_full_iff, hfull]
  · exact fun now a kind name => by rw [hanswer, verdict_eq_duplicate_iff, hroom]
  · exact fun now a b => by rw [hanswer, verdict_eq_ok_iff, hroom]

end Roster

structure Turn where
  now : Timestamp
  revision : Revision

namespace Revision

variable {r : Revision} {limits : Limits} {now : Timestamp}

def agent? : Revision → Option Agent
  | addAgent agent => some agent
  | _ => none

def tool? : Revision → Option Tool
  | addTool tool => some tool
  | _ => none

theorem answer_edit (r : Revision) (limits : Limits) (now : Timestamp) (p : Project) :
    (r.edit limits now p).1 = (r.plan limits).answer (r.topic.facet.get p) := by
  rw [edit_eq, (Facet.ofPlan_lift r.topic.independent_updateTime (r.plan limits) now rfl).1,
    Facet.answer_lift]

theorem get_edit (t : Topic) (r : Revision) (limits : Limits) (now : Timestamp) (p : Project) :
    t.facet.get (r.edit limits now p).2 =
      t.facet.get (r.topic.facet.set p ((r.plan limits).after (r.topic.facet.get p))) := by
  have hrest := (Facet.ofPlan_lift r.topic.independent_updateTime (r.plan limits) now
    (rfl : p.undated = p.undated)).2
  rw [edit_eq, Facet.get_eq_of_undated t.independent_updateTime hrest, Facet.after_lift]

/-- Agents come in by requests for them alone; no other revision touches their names. -/
theorem agentNames_edit (r : Revision) (limits : Limits) (now : Timestamp) (p : Project) :
    (r.edit limits now p).2.agentNames =
      r.agent?.elim p.agentNames (Roster.agents.joined limits p.agentNames) := by
  have hagents := congrArg (List.map Agent.name) (get_edit .agents r limits now p)
  cases r with
  | addAgent agent => exact hagents.trans (Roster.agents.names_after_add limits agent p.agents)
  | updateAgent name patch =>
    exact hagents.trans (Roster.names_after_update (Roster.agents_keepsName patch))
  | _ => exact hagents

theorem toolNames_edit (r : Revision) (limits : Limits) (now : Timestamp) (p : Project) :
    (r.edit limits now p).2.toolNames =
      r.tool?.elim p.toolNames (Roster.tools.joined limits p.toolNames) := by
  have htools := congrArg (List.map Tool.name) (get_edit .tools r limits now p)
  cases r with
  | addTool tool => exact htools.trans (Roster.tools.names_after_add limits tool p.tools)
  | updateTool name patch =>
    exact htools.trans (Roster.names_after_update (Roster.tools_keepsName patch))
  | _ => exact htools

end Revision

def Project.revised (p : Project) (limits : Limits) (turns : List Turn) : Project :=
  turns.foldl (fun p t => (t.revision.edit limits t.now p).2) p

/-- Names that come in by requests alone are, after any revisions, those that are admitted. -/
theorem Roster.names_revised {α : Type} {R : Roster α} {limits : Limits} {p : Project}
    {names : Project → List String} {request? : Revision → Option α}
    (hstep : ∀ r now p, names (Revision.edit limits now r p).2 =
      (request? r).elim (names p) (R.joined limits (names p)))
    (hempty : names p = []) (turns : List Turn) :
    names (p.revised limits turns) =
      R.admitted limits (turns.filterMap (request? ·.revision)) := by
  induction turns using List.reverseRecOn with
  | nil => simp [Project.revised, hempty, admitted, asked]
  | append_singleton turns t ih =>
    have hlast : p.revised limits (turns ++ [t]) =
        (t.revision.edit limits t.now (p.revised limits turns)).2 := by
      rw [Project.revised, List.foldl_concat, Project.revised]
    rw [hlast, hstep, ih, List.filterMap_append]
    cases h : request? t.revision with
    | none => simp [h]
    | some a => simp [h, joined_admitted]

namespace Project

/-- Admission under limits is told by the requests alone, whatever else is done to the project in
between. -/
theorem admission_under_limits (limits : Limits) (p : Project) (turns : List Turn) :
    (p.agents = [] → Roster.agents.Admits limits (turns.filterMap (·.revision.agent?))
      (p.revised limits turns).agents
      fun now agent => (addAgent now limits agent (p.revised limits turns)).1) ∧
    (p.tools = [] → Roster.tools.Admits limits (turns.filterMap (·.revision.tool?))
      (p.revised limits turns).tools
      fun now tool => (addTool now limits tool (p.revised limits turns)).1) := by
  refine ⟨fun hagents => Roster.admits_of_verdict ?_ fun now agent => ?_,
    fun htools => Roster.admits_of_verdict ?_ fun now tool => ?_⟩
  · have hempty : p.agentNames = [] := by rw [agentNames, hagents, List.map_nil]
    exact Roster.names_revised (fun r now p => r.agentNames_edit limits now p) hempty turns
  · exact (Revision.answer_edit (.addAgent agent) limits now _).trans Roster.answer_add
  · have hempty : p.toolNames = [] := by rw [toolNames, htools, List.map_nil]
    exact Roster.names_revised (fun r now p => r.toolNames_edit limits now p) hempty turns
  · exact (Revision.answer_edit (.addTool tool) limits now _).trans Roster.answer_add

def narrow : Limits := { maxAgents := 2, maxTools := 0 }

def opening : List Turn :=
  [⟨⟨1⟩, .addAgent { name := "guide", model := "m" }⟩,
    ⟨⟨2⟩, .addAgent { name := "ghost" }⟩,
    ⟨⟨3⟩, .addAgent { name := "guide", model := "n" }⟩,
    ⟨⟨4⟩, .addTool (.generated "fetch" "return 1")⟩,
    ⟨⟨5⟩, .updateAgent "guide" { subAgents := some ["clerk"] }⟩,
    ⟨⟨6⟩, .addAgent { name := "clerk", model := "m" }⟩,
    ⟨⟨7⟩, .addAgent { name := "porter", model := "m" }⟩]

/-- With all places taken an agent is refused for the limit, even one of a stored name. -/
theorem admission_under_limits_opening :
    ((blank ⟨0⟩ ⟨0⟩ "Desk").revised narrow opening).agents.map (·.name) = ["guide", "clerk"] ∧
    ((blank ⟨0⟩ ⟨0⟩ "Desk").revised narrow opening).tools.map (·.name) = [] ∧
    (addAgent ⟨8⟩ narrow { name := "guide", model := "m" }
      ((blank ⟨0⟩ ⟨0⟩ "Desk").revised narrow opening)).1 = .error (.agentLimitExceeded 2) ∧
    (addTool ⟨8⟩ narrow (.generated "fetch" "return 1")
      ((blank ⟨0⟩ ⟨0⟩ "Desk").revised narrow opening)).1 = .error (.toolLimitExceeded 0) := by
  obtain ⟨hagents, htools⟩ := admission_under_limits narrow (blank ⟨0⟩ ⟨0⟩ "Desk") opening
  replace hagents := hagents rfl
  replace htools := htools rfl
  refine ⟨hagents.names.trans (by decide), htools.names.trans (by decide), ?_, ?_⟩
  · exact (hagents.full ..).mpr ⟨rfl, by decide, by decide⟩
  · exact (htools.full ..).mpr ⟨rfl, by decide, by decide⟩

end Project
end AgentAssembly

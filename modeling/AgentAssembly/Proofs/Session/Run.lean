import AgentAssembly.Proofs.Session.Store
import AgentAssembly.Session.Service

/-!
Runs of a store under a policy, one request after another. Main statement: whatever the requests
are and however they end, every project in the store obeys the rules of its fields and the limits.
-/

namespace AgentAssembly

structure Event where
  now : Timestamp
  fresh : Fresh
  request : Request
deriving DecidableEq

namespace Policy

variable {policy : Policy} {now : Timestamp} {fresh : Fresh} {store : Store} {e : Event}

/-- What a request asks of one session: an edit of its project, or a look at it. An agent without
a model is added with the default model. -/
def edit? (policy : Policy) (now : Timestamp) : Request → Option (String × Edit Reply)
  | .updateMetadata session patch =>
    some (session, (Project.mergeMetadata now patch).answering fun _ p => .metadata p.metadata)
  | .addAgent session agent =>
    let model := if Text.isBlank agent.model then policy.defaultModel else agent.model
    some (session, (Project.addAgent now policy.limits { agent with model }).answering
      fun a _ => .agent a)
  | .updateAgent session name patch =>
    some (session, (Project.updateAgent now name patch).answering fun a _ => .agent a)
  | .addTool session tool =>
    some (session, (Project.addTool now policy.limits tool).answering fun t _ => .tool t)
  | .updateTool session name patch =>
    some (session, (Project.updateTool now name patch).answering fun t _ => .tool t)
  | .updateBuildContext session patch =>
    some (session, (Project.updateBuildContext now patch).answering fun c _ => .buildContext c)
  | .getProject session => some (session, fun p => (.ok (.project p), p))
  | .getSummary session => some (session, fun p => (.ok (.summary p.summary), p))
  | .createProject _ | .deleteSession _ | .listSessions => none

theorem complete_eq (policy : Policy) (agent : Agent) : policy.complete agent =
    { agent with
      model := if Text.isBlank agent.model then policy.defaultModel else agent.model } := by
  rw [complete]
  split <;> rfl

theorem handle_of_edit? {request : Request} {session : String} {edit : Edit Reply}
    (h : policy.edit? now request = some (session, edit)) :
    policy.handle now fresh store request = store.update now session edit := by
  cases request with
  | getProject s =>
    obtain ⟨rfl, rfl⟩ := Prod.mk.inj (Option.some.inj h)
    exact Store.inspect_eq_update Reply.project
  | getSummary s =>
    obtain ⟨rfl, rfl⟩ := Prod.mk.inj (Option.some.inj h)
    exact Store.inspect_eq_update fun p => Reply.summary p.summary
  | createProject _ | deleteSession _ | listSessions => simp [edit?] at h
  | addAgent s agent =>
    obtain ⟨rfl, rfl⟩ := Prod.mk.inj (Option.some.inj h)
    rw [handle, complete_eq]
  | _ =>
    obtain ⟨rfl, rfl⟩ := Prod.mk.inj (Option.some.inj h)
    rfl

theorem edit?_keeps {request : Request} {session : String} {edit : Edit Reply}
    (h : policy.edit? now request = some (session, edit)) :
    edit.Keeps (Project.Lawful policy.limits) := by
  cases request with
  | createProject _ | deleteSession _ | listSessions => simp [edit?] at h
  | getProject s | getSummary s =>
    obtain ⟨-, rfl⟩ := Prod.mk.inj (Option.some.inj h)
    exact fun p hp => hp
  | updateMetadata s patch =>
    obtain ⟨-, rfl⟩ := Prod.mk.inj (Option.some.inj h)
    exact .answering (.mergeMetadata patch) _
  | addAgent s agent =>
    obtain ⟨-, rfl⟩ := Prod.mk.inj (Option.some.inj h)
    exact .answering (.addAgent _) _
  | updateAgent s name patch =>
    obtain ⟨-, rfl⟩ := Prod.mk.inj (Option.some.inj h)
    exact .answering (.updateAgent name patch) _
  | addTool s tool =>
    obtain ⟨-, rfl⟩ := Prod.mk.inj (Option.some.inj h)
    exact .answering (.addTool tool) _
  | updateTool s name patch =>
    obtain ⟨-, rfl⟩ := Prod.mk.inj (Option.some.inj h)
    exact .answering (.updateTool name patch) _
  | updateBuildContext s patch =>
    obtain ⟨-, rfl⟩ := Prod.mk.inj (Option.some.inj h)
    exact .answering (.updateBuildContext patch) _

def step (policy : Policy) (store : Store) (e : Event) : Store :=
  (policy.handle e.now e.fresh store e.request).2

def run (policy : Policy) (store : Store) (events : List Event) : Store :=
  events.foldl policy.step store

structure Holds (policy : Policy) (store : Store) : Prop where
  keyed : store.Keyed
  lawful : ∀ id session, store.sessions.get? id = some session →
    session.project.Lawful policy.limits

theorem Holds.empty (policy : Policy) (timeout : Nat) : policy.Holds { timeout } where
  keyed := by simp [Store.Keyed]
  lawful := by simp

theorem Holds.insert (h : policy.Holds store) {id : String} {project : Project}
    (hproject : project.Lawful policy.limits) : policy.Holds (store.insert now id project) := by
  constructor
  all_goals
    intro other session hget
    rw [Store.get?_insert] at hget
    split at hget
  · obtain rfl := Option.some.inj hget
    exact Eq.symm ‹other = id›
  · exact h.keyed other session hget
  · obtain rfl := Option.some.inj hget
    exact hproject
  · exact h.lawful other session hget

theorem Holds.of_erased {store' : Store} {id : String} (h : policy.Holds store)
    (hget : ∀ other, store'.sessions.get? other =
      if other = id then none else store.sessions.get? other) : policy.Holds store' := by
  have hkept : ∀ other session, store'.sessions.get? other = some session →
      store.sessions.get? other = some session := by
    intro other session hsession
    rw [hget] at hsession
    split at hsession
    · simp at hsession
    · exact hsession
  exact ⟨fun other session hsession => h.keyed other session (hkept other session hsession),
    fun other session hsession => h.lawful other session (hkept other session hsession)⟩

theorem Holds.update (h : policy.Holds store) {id : String} {edit : Edit Reply}
    (hedit : edit.Keeps (Project.Lawful policy.limits)) :
    policy.Holds (store.update now id edit).2 := by
  by_cases hgone : store.Gone now id
  · exact h.of_erased (Store.update_of_gone hgone edit).2
  · obtain ⟨session, hget, hlive⟩ := Store.not_gone_iff.mp hgone
    have hafter := (Store.update_of_live hget hlive edit).2
    have hlawful := h.lawful id session hget
    constructor
    all_goals
      intro other touched htouched
      rw [hafter] at htouched
      split at htouched
    · obtain rfl := Option.some.inj htouched
      exact (h.keyed id session hget).trans (Eq.symm ‹other = id›)
    · exact h.keyed other touched htouched
    · obtain rfl := Option.some.inj htouched
      show Project.Lawful policy.limits (if _ then _ else _)
      split
      · exact hedit _ hlawful
      · exact hlawful
    · exact h.lawful other touched htouched

theorem Holds.step (h : policy.Holds store) (e : Event) : policy.Holds (policy.step store e) := by
  rw [Policy.step]
  cases hedit : policy.edit? e.now e.request with
  | some target =>
    rw [handle_of_edit? hedit]
    exact h.update (edit?_keeps hedit)
  | none =>
    cases hrequest : e.request with
    | createProject name =>
      rw [handle]
      split
      · exact h
      · rename_i project hproject
        exact h.insert (.new hproject)
    | deleteSession session => exact h.of_erased fun _ => Store.get?_remove
    | listSessions => exact h
    | _ => simp [hrequest, edit?] at hedit

theorem Holds.run (h : policy.Holds store) (events : List Event) :
    policy.Holds (policy.run store events) := by
  induction events generalizing store with
  | nil => exact h
  | cons e rest ih => exact ih (h.step e)

/-- Every project that a run leaves in an empty store obeys the rules of its fields and the
limits. -/
theorem lawful_of_run (policy : Policy) (timeout : Nat) (events : List Event) {id : String}
    {session : Session} (h : (policy.run { timeout } events).sessions.get? id = some session) :
    session.project.Lawful policy.limits :=
  ((Holds.empty policy timeout).run events).lawful id session h

end Policy

/-- A project that is named, gets an agent without a model and a tool, refuses a second agent over
the limit and a blank requirement, and is renamed. -/
def deskRun : List Event :=
  [⟨⟨0⟩, ⟨"desk", ⟨0⟩⟩, .createProject "Desk"⟩,
   ⟨⟨1⟩, ⟨"", ⟨0⟩⟩, .addAgent "desk" { name := "Guide", tools := ["look up", "look up"] }⟩,
   ⟨⟨2⟩, ⟨"", ⟨0⟩⟩, .addAgent "desk" { name := "Planner", model := "m" }⟩,
   ⟨⟨3⟩, ⟨"", ⟨0⟩⟩, .addTool "desk" { name := "look up", imports := ["import re", "import re"] }⟩,
   ⟨⟨4⟩, ⟨"", ⟨0⟩⟩, .updateBuildContext "desk" { requirements := some [" "] }⟩,
   ⟨⟨5⟩, ⟨"", ⟨0⟩⟩, .updateMetadata "desk" (.ofList [("name", .text "Travel Desk")])⟩]

theorem Policy.lawful_of_deskRun :
    ∃ session, (Policy.run ⟨⟨1, 1⟩, "m"⟩ { timeout := 60 } deskRun).sessions.get? "desk" =
        some session ∧
      session.project.agentNames = ["Guide"] ∧ session.project.Lawful ⟨1, 1⟩ := by
  have hnames : ((Policy.run ⟨⟨1, 1⟩, "m"⟩ { timeout := 60 } deskRun).sessions.get? "desk").map
      (·.project.agentNames) = some ["Guide"] := by decide
  obtain ⟨session, hsession, hagents⟩ := Option.map_eq_some_iff.mp hnames
  exact ⟨session, hsession, hagents, lawful_of_run ⟨⟨1, 1⟩, "m"⟩ 60 deskRun hsession⟩

end AgentAssembly

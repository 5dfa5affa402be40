import Mathlib.Data.List.Induction
import AgentAssembly.Proofs.Project.Timeless
import AgentAssembly.Proofs.Session.Run

/-!
Sessions do not see each other. Main statement: in a run with fresh identifiers whose sessions
never expire, each session answers and stores what its own requests make of one project alone,
from its creation until it is deleted; before and after it is unknown.
-/

namespace AgentAssembly

def Request.target? : Request → Option String
  | .updateMetadata session _ | .addAgent session _ | .updateAgent session _ _
  | .addTool session _ | .updateTool session _ _ | .updateBuildContext session _
  | .getProject session | .getSummary session => some session
  | .createProject _ | .deleteSession _ | .listSessions => none

def Summary.timeless (s : Summary) : Summary :=
  { s with projectId := ⟨0⟩, createdAt := ⟨0⟩, updatedAt := ⟨0⟩ }

def Reply.timeless : Reply → Reply
  | .project p => .project p.timeless
  | .summary s => .summary s.timeless
  | reply => reply

structure Event.Opens (e : Event) (session name : String) : Prop where
  request : e.request = .createProject name
  accepted : projectNameFault? name = none
  fresh : e.fresh.session = session

def Event.opened? (e : Event) : Option String :=
  match e.request with
  | .createProject name => if (projectNameFault? name).isNone then some e.fresh.session else none
  | _ => none

theorem Event.Opens.opened? {e : Event} {session name : String} (h : e.Opens session name) :
    e.opened? = some session := by
  simp [Event.opened?, h.request, h.accepted, h.fresh]

/-- The requests that concern the project of a session, each with its reading of the clock. -/
def ownSteps (session : String) (events : List Event) : List (Timestamp × Request) :=
  (events.filter (·.request.target? = some session)).map fun e => (e.now, e.request)

/-- The run has opened a session and not deleted it since; these requests concerned it. -/
def IsOpen (events : List Event) (session name : String) (requests : List Request) : Prop :=
  ∃ before e after, events = before ++ e :: after ∧ e.Opens session name ∧
    (∀ d ∈ after, d.request ≠ .deleteSession session) ∧
      (ownSteps session after).map (·.2) = requests

def IsDeleted (events : List Event) (session : String) : Prop :=
  ∃ before d after, events = before ++ d :: after ∧ d.request = .deleteSession session ∧
    ∃ e ∈ before, ∃ name, e.Opens session name

def IsUnknown (events : List Event) (session : String) : Prop :=
  ∀ e ∈ events, ∀ name, ¬ e.Opens session name

namespace Policy

variable {policy : Policy} {store : Store} {e : Event} {s : String}

def act (policy : Policy) (p : Project) (step : Timestamp × Request) : Project :=
  match policy.edit? step.1 step.2 with
  | some (_, edit) => (edit p).2
  | none => p

/-- What requests make of a new project with no store around it, at some readings of the clock. -/
def Standalone (policy : Policy) (name : String) (requests : List Request) (p : Project) : Prop :=
  ∃ (id : Uuid) (now : Timestamp) (new : Project) (steps : List (Timestamp × Request)),
    Project.new id now name = .ok new ∧ steps.map (·.2) = requests ∧
      steps.foldl policy.act new = p

def Awake (policy : Policy) : Store → List Event → Prop
  | _, [] => True
  | store, e :: rest =>
    (∀ session ∈ store.sessions.values, session.isExpiredAt e.now = false) ∧
      policy.Awake (policy.step store e) rest

instance decidableAwake (policy : Policy) (store : Store) (events : List Event) :
    Decidable (policy.Awake store events) :=
  match events with
  | [] => .isTrue trivial
  | e :: rest =>
    have := decidableAwake policy (policy.step store e) rest
    inferInstanceAs (Decidable (_ ∧ _))

/-- No two sessions get one identifier, and none is ever idle beyond its timeout. -/
structure Orderly (policy : Policy) (timeout : Nat) (events : List Event) : Prop where
  fresh : (events.filterMap (·.opened?)).Nodup
  awake : policy.Awake { timeout } events

theorem edit?_fst (policy : Policy) (now : Timestamp) (request : Request) :
    (policy.edit? now request).map (·.1) = request.target? := by
  cases request <;> rfl

theorem exists_edit? (policy : Policy) {request : Request} (now : Timestamp)
    (h : request.target? = some s) : ∃ edit, policy.edit? now request = some (s, edit) := by
  rw [← edit?_fst policy now] at h
  obtain ⟨⟨session, edit⟩, hedit, rfl⟩ := Option.map_eq_some_iff.mp h
  exact ⟨edit, hedit⟩

theorem target?_of_edit? {request : Request} {now : Timestamp} {edit : Edit Reply}
    (h : policy.edit? now request = some (s, edit)) : request.target? = some s := by
  rw [← edit?_fst policy now, h]
  rfl

theorem run_append (policy : Policy) (store : Store) (events more : List Event) :
    policy.run store (events ++ more) = policy.run (policy.run store events) more :=
  List.foldl_append

theorem run_concat (policy : Policy) (store : Store) (events : List Event) (e : Event) :
    policy.run store (events ++ [e]) = policy.step (policy.run store events) e :=
  run_append policy store events [e]

theorem awake_append {events more : List Event} : policy.Awake store (events ++ more) ↔
    policy.Awake store events ∧ policy.Awake (policy.run store events) more := by
  induction events generalizing store with
  | nil => simp [Awake, run]
  | cons e rest ih =>
    rw [List.cons_append, Awake, Awake, ih, and_assoc]
    rfl

section edits

variable {now now' : Timestamp} {request : Request} {edit edit' : Edit Reply}

theorem edit?_snd_of_error (h : policy.edit? now request = some (s, edit)) {p : Project}
    {fault : ProjectError} (hfault : (edit p).1 = .error fault) : (edit p).2 = p := by
  cases request with
  | createProject _ | deleteSession _ | listSessions => simp [edit?] at h
  | getProject _ | getSummary _ =>
    obtain ⟨-, rfl⟩ := Prod.mk.inj (Option.some.inj h)
    rfl
  | updateMetadata _ patch =>
    obtain ⟨-, rfl⟩ := Prod.mk.inj (Option.some.inj h)
    exact ((Project.allOrNothing_mergeMetadata patch).answering _).refused p fault hfault
  | addAgent _ agent =>
    obtain ⟨-, rfl⟩ := Prod.mk.inj (Option.some.inj h)
    exact ((Project.allOrNothing_addAgent policy.limits _).answering _).refused p fault hfault
  | updateAgent _ name patch =>
    obtain ⟨-, rfl⟩ := Prod.mk.inj (Option.some.inj h)
    exact ((Project.allOrNothing_updateAgent name patch).answering _).refused p fault hfault
  | addTool _ tool =>
    obtain ⟨-, rfl⟩ := Prod.mk.inj (Option.some.inj h)
    exact ((Project.allOrNothing_addTool policy.limits tool).answering _).refused p fault hfault
  | updateTool _ name patch =>
    obtain ⟨-, rfl⟩ := Prod.mk.inj (Option.some.inj h)
    exact ((Project.allOrNothing_updateTool name patch).answering _).refused p fault hfault
  | updateBuildContext _ patch =>
    obtain ⟨-, rfl⟩ := Prod.mk.inj (Option.some.inj h)
    exact ((Project.allOrNothing_updateBuildContext patch).answering _).refused p fault hfault

theorem edit?_alike (h : policy.edit? now request = some (s, edit))
    (h' : policy.edit? now' request = some (s, edit')) : Edit.Alike Reply.timeless edit edit' := by
  cases request with
  | createProject _ | deleteSession _ | listSessions => simp [edit?] at h
  | getProject _ | getSummary _ =>
    obtain ⟨-, rfl⟩ := Prod.mk.inj (Option.some.inj h)
    obtain ⟨-, rfl⟩ := Prod.mk.inj (Option.some.inj h')
    exact Edit.Alike.view fun _ => rfl
  | updateMetadata _ patch =>
    obtain ⟨-, rfl⟩ := Prod.mk.inj (Option.some.inj h)
    obtain ⟨-, rfl⟩ := Prod.mk.inj (Option.some.inj h')
    rw [Project.mergeMetadata_eq_ofPlan, Project.mergeMetadata_eq_ofPlan]
    exact .ofPlan (Project.planMetadata_timeless patch) now now' fun _ _ => rfl
  | addAgent _ agent =>
    obtain ⟨-, rfl⟩ := Prod.mk.inj (Option.some.inj h)
    obtain ⟨-, rfl⟩ := Prod.mk.inj (Option.some.inj h')
    rw [Project.addAgent_eq_ofPlan, Project.addAgent_eq_ofPlan]
    exact .ofPlan (Project.planAgent_timeless _) now now' fun _ _ => rfl
  | updateAgent _ name patch =>
    obtain ⟨-, rfl⟩ := Prod.mk.inj (Option.some.inj h)
    obtain ⟨-, rfl⟩ := Prod.mk.inj (Option.some.inj h')
    rw [Project.updateAgent_eq_ofPlan, Project.updateAgent_eq_ofPlan]
    exact .ofPlan (Project.planAgentUpdate_timeless name patch) now now' fun _ _ => rfl
  | addTool _ tool =>
    obtain ⟨-, rfl⟩ := Prod.mk.inj (Option.some.inj h)
    obtain ⟨-, rfl⟩ := Prod.mk.inj (Option.some.inj h')
    rw [Project.addTool_eq_ofPlan, Project.addTool_eq_ofPlan]
    exact .ofPlan (Project.planTool_timeless tool) now now' fun _ _ => rfl
  | updateTool _ name patch =>
    obtain ⟨-, rfl⟩ := Prod.mk.inj (Option.some.inj h)
    obtain ⟨-, rfl⟩ := Prod.mk.inj (Option.some.inj h')
    rw [Project.updateTool_eq_ofPlan, Project.updateTool_eq_ofPlan]
    exact .ofPlan (Project.planToolUpdate_timeless name patch) now now' fun _ _ => rfl
  | updateBuildContext _ patch =>
    obtain ⟨-, rfl⟩ := Prod.mk.inj (Option.some.inj h)
    obtain ⟨-, rfl⟩ := Prod.mk.inj (Option.some.inj h')
    rw [Project.updateBuildContext_eq_ofPlan, Project.updateBuildContext_eq_ofPlan]
    exact .ofPlan (Project.planBuildContext_timeless patch) now now' fun _ _ => rfl

theorem act_timeless {p q : Project} (h : p.timeless = q.timeless) (now now' : Timestamp)
    (request : Request) :
    (policy.act p (now, request)).timeless = (policy.act q (now', request)).timeless := by
  cases htarget : request.target? with
  | none =>
    have hnone : ∀ t, policy.edit? t request = none := fun t => by
      have hfst := edit?_fst policy t request
      rw [htarget] at hfst
      exact Option.map_eq_none_iff.mp hfst
    simpa only [act, hnone] using h
  | some session =>
    obtain ⟨edit, hedit⟩ := exists_edit? policy now htarget
    obtain ⟨edit', hedit'⟩ := exists_edit? policy now' htarget
    simpa only [act, hedit, hedit'] using (edit?_alike hedit hedit' p q h).2

end edits

section steps

variable {now : Timestamp} {fresh : Fresh} {edit : Edit Reply} {p : Project} {name : String}

theorem new_eq_ok_iff {id : Uuid} : Project.new id now name = .ok p ↔
    projectNameFault? name = none ∧ p = .blank id now name := by
  cases hname : projectNameFault? name with
  | none => simp [Project.new, hname, eq_comm]
  | some fault => simp [Project.new, hname]

theorem handle_of_opens (h : e.Opens s name) :
    policy.handle e.now e.fresh store e.request =
      (.ok (.created s), store.insert e.now s (.blank e.fresh.project e.now name)) := by
  simp only [h.request, handle, new_eq_ok_iff.mpr ⟨h.accepted, rfl⟩, h.fresh]

theorem project?_step_of_opens (h : e.Opens s name) :
    (policy.step store e).project? s = some (.blank e.fresh.project e.now name) := by
  rw [step, handle_of_opens h, Store.project?, Store.get?_insert, if_pos rfl]
  rfl

theorem project?_step_of_delete (h : e.request = .deleteSession s) :
    (policy.step store e).project? s = none := by
  rw [step, h, Store.project?]
  exact Option.map_eq_none_iff.mpr (Store.get?_remove.trans (if_pos rfl))

theorem handle_of_stored
    (hawake : ∀ session ∈ store.sessions.values, session.isExpiredAt now = false)
    {request : Request} (hedit : policy.edit? now request = some (s, edit))
    (hp : store.project? s = some p) :
    (policy.handle now fresh store request).1 = (edit p).1.mapError .project ∧
      ∀ other, (policy.handle now fresh store request).2.project? other =
        if other = s then some (edit p).2 else store.project? other := by
  obtain ⟨session, hget, rfl⟩ := Option.map_eq_some_iff.mp hp
  obtain ⟨hresult, hafter⟩ := Store.update_of_live hget
    (hawake session (Dict.mem_values_of_get? hget)) edit
  rw [handle_of_edit? hedit]
  refine ⟨hresult, fun other => ?_⟩
  rw [Store.project?, hafter]
  split
  · cases hfault : (edit session.project).1 with
    | error fault => simp [Except.isOk, Except.toBool, edit?_snd_of_error hedit hfault]
    | ok reply => simp [Except.isOk, Except.toBool]
  · rfl

theorem handle_of_not_stored {request : Request}
    (hedit : policy.edit? now request = some (s, edit)) (hnone : store.project? s = none) :
    (policy.handle now fresh store request).1 = .error (.sessionNotFound s) ∧
      ∀ other, (policy.handle now fresh store request).2.project? other =
        store.project? other := by
  have hget : store.sessions.get? s = none := Option.map_eq_none_iff.mp hnone
  have hgone : store.Gone now s := by simp [Store.Gone, hget]
  obtain ⟨hresult, hafter⟩ := Store.update_of_gone hgone edit
  rw [handle_of_edit? hedit]
  refine ⟨hresult, fun other => ?_⟩
  rw [Store.project?, hafter]
  split
  · rename_i hother
    rw [hother, hnone]
    rfl
  · rfl

/-- An event that is not about the session, and does not open it, leaves its project alone. -/
theorem project?_step_of_untargeted (hopens : ∀ name, ¬ e.Opens s name)
    (hdelete : e.request ≠ .deleteSession s) (htarget : e.request.target? = none) :
    (policy.step store e).project? s = store.project? s := by
  rw [step]
  cases hrequest : e.request with
  | createProject name =>
    rw [handle]
    split
    · rfl
    · rename_i project hproject
      have haccepted := (new_eq_ok_iff.mp hproject).1
      have hother : s ≠ e.fresh.session := fun hs => hopens name ⟨hrequest, haccepted, hs.symm⟩
      rw [Store.project?, Store.get?_insert, if_neg hother]
      rfl
  | deleteSession session =>
    have hother : s ≠ session := fun hs => hdelete (hs ▸ hrequest)
    exact congrArg (Option.map _) (Store.get?_remove.trans (if_neg hother))
  | listSessions => rfl
  | _ => simp [hrequest, Request.target?] at htarget

/-- An event that neither opens a session nor deletes it acts on its project or leaves it alone. -/
theorem project?_step_of_other
    (hawake : ∀ session ∈ store.sessions.values, session.isExpiredAt e.now = false)
    (hopens : ∀ name, ¬ e.Opens s name) (hdelete : e.request ≠ .deleteSession s) :
    (policy.step store e).project? s =
      if e.request.target? = some s then (store.project? s).map (policy.act · (e.now, e.request))
      else store.project? s := by
  cases htarget : e.request.target? with
  | some session =>
    obtain ⟨edit, hedit⟩ := exists_edit? policy e.now htarget
    rw [step]
    cases hp : store.project? session with
    | none =>
      rw [(handle_of_not_stored hedit hp).2]
      split
      · rename_i hsame
        rw [← Option.some.inj hsame, hp]
        rfl
      · rfl
    | some p =>
      rw [(handle_of_stored hawake hedit hp).2]
      by_cases hsame : s = session
      · subst hsame
        simp [act, hedit, hp]
      · simp [hsame, Ne.symm hsame]
  | none =>
    rw [if_neg (by simp)]
    exact project?_step_of_untargeted hopens hdelete htarget

end steps

section runs

variable {events after : List Event} {timeout : Nat}

theorem project?_run_of_other (hawake : policy.Awake store after)
    (hopens : IsUnknown after s) (hdelete : ∀ d ∈ after, d.request ≠ .deleteSession s) :
    (policy.run store after).project? s =
      (store.project? s).map fun p => (ownSteps s after).foldl policy.act p := by
  induction after generalizing store with
  | nil => simp [run, ownSteps]
  | cons e rest ih =>
    have hstep : (policy.step store e).project? s = _ :=
      project?_step_of_other hawake.1 (hopens e List.mem_cons_self) (hdelete e List.mem_cons_self)
    have hrest := ih hawake.2 (fun d hd => hopens d (List.mem_cons_of_mem _ hd))
      (fun d hd => hdelete d (List.mem_cons_of_mem _ hd))
    rw [run, List.foldl_cons, ← run, hrest, hstep]
    by_cases htarget : e.request.target? = some s
    · rw [if_pos htarget, Option.map_map]
      simp [ownSteps, htarget, Function.comp_def]
    · rw [if_neg htarget]
      simp [ownSteps, htarget]

theorem foldl_act_timeless {steps steps' : List (Timestamp × Request)}
    (hsteps : steps.map (·.2) = steps'.map (·.2)) {p q : Project} (h : p.timeless = q.timeless) :
    (steps.foldl policy.act p).timeless = (steps'.foldl policy.act q).timeless := by
  induction steps generalizing steps' p q with
  | nil =>
    cases steps' with
    | nil => exact h
    | cons step' rest' => simp at hsteps
  | cons step rest ih =>
    cases steps' with
    | nil => simp at hsteps
    | cons step' rest' =>
      obtain ⟨hrequest, hrest⟩ := List.cons.inj hsteps
      have hact : (policy.act p step).timeless = (policy.act q step').timeless := by
        have heq : step' = (step'.1, step.2) := Prod.ext rfl hrequest.symm
        rw [heq]
        exact act_timeless h step.1 step'.1 step.2
      exact ih hrest hact

theorem Standalone.timeless_eq {name : String} {requests : List Request} {p q : Project}
    (hp : policy.Standalone name requests p) (hq : policy.Standalone name requests q) :
    p.timeless = q.timeless := by
  obtain ⟨id, now, new, steps, hnew, hsteps, rfl⟩ := hp
  obtain ⟨id', now', new', steps', hnew', hsteps', rfl⟩ := hq
  refine foldl_act_timeless (hsteps.trans hsteps'.symm) ?_
  rw [Project.new] at hnew hnew'
  split at hnew
  · simp at hnew
  · rename_i hname
    rw [hname] at hnew'
    obtain rfl := Except.ok.inj hnew
    obtain rfl := Except.ok.inj hnew'
    rfl

theorem project?_run_of_none (hawake : policy.Awake store after)
    (hopens : IsUnknown after s) (hnone : store.project? s = none) :
    (policy.run store after).project? s = none := by
  induction after generalizing store with
  | nil => exact hnone
  | cons e rest ih =>
    refine ih hawake.2 (fun d hd => hopens d (List.mem_cons_of_mem _ hd)) ?_
    by_cases hdelete : e.request = .deleteSession s
    · exact project?_step_of_delete hdelete
    · rw [project?_step_of_other hawake.1 (hopens e List.mem_cons_self) hdelete, hnone]
      split <;> rfl

namespace Orderly

theorem unknown_after {before : List Event} {name : String}
    (h : policy.Orderly timeout (before ++ after)) (he : e ∈ before) (hopens : e.Opens s name) :
    IsUnknown after s := by
  intro d hd name' hd'
  have hdisjoint := (List.nodup_append.mp (List.filterMap_append ▸ h.fresh)).2.2
  exact hdisjoint s (List.mem_filterMap.mpr ⟨e, he, hopens.opened?⟩) s
    (List.mem_filterMap.mpr ⟨d, hd, hd'.opened?⟩) rfl

theorem prefix_of {before : List Event} (h : policy.Orderly timeout (before ++ after)) :
    policy.Orderly timeout before :=
  ⟨(List.nodup_append.mp (List.filterMap_append ▸ h.fresh)).1, (awake_append.mp h.awake).1⟩

theorem exists_standalone (h : policy.Orderly timeout events) {name : String}
    {requests : List Request} (hopen : IsOpen events s name requests) :
    ∃ p, (policy.run { timeout } events).project? s = some p ∧
      policy.Standalone name requests p := by
  obtain ⟨before, e, after, rfl, he, hdelete, rfl⟩ := hopen
  obtain ⟨-, hawake⟩ := awake_append.mp h.awake
  have hunknown : IsUnknown after s := by
    rw [List.append_cons] at h
    exact h.unknown_after (by simp) he
  have hproject := project?_run_of_other hawake.2 hunknown hdelete
  rw [project?_step_of_opens he, Option.map_some] at hproject
  exact ⟨_, by rw [run_append]; exact hproject,
    _, _, _, ownSteps s after, new_eq_ok_iff.mpr ⟨he.accepted, rfl⟩, rfl, rfl⟩

theorem project?_eq_none (h : policy.Orderly timeout events)
    (habsent : IsUnknown events s ∨ IsDeleted events s) :
    (policy.run { timeout } events).project? s = none := by
  obtain hunknown | ⟨before, d, after, rfl, hdelete, e, he, name, hopens⟩ := habsent
  · exact project?_run_of_none h.awake hunknown rfl
  · have hafter : IsUnknown after s := fun x hx =>
      h.unknown_after he hopens x (List.mem_cons_of_mem d hx)
    obtain ⟨-, hawake⟩ := awake_append.mp h.awake
    have hnone := project?_run_of_none hawake.2 hafter
      (project?_step_of_delete hdelete)
    rw [run_append]
    exact hnone

theorem exists_isOpen (h : policy.Orderly timeout events) {p : Project}
    (hp : (policy.run { timeout } events).project? s = some p) :
    ∃ name requests, IsOpen events s name requests := by
  induction events using List.reverseRecOn generalizing p with
  | nil => simp [run, Store.project?] at hp
  | append_singleton events e ih =>
    have hawake := (awake_append.mp h.awake).2.1
    rw [run_concat] at hp
    by_cases hopens : ∃ name, e.Opens s name
    · obtain ⟨name, hname⟩ := hopens
      exact ⟨name, _, events, e, [], rfl, hname, by simp, rfl⟩
    · have hdelete : e.request ≠ .deleteSession s := by
        intro hdelete
        rw [project?_step_of_delete hdelete] at hp
        simp at hp
      rw [project?_step_of_other hawake (not_exists.mp hopens) hdelete] at hp
      have hbefore : ∃ q, (policy.run { timeout } events).project? s = some q := by
        split at hp
        · obtain ⟨q, hq, -⟩ := Option.map_eq_some_iff.mp hp
          exact ⟨q, hq⟩
        · exact ⟨p, hp⟩
      obtain ⟨q, hq⟩ := hbefore
      obtain ⟨name, requests, before, c, after, rfl, hc, hkept, -⟩ := ih h.prefix_of hq
      refine ⟨name, _, before, c, after ++ [e], by simp, hc, ?_, rfl⟩
      simpa [or_imp, forall_and] using ⟨hkept, hdelete⟩

end Orderly

theorem list_of_awake (h : policy.Holds store) {now : Timestamp}
    (hawake : ∀ session ∈ store.sessions.values, session.isExpiredAt now = false) :
    (store.list now).Pairwise (fun a b => compare a.sessionId b.sessionId = .lt) ∧
      ∀ info, info ∈ store.list now ↔
        ∃ p, store.project? info.sessionId = some p ∧ info =
          ⟨info.sessionId, p.name, p.agents.length, p.tools.length, p.updatedAt⟩ := by
  have hentry : ∀ x ∈ store.sessions.entries,
      x.2.id = x.1 ∧ x.2.isExpiredAt now = false := fun x hx => by
    have hget : store.sessions.get? x.1 = some x.2 := Dict.get?_eq_some_iff.mpr hx
    exact ⟨h.keyed _ _ hget, hawake _ (Dict.mem_values_of_get? hget)⟩
  have hlist : store.list now = store.sessions.entries.map fun x => x.2.info := by
    rw [Store.list, Dict.values, List.filter_eq_self.mpr, List.map_map]
    · rfl
    · intro session hsession
      obtain ⟨x, hx, rfl⟩ := List.mem_map.mp hsession
      simpa using (hentry x hx).2
  rw [hlist]
  constructor
  · refine List.pairwise_map.mpr (store.sessions.sorted.imp_of_mem fun {x y} hx hy hlt => ?_)
    rw [Session.info, Session.info, (hentry x hx).1, (hentry y hy).1]
    exact hlt
  · intro info
    rw [List.mem_map]
    constructor
    · rintro ⟨x, hx, rfl⟩
      have hget : store.sessions.get? x.2.id = some x.2 := by
        rw [(hentry x hx).1]
        exact Dict.get?_eq_some_iff.mpr hx
      exact ⟨x.2.project, by simp [Store.project?, Session.info, hget], rfl⟩
    · rintro ⟨p, hp, hinfo⟩
      obtain ⟨session, hget, rfl⟩ := Option.map_eq_some_iff.mp hp
      refine ⟨_, Dict.get?_eq_some_iff.mp hget, ?_⟩
      rw [hinfo, Session.info, h.keyed _ _ hget]

/-- How an event is answered after a run, and what a creation does to the store: what concerns a
session is told by its own requests, whatever others there are. -/
structure Answers (policy : Policy) (before : List Event) (e : Event)
    (reply : Except StoreError Reply) (store store' : Store) : Prop where
  ofOpen : ∀ s name requests p now edit, IsOpen before s name requests →
    policy.Standalone name requests p → policy.edit? now e.request = some (s, edit) →
      reply.map Reply.timeless = ((edit p).1.mapError .project).map Reply.timeless
  ofAbsent : ∀ s, IsUnknown before s ∨ IsDeleted before s → e.request.target? = some s →
    reply = .error (.sessionNotFound s)
  deletesOpen : ∀ s name requests, IsOpen before s name requests →
    e.request = .deleteSession s → reply = .ok (.deleted true)
  deletesAbsent : ∀ s, IsUnknown before s ∨ IsDeleted before s →
    e.request = .deleteSession s → reply = .ok (.deleted false)
  created : ∀ s name, e.Opens s name → reply = .ok (.created s)
  refused : ∀ name fault, e.request = .createProject name → projectNameFault? name = some fault →
    reply = .error (.project (.invalidInput fault)) ∧ store' = store
  listed : e.request = .listSessions → ∃ infos, reply = .ok (.sessions infos) ∧
    infos.Pairwise (fun a b => compare a.sessionId b.sessionId = .lt) ∧
    (∀ s, (∃ info ∈ infos, info.sessionId = s) ↔ ∃ name requests, IsOpen before s name requests) ∧
    ∀ info ∈ infos, ∀ name requests p, IsOpen before info.sessionId name requests →
      policy.Standalone name requests p →
        info.name = p.name ∧ info.agentCount = p.agents.length ∧ info.toolCount = p.tools.length

theorem Orderly.answers {before : List Event} (h : policy.Orderly timeout (before ++ e :: after)) :
    policy.Answers before e
      (policy.handle e.now e.fresh (policy.run { timeout } before) e.request).1
      (policy.run { timeout } before)
      (policy.handle e.now e.fresh (policy.run { timeout } before) e.request).2 := by
  have hbefore : policy.Orderly timeout before := h.prefix_of
  have hholds := (Holds.empty policy timeout).run before
  have hawake := (awake_append.mp h.awake).2.1
  have hpresent : ∀ s, ((policy.run { timeout } before).delete s).1 =
      ((policy.run { timeout } before).project? s).isSome := fun s => by
    simp [Store.delete, Dict.contains, Store.project?]
  constructor
  · intro s name requests p now edit hopen hp hedit
    obtain ⟨stored, hstored, hsolo⟩ := hbefore.exists_standalone hopen
    obtain ⟨edit', hedit'⟩ := exists_edit? policy e.now (target?_of_edit? hedit)
    rw [(handle_of_stored hawake hedit' hstored).1]
    have hmap : ∀ r : Except ProjectError Reply,
        (r.mapError StoreError.project).map Reply.timeless =
          (r.map Reply.timeless).mapError .project := fun r => by cases r <;> rfl
    rw [hmap, hmap, (edit?_alike hedit' hedit stored p (hsolo.timeless_eq hp)).1]
  · intro s habsent htarget
    obtain ⟨edit, hedit⟩ := exists_edit? policy e.now htarget
    exact (handle_of_not_stored hedit (hbefore.project?_eq_none habsent)).1
  · intro s name requests hopen hdelete
    obtain ⟨p, hp, -⟩ := hbefore.exists_standalone hopen
    simp only [hdelete, handle, hpresent s, hp, Option.isSome_some]
  · intro s habsent hdelete
    simp only [hdelete, handle, hpresent s, hbefore.project?_eq_none habsent, Option.isSome_none]
  · intro s name hopens
    rw [handle_of_opens hopens]
  · intro name fault hrequest hfault
    simp [hrequest, handle, Project.new, hfault]
  · intro hrequest
    obtain ⟨hsorted, hmem⟩ := list_of_awake hholds hawake
    refine ⟨(policy.run { timeout } before).list e.now, ?_, hsorted, ?_, ?_⟩
    · simp only [hrequest, handle]
    · intro s
      constructor
      · rintro ⟨info, hinfo, rfl⟩
        obtain ⟨p, hp, -⟩ := (hmem info).mp hinfo
        exact hbefore.exists_isOpen hp
      · rintro ⟨name, requests, hopen⟩
        obtain ⟨p, hp, -⟩ := hbefore.exists_standalone hopen
        exact ⟨⟨s, p.name, p.agents.length, p.tools.length, p.updatedAt⟩,
          (hmem _).mpr ⟨p, hp, rfl⟩, rfl⟩
    · intro info hinfo name requests p hopen hp
      obtain ⟨q, hq, hshape⟩ := (hmem info).mp hinfo
      obtain ⟨stored, hstored, hsolo⟩ := hbefore.exists_standalone hopen
      obtain rfl : q = stored := Option.some.inj (hq.symm.trans hstored)
      have hsame : q.timeless = p.timeless := hsolo.timeless_eq hp
      have hname : q.timeless.name = p.timeless.name := by rw [hsame]
      have hagents : q.timeless.agents = p.timeless.agents := by rw [hsame]
      have htools : q.timeless.tools = p.timeless.tools := by rw [hsame]
      rw [hshape]
      exact ⟨hname, congrArg List.length hagents, congrArg List.length htools⟩

/-- In an orderly run the store is a family of independent projects. What is stored for an open
session is what its own requests make of one new project alone; that this is settled but for
identifier and times says `Standalone.timeless_eq`. A session that was never opened, or was
deleted, has no project; and each event is answered alike. -/
theorem sessions_independent (policy : Policy) {timeout : Nat} {events : List Event}
    (h : policy.Orderly timeout events) :
    (∀ s name requests, IsOpen events s name requests →
      ∃ stored, (policy.run { timeout } events).project? s = some stored ∧
        policy.Standalone name requests stored ∧
        ∀ p, policy.Standalone name requests p → stored.timeless = p.timeless) ∧
    (∀ s, IsUnknown events s ∨ IsDeleted events s →
      (policy.run { timeout } events).project? s = none) ∧
    ∀ before e after, events = before ++ e :: after →
      policy.Answers before e
        (policy.handle e.now e.fresh (policy.run { timeout } before) e.request).1
        (policy.run { timeout } before)
        (policy.handle e.now e.fresh (policy.run { timeout } before) e.request).2 := by
  refine ⟨?_, fun s habsent => h.project?_eq_none habsent, ?_⟩
  · intro s name requests hopen
    obtain ⟨stored, hstored, hsolo⟩ := h.exists_standalone hopen
    exact ⟨stored, hstored, hsolo, fun p hp => hsolo.timeless_eq hp⟩
  · intro before e after hevents
    subst hevents
    exact h.answers

end runs

end Policy

/-- Two sessions whose requests alternate; the first is deleted and asked for again. -/
def deskAndShop : List Event :=
  [⟨⟨0⟩, ⟨"desk", ⟨0⟩⟩, .createProject "Desk"⟩,
   ⟨⟨1⟩, ⟨"shop", ⟨1⟩⟩, .createProject "Shop"⟩,
   ⟨⟨2⟩, ⟨"", ⟨0⟩⟩, .addAgent "desk" { name := "Guide" }⟩,
   ⟨⟨3⟩, ⟨"", ⟨0⟩⟩, .addAgent "shop" { name := "Clerk" }⟩,
   ⟨⟨4⟩, ⟨"", ⟨0⟩⟩, .deleteSession "desk"⟩,
   ⟨⟨5⟩, ⟨"", ⟨0⟩⟩, .getProject "desk"⟩]

theorem Policy.sessions_independent_deskAndShop :
    ∃ stored, (Policy.run ⟨{}, "m"⟩ { timeout := 60 } deskAndShop).project? "shop" = some stored ∧
      Policy.Standalone ⟨{}, "m"⟩ "Shop" [.addAgent "shop" { name := "Clerk" }] stored ∧
      stored.agents = [{ name := "Clerk", model := "m" }] ∧
      (Policy.handle ⟨{}, "m"⟩ ⟨5⟩ ⟨"", ⟨0⟩⟩
        (Policy.run ⟨{}, "m"⟩ { timeout := 60 } (deskAndShop.take 5)) (.getProject "desk")).1 =
          .error (.sessionNotFound "desk") := by
  have horderly : Policy.Orderly ⟨{}, "m"⟩ 60 deskAndShop :=
    ⟨by decide, by decide⟩
  obtain ⟨hopen, -, hanswers⟩ := sessions_independent _ horderly
  have hshop : IsOpen deskAndShop "shop" "Shop" [.addAgent "shop" { name := "Clerk" }] :=
    ⟨deskAndShop.take 1, deskAndShop[1], deskAndShop.drop 2, rfl, ⟨rfl, by decide, rfl⟩,
      by decide, by decide⟩
  have hdesk : IsDeleted (deskAndShop.take 5) "desk" :=
    ⟨deskAndShop.take 4, deskAndShop[4], [], rfl, rfl, deskAndShop[0], by decide, "Desk",
      rfl, by decide, rfl⟩
  obtain ⟨stored, hstored, hsolo, -⟩ := hopen "shop" "Shop" _ hshop
  have hagents : ((Policy.run ⟨{}, "m"⟩ { timeout := 60 } deskAndShop).project? "shop").map
      (·.agents) = some [{ name := "Clerk", model := "m" }] := by decide
  rw [hstored] at hagents
  refine ⟨stored, hstored, hsolo, Option.some.inj hagents, ?_⟩
  exact (hanswers (deskAndShop.take 5) deskAndShop[5] [] rfl).ofAbsent "desk" (.inr hdesk) rfl

end AgentAssembly

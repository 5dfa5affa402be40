import AgentAssembly.Proofs.Project.Frame
import AgentAssembly.Session.Store

/-!
What the operations of a store do to its sessions. An update concerns the session of one
identifier and no other; it edits the project of a session that is live, and of one that is not it
leaves nothing. Main statement: every mutation is carried out whole or not at all, in a project and
in a store.
-/

namespace AgentAssembly.Store

variable {α : Type} {s : Store} {now : Timestamp} {id other : String} {session : Session}

def project? (s : Store) (id : String) : Option Project := (s.sessions.get? id).map (·.project)

/-- Each session stands under its own identifier. -/
def Keyed (s : Store) : Prop := ∀ id session, s.sessions.get? id = some session → session.id = id

theorem get?_put : (s.put id session).sessions.get? other =
    if other = id then some session else s.sessions.get? other := by
  simp [put, Dict.get?_insert]

theorem get?_remove : (s.remove id).sessions.get? other =
    if other = id then none else s.sessions.get? other := by
  by_cases h : other = id
  · simp [remove, Dict.get?_erase, h]
  · simp [remove, Dict.get?_erase, h, Ne.symm h]

theorem evict_of_held (h : s.sessions.get? id = some session) :
    s.evict id session = (true, s.remove id) := if_pos h

theorem get?_evict (s : Store) (id : String) (session : Session) (other : String) :
    (s.evict id session).2.sessions.get? other = s.sessions.get? other ∨
      s.sessions.get? other = some session ∧
        (s.evict id session).2.sessions.get? other = none := by
  by_cases hheld : s.sessions.get? id = some session
  · rw [evict_of_held hheld, get?_remove]
    by_cases hother : other = id
    · exact .inr ⟨hother ▸ hheld, if_pos hother⟩
    · exact .inl (if_neg hother)
  · rw [evict, if_neg hheld]
    exact .inl rfl

theorem get?_insert {project : Project} : (s.insert now id project).sessions.get? other =
    if other = id then some { id, project, lastActivity := now, timeout := s.timeout }
    else s.sessions.get? other := get?_put

def Gone (s : Store) (now : Timestamp) (id : String) : Prop :=
  ∀ session, s.sessions.get? id = some session → session.isExpiredAt now = true

theorem not_gone_iff : ¬ s.Gone now id ↔
    ∃ session, s.sessions.get? id = some session ∧ session.isExpiredAt now = false := by
  simp only [Gone, not_forall, Bool.not_eq_true, exists_prop]

/-- Whoever looks for a session that is gone learns so and leaves no trace of it. -/
theorem update_of_gone (h : s.Gone now id) (edit : Edit α) :
    (s.update now id edit).1 = .error (.sessionNotFound id) ∧
      ∀ other, (s.update now id edit).2.sessions.get? other =
        if other = id then none else s.sessions.get? other := by
  cases hget : s.sessions.get? id with
  | none =>
    have hupdate : s.update now id edit = (.error (.sessionNotFound id), s) := by
      simp [update, access, hget]
    rw [hupdate]
    refine ⟨rfl, fun other => ?_⟩
    by_cases hother : other = id
    · rw [if_pos hother, hother, hget]
    · rw [if_neg hother]
  | some session =>
    have hupdate : s.update now id edit = (.error (.sessionNotFound id), s.remove id) := by
      simp [update, access, hget, h session hget, evict_of_held]
    rw [hupdate]
    exact ⟨rfl, fun _ => get?_remove⟩

/-- A live session is touched, and its project is what the edit leads to if it succeeds. -/
theorem update_of_live (hget : s.sessions.get? id = some session)
    (hlive : session.isExpiredAt now = false) (edit : Edit α) :
    (s.update now id edit).1 = (edit session.project).1.mapError .project ∧
      ∀ other, (s.update now id edit).2.sessions.get? other =
        if other = id then
          some { session with
            lastActivity := now
            project := if (edit session.project).1.isOk then (edit session.project).2
              else session.project }
        else s.sessions.get? other := by
  have haccess : s.access now id = (.ok session, s) := by simp [access, hget, hlive]
  rw [update, haccess]
  cases hedit : edit session.project with
  | mk result project =>
    cases result with
    | error e =>
      refine ⟨by simp [hedit, Session.touched, Except.mapError], fun other => ?_⟩
      simp [hedit, Session.touched, get?_put, Except.isOk, Except.toBool]
    | ok a =>
      refine ⟨by simp [hedit, Session.touched, Except.mapError], fun other => ?_⟩
      simp [hedit, Session.touched, get?_put, Except.isOk, Except.toBool]

theorem inspect_eq_update (view : Project → α) :
    s.inspect now id view = s.update now id fun p => (.ok (view p), p) := by
  rw [inspect, update]
  split <;> simp_all [Session.touched]

section sweeps

variable {sessions : List Session}

theorem get?_evictExpired : (evictExpired now sessions s).2.sessions.get? id = s.sessions.get? id ∨
    s.Gone now id ∧ (evictExpired now sessions s).2.sessions.get? id = none := by
  induction sessions generalizing s with
  | nil => exact .inl rfl
  | cons session rest ih =>
    rw [evictExpired]
    split
    · rename_i hexpired
      show (evictExpired now rest (s.evict session.id session).2).2.sessions.get? id = _ ∨ _
      rcases get?_evict s session.id session id with hkept | ⟨hheld, hevicted⟩
      · rcases ih (s := (s.evict session.id session).2) with hrest | ⟨hgone, hrest⟩
        · exact .inl (hrest.trans hkept)
        · exact .inr ⟨fun held hget => hgone held (hkept.trans hget), hrest⟩
      · refine .inr ⟨fun held hget => ?_, ?_⟩
        · obtain rfl := Option.some.inj (hheld.symm.trans hget)
          exact hexpired
        · rcases ih (s := (s.evict session.id session).2) with hrest | ⟨-, hrest⟩
          · exact hrest.trans hevicted
          · exact hrest
    · exact ih

theorem timeout_evictExpired : (evictExpired now sessions s).2.timeout = s.timeout := by
  induction sessions generalizing s with
  | nil => rfl
  | cons session rest ih =>
    have hevict : (s.evict session.id session).2.timeout = s.timeout := by
      rw [evict]
      split <;> rfl
    rw [evictExpired]
    split
    · exact ih.trans hevict
    · exact ih

/-- The loop over sessions that stand under their own identifiers, each of them once, tells those
that have expired and leaves a store without them. -/
theorem evictExpired_eq (now : Timestamp)
    (hheld : ∀ session ∈ sessions, s.sessions.get? session.id = some session)
    (honce : (sessions.map (·.id)).Nodup) :
    (evictExpired now sessions s).1 = (sessions.filter (·.isExpiredAt now)).map (·.id) ∧
      ∀ id, (evictExpired now sessions s).2.sessions.get? id =
        if id ∈ (sessions.filter (·.isExpiredAt now)).map (·.id) then none
        else s.sessions.get? id := by
  induction sessions generalizing s with
  | nil => exact ⟨rfl, fun id => rfl⟩
  | cons session rest ih =>
    obtain ⟨hfirst, hrest⟩ := List.forall_mem_cons.mp hheld
    obtain ⟨hfresh, honce⟩ := List.nodup_cons.mp honce
    rw [evictExpired]
    split
    · rename_i hexpired
      have hafter : ∀ other ∈ rest, (s.remove session.id).sessions.get? other.id = some other := by
        intro other hother
        have hid : other.id ≠ session.id := fun h =>
          hfresh (List.mem_map.mpr ⟨other, hother, h⟩)
        rw [get?_remove, if_neg hid, hrest other hother]
      obtain ⟨htold, hleft⟩ := ih hafter honce
      rw [evict_of_held hfirst, List.filter_cons, if_pos hexpired, List.map_cons]
      refine ⟨congrArg (session.id :: ·) htold, fun id => (hleft id).trans ?_⟩
      rw [get?_remove]
      simp only [List.mem_cons, ite_or]
      split <;> split <;> simp_all
    · rename_i hlive
      rw [List.filter_cons, if_neg hlive]
      exact ih hrest honce

end sweeps

/-- Where the edit of a project fails every project of the store stands, whatever the edit did
before it failed; where it succeeds its result takes the place of that one project. -/
structure UpdatesOne (s : Store) (now : Timestamp) (id : String) (edit : Edit α) (p : Project) :
    Prop where
  failed : ∀ fault, (edit p).1 = .error fault →
    (s.update now id edit).1 = .error (.project fault) ∧
      ∀ other, (s.update now id edit).2.project? other = s.project? other
  succeeded : ∀ a, (edit p).1 = .ok a →
    (s.update now id edit).1 = .ok a ∧
      ∀ other, (s.update now id edit).2.project? other =
        if other = id then some (edit p).2 else s.project? other

theorem updatesOne_of_live (hget : s.sessions.get? id = some session)
    (hlive : session.isExpiredAt now = false) (edit : Edit α) :
    s.UpdatesOne now id edit session.project := by
  obtain ⟨hresult, hafter⟩ := update_of_live hget hlive edit
  have hstored : s.project? id = some session.project := by rw [project?, hget, Option.map_some]
  constructor
  · intro fault hfault
    rw [hfault] at hresult
    refine ⟨hresult, fun other => ?_⟩
    rw [project?, hafter]
    split
    · rename_i hother
      rw [hother, hstored, hfault]
      rfl
    · rfl
  · intro a ha
    rw [ha] at hresult
    refine ⟨hresult, fun other => ?_⟩
    rw [project?, hafter]
    split
    · rw [ha]
      rfl
    · rfl

/-- Every mutation is carried out whole or not at all. An edit of a project, whatever the project,
either changes nothing or renews the time of the last update and makes its one change. An edit of
any kind in a store either changes no project or puts its result in the place of one. -/
theorem edits_all_or_nothing :
    (∀ now patch, (Project.mergeMetadata now patch).AllOrNothing
      fun _ => Project.MetadataMerged now patch) ∧
    (∀ now limits agent, (Project.addAgent now limits agent).AllOrNothing
      (Project.AgentAppended now agent)) ∧
    (∀ now name patch, (Project.updateAgent now name patch).AllOrNothing
      (Project.AgentUpdated now name patch)) ∧
    (∀ now limits tool, (Project.addTool now limits tool).AllOrNothing
      (Project.ToolAppended now tool)) ∧
    (∀ now name patch, (Project.updateTool now name patch).AllOrNothing
      (Project.ToolUpdated now name patch)) ∧
    (∀ now patch, (Project.updateBuildContext now patch).AllOrNothing
      (Project.BuildContextUpdated now patch)) ∧
    ∀ (store : Store) (now : Timestamp) (id : String) (session : Session) (β : Type)
      (edit : Edit β), store.sessions.get? id = some session → session.isExpiredAt now = false →
        store.UpdatesOne now id edit session.project := by
  refine ⟨fun now patch => ?_, fun now limits agent => ?_, fun now name patch => ?_,
    fun now limits tool => ?_, fun now name patch => ?_, fun now patch => ?_, ?_⟩
  · exact Project.allOrNothing_mergeMetadata patch
  · exact Project.allOrNothing_addAgent limits agent
  · exact Project.allOrNothing_updateAgent name patch
  · exact Project.allOrNothing_addTool limits tool
  · exact Project.allOrNothing_updateTool name patch
  · exact Project.allOrNothing_updateBuildContext patch
  · intro store now id session β edit hget hlive
    exact updatesOne_of_live hget hlive edit

def deskStore : Store := Store.insert { timeout := 60 } ⟨0⟩ "desk" (.blank ⟨0⟩ ⟨0⟩ "Desk")

def renameAndFail : Edit Unit := do
  modify fun p => { p with name := "?" }
  throw (.agentNotFound "Guide")

theorem edits_all_or_nothing_deskStore :
    (deskStore.update ⟨1⟩ "desk" renameAndFail).1 = .error (.project (.agentNotFound "Guide")) ∧
      (deskStore.update ⟨1⟩ "desk" renameAndFail).2.project? "desk" =
        some (.blank ⟨0⟩ ⟨0⟩ "Desk") := by
  obtain ⟨-, -, -, -, -, -, hstore⟩ := edits_all_or_nothing
  have hupdates := hstore deskStore ⟨1⟩ "desk"
    { id := "desk", project := .blank ⟨0⟩ ⟨0⟩ "Desk", lastActivity := ⟨0⟩, timeout := 60 }
    Unit renameAndFail (by decide) (by decide)
  obtain ⟨hreply, hkept⟩ := hupdates.failed (.agentNotFound "Guide") rfl
  exact ⟨hreply, (hkept "desk").trans (by decide)⟩

end AgentAssembly.Store

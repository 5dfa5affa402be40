import Mathlib.Data.List.Induction
import AgentAssembly.Proofs.Session.Store

/-!
How long sessions live. Main statement: in a run of operations of a store on a clock that does not
go back, a session is found as long as it was not deleted and has not been idle beyond the timeout,
and from then on never again.
-/

namespace AgentAssembly

inductive Operation : Type 1
  | insert (id : String) (project : Project)
  | get (id : String)
  | update (id : String) {α : Type} (edit : Edit α)
  | inspect (id : String) {α : Type} (view : Project → α)
  | delete (id : String)
  | list
  | sweep

structure Call : Type 1 where
  now : Timestamp
  operation : Operation

def isFound {α : Type} : Except StoreError α → Bool
  | .error (.sessionNotFound _) => false
  | .error (.project _) | .ok _ => true

namespace Call

def opened? (c : Call) : Option String :=
  match c.operation with
  | .insert id _ => some id
  | _ => none

def renews (c : Call) (s : Store) (id : String) : Bool :=
  match c.operation with
  | .insert i _ => i == id
  | .get i => i == id && isFound (s.get c.now i).1
  | .update i edit => i == id && isFound (s.update c.now i edit).1
  | .inspect i view => i == id && isFound (s.inspect c.now i view).1
  | .delete _ | .list | .sweep => false

theorem renews_of_opened {c : Call} {s : Store} {id : String} (h : c.opened? = some id) :
    c.renews s id = true := by
  obtain ⟨now, operation⟩ := c
  cases operation with
  | insert i project => simpa [renews, opened?] using h
  | _ => simp [opened?] at h

end Call

def OpensOnce (calls : List Call) : Prop := (calls.filterMap (·.opened?)).Nodup

theorem OpensOnce.of_append {calls more : List Call} (h : OpensOnce (calls ++ more)) :
    OpensOnce calls := by
  rw [OpensOnce, List.filterMap_append, List.nodup_append] at h
  exact h.1

theorem OpensOnce.not_opened {calls : List Call} {c : Call} {id : String}
    (h : OpensOnce (calls ++ [c])) (hc : c.opened? = some id) :
    ∀ d ∈ calls, d.opened? ≠ some id := by
  intro d hd hopened
  rw [OpensOnce, List.filterMap_append, List.nodup_append] at h
  have hbefore : id ∈ calls.filterMap (·.opened?) := List.mem_filterMap.mpr ⟨d, hd, hopened⟩
  have hlast : id ∈ [c].filterMap (·.opened?) := by simp [hc]
  exact h.2.2 id hbefore id hlast rfl

/-- The calls have opened a session under the identifier and deleted it after that. -/
def WasDeleted (calls : List Call) (id : String) : Prop :=
  ∃ before d after, calls = before ++ d :: after ∧ d.operation = .delete id ∧
    ∃ c ∈ before, c.opened? = some id

theorem WasDeleted.opened {calls : List Call} {id : String} (h : WasDeleted calls id) :
    ∃ c ∈ calls, c.opened? = some id := by
  obtain ⟨before, d, after, rfl, -, c, hc, hopened⟩ := h
  exact ⟨c, List.mem_append_left _ hc, hopened⟩

theorem WasDeleted.append {calls : List Call} {id : String} (h : WasDeleted calls id)
    (more : List Call) : WasDeleted (calls ++ more) id := by
  obtain ⟨before, d, after, rfl, hdelete, hopened⟩ := h
  exact ⟨before, d, after ++ more, by simp, hdelete, hopened⟩

theorem WasDeleted.of_concat {calls : List Call} {c : Call} {id : String}
    (h : WasDeleted (calls ++ [c]) id) (hc : c.operation ≠ .delete id) : WasDeleted calls id := by
  obtain ⟨before, d, after, hcalls, hdelete, hopened⟩ := h
  cases after using List.reverseRecOn with
  | nil =>
    obtain ⟨-, hlast⟩ := List.append_inj' hcalls rfl
    obtain rfl : c = d := by simpa using hlast
    exact absurd hdelete hc
  | append_singleton after last =>
    have hsplit : calls ++ [c] = (before ++ d :: after) ++ [last] := by simpa using hcalls
    obtain ⟨rfl, -⟩ := List.append_inj' hsplit rfl
    exact ⟨before, d, after, rfl, hdelete, hopened⟩

namespace Store

variable {s : Store} {now later : Timestamp} {id : String} {session : Session} {timeout : Nat}

def step (s : Store) (c : Call) : Store :=
  match c.operation with
  | .insert id project => s.insert c.now id project
  | .get id => (s.get c.now id).2
  | .update id edit => (s.update c.now id edit).2
  | .inspect id view => (s.inspect c.now id view).2
  | .delete id => (s.delete id).2
  | .list => s
  | .sweep => (s.sweep c.now).2

def run (s : Store) (calls : List Call) : Store := calls.foldl step s

def lastActive? (id : String) : Store → List Call → Option Timestamp
  | _, [] => none
  | s, c :: rest =>
    (lastActive? id (s.step c) rest).or (if c.renews s id then some c.now else none)

theorem run_concat (s : Store) (calls : List Call) (c : Call) :
    s.run (calls ++ [c]) = (s.run calls).step c := List.foldl_concat ..

theorem lastActive?_concat (s : Store) (calls : List Call) (c : Call) :
    lastActive? id s (calls ++ [c]) =
      if c.renews (s.run calls) id then some c.now else lastActive? id s calls := by
  induction calls generalizing s with
  | nil => cases h : c.renews s id <;> simp [lastActive?, run, h]
  | cons d rest ih =>
    have hrun : s.run (d :: rest) = (s.step d).run rest := rfl
    rw [List.cons_append, lastActive?, ih, hrun, lastActive?]
    split <;> rfl

theorem lastActive?_of_renews {s : Store} {calls : List Call} {c : Call}
    (h : c.renews (s.run calls) id = true) : lastActive? id s (calls ++ [c]) = some c.now := by
  rw [lastActive?_concat, if_pos h]

theorem lastActive?_of_not_renews {s : Store} {calls : List Call} {c : Call}
    (h : c.renews (s.run calls) id = false) :
    lastActive? id s (calls ++ [c]) = lastActive? id s calls := by
  rw [lastActive?_concat, h, if_neg Bool.false_ne_true]

structure Reaches (s : Store) (now : Timestamp) (id : String) : Prop where
  accessed : ∃ project, (s.get now id).1 = .ok project ∧
    (∀ (α : Type) (edit : Edit α), (s.update now id edit).1 = (edit project).1.mapError .project) ∧
    ∀ (α : Type) (view : Project → α), (s.inspect now id view).1 = .ok (view project)
  listed : ∃ info ∈ s.list now, info.sessionId = id

/-- Whoever looks for the session learns that there is none, and it is not listed. -/
structure Misses (s : Store) (now : Timestamp) (id : String) : Prop where
  got : (s.get now id).1 = .error (.sessionNotFound id)
  updated : ∀ (α : Type) (edit : Edit α), (s.update now id edit).1 = .error (.sessionNotFound id)
  inspected : ∀ (α : Type) (view : Project → α),
    (s.inspect now id view).1 = .error (.sessionNotFound id)
  notListed : ∀ info ∈ s.list now, info.sessionId ≠ id

section answers

theorem isFound_mapError {α : Type} (r : Except ProjectError α) :
    isFound (r.mapError StoreError.project) = true := by
  cases r <;> rfl

theorem isFound_update_iff {α : Type} (edit : Edit α) :
    isFound (s.update now id edit).1 = true ↔ ¬ s.Gone now id := by
  by_cases h : s.Gone now id
  · simp [(update_of_gone h edit).1, isFound, h]
  · obtain ⟨session, hget, hlive⟩ := not_gone_iff.mp h
    simp [(update_of_live hget hlive edit).1, isFound_mapError, h]

theorem mem_list_iff (hkeyed : s.Keyed) :
    (∃ info ∈ s.list now, info.sessionId = id) ↔ ¬ s.Gone now id := by
  rw [not_gone_iff]
  constructor
  · rintro ⟨info, hinfo, rfl⟩
    obtain ⟨session, hsession, rfl⟩ := List.mem_map.mp hinfo
    obtain ⟨hvalue, hlive⟩ := List.mem_filter.mp hsession
    obtain ⟨entry, hentry, rfl⟩ := List.mem_map.mp hvalue
    have hget : s.sessions.get? entry.1 = some entry.2 := Dict.get?_eq_some_iff.mpr hentry
    have hid : entry.2.info.sessionId = entry.1 := hkeyed _ _ hget
    exact ⟨entry.2, by rw [hid, hget], by simpa using hlive⟩
  · rintro ⟨session, hget, hlive⟩
    refine ⟨session.info, List.mem_map_of_mem (List.mem_filter.mpr ⟨?_, by simp [hlive]⟩), ?_⟩
    · exact Dict.mem_values_of_get? hget
    · exact hkeyed id session hget

theorem misses_of_gone (hkeyed : s.Keyed) (h : s.Gone now id) : s.Misses now id where
  got := by rw [get, inspect_eq_update, (update_of_gone h _).1]
  updated _ edit := (update_of_gone h edit).1
  inspected _ view := by rw [inspect_eq_update, (update_of_gone h _).1]
  notListed info hinfo hid := (mem_list_iff hkeyed).mp ⟨info, hinfo, hid⟩ h

theorem reaches_of_live (hkeyed : s.Keyed) (hget : s.sessions.get? id = some session)
    (hlive : session.isExpiredAt now = false) : s.Reaches now id where
  accessed := by
    refine ⟨session.project, ?_, fun _ edit => (update_of_live hget hlive edit).1, fun _ view => ?_⟩
    · rw [get, inspect_eq_update, (update_of_live hget hlive _).1]
      rfl
    · rw [inspect_eq_update, (update_of_live hget hlive _).1]
      rfl
  listed := (mem_list_iff hkeyed).mpr (not_gone_iff.mpr ⟨session, hget, hlive⟩)

end answers

section effects

inductive Effect (s : Store) (c : Call) (id : String) : Prop
  | opened (project : Project) (hopened : c.opened? = some id)
      (hafter : (s.step c).sessions.get? id =
        some { id, project, lastActivity := c.now, timeout := s.timeout })
  | renewed (session : Session) (project : Project) (hopened : c.opened? ≠ some id)
      (hrenews : c.renews s id = true) (hget : s.sessions.get? id = some session)
      (hlive : session.isExpiredAt c.now = false)
      (hafter : (s.step c).sessions.get? id =
        some { session with project, lastActivity := c.now })
  | removed (hrenews : c.renews s id = false)
      (hwhy : c.operation = .delete id ∨ s.Gone c.now id)
      (hafter : (s.step c).sessions.get? id = none)
  | kept (hrenews : c.renews s id = false) (hdelete : c.operation ≠ .delete id)
      (hafter : (s.step c).sessions.get? id = s.sessions.get? id)

theorem effect_of_update {α : Type} {c : Call} {i : String} (edit : Edit α)
    (hstep : s.step c = (s.update c.now i edit).2)
    (hrenews : c.renews s id = (i == id && isFound (s.update c.now i edit).1))
    (hopened : c.opened? = none) (hdelete : c.operation ≠ .delete id) : s.Effect c id := by
  by_cases hid : i = id
  · subst hid
    by_cases hgone : s.Gone c.now i
    · have hmissed : isFound (s.update c.now i edit).1 = false :=
        Bool.eq_false_iff.mpr fun h => (isFound_update_iff edit).mp h hgone
      refine .removed (by rw [hrenews, hmissed, Bool.and_false]) (.inr hgone) ?_
      rw [hstep, (update_of_gone hgone edit).2, if_pos rfl]
    · have hfound := (isFound_update_iff edit).mpr hgone
      obtain ⟨session, hget, hlive⟩ := not_gone_iff.mp hgone
      have hafter := (update_of_live hget hlive edit).2 i
      rw [if_pos rfl, ← hstep] at hafter
      exact .renewed session _ (by simp [hopened]) (by simp [hrenews, hfound]) hget hlive hafter
  · refine .kept (by simp [hrenews, hid]) hdelete ?_
    have hother : id ≠ i := Ne.symm hid
    by_cases hgone : s.Gone c.now i
    · rw [hstep, (update_of_gone hgone edit).2, if_neg hother]
    · obtain ⟨session, hget, hlive⟩ := not_gone_iff.mp hgone
      rw [hstep, (update_of_live hget hlive edit).2, if_neg hother]

theorem effect (s : Store) (c : Call) (id : String) : s.Effect c id := by
  obtain ⟨now, operation⟩ := c
  cases operation with
  | insert i project =>
    by_cases hid : i = id
    · subst hid
      exact .opened project rfl (get?_insert.trans (if_pos rfl))
    · refine .kept (by simp [Call.renews, hid]) nofun (get?_insert.trans (if_neg (Ne.symm hid)))
  | update i edit => exact effect_of_update edit rfl rfl rfl nofun
  | inspect i view =>
    refine effect_of_update (i := i) (fun p => (.ok (view p), p)) ?_ ?_ rfl nofun
    · rw [← inspect_eq_update]
      rfl
    · rw [← inspect_eq_update]
      rfl
  | get i =>
    refine effect_of_update (i := i) (fun p => (.ok p, p)) ?_ ?_ rfl nofun
    · rw [← inspect_eq_update]
      rfl
    · rw [← inspect_eq_update]
      rfl
  | delete i =>
    by_cases hid : i = id
    · subst hid
      exact .removed rfl (.inl rfl) (get?_remove.trans (if_pos rfl))
    · refine .kept rfl (by simpa using hid) (get?_remove.trans (if_neg (Ne.symm hid)))
  | list => exact .kept rfl nofun rfl
  | sweep =>
    rcases get?_evictExpired with hkept | ⟨hgone, hremoved⟩
    · exact .kept rfl nofun hkept
    · exact .removed rfl (.inr hgone) hremoved

theorem timeout_update {α : Type} (edit : Edit α) :
    (s.update now id edit).2.timeout = s.timeout := by
  have haccess : (s.access now id).2.timeout = s.timeout := by
    rw [access]
    split
    · rfl
    · split
      · rw [evict]
        split <;> rfl
      · rfl
  rw [update]
  split <;> rename_i hresult <;> rw [hresult] at haccess
  · exact haccess
  · dsimp only
    split <;> exact haccess

theorem timeout_step (s : Store) (c : Call) : (s.step c).timeout = s.timeout := by
  obtain ⟨now, operation⟩ := c
  cases operation with
  | update i edit => exact timeout_update edit
  | inspect i view =>
    show (s.inspect now i view).2.timeout = s.timeout
    rw [inspect_eq_update, timeout_update]
  | get i =>
    show (s.inspect now i fun p => p).2.timeout = s.timeout
    rw [inspect_eq_update, timeout_update]
  | insert _ _ | delete _ | list => rfl
  | sweep => exact timeout_evictExpired

theorem timeout_run (s : Store) (calls : List Call) : (s.run calls).timeout = s.timeout := by
  induction calls generalizing s with
  | nil => rfl
  | cons c rest ih => exact (ih (s.step c)).trans (timeout_step s c)

theorem Keyed.step (h : s.Keyed) (c : Call) : (s.step c).Keyed := by
  intro id session hget
  cases effect s c id with
  | opened project hopened hafter =>
    obtain rfl := Option.some.inj (hafter.symm.trans hget)
    rfl
  | renewed found project hopened hrenews hfound hlive hafter =>
    obtain rfl := Option.some.inj (hafter.symm.trans hget)
    exact h id found hfound
  | removed hrenews hwhy hafter => simp [hafter] at hget
  | kept hrenews hdelete hafter => exact h id session (hafter.symm.trans hget)

theorem keyed_run (calls : List Call) : (run { timeout } calls).Keyed := by
  induction calls using List.reverseRecOn with
  | nil => simp [run, Keyed]
  | append_singleton calls c ih =>
    rw [run_concat]
    exact ih.step c

end effects

/-! What the history of a session tells about it, in a run from an empty store. -/

section history

variable {calls more : List Call} {c : Call} {t : Timestamp}

/-- What is stored of a session is what its history tells: it was not deleted, and it was last
active when the calls last opened or found it. If nothing is stored, it was deleted or was once
found to be idle for too long. -/
structure Tracks (timeout : Nat) (calls : List Call) (id : String) : Prop where
  stored : ∀ session, ((run { timeout } calls).sessions.get? id) = some session →
    session.id = id ∧ session.timeout = timeout ∧
      lastActive? id { timeout } calls = some session.lastActivity ∧ ¬ WasDeleted calls id
  opened : ∀ t, lastActive? id { timeout } calls = some t → ∃ c ∈ calls, c.opened? = some id
  lost : ∀ t, lastActive? id { timeout } calls = some t →
    ((run { timeout } calls).sessions.get? id) = none →
      WasDeleted calls id ∨ ∃ c ∈ calls, (timeout : Int) < c.now.nanos - t.nanos

theorem isExpiredAt_iff : session.isExpiredAt now = true ↔
    (session.timeout : Int) < now.nanos - session.lastActivity.nanos := by
  simp [Session.isExpiredAt]

theorem exists_mem_concat {P : Call → Prop} (h : ∃ d ∈ calls, P d) : ∃ d ∈ calls ++ [c], P d := by
  obtain ⟨d, hd, hP⟩ := h
  exact ⟨d, List.mem_append_left _ hd, hP⟩

theorem exists_lastActive? (s : Store) (h : ∃ c ∈ calls, c.opened? = some id) :
    ∃ t, lastActive? id s calls = some t := by
  obtain ⟨c, hc, hopened⟩ := h
  induction calls generalizing s with
  | nil => cases hc
  | cons d rest ih =>
    obtain rfl | hrest := List.mem_cons.mp hc
    · rw [lastActive?, Call.renews_of_opened hopened, if_pos rfl]
      cases lastActive? id (s.step c) rest with
      | none => exact ⟨c.now, rfl⟩
      | some t => exact ⟨t, rfl⟩
    · obtain ⟨t, ht⟩ := ih (s.step d) hrest
      exact ⟨t, by rw [lastActive?, ht, Option.some_or]⟩

theorem Tracks.nil (timeout : Nat) (id : String) : Tracks timeout [] id where
  stored := by simp [run]
  opened := by simp [lastActive?]
  lost := by simp [lastActive?]

theorem tracks_of_renews (hrenews : c.renews (run { timeout } calls) id = true)
    (hafter : (run { timeout } (calls ++ [c])).sessions.get? id = some session)
    (hid : session.id = id) (htimeout : session.timeout = timeout)
    (hnow : session.lastActivity = c.now) (hopened : ∃ d ∈ calls ++ [c], d.opened? = some id)
    (hnot : ¬ WasDeleted calls id) : Tracks timeout (calls ++ [c]) id := by
  have hdelete : c.operation ≠ .delete id := by
    intro hoperation
    simp [Call.renews, hoperation] at hrenews
  refine ⟨fun stored hstored => ?_, fun _ _ => hopened, fun _ _ hnone => ?_⟩
  · obtain rfl := Option.some.inj (hafter.symm.trans hstored)
    refine ⟨hid, htimeout, ?_, fun hdeleted => hnot (hdeleted.of_concat hdelete)⟩
    rw [lastActive?_of_renews hrenews, hnow]
  · simp [hafter] at hnone

theorem Tracks.of_removed (h : Tracks timeout calls id)
    (hrenews : c.renews (run { timeout } calls) id = false)
    (hwhy : c.operation = .delete id ∨ (run { timeout } calls).Gone c.now id)
    (hafter : (run { timeout } (calls ++ [c])).sessions.get? id = none) :
    Tracks timeout (calls ++ [c]) id := by
  constructor
  · simp [hafter]
  · rw [lastActive?_of_not_renews hrenews]
    exact fun t ht => exists_mem_concat (h.opened t ht)
  · rw [lastActive?_of_not_renews hrenews]
    intro t ht _
    obtain hdelete | hgone := hwhy
    · exact .inl ⟨calls, c, [], rfl, hdelete, h.opened t ht⟩
    · cases hget : (run { timeout } calls).sessions.get? id with
      | none => exact (h.lost t ht hget).imp (·.append [c]) exists_mem_concat
      | some session =>
        obtain ⟨-, htimeout, hactive, -⟩ := h.stored session hget
        obtain rfl := Option.some.inj (hactive.symm.trans ht)
        have hidle := isExpiredAt_iff.mp (hgone session hget)
        rw [htimeout] at hidle
        exact .inr ⟨c, by simp, hidle⟩

theorem Tracks.of_kept (h : Tracks timeout calls id)
    (hrenews : c.renews (run { timeout } calls) id = false) (hdelete : c.operation ≠ .delete id)
    (hafter : (run { timeout } (calls ++ [c])).sessions.get? id =
      (run { timeout } calls).sessions.get? id) : Tracks timeout (calls ++ [c]) id := by
  constructor
  · rw [hafter, lastActive?_of_not_renews hrenews]
    intro session hsession
    obtain ⟨hid, htimeout, hactive, hnot⟩ := h.stored session hsession
    exact ⟨hid, htimeout, hactive, fun hdeleted => hnot (hdeleted.of_concat hdelete)⟩
  · rw [lastActive?_of_not_renews hrenews]
    exact fun t ht => exists_mem_concat (h.opened t ht)
  · rw [lastActive?_of_not_renews hrenews, hafter]
    intro t ht hnone
    exact (h.lost t ht hnone).imp (·.append [c]) exists_mem_concat

theorem Tracks.concat (h : Tracks timeout calls id) (hfresh : OpensOnce (calls ++ [c])) :
    Tracks timeout (calls ++ [c]) id := by
  have hrun := run_concat { timeout } calls c
  cases effect (run { timeout } calls) c id with
  | opened project hopened hafter =>
    rw [← hrun] at hafter
    refine tracks_of_renews (Call.renews_of_opened hopened) hafter rfl (timeout_run _ calls) rfl
      ⟨c, by simp, hopened⟩ fun hdeleted => ?_
    obtain ⟨d, hd, hdopened⟩ := hdeleted.opened
    exact hfresh.not_opened hopened d hd hdopened
  | renewed session project hopened hrenews hget hlive hafter =>
    rw [← hrun] at hafter
    obtain ⟨hid, htimeout, hactive, hnot⟩ := h.stored session hget
    exact tracks_of_renews hrenews hafter hid htimeout rfl
      (exists_mem_concat (h.opened _ hactive)) hnot
  | removed hrenews hwhy hafter => exact h.of_removed hrenews hwhy (hrun ▸ hafter)
  | kept hrenews hdelete hafter => exact h.of_kept hrenews hdelete (hrun ▸ hafter)

theorem tracks (timeout : Nat) (calls : List Call) (id : String)
    (hfresh : OpensOnce calls) : Tracks timeout calls id := by
  induction calls using List.reverseRecOn with
  | nil => exact .nil timeout id
  | append_singleton calls c ih =>
    exact (ih hfresh.of_append).concat hfresh

/-- The session was deleted, or it has been idle for longer than the timeout since the calls last
opened or found it. -/
def Dead (timeout : Nat) (calls : List Call) (now : Timestamp) (id : String) : Prop :=
  WasDeleted calls id ∨
    ∃ t, lastActive? id { timeout } calls = some t ∧ (timeout : Int) < now.nanos - t.nanos

/-- Of a session that has been idle for too long, no later call changes when it was last active. -/
theorem lastActive?_of_overdue (hfresh : OpensOnce (calls ++ more))
    (hlater : ∀ c ∈ more, now.nanos ≤ c.now.nanos)
    (ht : lastActive? id { timeout } calls = some t)
    (hidle : (timeout : Int) < now.nanos - t.nanos) :
    lastActive? id { timeout } (calls ++ more) = some t := by
  induction more using List.reverseRecOn with
  | nil => simpa using ht
  | append_singleton more c ih =>
    rw [← List.append_assoc] at hfresh ⊢
    have hbefore := hfresh.of_append
    have hactive := ih hbefore fun d hd => hlater d (List.mem_append_left _ hd)
    have htracks := tracks timeout (calls ++ more) id hbefore
    have hnow : now.nanos ≤ c.now.nanos := hlater c (by simp)
    cases effect (run { timeout } (calls ++ more)) c id with
    | opened project hopened hafter =>
      obtain ⟨d, hd, hdopened⟩ := htracks.opened t hactive
      exact absurd hdopened (hfresh.not_opened hopened d hd)
    | renewed session project hopened hrenews hget hlive hafter =>
      obtain ⟨-, htimeout, hsession, -⟩ := htracks.stored session hget
      obtain rfl := Option.some.inj (hsession.symm.trans hactive)
      have hexpired : session.isExpiredAt c.now = true := by
        rw [isExpiredAt_iff, htimeout]
        omega
      simp [hexpired] at hlive
    | removed hrenews hwhy hafter => rw [lastActive?_of_not_renews hrenews, hactive]
    | kept hrenews hdelete hafter => rw [lastActive?_of_not_renews hrenews, hactive]

theorem gone_of_dead (hfresh : OpensOnce (calls ++ more))
    (hlater : ∀ c ∈ more, now.nanos ≤ c.now.nanos) (hlatest : now.nanos ≤ later.nanos)
    (h : Dead timeout calls now id) : (run { timeout } (calls ++ more)).Gone later id := by
  intro session hget
  obtain ⟨-, htimeout, hactive, hnot⟩ := (tracks timeout (calls ++ more) id hfresh).stored _ hget
  obtain hdeleted | ⟨t, ht, hidle⟩ := h
  · exact absurd (hdeleted.append more) hnot
  · have hstill := lastActive?_of_overdue hfresh hlater ht hidle
    obtain rfl := Option.some.inj (hstill.symm.trans hactive)
    rw [isExpiredAt_iff, htimeout]
    omega

theorem live_of_not_dead (hfresh : OpensOnce calls)
    (hearlier : ∀ c ∈ calls, c.now.nanos ≤ now.nanos) (hopened : ∃ c ∈ calls, c.opened? = some id)
    (h : ¬ Dead timeout calls now id) : ¬ (run { timeout } calls).Gone now id := by
  have htracks := tracks timeout calls id hfresh
  obtain ⟨t, ht⟩ := exists_lastActive? { timeout } hopened
  obtain ⟨hnot, hidle⟩ := not_or.mp h
  replace hidle : ¬ (timeout : Int) < now.nanos - t.nanos := fun hlt => hidle ⟨t, ht, hlt⟩
  cases hget : (run { timeout } calls).sessions.get? id with
  | none =>
    obtain hdeleted | ⟨c, hc, hover⟩ := htracks.lost t ht hget
    · exact absurd hdeleted hnot
    · have := hearlier c hc
      omega
  | some session =>
    obtain ⟨-, htimeout, hactive, -⟩ := htracks.stored session hget
    obtain rfl := Option.some.inj (hactive.symm.trans ht)
    refine not_gone_iff.mpr ⟨session, hget, ?_⟩
    rw [Bool.eq_false_iff, ne_eq, isExpiredAt_iff, htimeout]
    exact hidle

/-- In a run on a clock that does not go back, a session that was opened is found and listed until
it is dead, and from then on never again. -/
theorem found_until_dead (timeout : Nat) (calls more : List Call) (now later : Timestamp)
    (id : String) (hfresh : OpensOnce (calls ++ more))
    (hclock : (calls.map (·.now) ++ now :: more.map (·.now) ++ [later]).Pairwise
      (·.nanos ≤ ·.nanos)) :
    (Dead timeout calls now id → (run { timeout } (calls ++ more)).Misses later id) ∧
    ((∃ c ∈ calls, c.opened? = some id) → ¬ Dead timeout calls now id →
      (run { timeout } calls).Reaches now id) := by
  simp only [List.append_assoc, List.cons_append, List.pairwise_append, List.pairwise_cons,
    List.mem_append, List.mem_map, List.mem_cons] at hclock
  obtain ⟨-, ⟨hafter, -⟩, hbefore⟩ := hclock
  constructor
  · intro hdead
    refine misses_of_gone (keyed_run _) (gone_of_dead hfresh (fun c hc => ?_) ?_ hdead)
    · exact hafter c.now (.inl ⟨c, hc, rfl⟩)
    · exact hafter later (by simp)
  · intro hopened halive
    have hearlier : ∀ c ∈ calls, c.now.nanos ≤ now.nanos :=
      fun c hc => hbefore c.now ⟨c, hc, rfl⟩ now (.inl rfl)
    have hlive := live_of_not_dead hfresh.of_append hearlier hopened halive
    obtain ⟨session, hget, hexpired⟩ := not_gone_iff.mp hlive
    exact reaches_of_live (keyed_run calls) hget hexpired

/-- A session that an edit renews although it fails, and that a list does not renew. -/
def idleCalls : List Call :=
  [⟨⟨0⟩, .insert "desk" (.blank ⟨0⟩ ⟨0⟩ "Desk")⟩, ⟨⟨50⟩, .update "desk" renameAndFail⟩,
   ⟨⟨100⟩, .list⟩]

def shopCall : Call := ⟨⟨111⟩, .insert "shop" (.blank ⟨1⟩ ⟨1⟩ "Shop")⟩

theorem found_until_dead_idleCalls :
    (run { timeout := 60 } idleCalls).Reaches ⟨110⟩ "desk" ∧
      (run { timeout := 60 } (idleCalls ++ [shopCall])).Misses ⟨115⟩ "desk" := by
  have hactive : lastActive? "desk" { timeout := 60 } idleCalls = some ⟨50⟩ := by decide
  have hkept : ¬ WasDeleted idleCalls "desk" := by
    rintro ⟨before, d, after, hcalls, hdelete, -⟩
    have hd : d ∈ idleCalls := by simp [hcalls]
    simp only [idleCalls, List.mem_cons, List.not_mem_nil, or_false] at hd
    rcases hd with rfl | rfl | rfl <;> cases hdelete
  have hopened : ∃ c ∈ idleCalls, c.opened? = some "desk" := ⟨_, List.mem_cons_self, rfl⟩
  have halive : ¬ Dead 60 idleCalls ⟨110⟩ "desk" := by
    rintro (hdeleted | ⟨t, ht, hidle⟩)
    · exact hkept hdeleted
    · obtain rfl := Option.some.inj (hactive.symm.trans ht)
      simp at hidle
  have hdead : Dead 60 idleCalls ⟨111⟩ "desk" := .inr ⟨⟨50⟩, hactive, by decide⟩
  have hfresh : OpensOnce (idleCalls ++ []) ∧ OpensOnce (idleCalls ++ [shopCall]) := by
    unfold OpensOnce
    decide
  constructor
  · have hfound := found_until_dead 60 idleCalls [] ⟨110⟩ ⟨110⟩ "desk" hfresh.1 (by decide)
    exact hfound.2 hopened halive
  · have hfound := found_until_dead 60 idleCalls [shopCall] ⟨111⟩ ⟨115⟩ "desk" hfresh.2 (by decide)
    exact hfound.1 hdead

end history

end Store

end AgentAssembly

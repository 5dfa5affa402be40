import Mathlib.Algebra.GroupWithZero.Nat
import Mathlib.Data.List.Perm.Basic
import Mathlib.Data.String.Basic
import AgentAssembly.Proofs.Session.Expiry
import AgentAssembly.Session.Service

/-!
Lists of sessions. Main statement: whatever was done with a store, its list shows just the sessions
that can be found at this reading and tells of each what its project tells, in the order of the
identifiers however the sessions are kept; to list them renews none and is not noticed later.
-/

namespace AgentAssembly

def SessionInfo.telling (id : String) (p : Project) : SessionInfo where
  sessionId := id
  name := p.name
  agentCount := p.agents.length
  toolCount := p.tools.length
  updatedAt := p.updatedAt

namespace Store

variable {s : Store} {now : Timestamp} {id : String} {p : Project}

/-- The live sessions in whatever order they are come across, sorted by the identifiers that they
give themselves. -/
def sortedInfos (sessions : List Session) (now : Timestamp) : List SessionInfo :=
  ((sessions.filter (!·.isExpiredAt now)).map (·.info)).mergeSort
    fun a b => (compare a.sessionId b.sessionId).isLE

def table (s : Store) (now : Timestamp) : List (String × Project) :=
  (s.sessions.entries.filter (!·.2.isExpiredAt now)).map fun e => (e.1, e.2.project)

theorem table_sorted (s : Store) (now : Timestamp) : (s.table now).Pairwise (·.1 < ·.1) := by
  refine List.pairwise_map.mpr ((s.sessions.sorted.filter _).imp fun h => ?_)
  exact compare_lt_iff_lt.mp h

theorem nodup_table (s : Store) (now : Timestamp) : (s.table now).Nodup :=
  (s.table_sorted now).imp fun h heq => h.ne (congrArg Prod.fst heq)

theorem mem_table_iff : (id, p) ∈ s.table now ↔
    ∃ session, s.sessions.get? id = some session ∧ session.isExpiredAt now = false ∧
      session.project = p := by
  simp only [table, List.mem_map, List.mem_filter, Prod.exists, Dict.get?_eq_some_iff]
  constructor
  · rintro ⟨i, session, ⟨hentry, hlive⟩, heq⟩
    obtain ⟨rfl, rfl⟩ := Prod.mk.inj heq
    exact ⟨session, hentry, by simpa using hlive, rfl⟩
  · rintro ⟨session, hentry, hlive, rfl⟩
    exact ⟨id, session, ⟨hentry, by simp [hlive]⟩, rfl⟩

theorem mem_table_iff_get : (id, p) ∈ s.table now ↔ (s.get now id).1 = .ok p := by
  rw [mem_table_iff, get, inspect_eq_update]
  by_cases hgone : s.Gone now id
  · rw [(update_of_gone hgone _).1]
    constructor
    · rintro ⟨session, hget, hlive, -⟩
      simp [hgone session hget] at hlive
    · intro hok
      cases hok
  · obtain ⟨session, hget, hlive⟩ := not_gone_iff.mp hgone
    rw [(update_of_live hget hlive _).1]
    simp [hget, hlive, Except.mapError]

theorem list_eq_map_table (hkeyed : s.Keyed) (now : Timestamp) :
    s.list now = (s.table now).map fun e => .telling e.1 e.2 := by
  rw [list, table, Dict.values, List.filter_map, List.map_map, List.map_map]
  refine List.map_congr_left fun e he => ?_
  have hget := Dict.get?_eq_some_iff.mpr (List.mem_filter.mp he).1
  have hid : e.2.id = e.1 := hkeyed e.1 e.2 hget
  simp only [Function.comp_apply, Session.info, SessionInfo.telling, hid]

theorem list_sorted (hkeyed : s.Keyed) (now : Timestamp) :
    (s.list now).Pairwise (·.sessionId < ·.sessionId) := by
  rw [list_eq_map_table hkeyed]
  exact List.pairwise_map.mpr (s.table_sorted now)

theorem sortedInfos_sorted (sessions : List Session) (now : Timestamp) :
    (sortedInfos sessions now).Pairwise
      fun a b => (compare a.sessionId b.sessionId).isLE = true := by
  have htotal : ∀ a b : SessionInfo, ((compare a.sessionId b.sessionId).isLE ||
      (compare b.sessionId a.sessionId).isLE) = true := by
    intro a b
    cases h : compare a.sessionId b.sessionId with
    | gt =>
      rw [Std.OrientedCmp.lt_of_gt h]
      rfl
    | lt | eq => rfl
  exact List.pairwise_mergeSort (fun _ _ _ => Std.TransCmp.isLE_trans) htotal _

/-- Sessions that stand under their own identifiers are listed the same in whatever order they are
come across. -/
theorem sortedInfos_eq_list (hkeyed : s.Keyed) {sessions : List Session}
    (h : sessions.Perm s.sessions.values) : sortedInfos sessions now = s.list now := by
  have hperm : (sortedInfos sessions now).Perm (s.list now) :=
    (List.mergeSort_perm _ _).trans ((h.filter _).map _)
  have hlisted : (s.list now).Pairwise
      fun a b => (compare a.sessionId b.sessionId).isLE = true :=
    (list_sorted hkeyed now).imp fun hlt => Ordering.isLE_of_eq_lt (compare_lt_iff_lt.mpr hlt)
  have hnodup : ((s.list now).map (·.sessionId)).Nodup :=
    List.pairwise_map.mpr ((list_sorted hkeyed now).imp ne_of_lt)
  -- No two of the listed sessions have one identifier, so the order leaves no choice.
  have hantisymm : ∀ a b, a ∈ sortedInfos sessions now → b ∈ s.list now →
      (compare a.sessionId b.sessionId).isLE = true →
        (compare b.sessionId a.sessionId).isLE = true → a = b := by
    intro a b ha hb hab hba
    have hid : a.sessionId = b.sessionId :=
      Std.LawfulEqCmp.eq_of_compare (Std.OrientedCmp.isLE_antisymm hab hba)
    exact List.inj_on_of_nodup_map hnodup (hperm.mem_iff.mp ha) hb hid
  exact List.Perm.eq_of_pairwise hantisymm (sortedInfos_sorted sessions now) hlisted hperm

theorem statistics_eq (s : Store) (now : Timestamp) : s.statistics now =
    ⟨(s.list now).length, ((s.list now).map (·.agentCount)).sum,
      ((s.list now).map (·.toolCount)).sum⟩ := by
  simp only [statistics, List.sum_eq_foldr, List.foldr_map]

theorem statistics_of_found (hkeyed : s.Keyed) {found : List (String × Project)}
    (hnodup : found.Nodup) (hfound : ∀ id p, (id, p) ∈ found ↔ (s.get now id).1 = .ok p) :
    s.statistics now = ⟨found.length, (found.map (·.2.agents.length)).sum,
      (found.map (·.2.tools.length)).sum⟩ := by
  have hperm : (s.table now).Perm found := by
    refine (List.perm_ext_iff_of_nodup (nodup_table s now) hnodup).mpr fun e => ?_
    rw [mem_table_iff_get, hfound]
  rw [statistics_eq, list_eq_map_table hkeyed, List.length_map, List.map_map, List.map_map,
    hperm.length_eq, ← (hperm.map (·.2.agents.length)).sum_nat,
    ← (hperm.map (·.2.tools.length)).sum_nat]
  rfl

/-- The list of a store agrees with what is found in it at the same reading of the clock. -/
structure ListsFound (s : Store) (now : Timestamp) : Prop where
  increasing : (s.list now).Pairwise (·.sessionId < ·.sessionId)
  listed : ∀ id, (∃ info ∈ s.list now, info.sessionId = id) ↔ ∃ p, (s.get now id).1 = .ok p
  told : ∀ info ∈ s.list now, ∃ p, (s.get now info.sessionId).1 = .ok p ∧
    info = .telling info.sessionId p
  counted : s.statistics now =
    ⟨(s.list now).length, ((s.list now).map (·.agentCount)).sum,
      ((s.list now).map (·.toolCount)).sum⟩
  summed : ∀ found : List (String × Project), found.Nodup →
    (∀ id p, (id, p) ∈ found ↔ (s.get now id).1 = .ok p) →
      s.statistics now = ⟨found.length, (found.map (·.2.agents.length)).sum,
        (found.map (·.2.tools.length)).sum⟩
  /-- The order in which the sessions are kept does not show. -/
  sorted : ∀ sessions : List Session, sessions.Perm s.sessions.values →
    sortedInfos sessions now = s.list now

theorem listsFound_of_keyed (hkeyed : s.Keyed) (now : Timestamp) : s.ListsFound now where
  increasing := list_sorted hkeyed now
  listed id := by
    simp only [list_eq_map_table hkeyed, List.mem_map, Prod.exists, mem_table_iff_get]
    constructor
    · rintro ⟨info, ⟨i, p, hget, rfl⟩, rfl⟩
      exact ⟨p, hget⟩
    · rintro ⟨p, hget⟩
      exact ⟨_, ⟨id, p, hget, rfl⟩, rfl⟩
  told info hinfo := by
    rw [list_eq_map_table hkeyed] at hinfo
    obtain ⟨e, he, rfl⟩ := List.mem_map.mp hinfo
    exact ⟨e.2, mem_table_iff_get.mp he, rfl⟩
  counted := statistics_eq s now
  summed _ hnodup hfound := statistics_of_found hkeyed hnodup hfound
  sorted _ h := sortedInfos_eq_list hkeyed h

theorem lastActive?_append_list (s : Store) (calls more : List Call) (id : String) :
    lastActive? id s (calls ++ ⟨now, .list⟩ :: more) = lastActive? id s (calls ++ more) := by
  induction calls generalizing s with
  | nil => exact Option.or_none
  | cons c rest ih => rw [List.cons_append, List.cons_append, lastActive?, lastActive?, ih]

/-- In every reachable store and at every reading of the clock the list agrees with access, and
later calls find the sessions as if nobody had listed them: the same ones, last active when they
were. -/
theorem list_agrees_with_access (timeout : Nat) (calls : List Call) (now : Timestamp) :
    (run { timeout } calls).ListsFound now ∧
    ∀ more : List Call,
      run { timeout } (calls ++ ⟨now, .list⟩ :: more) = run { timeout } (calls ++ more) ∧
      ∀ id, lastActive? id { timeout } (calls ++ ⟨now, .list⟩ :: more) =
        lastActive? id { timeout } (calls ++ more) := by
  refine ⟨listsFound_of_keyed (keyed_run calls) now, fun more => ⟨?_, fun id => ?_⟩⟩
  · rw [run, run, List.foldl_append, List.foldl_append]
    rfl
  · exact lastActive?_append_list _ calls more id

end Store
end AgentAssembly

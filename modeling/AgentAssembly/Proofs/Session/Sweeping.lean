import AgentAssembly.Proofs.Session.Expiry
import AgentAssembly.Session.Service

/-!
Sweeps in between. Main statement: two runs of which one has more sweeps than the other leave
stores that hold the same live sessions and answer alike, and a sweep finds and removes exactly
what has expired.
-/

namespace AgentAssembly

/-- The second run is the first with sweeps put in. Both grow at their end, so that every stage of
the two is a pair of this kind. -/
inductive Swept : List Call → List Call → Prop
  | nil : Swept [] []
  | call {calls more : List Call} (c : Call) (h : Swept calls more) :
    Swept (calls ++ [c]) (more ++ [c])
  | sweep {calls more : List Call} (now : Timestamp) (h : Swept calls more) :
    Swept calls (more ++ [⟨now, .sweep⟩])

namespace Store

variable {α : Type} {s s' : Store} {now later : Timestamp} {id : String} {session : Session}

def live (s : Store) (now : Timestamp) : Store :=
  { s with sessions := s.sessions.filter fun _ session => !session.isExpiredAt now }

theorem get?_live : (s.live now).sessions.get? id = some session ↔
    s.sessions.get? id = some session ∧ session.isExpiredAt now = false := by
  rw [live, Dict.get?_filter, Bool.not_eq_true']

theorem ext_live (htimeout : s.timeout = s'.timeout)
    (h : ∀ id session, session.isExpiredAt now = false →
      (s.sessions.get? id = some session ↔ s'.sessions.get? id = some session)) :
    s.live now = s'.live now := by
  have hsessions : (s.live now).sessions = (s'.live now).sessions := by
    refine Dict.ext fun id => Option.ext fun session => ?_
    rw [get?_live, get?_live]
    exact and_congr_left fun hlive => h id session hlive
  exact congrArg₂ Store.mk htimeout hsessions

theorem isExpiredAt_mono (hlater : now.nanos ≤ later.nanos)
    (h : session.isExpiredAt now = true) : session.isExpiredAt later = true := by
  rw [isExpiredAt_iff] at h ⊢
  omega

theorem live_live (hlater : now.nanos ≤ later.nanos) :
    (s.live now).live later = s.live later := by
  refine ext_live rfl fun id session hlive => ?_
  rw [get?_live, and_iff_left]
  exact Bool.eq_false_iff.mpr fun h => by simp [isExpiredAt_mono hlater h] at hlive

theorem gone_live : (s.live now).Gone now id ↔ s.Gone now id := by
  rw [← not_iff_not, not_gone_iff, not_gone_iff]
  simp only [get?_live, and_assoc, and_self]

theorem get?_live_of_live (hlive : session.isExpiredAt now = false) :
    (s.live now).sessions.get? id = some session ↔ s.sessions.get? id = some session := by
  rw [get?_live, and_iff_left hlive]

section answers

theorem update_live_fst (edit : Edit α) :
    ((s.live now).update now id edit).1 = (s.update now id edit).1 := by
  by_cases hgone : s.Gone now id
  · rw [(update_of_gone hgone edit).1, (update_of_gone (gone_live.mpr hgone) edit).1]
  · obtain ⟨session, hget, hlive⟩ := not_gone_iff.mp hgone
    rw [(update_of_live hget hlive edit).1,
      (update_of_live ((get?_live_of_live hlive).mpr hget) hlive edit).1]

theorem list_live : (s.live now).list now = s.list now := by
  have hvalues : (s.live now).sessions.values.filter (!·.isExpiredAt now) =
      s.sessions.values.filter (!·.isExpiredAt now) := by
    simp only [live, Dict.filter, Dict.values, List.filter_map, List.filter_filter,
      Function.comp_def, Bool.and_self]
  rw [list, list, hvalues]

def HoldsExpired (s : Store) (now : Timestamp) (id : String) : Prop :=
  ∃ session, s.sessions.get? id = some session ∧ session.isExpiredAt now = true

theorem delete_live_fst (h : ¬ s.HoldsExpired now id) :
    ((s.live now).delete id).1 = (s.delete id).1 := by
  have hsame : (s.live now).sessions.get? id = s.sessions.get? id := by
    refine Option.ext fun session => ?_
    rw [get?_live, and_iff_left_iff_imp]
    exact fun hget => Bool.eq_false_iff.mpr fun hexpired => h ⟨session, hget, hexpired⟩
  rw [delete, delete, Dict.contains, Dict.contains, hsame]

/-- What is asked of two stores at this reading does not tell them apart. Their live sessions are
the same, and only a deletion shows whether a session that has expired is still there. -/
structure Indistinguishable (s s' : Store) (now : Timestamp) : Prop where
  sessions : ∀ id session, session.isExpiredAt now = false →
    (s.sessions.get? id = some session ↔ s'.sessions.get? id = some session)
  got : ∀ id, (s.get now id).1 = (s'.get now id).1
  updated : ∀ (α : Type) (edit : Edit α) (id : String),
    (s.update now id edit).1 = (s'.update now id edit).1
  inspected : ∀ (α : Type) (view : Project → α) (id : String),
    (s.inspect now id view).1 = (s'.inspect now id view).1
  listed : s.list now = s'.list now
  counted : s.statistics now = s'.statistics now
  deleted : ∀ id, ¬ s.HoldsExpired now id → ¬ s'.HoldsExpired now id →
    (s.delete id).1 = (s'.delete id).1

theorem indistinguishable_of_live (h : s.live now = s'.live now) : s.Indistinguishable s' now := by
  have hupdated : ∀ (α : Type) (edit : Edit α) (id : String),
      (s.update now id edit).1 = (s'.update now id edit).1 := by
    intro α edit id
    rw [← update_live_fst, h, update_live_fst]
  have hlisted : s.list now = s'.list now := by rw [← list_live, h, list_live]
  refine ⟨fun id session hlive => ?_, fun id => ?_, hupdated, fun α view id => ?_, hlisted, ?_,
    fun id hs hs' => ?_⟩
  · rw [← get?_live_of_live hlive, h, get?_live_of_live hlive]
  · rw [get, get, inspect_eq_update, inspect_eq_update, hupdated]
  · rw [inspect_eq_update, inspect_eq_update, hupdated]
  · rw [statistics, statistics, hlisted]
  · rw [← delete_live_fst hs, h, delete_live_fst hs']

end answers

section steps

/-- An update leads to the same live sessions whether or not a sweep came right before it. -/
theorem live_update (edit : Edit α) :
    ((s.live now).update now id edit).2.live now = (s.update now id edit).2.live now := by
  refine ext_live (by rw [timeout_update, timeout_update]; rfl) fun other session hlive => ?_
  by_cases hgone : s.Gone now id
  · rw [(update_of_gone hgone edit).2, (update_of_gone (gone_live.mpr hgone) edit).2]
    split
    · rfl
    · exact get?_live_of_live hlive
  · obtain ⟨found, hget, hfound⟩ := not_gone_iff.mp hgone
    rw [(update_of_live hget hfound edit).2,
      (update_of_live ((get?_live_of_live hfound).mpr hget) hfound edit).2]
    split
    · rfl
    · exact get?_live_of_live hlive

theorem live_sweep (hlater : now.nanos ≤ later.nanos) :
    (s.sweep now).2.live later = s.live later := by
  refine ext_live timeout_evictExpired fun id session hlive => ?_
  rw [sweep]
  rcases get?_evictExpired with hkept | ⟨hgone, hremoved⟩
  · rw [hkept]
  · rw [hremoved]
    exact iff_of_false nofun fun hget => by
      simp [isExpiredAt_mono hlater (hgone session hget)] at hlive

theorem live_step (s : Store) (c : Call) :
    ((s.live c.now).step c).live c.now = (s.step c).live c.now := by
  obtain ⟨now, operation⟩ := c
  cases operation with
  | insert id project =>
    refine ext_live rfl fun other session hlive => ?_
    show ((s.live now).insert now id project).sessions.get? other = _ ↔
      (s.insert now id project).sessions.get? other = _
    rw [get?_insert, get?_insert]
    split
    · rfl
    · exact get?_live_of_live hlive
  | update id edit => exact live_update edit
  | inspect id view =>
    show ((s.live now).inspect now id view).2.live now = (s.inspect now id view).2.live now
    rw [inspect_eq_update, inspect_eq_update, live_update]
  | get id =>
    show ((s.live now).inspect now id fun p => p).2.live now =
      (s.inspect now id fun p => p).2.live now
    rw [inspect_eq_update, inspect_eq_update, live_update]
  | delete id =>
    refine ext_live rfl fun other session hlive => ?_
    show ((s.live now).remove id).sessions.get? other = _ ↔ (s.remove id).sessions.get? other = _
    rw [get?_remove, get?_remove]
    split
    · rfl
    · exact get?_live_of_live hlive
  | list => exact live_live (Int.le_refl _)
  | sweep =>
    show ((s.live now).sweep now).2.live now = (s.sweep now).2.live now
    rw [live_sweep (Int.le_refl _), live_sweep (Int.le_refl _), live_live (Int.le_refl _)]

end steps

section runs

variable {timeout : Nat} {calls more : List Call}

/-- Readings of a clock that does not go back, the last one included. -/
def Ascending (calls : List Call) (now : Timestamp) : Prop :=
  (calls.map (·.now) ++ [now]).Pairwise (·.nanos ≤ ·.nanos)

theorem Ascending.concat {c : Call} (h : Ascending (calls ++ [c]) now) :
    Ascending calls c.now ∧ Ascending calls now ∧ c.now.nanos ≤ now.nanos := by
  simp only [Ascending, List.map_append, List.map_cons, List.map_nil, List.pairwise_append,
    List.mem_append, List.mem_singleton] at h ⊢
  obtain ⟨⟨hcalls, hlast, hbefore⟩, hnow, hafter⟩ := h
  exact ⟨⟨hcalls, hlast, hbefore⟩, ⟨hcalls, hnow, fun a ha => hafter a (.inl ha)⟩,
    hafter c.now (.inr rfl) now rfl⟩

theorem live_run (h : Swept calls more) (hclock : Ascending more now) :
    (run { timeout } calls).live now = (run { timeout } more).live now := by
  induction h generalizing now with
  | nil => rfl
  | call c h ih =>
    obtain ⟨hcall, -, hlater⟩ := hclock.concat
    have hafter :
        ((run { timeout } _).step c).live c.now = ((run { timeout } _).step c).live c.now :=
      (live_step _ c).symm.trans ((congrArg (fun s => (step s c).live c.now) (ih hcall)).trans
        (live_step _ c))
    rw [run_concat, run_concat, ← live_live hlater, hafter, live_live hlater]
  | sweep swept h ih =>
    obtain ⟨-, hbefore, hlater⟩ := hclock.concat
    rw [run_concat, ih hbefore]
    exact (live_sweep hlater).symm

/-- A sweep tells each session that has expired, once, and takes away these and no others. -/
structure SweepsExactly (s : Store) (now : Timestamp) : Prop where
  told : ∀ id, id ∈ (s.sweep now).1 ↔ s.HoldsExpired now id
  once : (s.sweep now).1.Nodup
  removed : ∀ id, (s.sweep now).2.sessions.get? id =
    if id ∈ (s.sweep now).1 then none else s.sessions.get? id

/-- On sessions that stand under their own identifiers the loop comes to a filter. -/
theorem Keyed.sweep_eq (h : s.Keyed) (now : Timestamp) : s.sweep now =
    ((s.sessions.filter fun _ session => session.isExpiredAt now).keys, s.live now) := by
  have hids : s.sessions.values.map (·.id) = s.sessions.keys := by
    rw [Dict.values, List.map_map, Dict.keys]
    exact List.map_congr_left fun e he => h e.1 e.2 (Dict.get?_eq_some_iff.mpr he)
  have hheld : ∀ session ∈ s.sessions.values, s.sessions.get? session.id = some session := by
    intro session hsession
    obtain ⟨e, he, rfl⟩ := List.mem_map.mp hsession
    have hget : s.sessions.get? e.1 = some e.2 := Dict.get?_eq_some_iff.mpr he
    rw [h e.1 e.2 hget, hget]
  have honce : (s.sessions.values.map (·.id)).Nodup := by
    rw [hids]
    exact Dict.nodup_of_sorted (Dict.sorted_keys _)
  have htold : (s.sessions.values.filter (·.isExpiredAt now)).map (·.id) =
      (s.sessions.filter fun _ session => session.isExpiredAt now).keys := by
    rw [Dict.values, List.filter_map, List.map_map, Dict.keys, Dict.filter]
    refine List.map_congr_left fun e he => ?_
    exact h e.1 e.2 (Dict.get?_eq_some_iff.mpr (List.mem_of_mem_filter he))
  obtain ⟨hfirst, hleft⟩ := evictExpired_eq now hheld honce
  rw [htold] at hfirst hleft
  refine Prod.ext hfirst (congrArg₂ Store.mk timeout_evictExpired (Dict.ext fun id => ?_))
  refine (hleft id).trans (Option.ext fun session => ?_)
  rw [Dict.get?_filter]
  split
  · rename_i hexpired
    obtain ⟨held, hheld⟩ := Dict.mem_keys.mp hexpired
    obtain ⟨hget, hexpired⟩ := Dict.get?_filter.mp hheld
    refine iff_of_false (Option.some_ne_none session).symm fun hlive => ?_
    obtain rfl := Option.some.inj (hget.symm.trans hlive.1)
    simp [hexpired] at hlive
  · rename_i hnone
    refine (and_iff_left_of_imp fun hget => ?_).symm
    rw [Bool.not_eq_true']
    exact Bool.eq_false_iff.mpr fun hexpired => hnone (Dict.mem_keys.mpr
      ⟨session, Dict.get?_filter.mpr ⟨hget, hexpired⟩⟩)

theorem Keyed.sweepsExactly (h : s.Keyed) (now : Timestamp) : s.SweepsExactly now := by
  have htold : ∀ id, id ∈ (s.sweep now).1 ↔ s.HoldsExpired now id := by
    intro id
    simp only [h.sweep_eq, Dict.mem_keys, Dict.get?_filter, HoldsExpired]
  refine ⟨htold, ?_, fun id => ?_⟩
  · rw [h.sweep_eq]
    exact Dict.nodup_of_sorted (Dict.sorted_keys _)
  · split
    · rename_i hid
      obtain ⟨session, hget, hexpired⟩ := (htold id).mp hid
      refine Option.eq_none_iff_forall_ne_some.mpr fun other hother => ?_
      rw [h.sweep_eq] at hother
      obtain ⟨hother, hlive⟩ := get?_live.mp hother
      obtain rfl := Option.some.inj (hget.symm.trans hother)
      simp [hexpired] at hlive
    · rename_i hid
      refine Option.ext fun session => ?_
      have hlive : s.sessions.get? id = some session → session.isExpiredAt now = false :=
        fun hget => Bool.eq_false_iff.mpr fun hexpired =>
          hid ((htold id).mpr ⟨session, hget, hexpired⟩)
      rw [h.sweep_eq, get?_live, and_iff_left_of_imp hlive]

/-- Of two runs on a clock that does not go back, of which the second is the first with sweeps put
in, no answer at any stage tells which is which, and every sweep is exact in both. -/
theorem sweeps_unnoticed (timeout : Nat) {calls more : List Call} {now : Timestamp}
    (h : Swept calls more) (hclock : Ascending more now) :
    (run { timeout } calls).Indistinguishable (run { timeout } more) now ∧
      (run { timeout } calls).SweepsExactly now ∧ (run { timeout } more).SweepsExactly now :=
  ⟨indistinguishable_of_live (live_run h hclock), (keyed_run calls).sweepsExactly now,
    (keyed_run more).sweepsExactly now⟩

/-- Two sessions, one of which is left alone until it has expired, and a look at the other. -/
def lateCalls : List Call :=
  [⟨⟨0⟩, .insert "desk" (.blank ⟨0⟩ ⟨0⟩ "Desk")⟩, ⟨⟨50⟩, .insert "shop" (.blank ⟨1⟩ ⟨50⟩ "Shop")⟩,
   ⟨⟨70⟩, .get "shop"⟩]

def sweptCalls : List Call :=
  [⟨⟨0⟩, .insert "desk" (.blank ⟨0⟩ ⟨0⟩ "Desk")⟩, ⟨⟨50⟩, .insert "shop" (.blank ⟨1⟩ ⟨50⟩ "Shop")⟩,
   ⟨⟨61⟩, .sweep⟩, ⟨⟨70⟩, .get "shop"⟩, ⟨⟨70⟩, .sweep⟩]

/-- One run still holds the session that has expired and the other does not, which a deletion shows
and nothing else. -/
theorem sweeps_unnoticed_lateCalls :
    (run { timeout := 60 } lateCalls).Indistinguishable (run { timeout := 60 } sweptCalls) ⟨80⟩ ∧
      (run { timeout := 60 } lateCalls).size = 2 ∧ (run { timeout := 60 } sweptCalls).size = 1 ∧
      (run { timeout := 60 } lateCalls).sweep ⟨80⟩ = (["desk"], run { timeout := 60 } sweptCalls) :=
  have hswept : Swept lateCalls sweptCalls := .sweep _ (.call _ (.sweep _ (.call _ (.call _ .nil))))
  ⟨(sweeps_unnoticed 60 hswept (by unfold Ascending; decide)).1, by decide,
    by decide, by decide⟩

end runs

end Store
end AgentAssembly

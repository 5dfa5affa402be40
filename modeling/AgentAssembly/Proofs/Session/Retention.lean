import AgentAssembly.Proofs.Project.Retention
import AgentAssembly.Proofs.Session.Independence

/-!
What the project of a session keeps. Main statement: between two moments of a run the project of a
session that is there at both has lost nothing, but for references that an accepted update told to
be replaced.
-/

namespace AgentAssembly

def Request.ReplacesReferences (session name : String) (r : Request) : Prop :=
  ∃ patch, r = .updateAgent session name patch ∧ patch.replaceReferences = true

def Request.ReplacesImports (session name : String) (r : Request) : Prop :=
  ∃ patch, r = .updateTool session name patch ∧ patch.replaceImports = true

namespace Policy

variable {policy : Policy} {store : Store} {s : String} {p q : Project}
  {agentsStay toolsStay : String → Prop}

def Accepted (policy : Policy) (store : Store) (events : List Event) (kind : Request → Prop) :
    Prop :=
  ∃ before e after reply, events = before ++ e :: after ∧ kind e.request ∧
    (policy.handle e.now e.fresh (policy.run store before) e.request).1 = .ok reply

theorem Accepted.append {events : List Event} {kind : Request → Prop}
    (h : policy.Accepted store events kind) (more : List Event) :
    policy.Accepted store (events ++ more) kind := by
  obtain ⟨before, e, after, reply, rfl, hkind, hreply⟩ := h
  exact ⟨before, e, after ++ more, reply, by simp, hkind, hreply⟩

section steps

variable {e : Event}

/-- Where the project of a session comes from that the event does not open: it was there before,
or an edit of the session that was accepted made it. -/
theorem project?_step_cases (hopens : ∀ name, ¬ e.Opens s name)
    (h : (policy.step store e).project? s = some q) :
    ∃ p, store.project? s = some p ∧ (q = p ∨ ∃ edit reply,
      policy.edit? e.now e.request = some (s, edit) ∧ (edit p).1 = .ok reply ∧ (edit p).2 = q ∧
        (policy.handle e.now e.fresh store e.request).1 = .ok reply) := by
  cases hedit : policy.edit? e.now e.request with
  | some target =>
    obtain ⟨session, edit⟩ := target
    rw [step, handle_of_edit? hedit] at h
    rw [handle_of_edit? hedit]
    by_cases hgone : store.Gone e.now session
    · rw [Store.project?, (Store.update_of_gone hgone edit).2] at h
      split at h
      · simp at h
      · exact ⟨q, h, .inl rfl⟩
    · obtain ⟨stored, hget, hlive⟩ := Store.not_gone_iff.mp hgone
      have hupdates := Store.updatesOne_of_live hget hlive edit
      cases hresult : (edit stored.project).1 with
      | error fault =>
        rw [(hupdates.failed fault hresult).2] at h
        exact ⟨q, h, .inl rfl⟩
      | ok reply =>
        obtain ⟨hreply, hafter⟩ := hupdates.succeeded reply hresult
        rw [hafter] at h
        split at h
        · rename_i hs
          subst hs
          refine ⟨stored.project, by rw [Store.project?, hget, Option.map_some], .inr ?_⟩
          exact ⟨edit, reply, rfl, hresult, Option.some.inj h, hreply⟩
        · exact ⟨q, h, .inl rfl⟩
  | none =>
    have htarget : e.request.target? = none := by
      rw [← edit?_fst policy e.now, hedit, Option.map_none]
    by_cases hdelete : e.request = .deleteSession s
    · simp [project?_step_of_delete hdelete] at h
    · rw [project?_step_of_untargeted hopens hdelete htarget] at h
      exact ⟨q, h, .inl rfl⟩

theorem retained_of_edit {now : Timestamp} {request : Request} {edit : Edit Reply} {reply : Reply}
    (hedit : policy.edit? now request = some (s, edit)) (hp : p.Lawful policy.limits)
    (hreply : (edit p).1 = .ok reply)
    (hagents : ∀ name, agentsStay name → ¬ request.ReplacesReferences s name)
    (htools : ∀ name, toolsStay name → ¬ request.ReplacesImports s name) :
    p.Retained agentsStay toolsStay (edit p).2 := by
  cases request with
  | createProject _ | deleteSession _ | listSessions => simp [edit?] at hedit
  | getProject _ | getSummary _ =>
    obtain ⟨-, rfl⟩ := Prod.mk.inj (Option.some.inj hedit)
    exact .refl p
  | updateMetadata _ patch =>
    obtain ⟨-, rfl⟩ := Prod.mk.inj (Option.some.inj hedit)
    obtain ⟨-, -, hchange⟩ :=
      ((Project.allOrNothing_mergeMetadata patch).answering _).accepted p reply hreply
    exact .of_metadataMerged hchange
  | addAgent _ agent =>
    obtain ⟨-, rfl⟩ := Prod.mk.inj (Option.some.inj hedit)
    obtain ⟨a, -, hchange⟩ :=
      ((Project.allOrNothing_addAgent _ _).answering _).accepted p reply hreply
    exact .of_agentAppended hchange
  | updateAgent session name patch =>
    obtain ⟨rfl, rfl⟩ := Prod.mk.inj (Option.some.inj hedit)
    obtain ⟨a, -, hchange⟩ :=
      ((Project.allOrNothing_updateAgent name patch).answering _).accepted p reply hreply
    refine .of_agentUpdated hchange hp fun hstay => ?_
    simpa [Request.ReplacesReferences] using hagents name hstay
  | addTool _ tool =>
    obtain ⟨-, rfl⟩ := Prod.mk.inj (Option.some.inj hedit)
    obtain ⟨t, -, hchange⟩ :=
      ((Project.allOrNothing_addTool _ _).answering _).accepted p reply hreply
    exact .of_toolAppended hchange
  | updateTool session name patch =>
    obtain ⟨rfl, rfl⟩ := Prod.mk.inj (Option.some.inj hedit)
    obtain ⟨t, -, hchange⟩ :=
      ((Project.allOrNothing_updateTool name patch).answering _).accepted p reply hreply
    refine .of_toolUpdated hchange hp fun hstay => ?_
    simpa [Request.ReplacesImports] using htools name hstay
  | updateBuildContext _ patch =>
    obtain ⟨-, rfl⟩ := Prod.mk.inj (Option.some.inj hedit)
    obtain ⟨c, -, hchange⟩ :=
      ((Project.allOrNothing_updateBuildContext patch).answering _).accepted p reply hreply
    exact .of_buildContextUpdated hchange hp

end steps

section runs

variable {events between : List Event} {timeout : Nat}

theorem exists_opened_of_project? (h : (policy.run { timeout } events).project? s = some p) :
    ∃ e ∈ events, e.opened? = some s := by
  induction events using List.reverseRecOn generalizing p with
  | nil => simp [run, Store.project?] at h
  | append_singleton events e ih =>
    by_cases hopens : ∃ name, e.Opens s name
    · obtain ⟨name, hname⟩ := hopens
      exact ⟨e, by simp, hname.opened?⟩
    · rw [run_concat] at h
      obtain ⟨q, hq, -⟩ := project?_step_cases (not_exists.mp hopens) h
      obtain ⟨d, hd, hopened⟩ := ih hq
      exact ⟨d, List.mem_append_left _ hd, hopened⟩

theorem retained_run (h : policy.Holds store) (hopens : IsUnknown between s)
    (hagents : ∀ name, agentsStay name →
      ¬ policy.Accepted store between (·.ReplacesReferences s name))
    (htools : ∀ name, toolsStay name → ¬ policy.Accepted store between (·.ReplacesImports s name))
    (hp : store.project? s = some p) (hq : (policy.run store between).project? s = some q) :
    p.Retained agentsStay toolsStay q := by
  induction between using List.reverseRecOn generalizing q with
  | nil =>
    obtain rfl : p = q := Option.some.inj (hp.symm.trans hq)
    exact .refl p
  | append_singleton between e ih =>
    rw [run_concat] at hq
    obtain ⟨mid, hmid, hstep⟩ := project?_step_cases (hopens e (by simp)) hq
    have hbefore : p.Retained agentsStay toolsStay mid :=
      ih (fun d hd => hopens d (List.mem_append_left _ hd))
        (fun name hstay haccepted => hagents name hstay (haccepted.append [e]))
        (fun name hstay haccepted => htools name hstay (haccepted.append [e])) hmid
    obtain rfl | ⟨edit, reply, hedit, hresult, rfl, hreply⟩ := hstep
    · exact hbefore
    · have haccepted : ∀ kind : Request → Prop, kind e.request →
          policy.Accepted store (between ++ [e]) kind :=
        fun kind hkind => ⟨between, e, [], reply, rfl, hkind, hreply⟩
      obtain ⟨session, hget, rfl⟩ := Option.map_eq_some_iff.mp hmid
      refine hbefore.trans (retained_of_edit hedit ((h.run between).lawful s session hget) hresult
        (fun name hstay hkind => ?_) (fun name hstay hkind => ?_))
      · exact hagents name hstay (haccepted _ hkind)
      · exact htools name hstay (haccepted _ hkind)

/-- Merging takes nothing away. Of two moments of a run at which a session is there, the later
project holds all that the earlier one held, each in its place: names, keys, requirements and
settings; and the references of an agent and the imports of a tool too, unless an update in between
was accepted that told to replace them. -/
theorem retained_of_run (policy : Policy) (timeout : Nat) {before between : List Event}
    (hfresh : ((before ++ between).filterMap (·.opened?)).Nodup) {s : String} {p q : Project}
    (hp : (policy.run { timeout } before).project? s = some p)
    (hq : (policy.run { timeout } (before ++ between)).project? s = some q) :
    p.Retained
      (fun name => ¬ policy.Accepted (policy.run { timeout } before) between
        (·.ReplacesReferences s name))
      (fun name => ¬ policy.Accepted (policy.run { timeout } before) between
        (·.ReplacesImports s name)) q := by
  obtain ⟨e, he, hopened⟩ := exists_opened_of_project? hp
  have hunknown : IsUnknown between s := by
    intro d hd name hopens
    rw [List.filterMap_append, List.nodup_append] at hfresh
    exact hfresh.2.2 s (List.mem_filterMap.mpr ⟨e, he, hopened⟩) s
      (List.mem_filterMap.mpr ⟨d, hd, hopens.opened?⟩) rfl
  rw [run_append] at hq
  exact retained_run ((Holds.empty policy timeout).run before) hunknown (fun _ h => h)
    (fun _ h => h) hp hq

end runs

end Policy

def guideAdded : List Event :=
  [⟨⟨0⟩, ⟨"desk", ⟨0⟩⟩, .createProject "Desk"⟩,
   ⟨⟨1⟩, ⟨"", ⟨0⟩⟩, .addAgent "desk" { name := "Guide", tools := ["maps"] }⟩]

/-- The agent gets another tool; an update that would replace both is refused for a blank name. -/
def guideUpdated : List Event :=
  [⟨⟨2⟩, ⟨"", ⟨0⟩⟩, .updateAgent "desk" "Guide" { tools := some ["mail", "maps"] }⟩,
   ⟨⟨3⟩, ⟨"", ⟨0⟩⟩,
    .updateAgent "desk" "Guide" { tools := some [" "], replaceReferences := true }⟩]

theorem Policy.retained_of_run_guide :
    ∃ p q, (Policy.run ⟨{}, "m"⟩ { timeout := 60 } guideAdded).project? "desk" = some p ∧
      (Policy.run ⟨{}, "m"⟩ { timeout := 60 } (guideAdded ++ guideUpdated)).project? "desk" =
        some q ∧
      p.agents.map (·.tools) = [["maps"]] ∧ q.agents.map (·.tools) = [["maps", "mail"]] ∧
      ∀ (i : Nat) a, p.agents[i]? = some a → ∃ b, q.agents[i]? = some b ∧ a.tools <+: b.tools := by
  have hbefore : ((Policy.run ⟨{}, "m"⟩ { timeout := 60 } guideAdded).project? "desk").map
      (·.agents.map (·.tools)) = some [["maps"]] := by decide
  have hafter : ((Policy.run ⟨{}, "m"⟩ { timeout := 60 } (guideAdded ++ guideUpdated)).project?
      "desk").map (·.agents.map (·.tools)) = some [["maps", "mail"]] := by decide
  obtain ⟨p, hp, hbefore⟩ := Option.map_eq_some_iff.mp hbefore
  obtain ⟨q, hq, hafter⟩ := Option.map_eq_some_iff.mp hafter
  have hretained := retained_of_run ⟨{}, "m"⟩ 60 (by decide) hp hq
  refine ⟨p, q, hp, hq, hbefore, hafter, fun i a ha => ?_⟩
  obtain ⟨b, hb, hab⟩ := hretained.agents i a ha
  refine ⟨b, hb, hab.tools ?_⟩
  -- The first update does not replace, and the second is refused.
  rintro ⟨before, e, after, reply, hevents, ⟨patch, hrequest, hreplace⟩, hreply⟩
  obtain _ | ⟨d, _ | ⟨c, rest⟩⟩ := before
  · obtain ⟨rfl, -⟩ := List.cons.inj hevents
    obtain ⟨-, -, rfl⟩ := Request.updateAgent.inj hrequest
    simp at hreplace
  · obtain ⟨hfirst, hevents⟩ := List.cons.inj hevents
    obtain ⟨rfl, -⟩ := List.cons.inj hevents
    subst hfirst
    have hrefused : (Policy.handle ⟨{}, "m"⟩ guideUpdated[1].now guideUpdated[1].fresh
        (Policy.run ⟨{}, "m"⟩ (Policy.run ⟨{}, "m"⟩ { timeout := 60 } guideAdded)
          [guideUpdated[0]]) guideUpdated[1].request).1 =
            .error (.project (.invalidInput (.blankReference .tool))) := by decide
    cases hrefused.symm.trans hreply
  · simp [guideUpdated] at hevents

end AgentAssembly

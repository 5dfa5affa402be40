import AgentAssembly.Proofs.Project.Patch

/-!
Edits as plans. Main statements: no edit of a project writes before it fails, and each is a plan
that is decided on the project before it changes anything.
-/

namespace AgentAssembly

open Mutation

/-- Carries out a plan that was made at the time `now`, or leaves the project alone. -/
def Edit.ofPlan {α : Type} (now : Timestamp)
    (plan : Project → Except ProjectError (α × Project)) : Edit α := fun p =>
  match plan p with
  | .error e => (.error e, p)
  | .ok (a, q) => (.ok a, { q with updatedAt := now })

theorem Edit.answering_apply {α β : Type} (e : Edit α) (f : α → Project → β) (p : Project) :
    e.answering f p = ((e p).1.map (f · (e p).2), (e p).2) := by
  cases h : e p with
  | mk result q =>
    cases result with
    | error fault => exact bind_of_error h
    | ok a => exact bind_of_ok h

def updateFirst {α ε : Type} (p : α → Bool) (f : α → Except ε α) :
    List α → Option (Except ε (α × List α))
  | [] => none
  | a :: rest =>
    if p a then some ((f a).map fun b => (b, b :: rest))
    else (updateFirst p f rest).map (·.map fun (b, l) => (b, a :: l))

namespace Project

def planMetadata (patch : Dict String Json) (p : Project) :
    Except ProjectError (Unit × Project) :=
  let metadata := p.metadata.extend (patch.erase "name")
  match patch.get? "name" with
  | none => .ok ((), { p with metadata })
  | some (.text name) =>
    match projectNameFault? name with
    | some fault => .error (.invalidInput fault)
    | none => .ok ((), { p with name, metadata })
  | some value => .error (.invalidInput (.projectNameNotText value))

def planAgent (limits : Limits) (agent : Agent) (p : Project) :
    Except ProjectError (Agent × Project) :=
  match agent.fault? with
  | some fault => .error (.invalidInput fault)
  | none =>
    if limits.maxAgents ≤ p.agents.length then .error (.agentLimitExceeded limits.maxAgents)
    else if p.hasAgent agent.name then .error (.duplicateName "agent" agent.name)
    else .ok (agent.normalized, { p with agents := p.agents ++ [agent.normalized] })

def planTool (limits : Limits) (tool : Tool) (p : Project) :
    Except ProjectError (Tool × Project) :=
  match tool.fault? with
  | some fault => .error (.invalidInput fault)
  | none =>
    if limits.maxTools ≤ p.tools.length then .error (.toolLimitExceeded limits.maxTools)
    else if p.hasTool tool.name then .error (.duplicateName "tool" tool.name)
    else .ok (tool.normalized, { p with tools := p.tools ++ [tool.normalized] })

def planAgentUpdate (name : String) (patch : AgentPatch) (p : Project) :
    Except ProjectError (Agent × Project) :=
  match updateFirst (·.name == name) (·.applyPatch patch) p.agents with
  | none => .error (.agentNotFound name)
  | some (.error fault) => .error (.invalidInput fault)
  | some (.ok (agent, agents)) => .ok (agent, { p with agents })

def planToolUpdate (name : String) (patch : ToolPatch) (p : Project) :
    Except ProjectError (Tool × Project) :=
  match updateFirst (·.name == name) (·.applyPatch patch) p.tools with
  | none => .error (.toolNotFound name)
  | some (.error fault) => .error (.invalidInput fault)
  | some (.ok (tool, tools)) => .ok (tool, { p with tools })

def planBuildContext (patch : BuildContextPatch) (p : Project) :
    Except ProjectError (BuildContext × Project) :=
  match p.buildContext.applyPatch patch with
  | .error fault => .error (.invalidInput fault)
  | .ok buildContext => .ok (buildContext, { p with buildContext })

section atomic

variable {now : Timestamp}

theorem isWrite_stamp {α : Type} (a : α) :
    (Edit.stamp now >>= fun _ => (pure a : Edit α)).IsWrite :=
  (isWrite_modify _).bind fun _ => isWrite_pure a

theorem isAtomic_changing {α : Type} {change : Mutation α InputFault Unit}
    (h : change.IsAtomic) : (changing change).IsAtomic :=
  (h.adapt _).bind_write fun _ => isWrite_get

theorem isAtomic_mergeMetadata (patch : Dict String Json) :
    (mergeMetadata now patch).IsAtomic := by
  have hname : (rename? patch).IsCheck := by
    rw [rename?]
    split
    · exact isCheck_pure _
    · exact (isCheck_refuse _).bind_check fun _ => isCheck_pure _
    · exact isCheck_throw _
  exact hname.bind fun _ => IsWrite.isAtomic <|
    (isWrite_write _ _).bind fun _ => (isWrite_modify _).bind fun _ => isWrite_modify _

theorem isAtomic_addAgent (limits : Limits) (agent : Agent) :
    (addAgent now limits agent).IsAtomic :=
  (isCheck_refuse _).bind fun _ => (isCheck_refuse _).bind fun _ => (isCheck_refuse _).bind fun _ =>
    IsWrite.isAtomic <| (isWrite_modify _).bind fun _ => isWrite_stamp _

theorem isAtomic_updateAgent (name : String) (patch : AgentPatch) :
    (updateAgent now name patch).IsAtomic :=
  ((isAtomic_changing (Agent.isAtomic_patch patch)).onFirst _ _).within (fun _ => rfl)
    |>.bind_write fun _ => isWrite_stamp _

theorem isAtomic_addTool (limits : Limits) (tool : Tool) : (addTool now limits tool).IsAtomic :=
  (isCheck_refuse _).bind fun _ => (isCheck_refuse _).bind fun _ => (isCheck_refuse _).bind fun _ =>
    IsWrite.isAtomic <| (isWrite_modify _).bind fun _ => isWrite_stamp _

theorem isAtomic_updateTool (name : String) (patch : ToolPatch) :
    (updateTool now name patch).IsAtomic :=
  ((isAtomic_changing (Tool.isAtomic_patch patch)).onFirst _ _).within (fun _ => rfl)
    |>.bind_write fun _ => isWrite_stamp _

theorem isAtomic_updateBuildContext (patch : BuildContextPatch) :
    (updateBuildContext now patch).IsAtomic :=
  (isAtomic_changing (BuildContext.isAtomic_patch patch)).within (fun _ => rfl)
    |>.bind_write fun _ => isWrite_stamp _

end atomic

section plans

variable {α : Type} {now : Timestamp} {limits : Limits} {change : Mutation α InputFault Unit}

theorem changing_apply (h : change.IsAtomic) (a : α) : changing change a =
    match change.outcome a with
    | .error fault => (.error (.invalidInput fault), a)
    | .ok b => (.ok b, b) := by
  rw [changing, outcome]
  cases hchange : change a with
  | mk result b =>
    cases result with
    | error fault =>
      obtain rfl : b = a := by simpa [hchange] using h a fault (by rw [hchange])
      exact bind_of_error (by rw [adapt_apply, hchange]; rfl)
    | ok _ => exact bind_of_ok (by rw [adapt_apply, hchange]; rfl)

theorem onFirst_changing (h : change.IsAtomic) (p : α → Bool) (absent : ProjectError)
    (l : List α) : onFirst p absent (changing change) l =
      match updateFirst p change.outcome l with
      | none => (.error absent, l)
      | some (.error fault) => (.error (.invalidInput fault), l)
      | some (.ok (b, l')) => (.ok b, l') := by
  induction l with
  | nil => rfl
  | cons a rest ih =>
    rw [onFirst, updateFirst]
    split
    · rw [changing_apply h]
      cases change.outcome a <;> rfl
    · rw [ih]
      rcases updateFirst p change.outcome rest with _ | _ | _ <;> rfl

theorem stamp_bind_apply (a : α) (p : Project) :
    (Edit.stamp now >>= fun _ => (pure a : Edit α)) p = (.ok a, { p with updatedAt := now }) :=
  modify_bind_apply _ _ p

theorem mergeMetadata_apply {patch : Dict String Json} {name : Option String} {p : Project}
    (h : rename? patch p = (.ok name, p)) : mergeMetadata now patch p =
      (.ok (), { p with
        name := name.getD p.name
        metadata := p.metadata.extend (patch.erase "name")
        updatedAt := now }) := by
  rw [mergeMetadata, bind_of_ok h, write_bind_apply, modify_bind_apply, Edit.stamp, modify_apply]
  cases name <;> rfl

theorem mergeMetadata_eq_ofPlan (patch : Dict String Json) :
    mergeMetadata now patch = .ofPlan now (planMetadata patch) := by
  funext p
  cases hget : patch.get? "name" with
  | none =>
    have hrename : rename? patch p = (.ok none, p) := by rw [rename?, hget]; rfl
    rw [mergeMetadata_apply hrename]
    simp only [Edit.ofPlan, planMetadata, hget, Option.getD_none]
  | some value =>
    cases value with
    | text name =>
      cases h : projectNameFault? name with
      | none =>
        have hrename : rename? patch p = (.ok (some name), p) := by
          rw [rename?, hget]
          exact refuse_bind_of_none (by rw [h]; rfl)
        rw [mergeMetadata_apply hrename]
        simp only [Edit.ofPlan, planMetadata, hget, h, Option.getD_some]
      | some fault =>
        have hrename : rename? patch p = (.error (.invalidInput fault), p) := by
          rw [rename?, hget]
          exact refuse_bind_of_some (by rw [h]; rfl)
        rw [mergeMetadata, bind_of_error hrename]
        simp only [Edit.ofPlan, planMetadata, hget, h]
    | _ =>
      rw [mergeMetadata, bind_of_error (by rw [rename?, hget]; rfl)]
      simp only [Edit.ofPlan, planMetadata, hget]

/-- An addition: a record that obeys its rules is written if there is room and its name is free. -/
theorem addition_eq_ofPlan (fault? : Option InputFault) (isFull isTaken : Project → Bool)
    (full taken : ProjectError) (write : Project → Project) (a : α) :
    (do
      Edit.refuseInput fault?
      refuseIf isFull full
      refuseIf isTaken taken
      modify write
      Edit.stamp now
      return a) =
    Edit.ofPlan now fun p =>
      match fault? with
      | some fault => .error (.invalidInput fault)
      | none => if isFull p then .error full else if isTaken p then .error taken
        else .ok (a, write p) := by
  funext p
  rw [Edit.ofPlan]
  cases fault? with
  | some fault => exact refuse_bind_of_some rfl
  | none =>
    refine (refuse_bind_of_none rfl).trans ?_
    cases hfull : isFull p with
    | true => exact refuse_bind_of_some (by rw [hfull]; rfl)
    | false =>
      refine (refuse_bind_of_none (by rw [hfull]; rfl)).trans ?_
      cases htaken : isTaken p with
      | true => exact refuse_bind_of_some (by rw [htaken]; rfl)
      | false => exact (refuse_bind_of_none (by rw [htaken]; rfl)).trans (modify_bind_apply _ _ p)

theorem update_eq_ofPlan (h : change.IsAtomic) (p : α → Bool) (absent : ProjectError)
    (part : Project → List α) (put : List α → Project → Project)
    (hput : ∀ q, put (part q) q = q) :
    (do
      let a ← within part put (onFirst p absent (changing change))
      Edit.stamp now
      return a) =
    Edit.ofPlan now fun q =>
      match updateFirst p change.outcome (part q) with
      | none => .error absent
      | some (.error fault) => .error (.invalidInput fault)
      | some (.ok (a, l)) => .ok (a, put l q) := by
  funext q
  have hfirst := onFirst_changing h p absent (part q)
  rw [Edit.ofPlan]
  rcases hupdate : updateFirst p change.outcome (part q) with _ | fault | ⟨a, l⟩ <;>
    rw [hupdate] at hfirst
  · exact bind_of_error (by rw [within_apply, hfirst, hput])
  · exact bind_of_error (by rw [within_apply, hfirst, hput])
  · exact (bind_of_ok (by rw [within_apply, hfirst])).trans (stamp_bind_apply a _)

theorem addAgent_eq_ofPlan (agent : Agent) :
    addAgent now limits agent = .ofPlan now (planAgent limits agent) := by
  refine (addition_eq_ofPlan ..).trans (congrArg (Edit.ofPlan now) (funext fun p => ?_))
  simp only [planAgent, decide_eq_true_eq]

theorem addTool_eq_ofPlan (tool : Tool) :
    addTool now limits tool = .ofPlan now (planTool limits tool) := by
  refine (addition_eq_ofPlan ..).trans (congrArg (Edit.ofPlan now) (funext fun p => ?_))
  simp only [planTool, decide_eq_true_eq]

theorem updateAgent_eq_ofPlan (name : String) (patch : AgentPatch) :
    updateAgent now name patch = .ofPlan now (planAgentUpdate name patch) := by
  refine (update_eq_ofPlan (Agent.isAtomic_patch patch) (·.name == name) (.agentNotFound name)
    (·.agents) (fun agents p => { p with agents }) fun _ => rfl).trans ?_
  refine congrArg (Edit.ofPlan now) (funext fun p => ?_)
  have hpatch : (Agent.patch patch).outcome = (·.applyPatch patch) := rfl
  rw [hpatch]
  rcases h : updateFirst (·.name == name) (·.applyPatch patch) p.agents with _ | _ | _ <;>
    simp only [planAgentUpdate, h]

theorem updateTool_eq_ofPlan (name : String) (patch : ToolPatch) :
    updateTool now name patch = .ofPlan now (planToolUpdate name patch) := by
  refine (update_eq_ofPlan (Tool.isAtomic_patch patch) (·.name == name) (.toolNotFound name)
    (·.tools) (fun tools p => { p with tools }) fun _ => rfl).trans ?_
  refine congrArg (Edit.ofPlan now) (funext fun p => ?_)
  have hpatch : (Tool.patch patch).outcome = (·.applyPatch patch) := rfl
  rw [hpatch]
  rcases h : updateFirst (·.name == name) (·.applyPatch patch) p.tools with _ | _ | _ <;>
    simp only [planToolUpdate, h]

theorem updateBuildContext_eq_ofPlan (patch : BuildContextPatch) :
    updateBuildContext now patch = .ofPlan now (planBuildContext patch) := by
  funext p
  have hchange := changing_apply (BuildContext.isAtomic_patch patch) p.buildContext
  rw [Edit.ofPlan, planBuildContext, BuildContext.applyPatch]
  cases hpatch : (BuildContext.patch patch).outcome p.buildContext with
  | error fault =>
    rw [hpatch] at hchange
    exact bind_of_error (by rw [within_apply, hchange])
  | ok context =>
    rw [hpatch] at hchange
    exact (bind_of_ok (by rw [within_apply, hchange])).trans (stamp_bind_apply context _)

end plans

end Project
end AgentAssembly

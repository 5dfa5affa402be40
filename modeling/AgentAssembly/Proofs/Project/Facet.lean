import AgentAssembly.Proofs.Project.Plan

/-!
Plans, and the facets of a project that they work on. A plan is decided on a state and gives an
answer and a new state, or is refused. Main statements: plans that work on independent facets of a
project commute, and plans that commute or settle do so as edits too, at any readings of the clock
and apart from the time of the last update.
-/

namespace AgentAssembly

abbrev Plan (σ α : Type) := σ → Except ProjectError (α × σ)

namespace Plan

variable {σ α β : Type} {f : Plan σ α} {g : Plan σ β}

def answer (f : Plan σ α) (s : σ) : Except ProjectError α := (f s).map (·.1)

def after (f : Plan σ α) (s : σ) : σ :=
  match f s with
  | .ok r => r.2
  | .error _ => s

structure Commute (f : Plan σ α) (g : Plan σ β) : Prop where
  answer_left : ∀ s, f.answer (g.after s) = f.answer s
  answer_right : ∀ s, g.answer (f.after s) = g.answer s
  after_after : ∀ s, g.after (f.after s) = f.after (g.after s)

theorem Commute.symm (h : f.Commute g) : g.Commute f :=
  ⟨h.answer_right, h.answer_left, fun s => (h.after_after s).symm⟩

structure Settles (f : Plan σ α) : Prop where
  answer_after : ∀ s, f.answer (f.after s) = f.answer s
  after_after : ∀ s, f.after (f.after s) = f.after s

theorem settles_of_ok (h : ∀ s a t, f s = .ok (a, t) → f t = .ok (a, t)) : f.Settles := by
  constructor
  all_goals
    intro s
    cases hs : f s with
    | error e => simp only [answer, after, hs]
    | ok r => simp only [answer, after, hs, h s r.1 r.2 hs, Except.map]

end Plan

structure Facet (σ : Type) where
  get : Project → σ
  set : Project → σ → Project
  get_set : ∀ p s, get (set p s) = s := by intros; rfl
  set_get : ∀ p, set p (get p) = p := by intros; rfl
  set_set : ∀ p s t, set (set p s) t = set p t := by intros; rfl

namespace Facet

variable {σ τ α β : Type} {F : Facet σ} {G : Facet τ} {f : Plan σ α} {g : Plan σ β}

structure Independent (F : Facet σ) (G : Facet τ) : Prop where
  get_left : ∀ p t, F.get (G.set p t) = F.get p := by intros; rfl
  get_right : ∀ p s, G.get (F.set p s) = G.get p := by intros; rfl
  set_set : ∀ p s t, G.set (F.set p s) t = F.set (G.set p t) s := by intros; rfl

def lift (F : Facet σ) (f : Plan σ α) : Plan Project α := fun p =>
  (f (F.get p)).map fun r => (r.1, F.set p r.2)

@[simp] theorem answer_lift (p : Project) : (F.lift f).answer p = f.answer (F.get p) := by
  cases h : f (F.get p) <;> simp only [Plan.answer, lift, h, Except.map]

@[simp] theorem after_lift (p : Project) : (F.lift f).after p = F.set p (f.after (F.get p)) := by
  cases h : f (F.get p) <;> simp only [Plan.after, lift, h, Except.map, F.set_get]

theorem commute_lift {f : Plan σ α} {g : Plan σ β} (h : f.Commute g) :
    (F.lift f).Commute (F.lift g) where
  answer_left p := by simp only [answer_lift, after_lift, F.get_set, h.answer_left]
  answer_right p := by simp only [answer_lift, after_lift, F.get_set, h.answer_right]
  after_after p := by simp only [after_lift, F.get_set, F.set_set, h.after_after]

theorem settles_lift (h : f.Settles) : (F.lift f).Settles where
  answer_after p := by simp only [answer_lift, after_lift, F.get_set, h.answer_after]
  after_after p := by simp only [after_lift, F.get_set, F.set_set, h.after_after]

theorem Independent.commute (h : F.Independent G) (f : Plan σ α) (g : Plan τ β) :
    (F.lift f).Commute (G.lift g) where
  answer_left p := by simp only [answer_lift, after_lift, h.get_left]
  answer_right p := by simp only [answer_lift, after_lift, h.get_right]
  after_after p := by simp only [after_lift, h.get_left, h.get_right, h.set_set]

end Facet

namespace Project

def heading : Facet (String × Dict String Json) where
  get p := (p.name, p.metadata)
  set p s := { p with name := s.1, metadata := s.2 }

def agentList : Facet (List Agent) where
  get p := p.agents
  set p agents := { p with agents }

def toolList : Facet (List Tool) where
  get p := p.tools
  set p tools := { p with tools }

def context : Facet BuildContext where
  get p := p.buildContext
  set p buildContext := { p with buildContext }

def updateTime : Facet Timestamp where
  get p := p.updatedAt
  set p updatedAt := { p with updatedAt }

def renamed (patch : Dict String Json) (name : String) : Except ProjectError String :=
  match patch.get? "name" with
  | none => .ok name
  | some (.text new) =>
    match projectNameFault? new with
    | some fault => .error (.invalidInput fault)
    | none => .ok new
  | some value => .error (.invalidInput (.projectNameNotText value))

def mergeHeading (patch : Dict String Json) : Plan (String × Dict String Json) Unit := fun s =>
  (renamed patch s.1).map fun name => ((), name, s.2.extend (patch.erase "name"))

def patchContext (patch : BuildContextPatch) : Plan BuildContext BuildContext := fun c =>
  match patch.fault? with
  | some fault => .error (.invalidInput fault)
  | none => .ok (c.patched patch, c.patched patch)

theorem planMetadata_eq_lift (patch : Dict String Json) :
    planMetadata patch = heading.lift (mergeHeading patch) := by
  funext p
  cases h : patch.get? "name" with
  | none => simp only [planMetadata, Facet.lift, mergeHeading, renamed, heading, h, Except.map]
  | some value =>
    cases value with
    | text name =>
      cases hfault : projectNameFault? name <;>
        simp only [planMetadata, Facet.lift, mergeHeading, renamed, heading, h, hfault, Except.map]
    | _ => simp only [planMetadata, Facet.lift, mergeHeading, renamed, h, Except.map]

theorem planBuildContext_eq_lift (patch : BuildContextPatch) :
    planBuildContext patch = context.lift (patchContext patch) := by
  funext p
  cases h : patch.fault? <;>
    simp only [planBuildContext, BuildContext.applyPatch_eq, Facet.lift, patchContext, context, h,
      Option.elim, Except.map]

def nothing : Facet Unit where
  get _ := ()
  set p _ := p

def undated (p : Project) : Project := { p with updatedAt := ⟨0⟩ }

end Project

namespace Facet

variable {σ α : Type} {F : Facet σ} {p q : Project}

theorem get_eq_of_undated (hF : F.Independent Project.updateTime) (h : p.undated = q.undated) :
    F.get p = F.get q := by
  have hget : ∀ r : Project, F.get r.undated = F.get r := fun r => hF.get_left r ⟨0⟩
  rw [← hget p, h, hget q]

theorem undated_set (hF : F.Independent Project.updateTime) (h : p.undated = q.undated) (s : σ) :
    (F.set p s).undated = (F.set q s).undated := by
  have hset : ∀ r : Project, (F.set r s).undated = F.set r.undated s := fun r => hF.set_set r s ⟨0⟩
  rw [hset p, h, hset q]

/-- Neither when a project was last updated nor when an edit is carried out shows in its answer or
in the rest of the project. -/
theorem ofPlan_lift (hF : F.Independent Project.updateTime) (f : Plan σ α) (now : Timestamp)
    (h : p.undated = q.undated) :
    (Edit.ofPlan now (F.lift f) p).1 = (F.lift f).answer q ∧
      (Edit.ofPlan now (F.lift f) p).2.undated = ((F.lift f).after q).undated := by
  have hget : F.get p = F.get q := get_eq_of_undated hF h
  rw [Edit.ofPlan, answer_lift, after_lift, lift, hget]
  cases hf : f (F.get q) with
  | error e =>
    refine ⟨by simp only [Except.map, Plan.answer, hf], ?_⟩
    simp only [Except.map, Plan.after, hf, F.set_get, h]
  | ok r =>
    refine ⟨by simp only [Except.map, Plan.answer, hf], ?_⟩
    simp only [Except.map, Plan.after, hf]
    exact undated_set hF h r.2

end Facet

namespace Edit

variable {σ τ α β : Type} {F : Facet σ} {G : Facet τ}

/-- Carried out again at any later time, the edit answers the same and changes nothing but the time
of the last update. -/
structure Replays (e : Timestamp → Edit α) : Prop where
  answer : ∀ p now later, (e later (e now p).2).1 = (e now p).1
  project : ∀ p now later, (e later (e now p).2).2.undated = (e now p).2.undated

/-- Whichever of the two comes first and whenever they are carried out, each answers the same and
the project is the same after them, apart from the time of the last update. -/
structure Commute (e : Timestamp → Edit α) (e' : Timestamp → Edit β) : Prop where
  answer_left : ∀ p now first later, (e later (e' first p).2).1 = (e now p).1
  answer_right : ∀ p now first later, (e' later (e first p).2).1 = (e' now p).1
  project : ∀ p first later first' later',
    (e' later (e first p).2).2.undated = (e later' (e' first' p).2).2.undated

theorem replays_of_settles (hF : F.Independent Project.updateTime) {f : Plan σ α}
    (h : f.Settles) : Replays fun now => ofPlan now (F.lift f) := by
  have hlift := Facet.settles_lift (F := F) h
  constructor
  · intro p now later
    obtain ⟨hanswer, hafter⟩ := Facet.ofPlan_lift hF f now (p := p) rfl
    rw [(Facet.ofPlan_lift hF f later hafter).1, hlift.answer_after, hanswer]
  · intro p now later
    obtain ⟨-, hafter⟩ := Facet.ofPlan_lift hF f now (p := p) rfl
    rw [(Facet.ofPlan_lift hF f later hafter).2, hlift.after_after, hafter]

theorem commute_of_plans (hF : F.Independent Project.updateTime)
    (hG : G.Independent Project.updateTime) {f : Plan σ α} {g : Plan τ β}
    (h : (F.lift f).Commute (G.lift g)) :
    Commute (fun now => ofPlan now (F.lift f)) fun now => ofPlan now (G.lift g) := by
  have hfirst := fun (p : Project) now => Facet.ofPlan_lift hF f now (p := p) rfl
  have hsecond := fun (p : Project) now => Facet.ofPlan_lift hG g now (p := p) rfl
  refine ⟨fun p now first later => ?_, fun p now first later => ?_,
    fun p first later first' later' => ?_⟩
  · rw [(Facet.ofPlan_lift hF f later (hsecond p first).2).1, h.answer_left, (hfirst p now).1]
  · rw [(Facet.ofPlan_lift hG g later (hfirst p first).2).1, h.answer_right, (hsecond p now).1]
  · rw [(Facet.ofPlan_lift hG g later (hfirst p first).2).2, h.after_after,
      (Facet.ofPlan_lift hF f later' (hsecond p first').2).2]

end Edit
end AgentAssembly

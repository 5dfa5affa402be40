import AgentAssembly.Proofs.Disk.Outcome

/-!
Two commits that go the same way, whatever each keeps its files in. Main statement: commits that
keep step in every file of a traversal keep step over the whole of it.
-/

namespace AgentAssembly.Commit

variable {κ κ' α α' β β' : Type} {p : Progress κ} {p' : Progress κ'}
  {Q R : α → α' → Progress κ → Progress κ' → Prop} {E F : Progress κ → Progress κ' → Prop}
  {fails : Nat → Bool} {path : String}

/-- Both commits succeed, or both fail with the same fault. -/
def Lockstep (c : Commit κ α) (c' : Commit κ' α') (p : Progress κ) (p' : Progress κ')
    (Q : α → α' → Progress κ → Progress κ' → Prop) (E : Progress κ → Progress κ' → Prop) : Prop :=
  match c.run.run p, c'.run.run p' with
  | (.ok a, q), (.ok a', q') => Q a a' q q'
  | (.error fault, q), (.error fault', q') => fault = fault' ∧ E q q'
  | _, _ => False

theorem Lockstep.of_pure {a : α} {a' : α'} (h : Q a a' p p') :
    Lockstep (pure a) (pure a') p p' Q E := h

theorem Lockstep.of_get {Q : Progress κ → Progress κ' → Progress κ → Progress κ' → Prop}
    (h : Q p p' p p') : Lockstep get get p p' Q E := h

theorem Lockstep.of_modify {f : Progress κ → Progress κ} {f' : Progress κ' → Progress κ'}
    {Q : Unit → Unit → Progress κ → Progress κ' → Prop} (h : Q () () (f p) (f' p')) :
    Lockstep (modify f) (modify f') p p' Q E := h

theorem Lockstep.of_set {q : Progress κ} {q' : Progress κ'}
    {Q : PUnit → PUnit → Progress κ → Progress κ' → Prop} (h : Q ⟨⟩ ⟨⟩ q q') :
    Lockstep (set q) (set q') p p' Q E := h

theorem Lockstep.of_refuse {obstacle : Obstacle} (h : E p p') :
    Lockstep (refuse path obstacle) (refuse path obstacle) p p' Q E := ⟨rfl, h⟩

theorem Lockstep.bind {c : Commit κ β} {c' : Commit κ' β'} {f : β → Commit κ α}
    {f' : β' → Commit κ' α'}
    (h : Lockstep c c' p p' (fun b b' q q' => Lockstep (f b) (f' b') q q' Q E) E) :
    Lockstep (c >>= f) (c' >>= f') p p' Q E := by
  rw [Lockstep] at h ⊢
  rw [run_bind, run_bind]
  cases hc : c.run.run p with
  | mk result q =>
    cases hc' : c'.run.run p' with
    | mk result' q' =>
      rw [hc, hc'] at h
      cases result <;> cases result'
      case ok.ok => exact h
      case error.error => exact h
      all_goals exact h.elim

theorem Lockstep.imp {c : Commit κ α} {c' : Commit κ' α'} (h : Lockstep c c' p p' Q E)
    (hQ : ∀ a a' q q', Q a a' q q' → R a a' q q') (hE : ∀ q q', E q q' → F q q') :
    Lockstep c c' p p' R F := by
  rw [Lockstep] at h ⊢
  cases hc : c.run.run p with
  | mk result q =>
    cases hc' : c'.run.run p' with
    | mk result' q' =>
      rw [hc, hc'] at h
      cases result <;> cases result'
      case ok.ok => exact hQ _ _ _ _ h
      case error.error => exact ⟨h.1, hE _ _ h.2⟩
      all_goals exact h.elim

/-- What is known of the second commit alone is known where both succeed. -/
theorem Lockstep.and_meets {c : Commit κ α} {c' : Commit κ' α'} {Q' : α' → Progress κ' → Prop}
    {E' : WriteFault → Progress κ' → Prop} (h : Lockstep c c' p p' Q E)
    (hmeets : Meets c' p' Q' E') :
    Lockstep c c' p p' (fun a a' q q' => Q a a' q q' ∧ Q' a' q') E := by
  rw [Lockstep] at h ⊢
  rw [Meets] at hmeets
  cases hc : c.run.run p with
  | mk result q =>
    cases hc' : c'.run.run p' with
    | mk result' q' =>
      rw [hc, hc'] at h
      rw [hc'] at hmeets
      cases result <;> cases result'
      case ok.ok => exact ⟨h, hmeets⟩
      case error.error => exact h
      all_goals exact h.elim

theorem Lockstep.of_call {Q : Unit → Unit → Progress κ → Progress κ' → Prop}
    (hcalls : p'.calls = p.calls)
    (hQ : Q () () { p with calls := p.calls + 1 } { p' with calls := p'.calls + 1 })
    (hE : E { p with calls := p.calls + 1 } { p' with calls := p'.calls + 1 }) :
    Lockstep (call fails path) (call fails path) p p' Q E := by
  refine .bind (.of_get (.bind (.of_set ?_)))
  rw [hcalls] at hQ hE ⊢
  split
  · exact .of_refuse hE
  · exact .of_pure hQ

theorem Lockstep.of_locate {Q : Place → Place → Progress κ → Progress κ' → Prop}
    (hsame : p'.tree.locate path = p.tree.locate path)
    (hQ : ∀ place, p.tree.locate path = .ok place → Q place place p p') (hE : E p p') :
    Lockstep (locate path) (locate path) p p' Q E := by
  refine .bind (.of_get ?_)
  rw [hsame]
  cases hlocate : p.tree.locate path with
  | error fault => exact .of_refuse hE
  | ok place => exact .of_pure (hQ place hlocate)

/-- Each step takes what is known of both before the rest of the work to what is known after it. -/
theorem Lockstep.of_forM {γ : Type} {f : γ → Commit κ Unit} {f' : γ → Commit κ' Unit}
    {I : List γ → Progress κ → Progress κ' → Prop} {l : List γ}
    (hstep : ∀ a rest p p', I (a :: rest) p p' →
      Lockstep (f a) (f' a) p p' (fun _ _ q q' => I rest q q') E) (h : I l p p') :
    Lockstep (l.forM f) (l.forM f') p p' (fun _ _ q q' => I [] q q') E := by
  induction l generalizing p p' with
  | nil => exact .of_pure h
  | cons a rest ih =>
    exact Lockstep.bind ((hstep a rest p p' h).imp (fun _ _ _ _ hq => ih hq) fun _ _ hq => hq)

end AgentAssembly.Commit

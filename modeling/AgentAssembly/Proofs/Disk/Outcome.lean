import AgentAssembly.Disk.Commit

/-!
What is known when a commit ends. `Meets` says it of success and failure together, with one rule
for each step that a commit is made of. Main statement: a rule for traversals, from what each step
makes of the work that is left.
-/

namespace AgentAssembly.Commit

variable {κ α β : Type} {p : Progress κ} {Q Q' : α → Progress κ → Prop}
  {E E' : WriteFault → Progress κ → Prop} {fails : Nat → Bool} {path : String}

def Meets (c : Commit κ α) (p : Progress κ) (Q : α → Progress κ → Prop)
    (E : WriteFault → Progress κ → Prop) : Prop :=
  match c.run.run p with
  | (.ok a, q) => Q a q
  | (.error fault, q) => E fault q

@[simp] theorem meets_pure {a : α} : Meets (pure a) p Q E ↔ Q a p := Iff.rfl

theorem run_bind {c : Commit κ β} {f : β → Commit κ α} : (c >>= f).run.run p =
    match c.run.run p with
    | (.ok b, q) => (f b).run.run q
    | (.error fault, q) => (.error fault, q) := by
  rw [ExceptT.run_bind, StateT.run_bind]
  cases hc : c.run.run p with
  | mk result q => cases result <;> rfl

@[simp] theorem meets_bind {c : Commit κ β} {f : β → Commit κ α} :
    Meets (c >>= f) p Q E ↔ Meets c p (fun b q => Meets (f b) q Q E) E := by
  rw [Meets, run_bind, Meets]
  cases c.run.run p with
  | mk result q => cases result <;> rfl

@[simp] theorem meets_get {Q : Progress κ → Progress κ → Prop} :
    Meets get p Q E ↔ Q p p := Iff.rfl

@[simp] theorem meets_modify {f : Progress κ → Progress κ} {Q : Unit → Progress κ → Prop} :
    Meets (modify f) p Q E ↔ Q () (f p) := Iff.rfl

@[simp] theorem meets_refuse {obstacle : Obstacle} :
    Meets (refuse path obstacle) p Q E ↔ E ⟨path, obstacle⟩ p := Iff.rfl

@[simp] theorem meets_note {change : Change} {s : Site κ} {Q : Unit → Progress κ → Prop} :
    Meets (note change s) p Q E ↔
      Q () { p with toSite := s, journal := change :: p.journal } := Iff.rfl

@[simp] theorem meets_set {q : Progress κ} {Q : PUnit → Progress κ → Prop} :
    Meets (set q) p Q E ↔ Q ⟨⟩ q := Iff.rfl

@[simp] theorem meets_call {Q : Unit → Progress κ → Prop} : Meets (call fails path) p Q E ↔
    if fails p.calls then E ⟨path, .system⟩ { p with calls := p.calls + 1 }
    else Q () { p with calls := p.calls + 1 } := by
  rw [call, meets_bind, meets_get, meets_bind, meets_set]
  split <;> rfl

@[simp] theorem meets_forM_nil {f : α → Commit κ Unit} {Q : PUnit → Progress κ → Prop} :
    Meets ([].forM f) p Q E ↔ Q ⟨⟩ p := Iff.rfl

theorem meets_forM_cons {f : α → Commit κ Unit} {a : α} {rest : List α}
    {Q : PUnit → Progress κ → Prop} : Meets ((a :: rest).forM f) p Q E ↔
      Meets (f a) p (fun _ q => Meets (rest.forM f) q Q E) E :=
  meets_bind (c := f a) (f := fun _ => rest.forM f)

theorem meets_locate {Q : Place → Progress κ → Prop} : Meets (locate path) p Q E ↔
    (∀ place, p.tree.locate path = .ok place → Q place p) ∧
    (∀ fault, p.tree.locate path = .error fault → E ⟨path, .system⟩ p) := by
  rw [locate, meets_bind, meets_get]
  cases h : p.tree.locate path <;> simp

theorem Meets.imp {c : Commit κ α} (h : Meets c p Q E) (hQ : ∀ a q, Q a q → Q' a q)
    (hE : ∀ fault q, E fault q → E' fault q) : Meets c p Q' E' := by
  rw [Meets] at h ⊢
  cases hrun : c.run.run p with
  | mk result q =>
    rw [hrun] at h
    cases result with
    | ok a => exact hQ a q h
    | error fault => exact hE fault q h

-- From here on commits are taken apart by the rules, never by running them.
attribute [irreducible] Meets

/-- Each step takes what is known before the rest of the work to what is known after it. -/
theorem meets_forM {f : α → Commit κ Unit} {I : List α → Progress κ → Prop} {l : List α}
    (hstep : ∀ a rest p, I (a :: rest) p → Meets (f a) p (fun _ q => I rest q) E) (h : I l p) :
    Meets (l.forM f) p (fun _ q => I [] q) E := by
  induction l generalizing p with
  | nil => exact meets_forM_nil.mpr h
  | cons a rest ih =>
    exact meets_forM_cons.mpr ((hstep a rest p h).imp (fun _ q hq => ih hq) fun _ _ hq => hq)

theorem runOn_of_meets [Depot κ] {s : Site κ} {c : Commit κ α} (h : Meets c { toSite := s } Q E) :
    (∃ a q, Q a q ∧ runOn s c = (.ok a, q.toSite)) ∨
      ∃ fault q, E fault q ∧ runOn s c = (.error fault, q.toSite.rollback q.journal) := by
  rw [Meets] at h
  cases hrun : c.run.run { toSite := s } with
  | mk result q =>
    rw [hrun] at h
    cases result with
    | ok a => exact .inl ⟨a, q, h, by rw [runOn, hrun]⟩
    | error fault => exact .inr ⟨fault, q, h, by rw [runOn, hrun]⟩

end AgentAssembly.Commit

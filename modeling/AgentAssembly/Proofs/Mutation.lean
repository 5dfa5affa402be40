import AgentAssembly.Mutation

/-!
What a program that fails leaves behind. Main statement: a program is atomic if its checks come
first and its writes, which do not fail, come last; and it stays so when it works on a part of a
state.
-/

namespace AgentAssembly.Mutation

variable {σ τ ε ε' α β : Type} {m : Mutation σ ε α} {f : α → Mutation σ ε β}

theorem bind_of_ok {s t : σ} {a : α} (h : m s = (.ok a, t)) : (m >>= f) s = f a t := by
  change ExceptT.bindCont f (m s).1 (m s).2 = _
  rw [h]
  rfl

theorem bind_of_error {s t : σ} {e : ε} (h : m s = (.error e, t)) :
    (m >>= f) s = (.error e, t) := by
  change ExceptT.bindCont f (m s).1 (m s).2 = _
  rw [h]
  rfl

@[simp] theorem pure_apply (a : α) (s : σ) : (pure a : Mutation σ ε α) s = (.ok a, s) := rfl

@[simp] theorem throw_apply (e : ε) (s : σ) :
    (throw e : Mutation σ ε α) s = (.error e, s) := rfl

@[simp] theorem get_apply (s : σ) : (get : Mutation σ ε σ) s = (.ok s, s) := rfl

@[simp] theorem modify_apply (g : σ → σ) (s : σ) :
    (modify g : Mutation σ ε PUnit) s = (.ok ⟨⟩, g s) := rfl

theorem adapt_apply (g : ε → ε') (m : Mutation σ ε α) (s : σ) :
    (ExceptT.adapt g m : Mutation σ ε' α) s = ((m s).1.mapError g, (m s).2) := rfl

theorem within_apply (part : σ → τ) (put : τ → σ → σ) (m : Mutation τ ε α) (s : σ) :
    within part put m s = ((m (part s)).1, put (m (part s)).2 s) := rfl

theorem refuse_apply (fault? : σ → Option ε) (s : σ) :
    refuse fault? s = ((fault? s).elim (.ok ()) .error, s) := by
  rw [refuse, bind_of_ok (get_apply s)]
  cases fault? s <;> rfl

theorem write_apply (given : Option β) (g : β → σ → σ) (s : σ) :
    (write given g : Mutation σ ε Unit) s = (.ok (), given.elim s (g · s)) := by
  cases given <;> rfl

theorem refuse_bind_of_some {fault? : σ → Option ε} {f : Unit → Mutation σ ε β} {s : σ} {e : ε}
    (h : fault? s = some e) : (refuse fault? >>= f) s = (.error e, s) :=
  bind_of_error (by rw [refuse_apply, h]; rfl)

theorem refuse_bind_of_none {fault? : σ → Option ε} {f : Unit → Mutation σ ε β} {s : σ}
    (h : fault? s = none) : (refuse fault? >>= f) s = f () s :=
  bind_of_ok (by rw [refuse_apply, h]; rfl)

theorem write_bind_apply (given : Option β) (g : β → σ → σ) (f : Unit → Mutation σ ε α) (s : σ) :
    (write given g >>= f) s = f () (given.elim s (g · s)) :=
  bind_of_ok (write_apply given g s)

theorem modify_bind_apply (g : σ → σ) (f : PUnit → Mutation σ ε α) (s : σ) :
    (modify g >>= f) s = f ⟨⟩ (g s) :=
  bind_of_ok (modify_apply g s)

def outcome (m : Mutation σ ε α) (s : σ) : Except ε σ := (m s).1.map fun _ => (m s).2

def IsCheck (m : Mutation σ ε α) : Prop := ∀ s, (m s).2 = s

def IsWrite (m : Mutation σ ε α) : Prop := ∀ s, ∃ a, (m s).1 = .ok a

/-- Whenever the program fails, the state is as it was before. -/
def IsAtomic (m : Mutation σ ε α) : Prop := ∀ s e, (m s).1 = .error e → (m s).2 = s

theorem isCheck_refuse (fault? : σ → Option ε) : (refuse fault?).IsCheck := fun s => by
  rw [refuse_apply]

theorem isCheck_pure (a : α) : (pure a : Mutation σ ε α).IsCheck := fun _ => rfl

theorem isCheck_throw (e : ε) : (throw e : Mutation σ ε α).IsCheck := fun _ => rfl

theorem isWrite_pure (a : α) : (pure a : Mutation σ ε α).IsWrite := fun _ => ⟨a, rfl⟩

theorem isWrite_get : (get : Mutation σ ε σ).IsWrite := fun s => ⟨s, rfl⟩

theorem isWrite_modify (g : σ → σ) : (modify g : Mutation σ ε PUnit).IsWrite :=
  fun _ => ⟨⟨⟩, rfl⟩

theorem isWrite_write (given : Option β) (g : β → σ → σ) :
    (write given g : Mutation σ ε Unit).IsWrite := fun s => ⟨(), by rw [write_apply]⟩

theorem IsCheck.isAtomic (h : m.IsCheck) : m.IsAtomic := fun s _ _ => h s

theorem IsWrite.isAtomic (h : m.IsWrite) : m.IsAtomic := fun s e he => by
  obtain ⟨a, ha⟩ := h s
  cases ha.symm.trans he

theorem IsCheck.bind_check (hm : m.IsCheck) (hf : ∀ a, (f a).IsCheck) : (m >>= f).IsCheck := by
  intro s
  have hs := hm s
  cases h : m s with
  | mk result t =>
    obtain rfl : t = s := by simpa [h] using hs
    cases result with
    | error e => rw [bind_of_error h]
    | ok a => rw [bind_of_ok h, hf a]

theorem IsCheck.bind (hm : m.IsCheck) (hf : ∀ a, (f a).IsAtomic) : (m >>= f).IsAtomic := by
  intro s e
  have hs := hm s
  cases h : m s with
  | mk result t =>
    obtain rfl : t = s := by simpa [h] using hs
    cases result with
    | error fault => rw [bind_of_error h]; exact fun _ => rfl
    | ok a => rw [bind_of_ok h]; exact hf a t e

theorem IsWrite.bind (hm : m.IsWrite) (hf : ∀ a, (f a).IsWrite) : (m >>= f).IsWrite := by
  intro s
  obtain ⟨a, ha⟩ := hm s
  have h : m s = (.ok a, (m s).2) := Prod.ext ha rfl
  rw [bind_of_ok h]
  exact hf a _

theorem IsAtomic.bind_write (hm : m.IsAtomic) (hf : ∀ a, (f a).IsWrite) :
    (m >>= f).IsAtomic := by
  intro s e he
  cases h : m s with
  | mk result t =>
    cases result with
    | error fault =>
      rw [bind_of_error h]
      simpa [h] using hm s fault (by rw [h])
    | ok a =>
      rw [bind_of_ok h] at he
      obtain ⟨b, hb⟩ := hf a t
      cases hb.symm.trans he

theorem IsAtomic.adapt (hm : m.IsAtomic) (g : ε → ε') :
    IsAtomic (ExceptT.adapt g m : Mutation σ ε' α) := by
  intro s e he
  rw [adapt_apply] at he ⊢
  cases h : (m s).1 with
  | error fault => exact hm s fault h
  | ok a =>
    rw [h] at he
    cases he

theorem IsAtomic.within {m : Mutation τ ε α} (hm : m.IsAtomic) {part : σ → τ} {put : τ → σ → σ}
    (hput : ∀ s, put (part s) s = s) : (within part put m).IsAtomic := by
  intro s e he
  rw [within_apply] at he ⊢
  rw [hm (part s) e he, hput]

theorem IsAtomic.onFirst {m : Mutation α ε β} (hm : m.IsAtomic) (p : α → Bool) (absent : ε) :
    (onFirst p absent m).IsAtomic := by
  intro l e he
  induction l with
  | nil => rfl
  | cons a rest ih =>
    rw [Mutation.onFirst] at he ⊢
    split at he
    · rename_i ha
      rw [if_pos ha]
      exact congrArg (· :: rest) (hm a e he)
    · rename_i ha
      rw [if_neg ha]
      exact congrArg (a :: ·) (ih he)

end AgentAssembly.Mutation

/-!
Lists without repetition. Main statement: `distinct` keeps the members, each once, at the place
of its first occurrence.
-/

namespace AgentAssembly

variable {α : Type} [DecidableEq α]

/-- Keeps first occurrences. -/
def distinct : List α → List α
  | [] => []
  | a :: rest => a :: (distinct rest).filter (· ≠ a)

@[simp] theorem distinct_nil : distinct ([] : List α) = [] := rfl

@[simp] theorem mem_distinct {a : α} {l : List α} : a ∈ distinct l ↔ a ∈ l := by
  induction l with
  | nil => simp
  | cons b rest ih =>
    by_cases h : a = b
    · simp [distinct, h]
    · simp [distinct, h, ih]

theorem nodup_distinct (l : List α) : (distinct l).Nodup := by
  induction l with
  | nil => simp
  | cons a rest ih =>
    simp only [distinct, List.nodup_cons]
    exact ⟨by simp, ih.filter _⟩

theorem distinct_eq_self {l : List α} (h : l.Nodup) : distinct l = l := by
  induction l with
  | nil => rfl
  | cons a rest ih =>
    obtain ⟨ha, hr⟩ := List.nodup_cons.mp h
    rw [distinct, ih hr, List.filter_eq_self.mpr]
    intro b hb
    have : b ≠ a := fun e => ha (e ▸ hb)
    simpa using this

end AgentAssembly

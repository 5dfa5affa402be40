import Mathlib.Data.List.Basic
import AgentAssembly.Text.Lines

/-!
Pieces of a text. Main statement: cutting a text at a character and joining the pieces by it undo
each other, where no piece holds the character.
-/

namespace AgentAssembly.Text

variable {p : Char → Bool} {c : Char} {cs ds piece : List Char}

theorem pieces_append_cons (hc : p c = true) :
    pieces p (cs ++ c :: ds) = pieces p cs ++ pieces p ds := by
  induction cs with
  | nil => simp [pieces, hc]
  | cons d cs ih =>
    by_cases hd : p d
    · simp [pieces, hd, ih]
    · cases hp : pieces p cs with
      | nil => exact absurd hp (pieces_ne_nil p cs)
      | cons q qs => simp [pieces, hd, ih, hp]

theorem pieces_of_forall_not (h : ∀ c ∈ cs, p c = false) : pieces p cs = [cs] := by
  induction cs with
  | nil => rfl
  | cons d cs ih =>
    have hd : p d = false := h d List.mem_cons_self
    simp [pieces, hd, ih fun c hc => h c (List.mem_cons_of_mem d hc)]

theorem exists_pieces_eq (h : ∀ c ∈ cs, p c = false) (ds : List Char) :
    ∃ more rest, pieces p (cs ++ ds) = (cs ++ more) :: rest := by
  induction cs with
  | nil =>
    obtain ⟨q, qs, hpieces⟩ := List.exists_cons_of_ne_nil (pieces_ne_nil p ds)
    exact ⟨q, qs, hpieces⟩
  | cons c cs ih =>
    obtain ⟨hc, hcs⟩ := List.forall_mem_cons.mp h
    obtain ⟨more, rest, hpieces⟩ := ih hcs
    exact ⟨more, rest, by simp [pieces, hc, hpieces]⟩

theorem of_mem_pieces (h : piece ∈ pieces p cs) (hc : c ∈ piece) : c ∈ cs ∧ p c = false := by
  induction cs generalizing piece with
  | nil => simp_all [pieces]
  | cons d cs ih =>
    by_cases hd : p d
    · obtain rfl | h : piece = [] ∨ piece ∈ pieces p cs := by simpa [pieces, hd] using h
      · simp at hc
      · exact (ih h hc).imp_left (List.mem_cons_of_mem d)
    · cases hp : pieces p cs with
      | nil => exact absurd hp (pieces_ne_nil p cs)
      | cons q qs =>
        rw [hp] at ih
        obtain rfl | h : piece = d :: q ∨ piece ∈ qs := by simpa [pieces, hd, hp] using h
        · obtain rfl | hc := List.mem_cons.mp hc
          · exact ⟨List.mem_cons_self, by simpa using hd⟩
          · exact (ih List.mem_cons_self hc).imp_left (List.mem_cons_of_mem d)
        · exact (ih (List.mem_cons_of_mem q h) hc).imp_left (List.mem_cons_of_mem d)

theorem of_mem_intercalate {d : Char} {l : List (List Char)} (h : d ∈ [c].intercalate l) :
    d = c ∨ ∃ piece ∈ l, d ∈ piece := by
  induction l with
  | nil => simp at h
  | cons a rest ih =>
    cases rest with
    | nil => exact .inr ⟨a, List.mem_cons_self, by simpa using h⟩
    | cons b rest =>
      rw [List.intercalate_cons_cons, List.mem_append, List.mem_append, List.mem_singleton] at h
      obtain (ha | hc) | hrest := h
      · exact .inr ⟨a, List.mem_cons_self, ha⟩
      · exact .inl hc
      · obtain hc | ⟨piece, hpiece, hd⟩ := ih hrest
        · exact .inl hc
        · exact .inr ⟨piece, List.mem_cons_of_mem a hpiece, hd⟩

theorem intercalate_append {l m : List (List Char)} (hl : l ≠ []) (hm : m ≠ []) :
    [c].intercalate (l ++ m) = [c].intercalate l ++ c :: [c].intercalate m := by
  obtain ⟨q, qs, rfl⟩ := List.exists_cons_of_ne_nil hm
  induction l with
  | nil => exact absurd rfl hl
  | cons a rest ih =>
    cases rest with
    | nil => simp [List.intercalate_cons_cons]
    | cons b rest =>
      have ih := ih (by simp)
      simp only [List.cons_append] at ih
      simp [List.intercalate_cons_cons, ih]

theorem pieces_intercalate {l : List (List Char)} (hl : l ≠ []) (hc : p c = true)
    (h : ∀ piece ∈ l, ∀ d ∈ piece, p d = false) : pieces p ([c].intercalate l) = l := by
  induction l with
  | nil => exact absurd rfl hl
  | cons a rest ih =>
    have ha := pieces_of_forall_not (h a List.mem_cons_self)
    cases rest with
    | nil => rw [List.intercalate_singleton, ha]
    | cons b rest =>
      have ih := ih (by simp) fun piece hpiece => h piece (List.mem_cons_of_mem a hpiece)
      rw [List.intercalate_cons_cons, List.append_assoc, List.singleton_append,
        pieces_append_cons hc, ha, ih, List.singleton_append]

theorem intercalate_pieces (hp : ∀ d, p d = true → d = c) : [c].intercalate (pieces p cs) = cs := by
  induction cs with
  | nil => rfl
  | cons d cs ih =>
    cases hq : pieces p cs with
    | nil => exact absurd hq (pieces_ne_nil p cs)
    | cons q qs =>
      rw [hq] at ih
      by_cases hd : p d
      · obtain rfl := hp d hd
        simp [pieces, hd, hq, List.intercalate_cons_cons, ih]
      · cases qs with
        | nil => simp_all [pieces]
        | cons r rs => simp_all [pieces, List.intercalate_cons_cons]

end AgentAssembly.Text

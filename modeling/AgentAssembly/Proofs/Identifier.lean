import Mathlib
import AgentAssembly.Identifier

/-!
What identifiers look like. Main statements: module names, variables of agents and functions of
tools are identifiers, and a module name starts with an underscore only before a digit.
-/

namespace AgentAssembly.Identifier

/-- A letter or an underscore, then letters, digits and underscores; and no keyword. -/
def IsIdentifier (s : String) : Prop :=
  ∃ c rest, s.toList = c :: rest ∧ (c.isAlpha ∨ c = '_') ∧
    (∀ d ∈ rest, d.isAlphanum ∨ d = '_') ∧ s ∉ keywords

theorem isIdentifier_iff {s : String} : isIdentifier s = true ↔ IsIdentifier s := by
  rw [isIdentifier, IsIdentifier]
  cases h : s.toList with
  | nil => simp
  | cons c rest => simp [isStart, isPart, isKeyword, and_assoc]

def IsWordChar (c : Char) : Prop := c.isLower ∨ c.isDigit ∨ c = '_'

/-- The start of a derived name: a small letter, or an underscore before a digit. -/
def HasStart (cs : List Char) : Prop :=
  ∃ c rest, cs = c :: rest ∧ (c.isLower ∨ c = '_' ∧ ∃ d, rest.head? = some d ∧ d.isDigit)

theorem isWordChar_toLower {c : Char} (h : c.isAlphanum) : IsWordChar c.toLower := by
  by_cases halpha : c.isAlpha
  · exact .inl (by rw [Char.isLower_toLower_eq_isAlpha, halpha])
  · have hdigit : c.isDigit := by simpa [Char.isAlphanum, halpha] using h
    have hupper : ¬ c.isUpper := fun hu => halpha (by simp [Char.isAlpha, hu])
    rw [Char.toLower_eq_of_not_isUpper hupper]
    exact .inr (.inl hdigit)

theorem isWordChar_of_mem_joinWords {previous : Option Char} {gap : Bool} {cs : List Char}
    {c : Char} (h : c ∈ joinWords previous gap cs) : IsWordChar c := by
  induction cs generalizing previous gap with
  | nil => simp [joinWords] at h
  | cons d rest ih =>
    have hgap : IsWordChar '_' := .inr (.inr rfl)
    rw [joinWords] at h
    split at h
    · rename_i hd
      have hlower := isWordChar_toLower hd
      split at h
      · obtain rfl | rfl | h := by simpa using h
        · exact hgap
        · exact hlower
        · exact ih h
      · obtain rfl | h := List.mem_cons.mp h
        · exact hlower
        · exact ih h
    · split at h
      · exact ih h
      · obtain rfl | h := List.mem_cons.mp h
        · exact hgap
        · exact ih h

theorem mem_of_mem_trimUnderscores {cs : List Char} {c : Char} (h : c ∈ trimUnderscores cs) :
    c ∈ cs := by
  rw [trimUnderscores, List.mem_reverse] at h
  have h := (List.dropWhile_suffix _).subset h
  exact (List.dropWhile_suffix _).subset (List.mem_reverse.mp h)

/-- No underscore is left in front: what is cut off the end leaves the front alone. -/
theorem head?_trimUnderscores_ne (cs : List Char) : (trimUnderscores cs).head? ≠ some '_' := by
  intro h
  have hprefix : trimUnderscores cs <+: cs.dropWhile (· == '_') := by
    rw [trimUnderscores, ← List.reverse_suffix, List.reverse_reverse]
    exact List.dropWhile_suffix _
  obtain ⟨more, hmore⟩ := hprefix
  have hhead : (cs.dropWhile (· == '_')).head? = some '_' := by
    rw [← hmore, List.head?_append, h]
    rfl
  have hnot := List.head?_dropWhile_not (· == '_') cs
  simp [hhead] at hnot

theorem withStart_nil : withStart [] = ['u', 'n', 'n', 'a', 'm', 'e', 'd'] := by decide

theorem withStart_cons (c : Char) (rest : List Char) :
    withStart (c :: rest) = if c.isDigit then '_' :: c :: rest else c :: rest := rfl

theorem hasStart_withStart {cs : List Char} (hword : ∀ c ∈ cs, IsWordChar c)
    (hhead : cs.head? ≠ some '_') : HasStart (withStart cs) := by
  cases cs with
  | nil => exact ⟨_, _, withStart_nil, .inl (by decide)⟩
  | cons c rest =>
    rw [withStart_cons]
    split
    · rename_i hd
      exact ⟨_, _, rfl, .inr ⟨rfl, c, rfl, hd⟩⟩
    · rename_i hd
      obtain hc | hc | hc := hword c List.mem_cons_self
      · exact ⟨_, _, rfl, .inl hc⟩
      · exact absurd hc hd
      · simp [hc] at hhead

theorem isWordChar_of_mem_withStart {cs : List Char} (hword : ∀ c ∈ cs, IsWordChar c) {c : Char}
    (h : c ∈ withStart cs) : IsWordChar c := by
  cases cs with
  | nil =>
    have hunnamed : ∀ d ∈ ['u', 'n', 'n', 'a', 'm', 'e', 'd'], d.isLower := by simp
    exact .inl (hunnamed c (withStart_nil ▸ h))
  | cons d rest =>
    rw [withStart_cons] at h
    split at h
    · obtain rfl | h := List.mem_cons.mp h
      · exact .inr (.inr rfl)
      · exact hword c h
    · exact hword c h

theorem HasStart.append {cs : List Char} (h : HasStart cs) (more : List Char) :
    HasStart (cs ++ more) := by
  obtain ⟨c, rest, rfl, hstart⟩ := h
  refine ⟨c, rest ++ more, rfl, ?_⟩
  obtain hc | ⟨hc, d, hd, hdigit⟩ := hstart
  · exact .inl hc
  · exact .inr ⟨hc, d, by simp [hd], hdigit⟩

theorem underscore_not_mem_keyword : ∀ k ∈ keywords, '_' ∉ k.toList := by
  decide

theorem avoidKeyword_not_mem (s : String) : avoidKeyword s ∉ keywords := by
  rw [avoidKeyword]
  split
  · intro h
    exact underscore_not_mem_keyword _ h (by simp)
  · rename_i h
    simpa [isKeyword] using h

theorem exists_toList_avoidKeyword (s : String) :
    ∃ more, (more = [] ∨ more = ['_']) ∧ (avoidKeyword s).toList = s.toList ++ more := by
  rw [avoidKeyword]
  split
  · exact ⟨['_'], .inr rfl, by simp⟩
  · exact ⟨[], .inl rfl, by simp⟩

def stem (label : String) : List Char :=
  withStart (trimUnderscores (joinWords none false label.toList))

theorem moduleName_eq (label : String) :
    moduleName label = avoidKeyword (String.ofList (stem label)) := rfl

theorem isWordChar_of_mem_stem {label : String} {c : Char} (h : c ∈ stem label) : IsWordChar c :=
  isWordChar_of_mem_withStart
    (fun _ hd => isWordChar_of_mem_joinWords (mem_of_mem_trimUnderscores hd)) h

theorem hasStart_stem (label : String) : HasStart (stem label) :=
  hasStart_withStart (fun _ hd => isWordChar_of_mem_joinWords (mem_of_mem_trimUnderscores hd))
    (head?_trimUnderscores_ne _)

theorem hasStart_moduleName (label : String) : HasStart (moduleName label).toList := by
  obtain ⟨more, -, hmore⟩ := exists_toList_avoidKeyword (String.ofList (stem label))
  rw [moduleName_eq, hmore, String.toList_ofList]
  exact (hasStart_stem label).append more

theorem isWordChar_of_mem_moduleName {label : String} {c : Char}
    (h : c ∈ (moduleName label).toList) : IsWordChar c := by
  obtain ⟨more, hshort, hmore⟩ := exists_toList_avoidKeyword (String.ofList (stem label))
  rw [moduleName_eq, hmore, String.toList_ofList, List.mem_append] at h
  obtain h | h := h
  · exact isWordChar_of_mem_stem h
  · obtain rfl | rfl := hshort
    · simp at h
    · exact .inr (.inr (by simpa using h))

theorem moduleName_ne_init (label : String) : moduleName label ≠ "__init__" := by
  intro h
  have hinit : "__init__".toList = ['_', '_', 'i', 'n', 'i', 't', '_', '_'] := by decide
  obtain ⟨c, rest, hlist, hstart⟩ := hasStart_moduleName label
  rw [h, hinit] at hlist
  obtain ⟨rfl, rfl⟩ := List.cons.inj hlist
  obtain hlower | ⟨-, d, hd, hdigit⟩ := hstart
  · exact absurd hlower (by decide)
  · obtain rfl : '_' = d := by simpa using hd
    exact absurd hdigit (by decide)

theorem IsWordChar.isPart {c : Char} (h : IsWordChar c) : c.isAlphanum ∨ c = '_' := by
  obtain h | h | h := h
  · exact .inl (by simp [Char.isAlphanum, Char.isAlpha, h])
  · exact .inl (by simp [Char.isAlphanum, h])
  · exact .inr h

theorem isIdentifier_of_hasStart {s : String} (hstart : HasStart s.toList)
    (hword : ∀ c ∈ s.toList, IsWordChar c) (hkeyword : s ∉ keywords) : IsIdentifier s := by
  obtain ⟨c, rest, hs, hc⟩ := hstart
  rw [hs] at hword
  refine ⟨c, rest, hs, ?_, fun d hd => (hword d (List.mem_cons_of_mem c hd)).isPart, hkeyword⟩
  obtain hc | ⟨hc, -⟩ := hc
  · exact .inl (by simp [Char.isAlpha, hc])
  · exact .inr hc

theorem isIdentifier_moduleName (label : String) : IsIdentifier (moduleName label) :=
  isIdentifier_of_hasStart (hasStart_moduleName label) (fun _ => isWordChar_of_mem_moduleName)
    (moduleName_eq label ▸ avoidKeyword_not_mem _)

theorem isIdentifier_toolFunction (label : String) : IsIdentifier (toolFunction label) :=
  isIdentifier_moduleName label

theorem isIdentifier_agentVariable (label : String) : IsIdentifier (agentVariable label) := by
  have hagent : "_agent".toList = ['_', 'a', 'g', 'e', 'n', 't'] := by decide
  rw [agentVariable]
  split
  · exact isIdentifier_moduleName label
  · refine isIdentifier_of_hasStart ?_ ?_ fun hkeyword => ?_
    · rw [String.toList_append]
      exact (hasStart_moduleName label).append _
    · intro c hc
      rw [String.toList_append, List.mem_append, hagent] at hc
      obtain hc | hc := hc
      · exact isWordChar_of_mem_moduleName hc
      · have hword : ∀ d ∈ ['_', 'a', 'g', 'e', 'n', 't'], d.isLower ∨ d = '_' := by simp
        exact (hword c hc).imp_right .inr
    · exact underscore_not_mem_keyword _ hkeyword (by simp [hagent])

theorem IsIdentifier.isPart_of_mem {s : String} (h : IsIdentifier s) {c : Char}
    (hc : c ∈ s.toList) : c.isAlphanum ∨ c = '_' := by
  obtain ⟨d, rest, hs, hd, hrest, -⟩ := h
  rw [hs] at hc
  obtain rfl | hc := List.mem_cons.mp hc
  · exact hd.imp_left fun halpha => by simp [Char.isAlphanum, halpha]
  · exact hrest c hc

theorem IsIdentifier.not_mem {s : String} (h : IsIdentifier s) {c : Char} (hc : isPart c = false) :
    c ∉ s.toList := by
  intro hmem
  have hpart : isPart c = true := by simpa [isPart] using h.isPart_of_mem hmem
  rw [hc] at hpart
  cases hpart

theorem IsIdentifier.toList_ne_nil {s : String} (h : IsIdentifier s) : s.toList ≠ [] := by
  obtain ⟨c, rest, hs, -⟩ := h
  simp [hs]

end AgentAssembly.Identifier

import Mathlib.Data.List.Chain
import AgentAssembly.Proofs.Identifier

/-!
Module names are the normal forms of labels. Main statements: the names that are left as they are
are told by `IsModuleName`, and every module name is one of them.
-/

namespace AgentAssembly.Identifier

/-- Two characters that may stand side by side: they are not both underscores. -/
def MayFollow (c d : Char) : Prop := ¬ (c = '_' ∧ d = '_')

/-- What a module name looks like: an identifier of small letters, digits and single underscores.
One stands in front only of a digit, and at the end only of a keyword. -/
structure IsModuleName (s : String) : Prop where
  identifier : isIdentifier s = true
  word : ∀ c ∈ s.toList, IsWordChar c
  single : s.toList.IsChain MayFollow
  start : ∀ rest, s.toList = '_' :: rest → ∃ d, rest.head? = some d ∧ d.isDigit
  ending : ∀ before, s.toList = before ++ ['_'] → String.ofList before ∈ keywords

structure IsPhrase (cs : List Char) : Prop where
  word : ∀ c ∈ cs, IsWordChar c
  single : cs.IsChain MayFollow
  ne_nil : cs ≠ []
  head : cs.head? ≠ some '_'
  last : cs.getLast? ≠ some '_'

def ofPhrase (cs : List Char) : String := avoidKeyword (String.ofList (withStart cs))

theorem isKeyword_iff {s : String} : isKeyword s ↔ s ∈ keywords := List.contains_iff_mem

theorem not_isDigit_of_isAlpha {c : Char} (h : c.isAlpha) : ¬ c.isDigit := by
  intro hdigit
  simp only [Char.isAlpha, Char.isUpper, Char.isLower, Char.isDigit, Bool.or_eq_true,
    Bool.and_eq_true, decide_eq_true_eq] at h hdigit
  obtain hupper | hlower := h
  · exact absurd (UInt32.le_trans hupper.1 hdigit.2) (by decide)
  · exact absurd (UInt32.le_trans hlower.1 hdigit.2) (by decide)

theorem toLower_ne_underscore {c : Char} (h : c.isAlphanum) : c.toLower ≠ '_' := by
  intro he
  by_cases halpha : c.isAlpha
  · have hlower : c.toLower.isLower = true := by rw [Char.isLower_toLower_eq_isAlpha, halpha]
    rw [he] at hlower
    exact absurd hlower (by decide)
  · have hdigit : c.isDigit := by simpa [Char.isAlphanum, halpha] using h
    have hupper : ¬ c.isUpper := fun hu => halpha (by simp [Char.isAlpha, hu])
    rw [Char.toLower_eq_of_not_isUpper hupper] at he
    rw [he] at hdigit
    exact absurd hdigit (by decide)

theorem mayFollow_of_left_ne {c d : Char} (h : c ≠ '_') : MayFollow c d := fun hcd => h hcd.1

theorem mayFollow_of_right_ne {c d : Char} (h : d ≠ '_') : MayFollow c d := fun hcd => h hcd.2

theorem single_joinWords (previous : Option Char) (gap : Bool) (cs : List Char) :
    (joinWords previous gap cs).IsChain MayFollow ∧
      (gap → (joinWords previous gap cs).head? ≠ some '_') := by
  induction cs generalizing previous gap with
  | nil => simp [joinWords]
  | cons c rest ih =>
    rw [joinWords]
    split
    · rename_i hc
      have hlower := toLower_ne_underscore hc
      have hword : (c.toLower :: joinWords (some c) false rest).IsChain MayFollow :=
        List.isChain_cons.mpr ⟨fun _ _ => mayFollow_of_left_ne hlower, (ih _ _).1⟩
      split
      · rename_i hstarts
        refine ⟨List.isChain_cons_cons.mpr ⟨mayFollow_of_right_ne hlower, hword⟩, fun hgap => ?_⟩
        simp [hgap] at hstarts
      · exact ⟨hword, fun _ => by simpa using hlower⟩
    · split
      · rename_i hgap
        have h := ih (some c) true
        exact ⟨h.1, fun _ => h.2 rfl⟩
      · rename_i hgap
        have h := ih (some c) true
        refine ⟨List.isChain_cons.mpr ⟨fun d hd => ?_, h.1⟩, fun hg => absurd hg hgap⟩
        exact mayFollow_of_right_ne fun he => h.2 rfl (he ▸ hd)

theorem isInfix_trimUnderscores (cs : List Char) : trimUnderscores cs <:+: cs := by
  have hprefix : trimUnderscores cs <+: cs.dropWhile (· == '_') := by
    rw [trimUnderscores, ← List.reverse_suffix, List.reverse_reverse]
    exact List.dropWhile_suffix _
  exact hprefix.isInfix.trans (List.dropWhile_suffix _).isInfix

theorem getLast?_trimUnderscores_ne (cs : List Char) :
    (trimUnderscores cs).getLast? ≠ some '_' := by
  rw [trimUnderscores, List.getLast?_reverse]
  intro h
  have hnot := List.head?_dropWhile_not (· == '_') (cs.dropWhile (· == '_')).reverse
  simp [h] at hnot

theorem exists_phrase (label : String) : ∃ cs, IsPhrase cs ∧ stem label = withStart cs := by
  cases h : trimUnderscores (joinWords none false label.toList) with
  | nil =>
    refine ⟨['u', 'n', 'n', 'a', 'm', 'e', 'd'], ⟨?_, ?_, by simp, by simp, by simp⟩, ?_⟩
    · have hlower : ∀ c ∈ ['u', 'n', 'n', 'a', 'm', 'e', 'd'], c.isLower := by simp
      exact fun c hc => .inl (hlower c hc)
    · simp [MayFollow]
    · rw [stem, h]
      decide
  | cons c rest =>
    refine ⟨c :: rest, ⟨?_, ?_, List.cons_ne_nil _ _, ?_, ?_⟩, by rw [stem, h]⟩
    · intro d hd
      exact isWordChar_of_mem_joinWords (mem_of_mem_trimUnderscores (h ▸ hd))
    · have hsingle := (single_joinWords none false label.toList).1
      exact h ▸ List.IsChain.infix hsingle (isInfix_trimUnderscores _)
    · exact h ▸ head?_trimUnderscores_ne _
    · exact h ▸ getLast?_trimUnderscores_ne _

theorem exists_moduleName_eq (label : String) :
    ∃ cs, IsPhrase cs ∧ moduleName label = ofPhrase cs := by
  obtain ⟨cs, hcs, hstem⟩ := exists_phrase label
  exact ⟨cs, hcs, by rw [moduleName_eq, hstem, ofPhrase]⟩

theorem IsWordChar.not_isUpper {c : Char} (h : IsWordChar c) : ¬ c.isUpper := by
  intro hupper
  obtain h | h | rfl := h
  · have hnot := Char.not_isLower_of_isUpper hupper
    simp [hnot] at h
  · exact not_isDigit_of_isAlpha (by simp [Char.isAlpha, hupper]) h
  · exact absurd hupper (by decide)

theorem joinWords_eq_self {previous : Option Char} {gap : Bool} {cs : List Char}
    (hword : ∀ c ∈ cs, IsWordChar c) (hsingle : cs.IsChain MayFollow)
    (hgap : gap → cs.head? ≠ some '_') : joinWords previous gap cs = cs := by
  induction cs generalizing previous gap with
  | nil => rfl
  | cons c rest ih =>
    obtain ⟨hhead, htail⟩ := List.isChain_cons.mp hsingle
    have hrest := fun d hd => hword d (List.mem_cons_of_mem c hd)
    have hupper := (hword c List.mem_cons_self).not_isUpper
    rw [joinWords]
    by_cases hc : c = '_'
    · have hopen : gap = false := by
        cases gap with
        | false => rfl
        | true => exact absurd (congrArg some hc) (hgap rfl)
      have hnext : rest.head? ≠ some '_' := fun h => hhead '_' h ⟨hc, rfl⟩
      have halnum : '_'.isAlphanum = false := by decide
      simp only [hc, halnum, hopen, Bool.false_eq_true, if_false]
      rw [ih hrest htail fun _ => hnext]
    · have halnum : c.isAlphanum = true :=
        (hword c List.mem_cons_self).isPart.resolve_right hc
      simp only [halnum, startsWord, hupper, Bool.false_and, Bool.false_eq_true, if_true, if_false,
        Char.toLower_eq_of_not_isUpper hupper]
      rw [ih hrest htail (by simp)]

theorem dropWhile_underscores_append {front cs : List Char} (hfront : ∀ c ∈ front, c = '_')
    (hhead : cs.head? ≠ some '_') : (front ++ cs).dropWhile (· == '_') = cs := by
  rw [List.dropWhile_append_of_pos fun c hc => by simp [hfront c hc]]
  cases cs with
  | nil => rfl
  | cons c rest => exact List.dropWhile_cons_of_neg (by simpa using hhead)

theorem trimUnderscores_surround {front back cs : List Char} (h : IsPhrase cs)
    (hfront : ∀ c ∈ front, c = '_') (hback : ∀ c ∈ back, c = '_') :
    trimUnderscores (front ++ cs ++ back) = cs := by
  have hhead : (cs ++ back).head? ≠ some '_' := by
    rw [List.head?_append_of_ne_nil cs h.ne_nil]
    exact h.head
  have hlast : cs.reverse.head? ≠ some '_' := by
    rw [List.head?_reverse]
    exact h.last
  have hreversed : ∀ c ∈ back.reverse, c = '_' := fun c hc => hback c (List.mem_reverse.mp hc)
  rw [trimUnderscores, List.append_assoc, dropWhile_underscores_append hfront hhead,
    List.reverse_append, dropWhile_underscores_append hreversed hlast, List.reverse_reverse]

/-- A name is its phrase with at most one underscore on either side, never on both. -/
theorem toList_ofPhrase {cs : List Char} (h : IsPhrase cs) :
    ∃ front back, (ofPhrase cs).toList = front ++ cs ++ back ∧
      (front = [] ∧ back = [] ∨
        front = ['_'] ∧ back = [] ∧ (∃ d, cs.head? = some d ∧ d.isDigit) ∨
        front = [] ∧ back = ['_'] ∧ String.ofList cs ∈ keywords) := by
  obtain ⟨c, rest, rfl⟩ := List.exists_cons_of_ne_nil h.ne_nil
  rw [ofPhrase, withStart_cons, avoidKeyword]
  by_cases hdigit : c.isDigit
  · have hkeyword : ¬ isKeyword (String.ofList ('_' :: c :: rest)) := fun hk =>
      underscore_not_mem_keyword _ (isKeyword_iff.mp hk) (by simp)
    refine ⟨['_'], [], ?_, .inr (.inl ⟨rfl, rfl, c, rfl, hdigit⟩)⟩
    rw [if_pos hdigit, if_neg hkeyword, String.toList_ofList]
    simp
  · rw [if_neg hdigit]
    by_cases hkeyword : isKeyword (String.ofList (c :: rest))
    · refine ⟨[], ['_'], ?_, .inr (.inr ⟨rfl, rfl, isKeyword_iff.mp hkeyword⟩)⟩
      rw [if_pos hkeyword, String.toList_append, String.toList_ofList]
      rfl
    · refine ⟨[], [], ?_, .inl ⟨rfl, rfl⟩⟩
      rw [if_neg hkeyword, String.toList_ofList]
      simp

theorem IsPhrase.single_cons {cs : List Char} (h : IsPhrase cs) :
    ('_' :: cs).IsChain MayFollow :=
  List.isChain_cons.mpr ⟨fun _ hd => mayFollow_of_right_ne fun he => h.head (he ▸ hd), h.single⟩

theorem IsPhrase.single_concat {cs : List Char} (h : IsPhrase cs) :
    (cs ++ ['_']).IsChain MayFollow := by
  refine List.isChain_append.mpr ⟨h.single, List.isChain_singleton _, fun c hc _ _ => ?_⟩
  exact mayFollow_of_left_ne fun he => h.last (he ▸ hc)

theorem hasStart_ofPhrase {cs : List Char} (h : IsPhrase cs) : HasStart (ofPhrase cs).toList := by
  obtain ⟨more, -, hmore⟩ := exists_toList_avoidKeyword (String.ofList (withStart cs))
  rw [ofPhrase, hmore, String.toList_ofList]
  exact (hasStart_withStart h.word h.head).append more

theorem isWordChar_of_mem_ofPhrase {cs : List Char} (h : IsPhrase cs) :
    ∀ c ∈ (ofPhrase cs).toList, IsWordChar c := by
  have hunderscore : IsWordChar '_' := .inr (.inr rfl)
  obtain ⟨front, back, hlist, hsides⟩ := toList_ofPhrase h
  rw [hlist]
  obtain ⟨rfl, rfl⟩ | ⟨rfl, rfl, -⟩ | ⟨rfl, rfl, -⟩ := hsides
  · simpa using h.word
  · simpa [hunderscore] using h.word
  · intro c hc
    obtain hc | rfl : c ∈ cs ∨ c = '_' := by simpa using hc
    · exact h.word c hc
    · exact hunderscore

theorem isModuleName_ofPhrase {cs : List Char} (h : IsPhrase cs) : IsModuleName (ofPhrase cs) := by
  obtain ⟨front, back, hlist, hsides⟩ := toList_ofPhrase h
  refine ⟨?_, isWordChar_of_mem_ofPhrase h, ?_, ?_, ?_⟩
  · exact isIdentifier_iff.mpr <| isIdentifier_of_hasStart (hasStart_ofPhrase h)
      (isWordChar_of_mem_ofPhrase h) (avoidKeyword_not_mem _)
  · rw [hlist]
    obtain ⟨rfl, rfl⟩ | ⟨rfl, rfl, -⟩ | ⟨rfl, rfl, -⟩ := hsides
    · simpa using h.single
    · simpa using h.single_cons
    · simpa using h.single_concat
  · intro rest hrest
    obtain ⟨c, more, hcons, hstart⟩ := hasStart_ofPhrase h
    obtain ⟨rfl, rfl⟩ := List.cons.inj (hcons.symm.trans hrest)
    obtain hlower | ⟨-, hdigit⟩ := hstart
    · exact absurd hlower (by decide)
    · exact hdigit
  · intro before hbefore
    rw [hlist] at hbefore
    obtain ⟨rfl, rfl⟩ | ⟨rfl, rfl, -⟩ | ⟨rfl, rfl, hkeyword⟩ := hsides
    · exact absurd (by simpa using congrArg List.getLast? hbefore) h.last
    · have hlast := congrArg List.getLast? hbefore
      rw [List.append_nil, List.getLast?_append_of_ne_nil _ h.ne_nil] at hlast
      exact absurd (by simpa using hlast) h.last
    · obtain rfl : cs = before := by simpa using hbefore
      exact hkeyword

theorem moduleName_ofPhrase {cs : List Char} (h : IsPhrase cs) :
    moduleName (ofPhrase cs) = ofPhrase cs := by
  obtain ⟨front, back, hlist, hsides⟩ := toList_ofPhrase h
  have hshape := isModuleName_ofPhrase h
  have hread : joinWords none false (ofPhrase cs).toList = front ++ cs ++ back :=
    (joinWords_eq_self hshape.word hshape.single (by simp)).trans hlist
  have hsurround : (∀ c ∈ front, c = '_') ∧ ∀ c ∈ back, c = '_' := by
    obtain ⟨rfl, rfl⟩ | ⟨rfl, rfl, -⟩ | ⟨rfl, rfl, -⟩ := hsides <;> simp
  rw [moduleName_eq, stem, hread, trimUnderscores_surround h hsurround.1 hsurround.2, ofPhrase]

theorem isModuleName_moduleName (label : String) : IsModuleName (moduleName label) := by
  obtain ⟨cs, hcs, hname⟩ := exists_moduleName_eq label
  exact hname ▸ isModuleName_ofPhrase hcs

theorem not_mem_keywords_of_isIdentifier {s : String} (h : isIdentifier s = true) :
    s ∉ keywords := by
  obtain ⟨-, -, -, -, -, hkeyword⟩ := isIdentifier_iff.mp h
  exact hkeyword

theorem isDigit_head_keyword : ∀ k ∈ keywords, k.toList.head?.any Char.isDigit = false := by
  decide

theorem IsModuleName.of_keyword {s : String} (h : IsModuleName s) {before : List Char}
    (hs : s.toList = before ++ ['_']) : IsPhrase before ∧ s = ofPhrase before := by
  have hkeyword := h.ending before hs
  have hno : '_' ∉ before := by simpa using underscore_not_mem_keyword _ hkeyword
  have hne : before ≠ [] := by
    rintro rfl
    exact absurd hkeyword (by decide)
  have hphrase : IsPhrase before :=
    { word := fun c hc => h.word c (by simp [hs, hc])
      single := (List.isChain_append.mp (hs ▸ h.single)).1
      ne_nil := hne
      head := fun hhead => hno (List.mem_of_head? hhead)
      last := fun hlast => hno (List.mem_of_getLast? hlast) }
  obtain ⟨c, rest, rfl⟩ := List.exists_cons_of_ne_nil hne
  have hdigit : c.isDigit = false := by simpa using isDigit_head_keyword _ hkeyword
  have hname : s = String.ofList (c :: rest) ++ "_" := by
    rw [← String.toList_inj, hs, String.toList_append, String.toList_ofList]
    rfl
  refine ⟨hphrase, ?_⟩
  rw [hname, ofPhrase, withStart_cons, hdigit, if_neg Bool.false_ne_true, avoidKeyword,
    if_pos (isKeyword_iff.mpr hkeyword)]

theorem IsModuleName.avoidKeyword_eq {s : String} (h : IsModuleName s) : avoidKeyword s = s :=
  if_neg fun hk =>
    not_mem_keywords_of_isIdentifier h.identifier (isKeyword_iff.mp hk)

/-- Without an underscore at the end the name is its phrase, but for one before a digit. -/
theorem IsModuleName.exists_of_last_ne {s : String} (h : IsModuleName s)
    (hlast : s.toList.getLast? ≠ some '_') : ∃ cs, IsPhrase cs ∧ s = ofPhrase cs := by
  obtain ⟨c, rest, hs, hc, -⟩ := isIdentifier_iff.mp h.identifier
  by_cases hunderscore : c = '_'
  · subst hunderscore
    obtain ⟨d, hd, hdigit⟩ := h.start rest hs
    obtain ⟨more, rfl⟩ : ∃ more, rest = d :: more := by
      cases rest with
      | nil => simp at hd
      | cons e more => exact ⟨more, by simpa using hd⟩
    have hne : d ≠ '_' := fun he => absurd hdigit (by simp [he])
    refine ⟨d :: more, ⟨?_, ?_, List.cons_ne_nil _ _, by simpa using hne, ?_⟩, ?_⟩
    · exact fun e he => h.word e (hs ▸ List.mem_cons_of_mem _ he)
    · exact (List.isChain_cons_cons.mp (hs ▸ h.single)).2
    · rwa [hs, List.getLast?_cons_cons] at hlast
    · rw [ofPhrase, withStart_cons, if_pos hdigit, ← hs, String.ofList_toList, h.avoidKeyword_eq]
  · have hdigit := not_isDigit_of_isAlpha (hc.resolve_right hunderscore)
    refine ⟨s.toList, ⟨h.word, h.single, by simp [hs], by simp [hs, hunderscore], hlast⟩, ?_⟩
    rw [ofPhrase, hs, withStart_cons, if_neg hdigit, ← hs, String.ofList_toList,
      h.avoidKeyword_eq]

theorem isModuleName_iff {s : String} : IsModuleName s ↔ ∃ cs, IsPhrase cs ∧ s = ofPhrase cs := by
  constructor
  · intro h
    by_cases hlast : s.toList.getLast? = some '_'
    · obtain ⟨before, hs⟩ := List.getLast?_eq_some_iff.mp hlast
      exact ⟨before, h.of_keyword hs⟩
    · exact h.exists_of_last_ne hlast
  · intro h
    obtain ⟨cs, hcs, rfl⟩ := h
    exact isModuleName_ofPhrase hcs

theorem moduleName_eq_self_iff {s : String} : moduleName s = s ↔ IsModuleName s := by
  constructor
  · intro h
    exact h ▸ isModuleName_moduleName s
  · intro h
    obtain ⟨cs, hcs, rfl⟩ := isModuleName_iff.mp h
    exact moduleName_ofPhrase hcs

theorem agentVariable_cases (label : String) :
    agentVariable label = moduleName label ∨
      agentVariable label = moduleName label ++ "_agent" := by
  rw [agentVariable]
  split
  · exact .inl rfl
  · exact .inr rfl

theorem moduleName_of_agentVariable_eq {a b : String} (h : agentVariable a = agentVariable b) :
    moduleName a = moduleName b ∨ moduleName a = moduleName b ++ "_agent" ∨
      moduleName b = moduleName a ++ "_agent" := by
  obtain ha | ha := agentVariable_cases a
  · obtain hb | hb := agentVariable_cases b
    · exact .inl (ha.symm.trans (h.trans hb))
    · exact .inr (.inl (ha.symm.trans (h.trans hb)))
  · obtain hb | hb := agentVariable_cases b
    · exact .inr (.inr (hb.symm.trans (h.symm.trans ha)))
    · exact .inl (String.append_left_inj _ |>.mp (ha.symm.trans (h.trans hb)))

/-- Every module name is left as it is, and the symbols made of it are identifiers that lead back
to it but for the ending that tells agents. -/
theorem moduleName_normal (label other : String) :
    IsModuleName (moduleName label) ∧ moduleName (moduleName label) = moduleName label ∧
    isIdentifier (agentVariable label) = true ∧ isIdentifier (toolFunction label) = true ∧
    (agentVariable label = agentVariable other →
      moduleName label = moduleName other ∨ moduleName label = moduleName other ++ "_agent" ∨
        moduleName other = moduleName label ++ "_agent") :=
  ⟨isModuleName_moduleName label, moduleName_eq_self_iff.mpr (isModuleName_moduleName label),
    isIdentifier_iff.mpr (isIdentifier_agentVariable label),
    isIdentifier_iff.mpr (isIdentifier_toolFunction label), moduleName_of_agentVariable_eq⟩

theorem moduleName_normal_helper :
    agentVariable "helper" = agentVariable "HelperAgent" ∧
    (moduleName "helper" = moduleName "HelperAgent" ∨
      moduleName "helper" = moduleName "HelperAgent" ++ "_agent" ∨
      moduleName "HelperAgent" = moduleName "helper" ++ "_agent") := by
  have h : agentVariable "helper" = agentVariable "HelperAgent" := by decide
  exact ⟨h, (moduleName_normal "helper" "HelperAgent").2.2.2.2 h⟩

end AgentAssembly.Identifier

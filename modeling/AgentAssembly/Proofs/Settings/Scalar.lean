import AgentAssembly.Proofs.Number
import AgentAssembly.Settings.Scalar

/-!
What comes back of a text that is taken for a truth value or a number where it looks like one.
-/

namespace AgentAssembly.Scalar

theorem shown_of_ofText {text : String} (h : ofText text = .wording text) :
    (ofText text).shown = text := by
  rw [h, shown]

theorem ofText_cases (text : String) :
    (∃ b, ofText text = .truth b) ∨ (∃ i, ofText text = .integer i) ∨
      (∃ d, ofText text = .decimal d) ∨ ofText text = .wording text := by
  simp only [ofText]
  split
  · exact .inl ⟨true, rfl⟩
  split
  · exact .inl ⟨false, rfl⟩
  split
  · exact .inr (.inl ⟨_, rfl⟩)
  split
  · exact .inr (.inr (.inl ⟨_, rfl⟩))
  · exact .inr (.inr (.inr rfl))

/-- A text that is no scalar by its looks: some character of it is of no numeral, and it is no word
for a truth value and no name of an infinity or of what is not a number. -/
structure IsWording (text : String) : Prop where
  char : ∃ c ∈ text.toList, Numeral.isNumeralChar c = false
  truth : String.ofList (text.toList.map Char.toLower) ∉ ["true", "false"]
  name : String.ofList ((Numeral.splitSign text.toList).2.map Char.toLower) ∉ Numeral.names

theorem ofText_of_isWording {text : String} (h : IsWording text) :
    ofText text = .wording text := by
  obtain ⟨c, hc, hchar⟩ := h.char
  have hinteger : Numeral.signedWord? text.toList = none := by
    rw [Option.eq_none_iff_forall_not_mem]
    intro i hi
    have hi := (Option.filter_eq_some_iff.mp hi).1
    rw [Numeral.isNumeralChar_of_integer? hi hc] at hchar
    cases hchar
  have hdouble : Double.read? text.toList = none := by
    rw [Option.eq_none_iff_forall_not_mem]
    intro d hd
    rw [Double.isNumeralChar_of_read? hd h.name hc] at hchar
    cases hchar
  have htruth := h.truth
  simp only [List.mem_cons, List.not_mem_nil, or_false, not_or] at htruth
  simp only [ofText, htruth, if_false, hinteger, hdouble]

theorem isBlank_toString (i : Int) : Text.isBlank (toString i) = false := by
  have hdigits : ∀ n : Nat, ∃ c ∈ (Nat.repr n).toList, Text.isBlankChar c = false := by
    intro n
    obtain ⟨c, cs, hcs⟩ := List.exists_cons_of_ne_nil (@Nat.toDigits_ne_nil n 10)
    have hc : c ∈ Nat.toDigits 10 n := hcs ▸ List.mem_cons_self
    have hdigit := Nat.isDigit_of_mem_toDigits (by decide) (by decide) hc
    refine ⟨c, by simpa [Nat.repr] using hc, Text.not_isBlankChar_of_isAlphanum ?_⟩
    simp [Char.isAlphanum, hdigit]
  cases i with
  | ofNat n =>
    obtain ⟨c, hmem, hc⟩ := hdigits n
    exact Text.isBlank_eq_false hmem hc
  | negSucc n =>
    obtain ⟨c, hmem, hc⟩ := hdigits (n + 1)
    refine Text.isBlank_eq_false ?_ hc
    show c ∈ ("-" ++ Nat.repr (n + 1)).toList
    rw [String.toList_append]
    exact List.mem_append_right _ hmem

theorem isBlank_plainText (d : Double) : Text.isBlank d.plainText = false := by
  have hne : d.plainText.toList ≠ [] := fun h =>
    d.plainText_ne_empty (String.toList_inj.mp (h.trans String.toList_empty.symm))
  obtain ⟨c, cs, hcs⟩ := List.exists_cons_of_ne_nil hne
  have hmem : c ∈ d.plainText.toList := hcs ▸ List.mem_cons_self
  refine Text.isBlank_eq_false hmem ?_
  obtain halnum | rfl | rfl := Double.mem_plainText hmem
  · exact Text.not_isBlankChar_of_isAlphanum halnum
  · decide
  · decide

theorem isBlank_shown {text : String} (h : Text.isBlank text = false) :
    Text.isBlank (ofText text).shown = false := by
  obtain ⟨b, hb⟩ | ⟨i, hi⟩ | ⟨d, hd⟩ | htext := ofText_cases text
  · rw [hb, shown]
    cases b <;> decide
  · rw [hi, shown, isBlank_toString]
  · rw [hd, shown, isBlank_plainText]
  · rwa [shown_of_ofText htext]

end AgentAssembly.Scalar

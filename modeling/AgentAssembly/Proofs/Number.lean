import AgentAssembly.Number.Decimal
import AgentAssembly.Number.Numeral

/-!
The characters of numbers: which ones stand in the text of a double, and which ones in a text that
is read as a number.
-/

namespace AgentAssembly

variable {c : Char}

theorem Decimal.positional_ne_nil (d : Decimal) : d.positional ≠ [] := by
  simp only [positional]
  split
  · simp [Nat.toDigits_ne_nil]
  · split <;> simp

theorem Decimal.mem_positional {d : Decimal} (h : c ∈ d.positional) : c.isDigit ∨ c = '.' := by
  have hdigits : ∀ c ∈ Nat.toDigits 10 d.digits, c.isDigit = true :=
    fun c hc => Nat.isDigit_of_mem_toDigits (by decide) (by decide) hc
  have hzeros : ∀ n, ∀ c ∈ zeros n, c.isDigit = true := by
    intro n c hc
    rw [List.eq_of_mem_replicate hc]
    decide
  simp only [positional] at h
  split at h
  · obtain h | h := List.mem_append.mp h
    · exact .inl (hdigits c h)
    · exact .inl (hzeros _ c h)
  · split at h
    · simp only [List.mem_append, List.mem_cons, List.not_mem_nil, or_false] at h
      obtain ((rfl | rfl) | h) | h := h
      · exact .inl (by decide)
      · exact .inr rfl
      · exact .inl (hzeros _ c h)
      · exact .inl (hdigits c h)
    · simp only [List.mem_append, List.mem_cons] at h
      obtain h | rfl | h := h
      · exact .inl (hdigits c (List.mem_of_mem_take h))
      · exact .inr rfl
      · exact .inl (hdigits c (List.mem_of_mem_drop h))

theorem Double.mem_plainText {d : Double} (h : c ∈ d.plainText.toList) :
    c.isAlphanum ∨ c = '.' ∨ c = '-' := by
  have hword : ∀ cs ∈ [['N', 'a', 'N'], ['i', 'n', 'f'], ['0']], ∀ c ∈ cs, c.isAlphanum = true := by
    simp
  rw [plainText] at h
  split at h
  · exact .inl (hword ['N', 'a', 'N'] (by simp) c h)
  · have hsize : ∀ c ∈ (if d.isInfinite then ['i', 'n', 'f'] else if d.isZero then ['0']
        else (Decimal.shortest d).positional), c.isAlphanum ∨ c = '.' := by
      intro c hc
      split at hc
      · exact .inl (hword ['i', 'n', 'f'] (by simp) c hc)
      · split at hc
        · exact .inl (hword ['0'] (by simp) c hc)
        · exact (Decimal.mem_positional hc).imp_left fun hdigit => by simp [Char.isAlphanum, hdigit]
    rw [String.toList_ofList] at h
    split at h
    · obtain rfl | h := List.mem_cons.mp h
      · exact .inr (.inr rfl)
      · exact (hsize c h).imp_right .inl
    · exact (hsize c h).imp_right .inl

theorem Double.plainText_ne_empty (d : Double) : d.plainText ≠ "" := by
  have hpositional := (Decimal.shortest d).positional_ne_nil
  rw [plainText]
  split
  · decide
  · rw [Ne, ← String.toList_inj, String.toList_ofList, String.toList_empty]
    split
    · simp
    split
    · simp
    split
    · simp
    · exact hpositional

namespace Numeral

def isNumeralChar (c : Char) : Bool :=
  c.isDigit || ['+', '-', '.'].contains c || c.toLower == 'e'

variable {cs : List Char}

theorem isNumeralChar_of_isDigit (h : c.isDigit = true) : isNumeralChar c = true := by
  simp [isNumeralChar, h]

theorem isDigit_of_natural? {n : Nat} (h : natural? cs = some n) (hc : c ∈ cs) :
    c.isDigit = true := by
  rw [natural?] at h
  split at h
  · rename_i hdigits
    exact List.all_eq_true.mp hdigits.2 c hc
  · cases h

theorem mem_splitSign (hc : c ∈ cs) : c ∈ (splitSign cs).2 ∨ isNumeralChar c = true := by
  unfold splitSign
  split
  · obtain rfl | hrest := List.mem_cons.mp hc
    · exact .inr (by decide)
    · exact .inl hrest
  · obtain rfl | hrest := List.mem_cons.mp hc
    · exact .inr (by decide)
    · exact .inl hrest
  · exact .inl hc

theorem isNumeralChar_of_integer? {i : Int} (h : integer? cs = some i) (hc : c ∈ cs) :
    isNumeralChar c = true := by
  rw [integer?, Option.map_eq_some_iff] at h
  obtain ⟨n, hn, -⟩ := h
  obtain ⟨m, hm, -⟩ := Option.bind_eq_some_iff.mp hn
  obtain hmem | hsign := mem_splitSign hc
  · exact isNumeralChar_of_isDigit (isDigit_of_natural? hm hmem)
  · exact hsign

theorem isNumeralChar_of_exponent? {e : Int} (h : exponent? cs = some e) (hc : c ∈ cs) :
    isNumeralChar c = true := by
  cases cs with
  | nil => cases hc
  | cons letter rest =>
    rw [exponent?] at h
    split at h
    · rename_i hletter
      obtain rfl | hrest := List.mem_cons.mp hc
      · simp [isNumeralChar, hletter]
      · exact isNumeralChar_of_integer? h hrest
    · cases h

def names : List String := ["inf", "infinity", "nan"]

end Numeral

open Numeral

theorem Double.isNumeralChar_of_read? {cs : List Char} {d : Double} (h : read? cs = some d)
    (hname : String.ofList ((splitSign cs).2.map Char.toLower) ∉ names) (hc : c ∈ cs) :
    isNumeralChar c = true := by
  obtain hmem | hsign := mem_splitSign hc
  · cases hsplit : splitSign cs with
    | mk negative body =>
      rw [hsplit] at hname hmem
      simp only [names, List.mem_cons, List.not_mem_nil, or_false, not_or] at hname
      simp only [read?, hsplit, hname, or_self, if_false] at h
      rw [← @List.takeWhile_append_dropWhile _ Char.isDigit body, List.mem_append] at hmem
      obtain hwhole | hrest := hmem
      · exact isNumeralChar_of_isDigit (List.all_eq_true.mp List.all_takeWhile c hwhole)
      generalize body.dropWhile Char.isDigit = rest at h hrest
      split at h
      · -- The point and the places stand before the exponent.
        rename_i after
        split at h
        · cases h
        obtain ⟨e, he, -⟩ := Option.map_eq_some_iff.mp h
        obtain rfl | hafter := List.mem_cons.mp hrest
        · decide
        rw [← @List.takeWhile_append_dropWhile _ Char.isDigit after, List.mem_append] at hafter
        obtain hplaces | hexponent := hafter
        · exact isNumeralChar_of_isDigit (List.all_eq_true.mp List.all_takeWhile c hplaces)
        · exact isNumeralChar_of_exponent? he hexponent
      · split at h
        · cases h
        obtain ⟨e, he, -⟩ := Option.map_eq_some_iff.mp h
        exact isNumeralChar_of_exponent? he hrest
  · exact hsign

end AgentAssembly

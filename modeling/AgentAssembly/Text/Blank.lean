/-!
White space. A name that holds nothing else counts as missing, and lines copied into
generated files are trimmed of it. Main statement: a text is blank exactly when trimming
leaves nothing.
-/

namespace AgentAssembly.Text

def blankCodes : List Nat :=
  [0x9, 0xA, 0xB, 0xC, 0xD, 0x20, 0x85, 0xA0, 0x1680,
   0x2000, 0x2001, 0x2002, 0x2003, 0x2004, 0x2005, 0x2006, 0x2007, 0x2008, 0x2009, 0x200A,
   0x2028, 0x2029, 0x202F, 0x205F, 0x3000]

def isBlankChar (c : Char) : Bool := blankCodes.contains c.toNat

theorem not_isBlankChar_of_printable {c : Char} (hlow : 0x20 < c.toNat) (hhigh : c.toNat < 0x7f) :
    isBlankChar c = false := by
  have hblank : ∀ code ∈ blankCodes, code ≤ 0x20 ∨ 0x7f ≤ code := by decide
  rw [isBlankChar, List.contains_eq_mem, decide_eq_false_iff_not]
  intro hmem
  have := hblank _ hmem
  omega

theorem not_isBlankChar_of_isAlphanum {c : Char} (h : c.isAlphanum = true) :
    isBlankChar c = false := by
  have h : (decide ('A'.val ≤ c.val ∧ c.val ≤ 'Z'.val) ||
      (decide ('a'.val ≤ c.val) && decide (c.val ≤ 'z'.val)) ||
      (decide ('0'.val ≤ c.val) && decide (c.val ≤ '9'.val))) = true := h
  simp only [Bool.or_eq_true, Bool.and_eq_true, decide_eq_true_eq, UInt32.le_iff_toNat_le] at h
  have hcodes : 'A'.val.toNat = 65 ∧ 'Z'.val.toNat = 90 ∧ 'a'.val.toNat = 97 ∧
      'z'.val.toNat = 122 ∧ '0'.val.toNat = 48 ∧ '9'.val.toNat = 57 := by decide
  have hcode : c.val.toNat = c.toNat := rfl
  exact not_isBlankChar_of_printable (by omega) (by omega)

def dropEndWhile (p : Char → Bool) (cs : List Char) : List Char :=
  (cs.reverse.dropWhile p).reverse

def trimChars (p : Char → Bool) (cs : List Char) : List Char :=
  dropEndWhile p (cs.dropWhile p)

def trim (s : String) : String := String.ofList (trimChars isBlankChar s.toList)

def isBlank (s : String) : Bool := s.toList.all isBlankChar

theorem isBlank_eq_false {s : String} {c : Char} (h : c ∈ s.toList) (hc : isBlankChar c = false) :
    isBlank s = false := by
  rw [isBlank, List.all_eq_false]
  exact ⟨c, h, by simp [hc]⟩

theorem dropWhile_eq_nil_iff {p : Char → Bool} {cs : List Char} :
    cs.dropWhile p = [] ↔ ∀ c ∈ cs, p c = true := by
  induction cs with
  | nil => simp
  | cons c cs ih => by_cases h : p c <;> simp [h, ih]

theorem trimChars_eq_nil_iff {p : Char → Bool} {cs : List Char} :
    trimChars p cs = [] ↔ ∀ c ∈ cs, p c = true := by
  constructor
  · intro h
    simp only [trimChars, dropEndWhile, List.reverse_eq_nil_iff, dropWhile_eq_nil_iff,
      List.mem_reverse] at h
    have hall : cs.dropWhile p = [] := by
      cases hd : cs.dropWhile p with
      | nil => rfl
      | cons d ds =>
        have hp := h d (by simp [hd])
        have := List.head?_dropWhile_not p cs
        simp [hd, hp] at this
    exact dropWhile_eq_nil_iff.mp hall
  · intro h
    simp [trimChars, dropEndWhile, dropWhile_eq_nil_iff.mpr h]

theorem isBlank_iff_trim {s : String} : isBlank s = true ↔ trim s = "" := by
  rw [trim, ← String.toList_inj, String.toList_ofList, String.toList_empty, trimChars_eq_nil_iff,
    isBlank, List.all_eq_true]

end AgentAssembly.Text

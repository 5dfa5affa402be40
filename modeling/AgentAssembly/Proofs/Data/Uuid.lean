import Mathlib.Algebra.GroupWithZero.Nat
import AgentAssembly.Data.Uuid
import AgentAssembly.Proofs.Text.Pieces

/-!
Identifiers come back from their text.
-/

namespace AgentAssembly.Uuid

open Text.Quoted

/-! ### Hexadecimal numbers -/

theorem hexValue?_hexDigit {d : Nat} (h : d < 16) : hexValue? (hexDigit d) = some d := by
  have hdigits : ∀ d < 16, hexValue? (hexDigit d) = some d := by decide
  exact hdigits d h

theorem hexNumber?_hexDigits {places : List Nat} (h : ∀ d ∈ places, d < 16) :
    hexNumber? (places.map hexDigit) = some (places.foldl (fun n d => 16 * n + d) 0) := by
  have hvalues : (places.map hexDigit).mapM hexValue? = some places := by
    induction places with
    | nil => rfl
    | cons d rest ih =>
      obtain ⟨hd, hrest⟩ := List.forall_mem_cons.mp h
      simp [hexValue?_hexDigit hd, ih hrest]
  rw [hexNumber?, hvalues, Option.map_some]

theorem hexNumber?_eq_none {cs : List Char} {c : Char} (h : c ∈ cs) (hc : hexValue? c = none) :
    hexNumber? cs = none := by
  have hvalues : cs.mapM hexValue? = none := by
    induction cs with
    | nil => simp at h
    | cons d rest ih =>
      obtain rfl | h := List.mem_cons.mp h
      · simp [hc]
      · cases hexValue? d <;> simp_all
  rw [hexNumber?, hvalues, Option.map_none]

def places (k n : Nat) : List Nat := (List.range k).map fun i => n / 16 ^ (k - 1 - i) % 16

theorem places_succ (k n : Nat) : places (k + 1) n = places k (n / 16) ++ [n % 16] := by
  simp only [places, List.range_succ, List.map_append, List.map_singleton]
  congr 1
  · refine List.map_congr_left fun i hi => ?_
    have hplace : k + 1 - 1 - i = k - 1 - i + 1 := by
      have := List.mem_range.mp hi
      omega
    rw [hplace, Nat.pow_succ', Nat.div_div_eq_div_mul]
  · simp

theorem foldl_places (k n : Nat) :
    (places k n).foldl (fun n d => 16 * n + d) 0 = n % 16 ^ k := by
  induction k generalizing n with
  | zero => simp [places, Nat.mod_one]
  | succ k ih =>
    rw [places_succ, List.foldl_append, ih, List.foldl_cons, List.foldl_nil, Nat.pow_succ',
      Nat.mod_mul, Nat.add_comm]

theorem digits_eq (id : Uuid) : id.digits = (places 32 id.value.toNat).map hexDigit := by
  simp [digits, places, Function.comp_def]

theorem exists_hexDigit {id : Uuid} {c : Char} (h : c ∈ id.digits) : ∃ d < 16, hexDigit d = c := by
  obtain ⟨i, -, rfl⟩ := List.mem_map.mp h
  exact ⟨_, Nat.mod_lt _ (by decide), rfl⟩

theorem length_digits (id : Uuid) : id.digits.length = 32 := by
  simp [digits]

theorem ofDigits?_digits (id : Uuid) : ofDigits? id.digits = some id := by
  have hplaces : ∀ d ∈ places 32 id.value.toNat, d < 16 := by
    intro d hd
    obtain ⟨i, -, rfl⟩ := List.mem_map.mp hd
    exact Nat.mod_lt _ (by decide)
  have hbound : id.value.toNat < 16 ^ 32 := id.value.isLt
  have hnumber : hexNumber? id.digits = some id.value.toNat := by
    rw [digits_eq, hexNumber?_hexDigits hplaces, foldl_places, Nat.mod_eq_of_lt hbound]
  simp [ofDigits?, hnumber, length_digits]

/-! ### Groups -/

variable {sizes : List Nat} {cs : List Char}

theorem flatten_cut (h : sizes.sum = cs.length) : (cut sizes cs).flatten = cs := by
  induction sizes generalizing cs with
  | nil => simpa [cut, eq_comm] using h
  | cons n sizes ih =>
    rw [List.sum_cons] at h
    rw [cut, List.flatten_cons, ih (by rw [List.length_drop]; omega), List.take_append_drop]

theorem length_cut (h : sizes.sum ≤ cs.length) : (cut sizes cs).map List.length = sizes := by
  induction sizes generalizing cs with
  | nil => rfl
  | cons n sizes ih =>
    rw [List.sum_cons] at h
    rw [cut, List.map_cons, ih (by rw [List.length_drop]; omega), List.length_take,
      Nat.min_eq_left (by omega)]

theorem mem_of_mem_cut {piece : List Char} (h : piece ∈ cut sizes cs) : piece ⊆ cs := by
  induction sizes generalizing cs with
  | nil => simp [cut] at h
  | cons n sizes ih =>
    obtain rfl | h := List.mem_cons.mp h
    · exact List.take_subset n cs
    · exact fun c hc => List.drop_subset n cs (ih h hc)

/-! ### The text -/

theorem toList_text (id : Uuid) :
    id.text.toList = ['-'].intercalate (cut groupSizes id.digits) := by
  simp [text]

theorem pieces_text (id : Uuid) :
    Text.pieces (· == '-') id.text.toList = cut groupSizes id.digits := by
  have hdigits : ∀ d < 16, (hexDigit d == '-') = false := by decide
  rw [toList_text]
  refine Text.pieces_intercalate (by simp [groupSizes, cut]) (by simp) fun piece hpiece c hc => ?_
  obtain ⟨d, hd, rfl⟩ := exists_hexDigit (mem_of_mem_cut hpiece hc)
  exact hdigits d hd

theorem ofGroups?_text (id : Uuid) : ofGroups? id.text.toList = some id := by
  have hsum : groupSizes.sum = id.digits.length := id.length_digits.symm
  rw [ofGroups?, pieces_text, length_cut (Nat.le_of_eq hsum), if_pos rfl, flatten_cut hsum,
    ofDigits?_digits]

theorem unwrapped_text (id : Uuid) : unwrapped id.text.toList = id.text.toList := by
  obtain ⟨c, rest, hdigits⟩ := List.exists_cons_of_length_eq_add_one id.length_digits
  obtain ⟨d, hd, rfl⟩ := exists_hexDigit (hdigits ▸ List.mem_cons_self)
  have htext : ∃ rest, id.text.toList = hexDigit d :: rest := by
    simp [toList_text, hdigits, groupSizes, cut, List.intercalate_cons_cons]
  obtain ⟨rest, htext⟩ := htext
  have hscheme : scheme = ['u', 'r', 'n', ':', 'u', 'u', 'i', 'd', ':'] := by decide
  have hfirst : ∀ d < 16, hexDigit d ≠ '\x7b' ∧ (hexDigit d).toLower ≠ 'u' := by decide
  obtain ⟨hbrace, hletter⟩ := hfirst d hd
  rw [htext, unwrapped, if_neg (by simp [hbrace]), if_neg (by simp [hscheme, hletter])]

theorem ofText?_text (id : Uuid) : ofText? id.text = some id := by
  have hdash : '-' ∈ id.text.toList := by
    simp [toList_text, groupSizes, cut, List.intercalate_cons_cons]
  have hdigits : ofDigits? id.text.toList = none := by
    rw [ofDigits?, hexNumber?_eq_none hdash (by decide)]
    rfl
  rw [ofText?, hdigits, unwrapped_text, ofGroups?_text]
  rfl

end AgentAssembly.Uuid

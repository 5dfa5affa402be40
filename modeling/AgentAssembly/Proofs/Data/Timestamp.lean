import Mathlib.Algebra.GroupWithZero.Nat
import AgentAssembly.Proofs.Data.Calendar

/-!
Moments come back from their text.
-/

namespace AgentAssembly.Timestamp

open Numeral

def IsDated (t : Timestamp) : Prop :=
  isInRange (Int.fdiv (Int.fdiv t.nanos nanosPerSecond) 86400) = true

/-! ### Numbers -/

variable {width n : Nat} {rest : List Char}

theorem isDigit_of_mem_padded {c : Char} (h : c ∈ padded width n) : c.isDigit = true := by
  rw [padded, List.mem_append] at h
  obtain h | h := h
  · rw [List.eq_of_mem_replicate h]
    rfl
  · exact Nat.isDigit_of_mem_toDigits (by decide) (by decide) h

theorem padded_ne_nil : padded width n ≠ [] := by
  simp [padded, Nat.toDigits_ne_nil]

theorem length_padded (hwidth : 0 < width) (h : n < 10 ^ width) :
    (padded width n).length = width := by
  have := (Nat.length_toDigits_le_iff (by decide) hwidth).mpr h
  simp only [padded, List.length_append, List.length_replicate]
  omega

theorem ofDigits_padded : ofDigits (padded width n) = n := by
  have hzeros : ∀ k, ofDigits (List.replicate k '0') = 0 := by
    intro k
    induction k with
    | zero => rfl
    | succ k ih => simpa [ofDigits, List.replicate_succ, digitValue] using ih
  calc ofDigits (padded width n)
      = Nat.ofDigitChars 10 (Nat.toDigits 10 n)
          (ofDigits (List.replicate (width - (Nat.toDigits 10 n).length) '0')) :=
        List.foldl_append
    _ = n := by rw [hzeros, Nat.ofDigitChars_toDigits (by decide) (by decide)]

theorem natural?_padded : natural? (padded width n) = some n := by
  have hdigits : (padded width n).all Char.isDigit = true :=
    List.all_eq_true.mpr fun _ => isDigit_of_mem_padded
  rw [natural?, if_pos ⟨padded_ne_nil, hdigits⟩, ofDigits_padded]

def EndsNumber (rest : List Char) : Prop := ∀ c ∈ rest.head?, c.isDigit = false

theorem takeWhile_padded (h : EndsNumber rest) :
    (padded width n ++ rest).takeWhile Char.isDigit = padded width n := by
  have hrest : rest.takeWhile Char.isDigit = [] := by
    cases rest with
    | nil => rfl
    | cons c rest => simp [h c rfl]
  rw [List.takeWhile_append_of_pos fun _ => isDigit_of_mem_padded, hrest, List.append_nil]

theorem exists_padded (width n : Nat) : ∃ c cs, padded width n = c :: cs ∧ c.isDigit = true := by
  obtain ⟨c, cs, h⟩ := List.exists_cons_of_ne_nil (@padded_ne_nil width n)
  exact ⟨c, cs, h, isDigit_of_mem_padded (h ▸ List.mem_cons_self)⟩

theorem skipBlank_padded : skipBlank (padded width n ++ rest) = padded width n ++ rest := by
  obtain ⟨c, cs, hcs, hc⟩ := exists_padded width n
  have hblank := Text.not_isBlankChar_of_isAlphanum (by simp [Char.isAlphanum, hc] : c.isAlphanum)
  simp [hcs, skipBlank, hblank]

theorem readDigits_padded :
    readDigits (padded width n ++ rest) (padded width n) = some (n, rest) := by
  rw [readDigits, natural?_padded, List.drop_left, Option.map_some]

theorem readField_padded (hwidth : 0 < width) (h : n < 10 ^ width) :
    readField width (padded width n ++ rest) = some (n, rest) := by
  have hdigits : (padded width n).takeWhile Char.isDigit = padded width n := by
    simpa using @takeWhile_padded width n [] (by simp [EndsNumber])
  simp only [readField, skipBlank_padded, List.take_left' (length_padded hwidth h), hdigits,
    readDigits_padded]

theorem readYear_yearText (year : Int) (h : EndsNumber rest) :
    readYear (yearText year ++ rest) = some (year, rest) := by
  have hminus : ∀ cs, skipBlank ('-' :: cs) = '-' :: cs := fun _ => rfl
  have hplus : ∀ cs, skipBlank ('+' :: cs) = '+' :: cs := fun _ => rfl
  unfold yearText
  split
  · rw [List.cons_append, readYear, hminus]
    simp only [takeWhile_padded h, readDigits_padded, Option.map_some, Option.some.injEq,
      Prod.mk.injEq, and_true]
    omega
  split
  · rw [List.cons_append, readYear, hplus]
    simp only [takeWhile_padded h, readDigits_padded, Option.map_some, Option.some.injEq,
      Prod.mk.injEq, and_true]
    omega
  · have hfield := @readField_padded 4 year.toNat rest (by decide) (by omega)
    obtain ⟨c, cs, hcs, hc⟩ := exists_padded 4 year.toNat
    have hsign : c ≠ '-' ∧ c ≠ '+' := by
      constructor <;> rintro rfl <;> simp at hc
    rw [readYear, skipBlank_padded]
    split
    · simp_all
    · simp_all
    · simp only [hfield, Option.map_some, Option.some.injEq, Prod.mk.injEq, and_true]
      omega

theorem readFraction_padded (hwidth : 0 < width) (hnine : width ≤ 9) (h : n < 10 ^ width) :
    readFraction ('.' :: padded width n ++ ['Z']) = some (n * 10 ^ (9 - width), ['Z']) := by
  have hends : EndsNumber ['Z'] := by simp [EndsNumber]
  have hlength := length_padded hwidth h
  simp only [List.cons_append, readFraction, takeWhile_padded hends,
    List.take_of_length_le (hlength ▸ hnine), natural?_padded, List.drop_left, Option.map_some]
  rw [hlength]
  rfl

theorem readFraction_fractionText {nanos : Nat} (h : nanos < nanosPerSecond) :
    readFraction (fractionText nanos ++ ['Z']) = some (nanos, ['Z']) := by
  rw [nanosPerSecond] at h
  unfold fractionText
  split
  · simp_all [readFraction]
  split
  · rw [readFraction_padded (by decide) (by decide) (by omega)]
    simp; omega
  split
  · rw [readFraction_padded (by decide) (by decide) (by omega)]
    simp; omega
  · rw [readFraction_padded (by decide) (by decide) (by omega)]
    simp

/-! ### The text -/

def fieldsText (date : Date) (hour minute second nanos : Nat) : List Char :=
  yearText date.year ++ '-' :: (padded 2 date.month ++ '-' :: (padded 2 date.day ++
    'T' :: (padded 2 hour ++ ':' :: (padded 2 minute ++ ':' :: (padded 2 second ++
      (fractionText nanos ++ ['Z']))))))

theorem ofText?_fieldsText {date : Date} {hour minute second nanos : Nat}
    (hdate : date.isValid = true) (hrange : isInRange date.toDays = true) (hhour : hour < 24)
    (hminute : minute < 60) (hsecond : second < 60) (hnanos : nanos < nanosPerSecond) :
    ofText? (String.ofList (fieldsText date hour minute second nanos)) =
      some ⟨(date.toDays * 86400 + hour * 3600 + minute * 60 + second) * nanosPerSecond +
        nanos⟩ := by
  have hvalid := hdate
  simp only [Date.isValid, Bool.and_eq_true, decide_eq_true_eq] at hvalid
  have hlength : daysInMonth date.year date.month ≤ 31 := by
    unfold daysInMonth
    split <;> split <;> omega
  have hdash : ∀ cs, readMark '-' ('-' :: cs) = some cs := fun _ => rfl
  have hcolon : ∀ cs, readMark ':' (':' :: cs) = some cs := fun _ => rfl
  have hletter : ∀ cs, readChar ['T', 't', ' '] ('T' :: cs) = some cs := fun _ => rfl
  have hoffset : readOffset (skipBlank ['Z']) = some (0, []) := rfl
  have hfield : ∀ n < 100, ∀ rest, readField 2 (padded 2 n ++ rest) = some (n, rest) :=
    fun n hn rest => readField_padded (by decide) hn
  have hyear := fun rest => @readYear_yearText ('-' :: rest) date.year (by simp [EndsNumber])
  have hsame : Int.fdiv (date.toDays * 86400 + hour * 3600 + minute * 60 + second) 86400 =
      date.toDays := by
    rw [Int.fdiv_eq_ediv_of_nonneg _ (by decide)]
    omega
  have hwhole : min second 59 = second := by omega
  rw [ofText?, String.toList_ofList, fieldsText]
  refine Option.bind_eq_some_iff.mpr ⟨_, hyear _, ?_⟩
  refine Option.bind_eq_some_iff.mpr ⟨_, hdash _, ?_⟩
  refine Option.bind_eq_some_iff.mpr ⟨_, hfield date.month (by omega) _, ?_⟩
  refine Option.bind_eq_some_iff.mpr ⟨_, hdash _, ?_⟩
  refine Option.bind_eq_some_iff.mpr ⟨_, hfield date.day (by omega) _, ?_⟩
  refine Option.bind_eq_some_iff.mpr ⟨_, hletter _, ?_⟩
  refine Option.bind_eq_some_iff.mpr ⟨_, hfield hour (by omega) _, ?_⟩
  refine Option.bind_eq_some_iff.mpr ⟨_, hcolon _, ?_⟩
  refine Option.bind_eq_some_iff.mpr ⟨_, hfield minute (by omega) _, ?_⟩
  refine Option.bind_eq_some_iff.mpr ⟨_, hcolon _, ?_⟩
  refine Option.bind_eq_some_iff.mpr ⟨_, hfield second (by omega) _, ?_⟩
  refine Option.bind_eq_some_iff.mpr ⟨_, readFraction_fractionText hnanos, ?_⟩
  refine Option.bind_eq_some_iff.mpr ⟨_, hoffset, ?_⟩
  have hclock : ¬ ((!date.isValid) = true ∨ 24 ≤ hour ∨ 60 ≤ minute ∨ 60 < second) := by
    rw [hdate]
    simp only [Bool.not_true, Bool.false_eq_true, false_or]
    omega
  have hseconds : date.toDays * 86400 + hour * 3600 + minute * 60 + (min second 59 : Nat) - 0 * 60 =
      date.toDays * 86400 + hour * 3600 + minute * 60 + second := by
    omega
  refine (if_neg hclock).trans ((if_neg (by simp)).trans ((if_neg ?_).trans ?_))
  · rw [hseconds, hsame, hrange]
    simp
  · rw [hseconds, hwhole, Int.sub_self, Int.zero_mul, Int.add_zero]
    rfl

theorem ofText?_text {t : Timestamp} (h : t.IsDated) : ofText? t.text = some t := by
  let seconds := Int.fdiv t.nanos nanosPerSecond
  let nanos := (t.nanos - seconds * nanosPerSecond).toNat
  let days := Int.fdiv seconds 86400
  let second := (seconds - days * 86400).toNat
  have htext : t.text = String.ofList (fieldsText (Date.ofDays days) (second / 3600)
      (second / 60 % 60) (second % 60) nanos) := by
    simp [text, fieldsText, seconds, nanos, days, second]
  have hseconds : seconds = t.nanos / 1000000000 := Int.fdiv_eq_ediv_of_nonneg _ (by decide)
  have hdays : days = seconds / 86400 := Int.fdiv_eq_ediv_of_nonneg _ (by decide)
  have hrange : isInRange (Date.ofDays days).toDays = true := by
    rw [Date.toDays_ofDays]
    exact h
  rw [htext, ofText?_fieldsText (Date.isValid_ofDays days) hrange (by omega) (by omega) (by omega)
    (by simp only [nanosPerSecond, nanos]; omega), Date.toDays_ofDays]
  refine congrArg (fun nanos => some (Timestamp.mk nanos)) ?_
  simp only [nanosPerSecond, nanos, second]
  omega

end AgentAssembly.Timestamp

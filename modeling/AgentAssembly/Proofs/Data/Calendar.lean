import Mathlib.Data.List.Basic
import AgentAssembly.Data.Timestamp

/-!
The calendar. Main statements: the date of a day is valid, and it is the date of that day only.
-/

namespace AgentAssembly.Timestamp.Date

/-- The days before a year of an era. Years start in March, so that the leap day is their last. -/
def firstDay (year : Nat) : Nat := 365 * year + year / 4 - year / 100

/-- The last day of a year of an era. The last year of the era is a leap year. -/
def lastDay (year : Nat) : Nat := if year = 399 then 146096 else firstDay (year + 1) - 1

def yearOfEra (day : Nat) : Nat := (day - day / 1460 + day / 36524 - day / 146096) / 365

theorem yearOfEra_mono {d d' : Nat} (h : d ≤ d') (hd : d' ≤ 146096) :
    yearOfEra d ≤ yearOfEra d' := by
  have hfours : d - d / 1460 ≤ d' - d' / 1460 := by omega
  have hcenturies : d / 36524 - d / 146096 ≤ d' / 36524 - d' / 146096 := by omega
  have hera : d / 146096 ≤ d / 36524 ∧ d' / 146096 ≤ d' / 36524 := by omega
  refine Nat.div_le_div_right ?_
  omega

theorem yearOfEra_firstDay : ∀ year < 400, yearOfEra (firstDay year) = year := by decide +kernel

theorem yearOfEra_lastDay : ∀ year < 400, yearOfEra (lastDay year) = year := by decide +kernel

theorem lastDay_le : ∀ year < 400, lastDay year ≤ 146096 := by decide +kernel

theorem yearOfEra_spec {d : Nat} (h : d ≤ 146096) :
    yearOfEra d < 400 ∧ firstDay (yearOfEra d) ≤ d ∧ d ≤ lastDay (yearOfEra d) := by
  have hyear : yearOfEra d < 400 := by
    have hlast : yearOfEra 146096 = 399 := by decide
    have := yearOfEra_mono h (Nat.le_refl _)
    omega
  refine ⟨hyear, Nat.le_of_not_lt fun hlt => ?_, Nat.le_of_not_lt fun hlt => ?_⟩
  · -- An earlier day is at most the last day of the year before.
    obtain ⟨year, hprev⟩ : ∃ year, yearOfEra d = year + 1 := by
      refine Nat.exists_eq_succ_of_ne_zero fun hzero => ?_
      simp [hzero, firstDay] at hlt
    have hbefore : d ≤ lastDay year := by
      rw [hprev] at hlt
      rw [lastDay, if_neg (by omega)]
      omega
    have := yearOfEra_mono hbefore (lastDay_le year (by omega))
    rw [yearOfEra_lastDay year (by omega)] at this
    omega
  · -- A later day is at least the first day of the next year.
    have hnext : yearOfEra d ≠ 399 := by
      intro hyear
      rw [lastDay, if_pos hyear] at hlt
      omega
    rw [lastDay, if_neg hnext] at hlt
    have hafter : firstDay (yearOfEra d + 1) ≤ d := by omega
    have := yearOfEra_mono hafter h
    rw [yearOfEra_firstDay _ (by omega)] at this
    omega

def monthOfYear (dayOfYear : Nat) : Nat := (5 * dayOfYear + 2) / 153

def monthStart (month : Nat) : Nat := (153 * month + 2) / 5

def monthLength (month : Nat) : Nat :=
  if month = 11 then 28 else monthStart (month + 1) - monthStart month

theorem monthOfYear_spec : ∀ dayOfYear < 366,
    monthOfYear dayOfYear < 12 ∧ monthStart (monthOfYear dayOfYear) ≤ dayOfYear ∧
      (dayOfYear < monthStart (monthOfYear dayOfYear) + monthLength (monthOfYear dayOfYear) ∨
        dayOfYear = 365 ∧ monthOfYear dayOfYear = 11) := by
  decide +kernel

def ofYear (era : Int) (year dayOfYear : Nat) : Date :=
  let month := monthOfYear dayOfYear
  let day := dayOfYear - monthStart month + 1
  if month < 10 then ⟨era * 400 + year, month + 3, day⟩ else ⟨era * 400 + year + 1, month - 9, day⟩

theorem ofDays_eq (era : Int) {d : Nat} (h : d ≤ 146096) :
    ofDays (era * 146097 + d - 719468) =
      ofYear era (yearOfEra d) (d - firstDay (yearOfEra d)) := by
  have hera : Int.fdiv (era * 146097 + d - 719468 + 719468) 146097 = era := by
    rw [Int.fdiv_eq_ediv_of_nonneg _ (by decide)]
    omega
  have hday : (era * 146097 + d - 719468 + 719468 - era * 146097).toNat = d := by omega
  simp only [ofDays, hera, hday]
  rfl

theorem toDays_ofYear (era : Int) {year dayOfYear : Nat} (hyear : year < 400)
    (hday : dayOfYear < 366) :
    (ofYear era year dayOfYear).toDays =
      era * 146097 + firstDay year + dayOfYear - 719468 := by
  have hera : Int.fdiv (era * 400 + year) 400 = era := by
    rw [Int.fdiv_eq_ediv_of_nonneg _ (by decide)]
    omega
  obtain ⟨hmonth, hstart, -⟩ := monthOfYear_spec dayOfYear hday
  simp only [ofYear]
  generalize monthOfYear dayOfYear = month at hmonth hstart ⊢
  rw [monthStart] at hstart
  split
  · have hshift : (month + 3 + 9) % 12 = month := by omega
    have hlate : ¬ month + 3 ≤ 2 := by omega
    simp only [toDays, hlate, if_false, hera, hshift, monthStart, firstDay]
    omega
  · have hshift : (month - 9 + 9) % 12 = month := by omega
    have hearly : month - 9 ≤ 2 := by omega
    have hyear : era * 400 + year + 1 - 1 = era * 400 + (year : Int) := by omega
    simp only [toDays, hearly, if_true, hyear, hera, hshift, monthStart, firstDay]
    omega

theorem dayOfYear_lt (era : Int) {year dayOfYear : Nat} (hyear : year < 400)
    (hday : firstDay year + dayOfYear ≤ lastDay year) :
    dayOfYear < 365 ∨ dayOfYear = 365 ∧ isLeap (era * 400 + year + 1) = true := by
  simp only [isLeap, Bool.and_eq_true, Bool.or_eq_true, decide_eq_true_eq]
  rw [lastDay, firstDay] at hday
  split at hday
  · omega
  · rw [firstDay] at hday
    omega

theorem monthLength_le {month : Nat} (year : Int) (h : month < 10) :
    monthLength month ≤ daysInMonth year (month + 3) := by
  have hlengths : ∀ month < 10, monthLength month ≤
      if month + 3 = 4 ∨ month + 3 = 6 ∨ month + 3 = 9 ∨ month + 3 = 11 then 30 else 31 := by
    decide
  rw [daysInMonth, if_neg (by omega)]
  exact hlengths month h

theorem isValid_ofYear (era : Int) {year dayOfYear : Nat} (hyear : year < 400)
    (hday : firstDay year + dayOfYear ≤ lastDay year) :
    (ofYear era year dayOfYear).isValid = true := by
  have hlength := dayOfYear_lt era hyear hday
  obtain ⟨hmonth, hstart, hend⟩ := monthOfYear_spec dayOfYear (by omega)
  simp only [ofYear]
  generalize monthOfYear dayOfYear = month at hmonth hstart hend ⊢
  split <;> rename_i hlate <;> simp only [isValid, Bool.and_eq_true, decide_eq_true_eq]
  · have := monthLength_le (era * 400 + year) hlate
    omega
  · obtain rfl | rfl : month = 10 ∨ month = 11 := by omega
    · have hbounds : monthStart 10 = 306 ∧ monthLength 10 = 31 := by decide
      have hdays : daysInMonth (era * 400 + year + 1) (10 - 9) = 31 := rfl
      omega
    · have hbounds : monthStart 11 = 337 ∧ monthLength 11 = 28 := by decide
      have hdays : daysInMonth (era * 400 + year + 1) (11 - 9) =
          if isLeap (era * 400 + year + 1) then 29 else 28 := rfl
      rw [hdays]
      obtain hcommon | ⟨hlast, hleap⟩ := hlength
      · split <;> omega
      · rw [if_pos hleap]
        omega

theorem exists_ofDays (days : Int) : ∃ (era : Int) (year dayOfYear : Nat),
    year < 400 ∧ firstDay year + dayOfYear ≤ lastDay year ∧
      days = era * 146097 + firstDay year + dayOfYear - 719468 ∧
      ofDays days = ofYear era year dayOfYear := by
  obtain ⟨era, d, hd, rfl⟩ : ∃ (era : Int) (d : Nat), d ≤ 146096 ∧
      days = era * 146097 + d - 719468 :=
    ⟨(days + 719468) / 146097, ((days + 719468) % 146097).toNat, by omega, by omega⟩
  obtain ⟨hyear, hfirst, hlast⟩ := yearOfEra_spec hd
  exact ⟨era, yearOfEra d, d - firstDay (yearOfEra d), hyear, by omega, by omega, ofDays_eq era hd⟩

theorem toDays_ofDays (days : Int) : (ofDays days).toDays = days := by
  obtain ⟨era, year, dayOfYear, hyear, hday, hdays, hdate⟩ := exists_ofDays days
  have hlength := dayOfYear_lt era hyear hday
  rw [hdate, toDays_ofYear era hyear (by omega), hdays]

theorem isValid_ofDays (days : Int) : (ofDays days).isValid = true := by
  obtain ⟨era, year, dayOfYear, hyear, hday, -, hdate⟩ := exists_ofDays days
  rw [hdate, isValid_ofYear era hyear hday]

end AgentAssembly.Timestamp.Date

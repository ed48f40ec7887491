import Mathlib

/-!
# The years of an era and the months of a year

A year runs from March to February, so that the leap day is its last.  An era is 400 years, always
of 146097 days.  A day of an era is found in its year, and a day of a year in its month, by a
division.
-/

namespace Calendar

/-- The days of an era before a year of it. -/
def yearStart (yoe : ℕ) : ℕ := 365 * yoe + yoe / 4 - yoe / 100

/-- The days of an era up to a year's end; the last year has its leap day. -/
def yearEnd (yoe : ℕ) : ℕ := if yoe = 399 then 146097 else yearStart (yoe + 1)

/-- The year of a day of an era. -/
def yearOf (doe : ℕ) : ℕ := (doe - doe / 1460 + doe / 36524 - doe / 146096) / 365

/-- The days of a year before a month of it. -/
def monthStart (mp : ℕ) : ℕ := (153 * mp + 2) / 5

/-- The month of a day of a year. -/
def monthOf (doy : ℕ) : ℕ := (5 * doy + 2) / 153

lemma yearStart_mono : Monotone yearStart := by
  refine monotone_nat_of_le_succ fun yoe => ?_
  unfold yearStart
  omega

/-- A year ends where the next one starts. -/
lemma yearEnd_le_yearStart {yoe yoe' : ℕ} (h : yoe < yoe') (hyoe : yoe' < 400) :
    yearEnd yoe ≤ yearStart yoe' := by
  unfold yearEnd
  rw [if_neg (by omega)]
  exact yearStart_mono h

/-- A year has 366 days at most. -/
lemma yearEnd_le {yoe : ℕ} (hyoe : yoe < 400) : yearEnd yoe ≤ yearStart yoe + 366 := by
  unfold yearEnd yearStart
  split_ifs <;> omega

/-- A leap day is the last of its year. -/
lemma leapDay_le {yoe : ℕ} (hyoe : yoe < 400)
    (hleap : (yoe + 1) % 4 = 0 ∧ (yoe + 1) % 100 ≠ 0 ∨ yoe + 1 = 400) :
    yearStart yoe + 366 ≤ yearEnd yoe := by
  unfold yearEnd yearStart
  split_ifs <;> omega

lemma commonYear_le {yoe : ℕ} (hyoe : yoe < 400)
    (hleap : ¬ ((yoe + 1) % 4 = 0 ∧ (yoe + 1) % 100 ≠ 0 ∨ yoe + 1 = 400)) :
    yearEnd yoe ≤ yearStart yoe + 365 := by
  unfold yearEnd yearStart
  split_ifs <;> omega

lemma yearEnd_le_era {yoe : ℕ} (hyoe : yoe < 400) : yearEnd yoe ≤ 146097 := by
  unfold yearEnd yearStart
  split_ifs <;> omega

lemma yearOf_mono {doe doe' : ℕ} (h : doe ≤ doe') : yearOf doe ≤ yearOf doe' := by
  induction doe', h using Nat.le_induction with
  | base => exact le_rfl
  | succ n _ ih =>
      refine ih.trans ?_
      unfold yearOf
      refine Nat.div_le_div_right ?_
      -- a leap day that is left out comes with a day more
      omega

/-- The first and the last day of a year are in it. -/
lemma yearOf_ends : ∀ yoe < 400, yearOf (yearStart yoe) = yoe ∧
    yearOf (yearEnd yoe - 1) = yoe ∧ yearStart yoe + 365 ≤ yearEnd yoe := by decide +kernel

lemma yearOf_eq {doe yoe : ℕ} (hyoe : yoe < 400) (hstart : yearStart yoe ≤ doe)
    (hend : doe < yearEnd yoe) : yearOf doe = yoe := by
  obtain ⟨hfirst, hlast, -⟩ := yearOf_ends yoe hyoe
  apply le_antisymm
  · rw [← hlast]
    exact yearOf_mono (by omega)
  · rw [← hfirst]
    exact yearOf_mono hstart

/-- A day of an era is in its year. -/
lemma yearOf_spec {doe : ℕ} (h : doe < 146097) :
    yearOf doe < 400 ∧ yearStart (yearOf doe) ≤ doe ∧ doe < yearEnd (yearOf doe) := by
  let yoe := Nat.findGreatest (fun y => yearStart y ≤ doe) 399
  have hyoe : yoe < 400 := Nat.lt_succ_of_le (Nat.findGreatest_le 399)
  have hstart : yearStart yoe ≤ doe :=
    Nat.findGreatest_spec (P := fun y => yearStart y ≤ doe) (Nat.zero_le 399) (Nat.zero_le doe)
  have hend : doe < yearEnd yoe := by
    unfold yearEnd
    split_ifs with hlast
    · exact h
    · have hnext := Nat.findGreatest_is_greatest (P := fun y => yearStart y ≤ doe)
        (Nat.lt_succ_self yoe) (by omega)
      exact not_le.mp hnext
  rw [yearOf_eq hyoe hstart hend]
  exact ⟨hyoe, hstart, hend⟩

lemma monthOf_mono {doy doy' : ℕ} (h : doy ≤ doy') : monthOf doy ≤ monthOf doy' := by
  unfold monthOf
  exact Nat.div_le_div_right (by omega)

lemma monthOf_eq {doy mp : ℕ} (hstart : monthStart mp ≤ doy) (hend : doy < monthStart (mp + 1)) :
    monthOf doy = mp := by
  unfold monthStart at hstart hend
  unfold monthOf
  omega

/-- A day of a year is in its month. -/
lemma monthOf_spec (doy : ℕ) :
    monthStart (monthOf doy) ≤ doy ∧ doy < monthStart (monthOf doy + 1) := by
  unfold monthStart monthOf
  omega

end Calendar

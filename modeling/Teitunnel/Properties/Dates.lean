import Teitunnel.Lib.Calendar
import Teitunnel.Lib.Digits
import Teitunnel.Properties.Owners

/-!
# The end of a lease in a comment

A lease's end is written into a comment to the minute.  It reads back as what it was, and ends
that are written come in their own order, for every end that can be read but one: the last day
that is read, given as a bare date, ends in the year 10000, which is not read.
-/

namespace Teitunnel

open Calendar Digits Text

/-! ## Dates and days -/

/-- The month of a date in a year that starts in March. -/
def marchMonth (month : ℕ) : ℕ := if month > 2 then month - 3 else month + 9

/-- A date there is. -/
structure IsDate (year month day : ℕ) : Prop where
  year_pos : 1 ≤ year
  month_pos : 1 ≤ month
  month_le : month ≤ 12
  day_pos : 1 ≤ day
  day_le : day ≤ daysInMonth year month

instance (year month day : ℕ) : Decidable (IsDate year month day) :=
  decidable_of_iff (1 ≤ year ∧ 1 ≤ month ∧ month ≤ 12 ∧ 1 ≤ day ∧ day ≤ daysInMonth year month)
    ⟨fun ⟨h₁, h₂, h₃, h₄, h₅⟩ => ⟨h₁, h₂, h₃, h₄, h₅⟩,
      fun h => ⟨h.year_pos, h.month_pos, h.month_le, h.day_pos, h.day_le⟩⟩

/-- The last year that is read. -/
def LAST_YEAR : ℕ := 9999

variable {year month day n n' : ℕ}

/-- The day of a date in its era: its year, its month and its day there. -/
lemma daysFromCivil_eq (h : IsDate year month day) :
    let y := if month ≤ 2 then year - 1 else year
    daysFromCivil year month day = y / 400 * 146097 +
      (yearStart (y % 400) + (monthStart (marchMonth month) + (day - 1))) - 719468 := by
  obtain ⟨-, -, -, hday, -⟩ := h
  unfold daysFromCivil marchMonth yearStart monthStart
  dsimp only
  omega

/-- A day of an era that is some day of a month of a year is that date. -/
lemma civilFromDays_eq {era yoe mp d : ℕ} (hyoe : yoe < 400)
    (hd : d < monthStart (mp + 1) - monthStart mp)
    (hend : yearStart yoe + (monthStart mp + d) < yearEnd yoe)
    (hn : n + 719468 = era * 146097 + (yearStart yoe + (monthStart mp + d))) :
    civilFromDays n = (yoe + era * 400 + (if mp < 10 then 0 else 1),
      if mp < 10 then mp + 3 else mp - 9, d + 1) := by
  have hdoe := hend.trans_le (yearEnd_le_era hyoe)
  have hera : (n + 719468) / 146097 = era := by omega
  have hrest : n + 719468 - era * 146097 = yearStart yoe + (monthStart mp + d) := by omega
  have hyear := yearOf_eq hyoe (Nat.le_add_right _ _) hend
  have hmonth : monthOf (monthStart mp + d) = mp :=
    monthOf_eq (Nat.le_add_right _ _) (by omega)
  unfold yearOf at hyear
  unfold monthOf at hmonth
  unfold civilFromDays
  dsimp only
  rw [hera, hrest, hyear]
  have hdoy : yearStart yoe + (monthStart mp + d) - (365 * yoe + yoe / 4 - yoe / 100) =
      monthStart mp + d := by
    unfold yearStart
    omega
  rw [hdoy, hmonth]
  have hday : monthStart mp + d - (153 * mp + 2) / 5 + 1 = d + 1 := by
    unfold monthStart
    omega
  have hlast : mp ≤ 11 := by
    have hlength := yearEnd_le hyoe
    unfold monthStart at hend
    omega
  have hyear' : (if (if mp < 10 then mp + 3 else mp - 9) ≤ 2 then 1 else 0) =
      if mp < 10 then 0 else 1 := by
    split_ifs <;> omega
  rw [hday, hyear']

/-- A month is as long as its days, but for the leap day. -/
lemma daysInMonth_le (year : ℕ) (hpos : 1 ≤ month) (hle : month ≤ 12) :
    daysInMonth year month ≤ monthStart (marchMonth month + 1) - monthStart (marchMonth month) := by
  unfold daysInMonth
  interval_cases month <;> first | decide | (split_ifs <;> decide)

/-- A date is within its year. -/
lemma date_lt_yearEnd (h : IsDate year month day) :
    let y := if month ≤ 2 then year - 1 else year
    yearStart (y % 400) + (monthStart (marchMonth month) + (day - 1)) < yearEnd (y % 400) := by
  obtain ⟨hyear, hpos, hle, hday, hday'⟩ := h
  dsimp only
  have hyoe : ∀ y : ℕ, y % 400 < 400 := fun y => Nat.mod_lt y (by decide)
  by_cases hleap : month = 2 ∧ day = 29
  · obtain ⟨rfl, rfl⟩ := hleap
    have hyear' : (year % 4 = 0 ∧ year % 100 ≠ 0) ∨ year % 400 = 0 := by
      by_contra hnot
      rw [show daysInMonth year 2 = _ from if_neg hnot] at hday'
      omega
    have hlast := leapDay_le (hyoe (year - 1)) (by omega)
    rw [if_pos le_rfl]
    have hstart : monthStart (marchMonth 2) + (29 - 1) = 365 := by decide
    omega
  · -- any other day is among the first 365
    have hlong : day ≤ daysInMonth 1 month := by
      interval_cases month <;> try exact hday'
      have hmost : daysInMonth year 2 ≤ 29 := by
        show (if _ then _ else _) ≤ 29
        split_ifs <;> omega
      show day ≤ 28
      omega
    have hwithin : monthStart (marchMonth month) + daysInMonth 1 month ≤ 365 := by
      interval_cases month <;> decide
    have hlength := (yearOf_ends _ (hyoe (if month ≤ 2 then year - 1 else year))).2.2
    omega

/-- The days since 1970 of a date from then on are as many as there are. -/
lemma le_of_since (h : IsDate year month day) (hsince : 1970 ≤ year) :
    let y := if month ≤ 2 then year - 1 else year
    719468 ≤ y / 400 * 146097 +
      (yearStart (y % 400) + (monthStart (marchMonth month) + (day - 1))) := by
  obtain ⟨-, hpos, -, -, -⟩ := h
  have hyear : ∀ y : ℕ, 1969 ≤ y → 719162 + (if y = 1969 then 0 else 365) ≤
      y / 400 * 146097 + yearStart (y % 400) := by
    intro y hy
    have hera : 5 ≤ y / 400 ∨ y / 400 = 4 ∧ y = 1600 + y % 400 := by omega
    unfold yearStart
    rcases hera with hera | ⟨hera, hrest⟩ <;> split_ifs <;> omega
  dsimp only
  by_cases hmonth : month ≤ 2
  · have hy := hyear (year - 1) (by omega)
    have hstart : 306 ≤ monthStart (marchMonth month) := by
      interval_cases month <;> decide
    rw [if_pos hmonth]
    omega
  · have hy := hyear year (by omega)
    rw [if_neg (by omega : ¬ year = 1969)] at hy
    rw [if_neg hmonth]
    omega

lemma civilFromDays_daysFromCivil (h : IsDate year month day) (hsince : 1970 ≤ year) :
    civilFromDays (daysFromCivil year month day) = (year, month, day) := by
  have hdays := daysFromCivil_eq h
  have hend := date_lt_yearEnd h
  have hle := le_of_since h hsince
  have hlength := daysInMonth_le year h.month_pos h.month_le
  obtain ⟨-, hpos, hle', hday, hday'⟩ := h
  dsimp only at hdays hend hle
  have hn := Nat.sub_add_cancel hle
  rw [← hdays] at hn
  rw [civilFromDays_eq (Nat.mod_lt _ (by decide)) (by omega) hend hn]
  unfold marchMonth
  split_ifs <;> simp only [Prod.mk.injEq] <;> omega

/-- A day since 1970 as a day of a month of a year of an era. -/
structure Placed (n era yoe mp d : ℕ) : Prop where
  year_lt : yoe < 400
  month_lt : mp < 12
  day_lt : d < monthStart (mp + 1) - monthStart mp
  ends : yearStart yoe + (monthStart mp + d) < yearEnd yoe
  eq : n + 719468 = era * 146097 + (yearStart yoe + (monthStart mp + d))

lemma exists_placed (n : ℕ) : ∃ era yoe mp d, Placed n era yoe mp d := by
  have hdoe : (n + 719468) % 146097 < 146097 := Nat.mod_lt _ (by decide)
  obtain ⟨hyoe, hstart, hend⟩ := yearOf_spec hdoe
  have hlength := yearEnd_le hyoe
  set yoe := yearOf ((n + 719468) % 146097)
  obtain ⟨hfirst, hnext⟩ := monthOf_spec ((n + 719468) % 146097 - yearStart yoe)
  have hmonth : monthOf ((n + 719468) % 146097 - yearStart yoe) ≤ monthOf 365 :=
    monthOf_mono (by omega)
  have hlast : monthOf 365 = 11 := by decide
  refine ⟨(n + 719468) / 146097, yoe, monthOf ((n + 719468) % 146097 - yearStart yoe),
    (n + 719468) % 146097 - yearStart yoe -
      monthStart (monthOf ((n + 719468) % 146097 - yearStart yoe)), hyoe, ?_, ?_, ?_, ?_⟩ <;> omega

/-- A later day is in a later month, or later in the same one. -/
lemma Placed.lt {era yoe mp d era' yoe' mp' d' : ℕ} (h : Placed n era yoe mp d)
    (h' : Placed n' era' yoe' mp' d') (hlt : n < n') :
    12 * (era * 400 + yoe) + mp < 12 * (era' * 400 + yoe') + mp' ∨
      12 * (era * 400 + yoe) + mp = 12 * (era' * 400 + yoe') + mp' ∧ d < d' := by
  obtain ⟨hyoe, hmp, hd, hend, hn⟩ := h
  obtain ⟨hyoe', hmp', hd', hend', hn'⟩ := h'
  have hera := yearEnd_le_era hyoe
  have hera' := yearEnd_le_era hyoe'
  rcases lt_trichotomy era era' with hlt' | rfl | hgt
  · omega
  · rcases lt_trichotomy yoe yoe' with hlt' | rfl | hgt
    · omega
    · rcases lt_trichotomy mp mp' with hlt' | rfl | hgt
      · omega
      · omega
      · have hstart : monthStart (mp' + 1) ≤ monthStart mp := by
          unfold monthStart
          omega
        omega
    · have hstart := yearEnd_le_yearStart hgt hyoe
      omega
  · omega

/-- A month that starts in March, as a month of the calendar year. -/
def calendarMonth (mp : ℕ) : ℕ := if mp < 10 then mp + 3 else mp - 9

lemma marchMonth_calendarMonth {mp : ℕ} (h : mp < 12) : marchMonth (calendarMonth mp) = mp := by
  unfold marchMonth calendarMonth
  split_ifs <;> omega

/-- The calendar year of a month. -/
def calendarYear (era yoe mp : ℕ) : ℕ := yoe + era * 400 + if mp < 10 then 0 else 1

/-- What is placed somewhere is a date since 1970. -/
lemma Placed.isDate {era yoe mp d : ℕ} (h : Placed n era yoe mp d) :
    IsDate (calendarYear era yoe mp) (calendarMonth mp) (d + 1) ∧
      1970 ≤ calendarYear era yoe mp := by
  obtain ⟨hyoe, hmp, hd, hend, hn⟩ := h
  have hsince : 1970 ≤ calendarYear era yoe mp := by
    by_contra hbefore
    have hera := yearEnd_le_era hyoe
    have hera' : era ≤ 4 := by
      unfold calendarYear at hbefore
      omega
    have hera'' : era = 4 := by omega
    have hyear : yoe ≤ 369 := by
      unfold calendarYear at hbefore
      omega
    rcases hyear.lt_or_eq with hlt | rfl
    · have hends := yearEnd_le_yearStart hlt (by decide)
      have hstart : yearStart 369 = 134774 := by decide
      omega
    · have hstart : yearStart 369 = 134774 := by decide
      have hmonth : monthStart (mp + 1) ≤ 306 := by
        have hfirst : mp < 10 := by
          unfold calendarYear at hbefore
          split_ifs at hbefore <;> omega
        unfold monthStart
        omega
      omega
  refine ⟨⟨by omega, ?_, ?_, by omega, ?_⟩, hsince⟩
  · unfold calendarMonth
    split_ifs <;> omega
  · unfold calendarMonth
    split_ifs <;> omega
  · by_cases hlast : mp = 11
    · subst hlast
      have hstart : monthStart 11 = 337 ∧ monthStart (11 + 1) = 367 := by decide
      show d + 1 ≤ if _ then 29 else 28
      split_ifs with hleap
      · have hlength := yearEnd_le hyoe
        omega
      · have hcommon := commonYear_le hyoe (by
          unfold calendarYear at hleap
          rw [if_neg (by decide)] at hleap
          omega)
        omega
    · have hlong : monthStart (mp + 1) - monthStart mp ≤ daysInMonth 1 (calendarMonth mp) := by
        interval_cases mp <;> first | decide | exact absurd rfl hlast
      have hsame : daysInMonth (calendarYear era yoe mp) (calendarMonth mp) =
          daysInMonth 1 (calendarMonth mp) := by
        interval_cases mp <;> first | rfl | exact absurd rfl hlast
      omega

/-- What the days since 1970 are the days of: a date there is, since 1970. -/
lemma civilFromDays_spec (n : ℕ) : ∃ year month day, civilFromDays n = (year, month, day) ∧
    IsDate year month day ∧ 1970 ≤ year ∧ daysFromCivil year month day = n := by
  obtain ⟨era, yoe, mp, d, h⟩ := exists_placed n
  obtain ⟨hdate, hsince⟩ := h.isDate
  refine ⟨_, _, _, civilFromDays_eq h.year_lt h.day_lt h.ends h.eq, hdate, hsince, ?_⟩
  have hdays := daysFromCivil_eq hdate
  have hmarch := marchMonth_calendarMonth h.month_lt
  obtain ⟨hyoe, hmp, -, -, hn⟩ := h
  have hyear : (if calendarMonth mp ≤ 2 then calendarYear era yoe mp - 1
      else calendarYear era yoe mp) = era * 400 + yoe := by
    unfold calendarMonth calendarYear
    split_ifs <;> omega
  dsimp only at hdays
  rw [hyear, hmarch] at hdays
  have hera : (era * 400 + yoe) / 400 = era := by omega
  have hrest : (era * 400 + yoe) % 400 = yoe := by omega
  rw [hera, hrest] at hdays
  show daysFromCivil (calendarYear era yoe mp) (calendarMonth mp) (d + 1) = n
  rw [hdays]
  omega

/-- Dates come in the order of their days. -/
lemma civilFromDays_lt {year' month' day' : ℕ} (h : civilFromDays n = (year, month, day))
    (h' : civilFromDays n' = (year', month', day')) (hlt : n < n') :
    year < year' ∨ year = year' ∧ (month < month' ∨ month = month' ∧ day < day') := by
  obtain ⟨era, yoe, mp, d, hn⟩ := exists_placed n
  obtain ⟨era', yoe', mp', d', hn'⟩ := exists_placed n'
  have horder := hn.lt hn' hlt
  rw [civilFromDays_eq hn.year_lt hn.day_lt hn.ends hn.eq, Prod.mk.injEq, Prod.mk.injEq] at h
  rw [civilFromDays_eq hn'.year_lt hn'.day_lt hn'.ends hn'.eq, Prod.mk.injEq, Prod.mk.injEq] at h'
  obtain ⟨rfl, rfl, rfl⟩ := h
  obtain ⟨rfl, rfl, rfl⟩ := h'
  have hmp := hn.month_lt
  have hmp' := hn'.month_lt
  split_ifs <;> omega

/-! ## Numbers -/

section numbers

variable {width : ℕ}

lemma toList_padded (h : n < 10 ^ width) (hwidth : 0 < width) :
    (padded width n).toList = fixed width n := by
  have hdigits : (toString n).toList = Nat.toDigits 10 n := Nat.toList_repr
  rw [padded, String.toList_append, String.toList_ofList, ← String.length_toList, hdigits,
    fixed_eq h hwidth]

lemma parseNumber_padded (h : n < 10 ^ width) (hwidth : 0 < width) :
    parseNumber (padded width n) = some n := by
  have hlist := toList_padded h hwidth
  rw [parseNumber_eq, hlist, ofDigitChars_fixed h]
  · rw [hlist]
    exact List.ne_nil_of_length_pos (by rw [length_fixed]; exact hwidth)
  · rw [hlist]
    exact fun c hc => isDigit_fixed hc

end numbers

/-! ## Writing and reading -/

/-- The last day that is read. -/
def LAST_DAY : ℕ := 2932896

lemma civilFromDays_last : civilFromDays LAST_DAY = (LAST_YEAR, 12, 31) := by
  norm_num [civilFromDays, LAST_DAY, LAST_YEAR]

lemma daysFromCivil_last : daysFromCivil LAST_YEAR 12 31 = LAST_DAY := by
  unfold LAST_YEAR LAST_DAY daysFromCivil
  decide

/-- The days of an end that is written with a year of four digits. -/
lemma year_le {days : ℕ} (h : civilFromDays days = (year, month, day)) (hdays : days ≤ LAST_DAY) :
    year ≤ LAST_YEAR := by
  rcases hdays.lt_or_eq with hlt | rfl
  · have horder := civilFromDays_lt h civilFromDays_last hlt
    omega
  · rw [civilFromDays_last] at h
    cases h
    exact le_rfl

/-- What is written is the date, the hour and the minute. -/
lemma formatUntil_eq {ms : ℕ} (h : civilFromDays (ms / 60000 / (24 * 60)) = (year, month, day)) :
    formatUntil ms =
      (padded 4 year ++ "-" ++ padded 2 month ++ "-" ++ padded 2 day) ++ "T" ++
        (padded 2 (ms / 60000 % (24 * 60) / 60) ++ ":" ++
          padded 2 (ms / 60000 % (24 * 60) % 60) ++ "Z") := by
  unfold formatUntil
  simp only [h, String.append_assoc]

/-- A number of a fixed width has digits only. -/
lemma isDigit_padded {width : ℕ} (h : n < 10 ^ width) (hwidth : 0 < width) {c : Char}
    (hc : c ∈ (padded width n).toList) : c.isDigit = true := by
  rw [toList_padded h hwidth] at hc
  exact isDigit_fixed hc

/-- The hour and the minute read back. -/
lemma parseTime_written (hours minutes : ℕ) (hh : hours < 24) (hm : minutes < 60) :
    parseTime (padded 2 hours ++ ":" ++ padded 2 minutes ++ "Z") =
      some (hours * 3600 + minutes * 60) := by
  have hh' : hours < 10 ^ 2 := by omega
  have hm' : minutes < 10 ^ 2 := by omega
  have hdigits : ∀ c : Char, c.isDigit = true → c ≠ ':' ∧ c ≠ 'Z' ∧ c ≠ 'z' := by
    rintro c hc
    refine ⟨?_, ?_, ?_⟩ <;> rintro rfl <;> exact absurd hc (by decide)
  have htrim : trimEnd (fun c => c == 'Z' || c == 'z')
      (padded 2 hours ++ ":" ++ padded 2 minutes ++ "Z") =
        padded 2 hours ++ ":" ++ padded 2 minutes := by
    refine trimEnd_snoc (c := 'Z') (by decide) fun c hc => ?_
    rw [String.toList_append, String.toList_append, List.mem_append, List.mem_append] at hc
    have hplain : c.isDigit = true → (c == 'Z' || c == 'z') = false := fun hdigit => by
      obtain ⟨-, hZ, hz⟩ := hdigits c hdigit
      rw [Bool.or_eq_false_iff]
      exact ⟨beq_eq_false_iff_ne.mpr hZ, beq_eq_false_iff_ne.mpr hz⟩
    rcases hc with (hc | hc) | hc
    · exact hplain (isDigit_padded hh' (by decide) hc)
    · rw [List.mem_singleton.mp hc]
      decide
    · exact hplain (isDigit_padded hm' (by decide) hc)
  have hsplit : split ':' (padded 2 hours ++ ":" ++ padded 2 minutes) =
      [padded 2 hours, padded 2 minutes] := by
    have hjoined := split_joined (c := ':')
      (List.cons_ne_nil (padded 2 hours) [padded 2 minutes]) ?_
    · rw [intercalate_cons] at hjoined
      simpa [String.append_assoc] using hjoined
    · intro s hs hcolon
      simp only [List.mem_cons, List.not_mem_nil, or_false] at hs
      rcases hs with rfl | rfl
      · exact (hdigits _ (isDigit_padded hh' (by decide) hcolon)).1 rfl
      · exact (hdigits _ (isDigit_padded hm' (by decide) hcolon)).1 rfl
  have hzero : parseNumber "0" = some 0 := by decide
  have hrange : ¬ (hours > 23 ∨ minutes > 59 ∨ 0 > 59) := by omega
  unfold parseTime
  rw [htrim, hsplit]
  simp only [Option.bind_eq_bind, Option.bind_some, parseNumber_padded hh' (by decide),
    parseNumber_padded hm' (by decide), hzero]
  rw [if_neg hrange, Nat.add_zero]

/-- The date reads back. -/
lemma split_date (hyear : year < 10 ^ 4) (hmonth : month < 10 ^ 2) (hday : day < 10 ^ 2) :
    split '-' (padded 4 year ++ "-" ++ padded 2 month ++ "-" ++ padded 2 day) =
      [padded 4 year, padded 2 month, padded 2 day] := by
  have hdash : ∀ c : Char, c.isDigit = true → c ≠ '-' := by
    rintro _ hc rfl
    exact absurd hc (by decide)
  have hjoined := split_joined (c := '-')
    (List.cons_ne_nil (padded 4 year) [padded 2 month, padded 2 day]) ?_
  · rw [intercalate_cons] at hjoined
    simpa [String.append_assoc] using hjoined
  · intro s hs hc
    simp only [List.mem_cons, List.not_mem_nil, or_false] at hs
    rcases hs with rfl | rfl | rfl
    · exact hdash _ (isDigit_padded hyear (by decide) hc) rfl
    · exact hdash _ (isDigit_padded hmonth (by decide) hc) rfl
    · exact hdash _ (isDigit_padded hday (by decide) hc) rfl

/-- The characters of a written date. -/
lemma mem_date (hyear : year < 10 ^ 4) (hmonth : month < 10 ^ 2) (hday : day < 10 ^ 2) (c : Char)
    (hc : c ∈ (padded 4 year ++ "-" ++ padded 2 month ++ "-" ++ padded 2 day).toList) :
    c.isDigit = true ∨ c = '-' := by
  simp only [String.toList_append, List.mem_append] at hc
  rcases hc with (((hc | hc) | hc) | hc) | hc
  · exact .inl (isDigit_padded hyear (by decide) hc)
  · exact .inr (List.mem_singleton.mp hc)
  · exact .inl (isDigit_padded hmonth (by decide) hc)
  · exact .inr (List.mem_singleton.mp hc)
  · exact .inl (isDigit_padded hday (by decide) hc)

lemma daysInMonth_le_31 (year month : ℕ) : daysInMonth year month ≤ 31 := by
  unfold daysInMonth
  split <;> (try split_ifs) <;> decide

/-- The seconds of the day of a time; without one, the whole day. -/
def readTime : Option String → Option ℕ
  | none => some (24 * 3600)
  | some time => parseTime time

/-- A text's date, and its time if it has one. -/
def cutTime (text : String) : String × Option String :=
  match splitOnceBy (fun c => c == 'T' || c == 't' || c == ' ') text with
  | some (date, time) => (date, some time)
  | none => (text, none)

/-- What the pieces of a date and a time stand for. -/
def readPieces (time : Option String) : List String → Option ℕ
  | [y, m, d] => (parseNumber y).bind fun year => (parseNumber m).bind fun month =>
      (parseNumber d).bind fun day =>
        if ¬ (1970 ≤ year ∧ year ≤ 9999) ∨ ¬ (1 ≤ month ∧ month ≤ 12) then none
        else if day = 0 ∨ day > daysInMonth year month then none
        else (readTime time).map fun seconds =>
          (daysFromCivil year month day * 86400 + seconds) * 1000
  | _ => none

/-- What is read: a date there is, and the seconds of its time. -/
lemma parseUntil_eq_some {text : String} {t : ℕ} : parseUntil text = some t ↔
    ∃ date time y m d year month day seconds, cutTime (trim text) = (date, time) ∧
      split '-' date = [y, m, d] ∧ parseNumber y = some year ∧ parseNumber m = some month ∧
      parseNumber d = some day ∧ ((1970 ≤ year ∧ year ≤ 9999) ∧ 1 ≤ month ∧ month ≤ 12) ∧
      (day ≠ 0 ∧ day ≤ daysInMonth year month) ∧ readTime time = some seconds ∧
      t = (daysFromCivil year month day * 86400 + seconds) * 1000 := by
  have hread : parseUntil text =
      readPieces (cutTime (trim text)).2 (split '-' (cutTime (trim text)).1) := by
    unfold parseUntil cutTime readPieces readTime
    dsimp only
    cases splitOnceBy (fun c => c == 'T' || c == 't' || c == ' ') (trim text) with
    | none =>
        dsimp only
        generalize split '-' (trim text) = pieces
        rcases pieces with _ | ⟨y, _ | ⟨m, _ | ⟨d, _ | ⟨e, rest⟩⟩⟩⟩ <;>
          simp only [Option.bind_eq_bind, Option.bind_some, Option.bind_none, Option.map_some]
    | some cut =>
        dsimp only
        generalize split '-' cut.1 = pieces
        rcases pieces with _ | ⟨y, _ | ⟨m, _ | ⟨d, _ | ⟨e, rest⟩⟩⟩⟩ <;>
          simp only [Option.bind_eq_bind, Option.bind_some, Option.bind_none,
            Option.map_eq_bind, Function.comp_def]
  rw [hread]
  rcases hcut : cutTime (trim text) with ⟨date, time⟩
  dsimp only
  constructor
  · intro h
    rw [readPieces.eq_def] at h
    split at h
    · rename_i y m d hsplit
      simp only [Option.bind_eq_some_iff] at h
      obtain ⟨year, hyear, month, hmonth, day, hday, h⟩ := h
      split_ifs at h with hrange hday'
      obtain ⟨seconds, hseconds, heq⟩ := Option.map_eq_some_iff.mp h
      exact ⟨date, time, y, m, d, year, month, day, seconds, rfl, hsplit, hyear, hmonth, hday,
        by omega, by omega, hseconds, heq.symm⟩
    · cases h
  · rintro ⟨date', time', y, m, d, year, month, day, seconds, hsame, hsplit, hyear, hmonth, hday,
      hrange, hday', htime, heq⟩
    cases hsame
    simp only [hsplit, readPieces, hyear, hmonth, hday, Option.bind_some, htime, Option.map_some]
    rw [if_neg (by omega), if_neg (by omega), heq]

lemma cutTime_append {date time : String}
    (h : ∀ c ∈ date.toList, c.isDigit = true ∨ c = '-') :
    cutTime (date ++ "T" ++ time) = (date, some time) := by
  have hcut := splitOnceBy_append (p := fun c => c == 'T' || c == 't' || c == ' ') (c := 'T')
    (a := date) (b := time) ?_ (by decide)
  · unfold cutTime
    rw [show date ++ "T" ++ time = date ++ String.singleton 'T' ++ time from rfl, hcut]
  · intro c hc
    rcases h c hc with hdigit | rfl
    · simp only [Bool.or_eq_false_iff, beq_eq_false_iff_ne]
      refine ⟨⟨?_, ?_⟩, ?_⟩ <;> rintro rfl <;> exact absurd hdigit (by decide)
    · decide

/-- An end within the years that are read reads back to the minute. -/
lemma parseUntil_formatUntil {ms : ℕ} (h : ms / 60000 / (24 * 60) ≤ LAST_DAY) :
    parseUntil (formatUntil ms) = some (ms / 60000 * 60000) := by
  obtain ⟨year, month, day, hcivil, hdate, hsince, hdays⟩ :=
    civilFromDays_spec (ms / 60000 / (24 * 60))
  have hyear := year_le hcivil h
  obtain ⟨-, hmonth, hmonth', hday, hday'⟩ := hdate
  have hlong := daysInMonth_le_31 year month
  have hyear4 : year < 10 ^ 4 := by
    unfold LAST_YEAR at hyear
    omega
  have hmonth2 : month < 10 ^ 2 := by omega
  have hday2 : day < 10 ^ 2 := by omega
  have hcut : cutTime (trim (formatUntil ms)) =
      (padded 4 year ++ "-" ++ padded 2 month ++ "-" ++ padded 2 day,
        some (padded 2 (ms / 60000 % (24 * 60) / 60) ++ ":" ++
          padded 2 (ms / 60000 % (24 * 60) % 60) ++ "Z")) := by
    rw [trim_eq_self (isPart_formatUntil ms).not_space, formatUntil_eq hcivil]
    exact cutTime_append (mem_date hyear4 hmonth2 hday2)
  have htime := parseTime_written (ms / 60000 % (24 * 60) / 60)
    (ms / 60000 % (24 * 60) % 60) (by omega) (by omega)
  have hvalue : ms / 60000 * 60000 = (daysFromCivil year month day * 86400 +
      (ms / 60000 % (24 * 60) / 60 * 3600 + ms / 60000 % (24 * 60) % 60 * 60)) * 1000 := by
    rw [hdays]
    omega
  have hin : (1970 ≤ year ∧ year ≤ 9999) ∧ 1 ≤ month ∧ month ≤ 12 :=
    ⟨⟨hsince, hyear⟩, hmonth, hmonth'⟩
  have hin' : day ≠ 0 ∧ day ≤ daysInMonth year month := ⟨by omega, hday'⟩
  exact parseUntil_eq_some.mpr ⟨_, _, _, _, _, year, month, day, _, hcut,
    split_date hyear4 hmonth2 hday2, parseNumber_padded hyear4 (by decide),
    parseNumber_padded hmonth2 (by decide), parseNumber_padded hday2 (by decide), hin, hin',
    htime, hvalue⟩

/-! ## Order -/

/-- The characters that are written. -/
lemma toList_formatUntil {ms : ℕ} (hdays : ms / 60000 / (24 * 60) ≤ LAST_DAY)
    (h : civilFromDays (ms / 60000 / (24 * 60)) = (year, month, day)) :
    (formatUntil ms).toList = fixed 4 year ++ (['-'] ++ (fixed 2 month ++ (['-'] ++
      (fixed 2 day ++ (['T'] ++ (fixed 2 (ms / 60000 % (24 * 60) / 60) ++ ([':'] ++
        (fixed 2 (ms / 60000 % (24 * 60) % 60) ++ ['Z'])))))))) := by
  obtain ⟨year', month', day', h', hdate, -, -⟩ := civilFromDays_spec (ms / 60000 / (24 * 60))
  rw [h] at h'
  cases h'
  have hyear := year_le h hdays
  obtain ⟨-, -, hmonth, -, hday⟩ := hdate
  have hlong := daysInMonth_le_31 year month
  have hyear4 : year < 10 ^ 4 := by
    unfold LAST_YEAR at hyear
    omega
  rw [formatUntil_eq h]
  simp only [String.toList_append, toList_padded hyear4 (by decide : 0 < 4),
    toList_padded (by omega : month < 10 ^ 2) (by decide : 0 < 2),
    toList_padded (by omega : day < 10 ^ 2) (by decide : 0 < 2),
    toList_padded (by omega : ms / 60000 % (24 * 60) / 60 < 10 ^ 2) (by decide : 0 < 2),
    toList_padded (by omega : ms / 60000 % (24 * 60) % 60 < 10 ^ 2) (by decide : 0 < 2),
    List.append_assoc]
  rfl

/-- An end in a later minute is written later in order. -/
lemma formatUntil_lt {ms ms' : ℕ} (hlt : ms / 60000 < ms' / 60000)
    (hdays : ms' / 60000 / (24 * 60) ≤ LAST_DAY) : formatUntil ms < formatUntil ms' := by
  have hdays' : ms / 60000 / (24 * 60) ≤ LAST_DAY := by omega
  obtain ⟨year, month, day, h, hdate, -, -⟩ := civilFromDays_spec (ms / 60000 / (24 * 60))
  obtain ⟨year', month', day', h', hdate', -, -⟩ := civilFromDays_spec (ms' / 60000 / (24 * 60))
  have hyear := year_le h hdays'
  have hyear' := year_le h' hdays
  have hlong := daysInMonth_le_31 year month
  have hlong' := daysInMonth_le_31 year' month'
  have horder : year < year' ∨ year = year' ∧ (month < month' ∨ month = month' ∧
      (day < day' ∨ day = day' ∧ ms / 60000 % (24 * 60) < ms' / 60000 % (24 * 60))) := by
    rcases (by omega : ms / 60000 / (24 * 60) < ms' / 60000 / (24 * 60) ∨
      ms / 60000 / (24 * 60) = ms' / 60000 / (24 * 60)) with hday | hsame
    · rcases civilFromDays_lt h h' hday with hy | ⟨hy, hm | ⟨hm, hd⟩⟩
      · exact .inl hy
      · exact .inr ⟨hy, .inl hm⟩
      · exact .inr ⟨hy, .inr ⟨hm, .inl hd⟩⟩
    · rw [hsame, h'] at h
      cases h
      exact .inr ⟨rfl, .inr ⟨rfl, .inr ⟨rfl, by omega⟩⟩⟩
  obtain ⟨-, -, hmonth, -, hday⟩ := hdate
  obtain ⟨-, -, hmonth', -, hday'⟩ := hdate'
  unfold LAST_YEAR at hyear hyear'
  have hsign : ∀ (c : Char) (l l' : List Char), [c] ++ l < [c] ++ l' ↔ l < l' := by
    intro c l l'
    rw [append_lt_append rfl]
    simp
  rw [String.lt_iff_toList_lt, toList_formatUntil hdays' h, toList_formatUntil hdays h',
    fixed_append_lt (by omega) (by omega), hsign, fixed_append_lt (by omega) (by omega), hsign,
    fixed_append_lt (by omega) (by omega), hsign, fixed_append_lt (by omega) (by omega), hsign,
    fixed_append_lt (by omega) (by omega)]
  simp only [lt_self_iff_false, and_false, or_false]
  omega

/-! ## Every end that is read -/

/-- The text is the bare date of the last day that is read. -/
def IsLastDay (text : String) : Prop :=
  ∃ date y m d, cutTime (trim text) = (date, none) ∧ split '-' date = [y, m, d] ∧
    parseNumber y = some LAST_YEAR ∧ parseNumber m = some 12 ∧ parseNumber d = some 31

/-- The end of the last day. -/
def LAST_END : ℕ := (LAST_DAY + 1) * 86400000

lemma parseTime_lt {time : String} {seconds : ℕ} (h : parseTime time = some seconds) :
    seconds < 24 * 3600 := by
  unfold parseTime at h
  dsimp only at h
  have hrange : ∀ hours minutes secs : ℕ, (if hours > 23 ∨ minutes > 59 ∨ secs > 59 then none
      else some (hours * 3600 + minutes * 60 + secs)) = some seconds → seconds < 24 * 3600 := by
    intro hours minutes secs hsome
    split_ifs at hsome with hin
    have heq := Option.some.inj hsome
    omega
  generalize split ':' (trimEnd (fun c => c == 'Z' || c == 'z') time) = parts at h
  rcases parts with _ | ⟨a, _ | ⟨b, _ | ⟨c, _ | ⟨d, rest⟩⟩⟩⟩ <;>
    simp only [Option.bind_eq_bind, Option.bind_eq_some_iff, Option.bind_some, Option.bind_none,
      reduceCtorEq] at h
  · obtain ⟨hours, -, minutes, -, secs, -, hsome⟩ := h
    exact hrange hours minutes secs hsome
  · obtain ⟨hours, -, minutes, -, secs, -, hsome⟩ := h
    exact hrange hours minutes secs hsome

/-- A date of a year that is read is on the last day or before. -/
lemma daysFromCivil_le (h : IsDate year month day) (hsince : 1970 ≤ year) (hyear : year ≤ LAST_YEAR) :
    daysFromCivil year month day ≤ LAST_DAY ∧
      (daysFromCivil year month day = LAST_DAY ↔ year = LAST_YEAR ∧ month = 12 ∧ day = 31) := by
  have hcivil := civilFromDays_daysFromCivil h hsince
  have hlong := daysInMonth_le_31 year month
  obtain ⟨-, -, hmonth, -, hday⟩ := h
  constructor
  · by_contra hlater
    have horder := civilFromDays_lt civilFromDays_last hcivil (not_le.mp hlater)
    omega
  · constructor
    · intro hlast
      rw [hlast, civilFromDays_last] at hcivil
      cases hcivil
      exact ⟨rfl, rfl, rfl⟩
    · rintro ⟨hy, hm, hd⟩
      rw [hy, hm, hd]
      exact daysFromCivil_last

/-- What is read ends on the last day that is read, or before. -/
lemma parseUntil_le {text : String} {t : ℕ} (h : parseUntil text = some t) :
    t ≤ LAST_END ∧ (t = LAST_END ↔ IsLastDay text) := by
  obtain ⟨date, time, y, m, d, year, month, day, seconds, hcut, hsplit, hy, hm, hd, hrange, hday,
    htime, heq⟩ := parseUntil_eq_some.mp h
  obtain ⟨⟨hsince, hyear⟩, hmonth, hmonth'⟩ := hrange
  obtain ⟨hdays, hlast⟩ := daysFromCivil_le ⟨by omega, hmonth, hmonth', by omega, hday.2⟩
    hsince hyear
  have hseconds : seconds ≤ 24 * 3600 ∧ (seconds = 24 * 3600 ↔ time = none) := by
    cases time with
    | none =>
        rw [readTime] at htime
        have hwhole : 24 * 3600 = seconds := Option.some.inj htime
        exact ⟨hwhole.ge, fun _ => rfl, fun _ => hwhole.symm⟩
    | some time =>
        rw [readTime] at htime
        have hlt := parseTime_lt htime
        exact ⟨hlt.le, fun hwhole => absurd hwhole hlt.ne, fun hnone => nomatch hnone⟩
  have hends : t = LAST_END ↔
      daysFromCivil year month day = LAST_DAY ∧ seconds = 24 * 3600 := by
    unfold LAST_END
    omega
  refine ⟨by unfold LAST_END; omega, hends.trans ?_⟩
  rw [hlast, hseconds.2]
  constructor
  · rintro ⟨⟨rfl, rfl, rfl⟩, rfl⟩
    exact ⟨date, y, m, d, hcut, hsplit, hy, hm, hd⟩
  · rintro ⟨date', y', m', d', hcut', hsplit', hy', hm', hd'⟩
    rw [hcut] at hcut'
    cases hcut'
    rw [hsplit] at hsplit'
    cases hsplit'
    rw [hy] at hy'
    rw [hm] at hm'
    rw [hd] at hd'
    exact ⟨⟨Option.some.inj hy', Option.some.inj hm', Option.some.inj hd'⟩, rfl⟩

/-- The end of the last day that is read is written with a year of five digits. -/
lemma formatUntil_last : formatUntil LAST_END = "10000-01-01T00:00Z" := by decide +kernel

lemma formatUntil_last_lt {ms : ℕ} (hdays : ms / 60000 / (24 * 60) ≤ LAST_DAY) :
    formatUntil LAST_END < formatUntil ms := by
  obtain ⟨year, month, day, h, -, hsince, -⟩ := civilFromDays_spec (ms / 60000 / (24 * 60))
  have hyear := year_le h hdays
  unfold LAST_YEAR at hyear
  have hlast : (formatUntil LAST_END).toList = fixed 4 1000 ++ "0-01-01T00:00Z".toList := by
    rw [formatUntil_last]
    decide
  rw [String.lt_iff_toList_lt, hlast, toList_formatUntil hdays h,
    fixed_append_lt (by decide) (by omega)]
  exact .inl (by omega)

/-- A lease's end that is read and written reads back as its minute exactly if it isn't the bare
date of the last day; ends that are written come in their order, that one apart; and days and
dates are inverse to each other. -/
theorem lease_end_kept {text : String} {t : ℕ} (h : parseUntil text = some t) :
    (parseUntil (formatUntil t) = some (t / 60000 * 60000) ↔ ¬ IsLastDay text) ∧
      (∀ text' t', parseUntil text' = some t' → t ≤ t' →
        (formatUntil t ≤ formatUntil t' ↔ (IsLastDay text' → IsLastDay text))) ∧
      (∀ days, ∃ year month day, civilFromDays days = (year, month, day) ∧
        IsDate year month day ∧ daysFromCivil year month day = days) ∧
      ∀ year month day, IsDate year month day → 1970 ≤ year →
        civilFromDays (daysFromCivil year month day) = (year, month, day) := by
  have hwithin : ∀ ms, ms < LAST_END → ms / 60000 / (24 * 60) ≤ LAST_DAY := by
    intro ms hms
    unfold LAST_END at hms
    omega
  obtain ⟨hle, hlast⟩ := parseUntil_le h
  refine ⟨?_, ?_, ?_, fun year month day hdate hsince =>
    civilFromDays_daysFromCivil hdate hsince⟩
  · rw [← hlast]
    constructor
    · rintro hback rfl
      rw [formatUntil_last] at hback
      exact absurd hback (by decide +kernel)
    · intro hne
      exact parseUntil_formatUntil (hwithin t (lt_of_le_of_ne hle hne))
  · intro text' t' h' hlt
    obtain ⟨hle', hlast'⟩ := parseUntil_le h'
    rw [← hlast, ← hlast']
    by_cases hend' : t' = LAST_END
    · rw [hend']
      constructor
      · intro horder _
        by_contra hend
        exact absurd (formatUntil_last_lt (hwithin t (lt_of_le_of_ne hle hend)))
          (not_lt_of_ge horder)
      · intro hend
        rw [hend rfl]
    · have hdays' := hwithin t' (lt_of_le_of_ne hle' hend')
      refine ⟨fun _ hend => absurd hend hend', fun _ => ?_⟩
      rcases (Nat.div_le_div_right hlt : t / 60000 ≤ t' / 60000).lt_or_eq with hminute | hsame
      · exact (formatUntil_lt hminute hdays').le
      · unfold formatUntil
        rw [hsame]
  · intro days
    obtain ⟨year, month, day, hcivil, hdate, -, hdays⟩ := civilFromDays_spec days
    exact ⟨year, month, day, hcivil, hdate, hdays⟩

/-- An end that is read and written. -/
theorem lease_end_kept_minute :
    parseUntil (formatUntil 1709209815000) = some 1709209800000 := by
  have hread : parseUntil "2024-02-29T12:30:15Z" = some 1709209815000 := by decide +kernel
  have hlast : ¬ IsLastDay "2024-02-29T12:30:15Z" := by
    rw [← (parseUntil_le hread).2]
    decide
  exact (lease_end_kept hread).1.mpr hlast

/-- The end of the last day that is read is lost when it is written. -/
theorem lease_end_lost : ¬ ∀ text t, parseUntil text = some t →
    parseUntil (formatUntil t) = some (t / 60000 * 60000) := by
  intro hall
  have hlost := hall "9999-12-31" LAST_END (by decide +kernel)
  rw [formatUntil_last] at hlost
  exact absurd hlost (by decide +kernel)

end Teitunnel

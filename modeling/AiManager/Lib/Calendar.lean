import AiManager.Lib.DateTime

/-! # The calendar

A day is found by counting years from March, so that the leap day ends its year. From that follow the number of the day
that a date names, and that later days have later dates. -/

namespace AiManager.Lib.DateTime

/-- Days before the first of March of a year, counted from the first of March of the year 0. -/
def daysBeforeYear (y : Int) : Int := 365 * y + y / 4 - y / 100 + y / 400

/-- The day of a date, as a number of days since the epoch. -/
def daysOf (y : Int) (m d : Nat) : Int :=
  let mp := if 2 < m then m - 3 else m + 9
  daysBeforeYear (if m ≤ 2 then y - 1 else y) + ((153 * mp + 2) / 5 : Nat) + d - 719469

/-! ## Years from March -/

/-- The year within an era, as `civil` computes it. -/
def yearOfEra (doe : Nat) : Nat := (doe - doe / 1460 + doe / 36524 - doe / 146096) / 365

/-- Days of an era before one of its years. -/
def daysBeforeYearOfEra (yoe : Nat) : Nat := 365 * yoe + yoe / 4 - yoe / 100

section Era
variable {doe : Nat}

/-- A day of an era, by centuries, groups of four years, and the rest. -/
theorem exists_centuries (h : doe < 146097) : ∃ c q w, doe = 36524 * c + 1461 * q + w ∧ c ≤ 3 ∧ q ≤ 24 ∧
    w ≤ 1460 ∧ (c < 3 → 1461 * q + w < 36524) ∧ doe / 36524 - doe / 146096 = c ∧ doe / 146096 ≤ doe / 36524 := by
  rcases Nat.lt_or_ge doe 146096 with hlt | hlast
  · refine ⟨doe / 36524, doe % 36524 / 1461, doe % 36524 % 1461, ?_, ?_, ?_, ?_, ?_, ?_, ?_⟩ <;> omega
  · obtain rfl : doe = 146096 := by omega
    exact ⟨3, 24, 1460, by decide⟩

/-- The days of whole years, by centuries and groups of four years. -/
theorem daysBeforeYearOfEra_eq {c q r : Nat} (hq : q ≤ 24) (hr : r ≤ 3) :
    daysBeforeYearOfEra (100 * c + 4 * q + r) = 36524 * c + 1461 * q + 365 * r := by
  have hfour : (100 * c + 4 * q + r) / 4 = 25 * c + q := by omega
  have hhundred : (100 * c + 4 * q + r) / 100 = c := by omega
  unfold daysBeforeYearOfEra
  rw [hfour, hhundred]
  omega

theorem yearOfEra_eq {c q w r : Nat} (hdoe : doe = 36524 * c + 1461 * q + w) (hc : c ≤ 3) (hq : q ≤ 24)
    (hw : w ≤ 1460) (hleaps : doe / 36524 - doe / 146096 = c) (hle : doe / 146096 ≤ doe / 36524) (hr : r ≤ 3)
    (hrw : 365 * r ≤ w) (hwr : r < 3 → w < 365 * (r + 1)) : yearOfEra doe = 100 * c + 4 * q + r := by
  -- whether 1460 days hold one leap day more matters only at the end of the four years
  obtain ⟨e, hfour, he⟩ : ∃ e, doe / 1460 = 25 * c + q + e ∧ (e = 0 ∧ w < 1460 ∨ e = 1 ∧ 1364 ≤ w) := by
    refine ⟨doe / 1460 - (25 * c + q), ?_, ?_⟩ <;> omega
  have hnumerator : doe - doe / 1460 + doe / 36524 - doe / 146096 = 365 * (100 * c + 4 * q) + (w - e) := by
    rw [hfour]
    omega
  have hyear : (w - e) / 365 = r := by omega
  unfold yearOfEra
  rw [hnumerator, Nat.mul_add_div (by decide), hyear]

theorem yearOfEra_bounds (h : doe < 146097) : yearOfEra doe < 400 ∧ daysBeforeYearOfEra (yearOfEra doe) ≤ doe ∧
    (yearOfEra doe < 399 → doe < daysBeforeYearOfEra (yearOfEra doe + 1)) := by
  obtain ⟨c, q, w, hdoe, hc, hq, hw, hcentury, hleaps, hle⟩ := exists_centuries h
  obtain ⟨r, hr, hrw, hwr⟩ : ∃ r, r ≤ 3 ∧ 365 * r ≤ w ∧ (r < 3 → w < 365 * (r + 1)) := by
    refine ⟨min (w / 365) 3, ?_, ?_, ?_⟩ <;> omega
  rw [yearOfEra_eq hdoe hc hq hw hleaps hle hr hrw hwr, daysBeforeYearOfEra_eq hq hr]
  refine ⟨by omega, by omega, fun hlast => ?_⟩
  -- the next year is in the same four years, in the next ones, or in the next century
  have hnext : daysBeforeYearOfEra (100 * c + 4 * q + r + 1) = 36524 * c + 1461 * q + 365 * (r + 1) ∧ r < 3 ∨
      daysBeforeYearOfEra (100 * c + 4 * q + r + 1) = 36524 * c + 1461 * (q + 1) ∧ q < 24 ∨
      daysBeforeYearOfEra (100 * c + 4 * q + r + 1) = 36524 * (c + 1) ∧ c < 3 := by
    rcases Nat.lt_or_eq_of_le hr with hr3 | rfl
    · exact .inl ⟨daysBeforeYearOfEra_eq hq hr3, hr3⟩
    · rcases Nat.lt_or_eq_of_le hq with hq24 | rfl
      · exact .inr (.inl ⟨daysBeforeYearOfEra_eq (r := 0) hq24 (Nat.zero_le 3), hq24⟩)
      · refine .inr (.inr ⟨daysBeforeYearOfEra_eq (c := c + 1) (q := 0) (r := 0) (Nat.zero_le 24)
          (Nat.zero_le 3), ?_⟩)
        omega
  omega

end Era

/-- A day by its year and its day of the year, both counted from March. -/
structure MarchDate (days year : Int) (doy : Nat) : Prop where
  eq : daysBeforeYear year + doy = days + 719468
  lt : daysBeforeYear year + doy < daysBeforeYear (year + 1)

/-- Month of a day of the year, where March is 0, and day of the month. -/
def marchMonth (doy : Nat) : Nat := (5 * doy + 2) / 153
def marchDay (doy : Nat) : Nat := doy - (153 * marchMonth doy + 2) / 5 + 1

/-- The date in the calendar. -/
def dateOf (year : Int) (doy : Nat) : Int × Nat × Nat :=
  let m := if marchMonth doy < 10 then marchMonth doy + 3 else marchMonth doy - 9
  (if m ≤ 2 then year + 1 else year, m, marchDay doy)

theorem daysBeforeYear_of_era (yoe : Nat) (era : Int) (h : yoe < 400) :
    daysBeforeYear (yoe + era * 400) = daysBeforeYearOfEra yoe + era * 146097 := by
  unfold daysBeforeYear daysBeforeYearOfEra
  omega

theorem marchDate_of_era {days era : Int} {doe : Nat} (hdoe : doe < 146097) (h : days + 719468 = doe + era * 146097) :
    MarchDate days (yearOfEra doe + era * 400) (doe - daysBeforeYearOfEra (yearOfEra doe)) := by
  obtain ⟨hyoe, hle, hlt⟩ := yearOfEra_bounds hdoe
  have hstart := daysBeforeYear_of_era _ era hyoe
  constructor
  · rw [hstart]
    omega
  · rw [hstart]
    rcases Nat.lt_or_eq_of_le (Nat.le_of_lt_succ hyoe) with hyear | hlast
    · have hnext := daysBeforeYear_of_era (yearOfEra doe + 1) era (Nat.succ_lt_succ hyear)
      rw [show (yearOfEra doe + era * 400 + 1 : Int) = (yearOfEra doe + 1 : Nat) + era * 400 by omega, hnext]
      have hlt := hlt hyear
      omega
    · -- the last year of the era
      have hnext : daysBeforeYear ((0 : Nat) + (era + 1) * 400) = (0 : Nat) + (era + 1) * 146097 :=
        daysBeforeYear_of_era 0 (era + 1) (by decide)
      rw [show (yearOfEra doe + era * 400 + 1 : Int) = (0 : Nat) + (era + 1) * 400 by omega, hnext]
      omega

theorem civil_eq (days : Int) : ∃ year doy, MarchDate days year doy ∧ civil days = dateOf year doy :=
  ⟨_, _, marchDate_of_era (by omega) (by omega), rfl⟩

theorem daysBeforeYear_mono {y y' : Int} (h : y ≤ y') : daysBeforeYear y ≤ daysBeforeYear y' := by
  unfold daysBeforeYear
  omega

/-! ## Dates -/

section Dates
variable {days days' year year' : Int} {doy doy' : Nat}

theorem MarchDate.doy_lt (h : MarchDate days year doy) : doy < 366 := by
  have hlt := h.lt
  unfold daysBeforeYear at hlt
  omega

theorem marchMonth_le (h : doy < 366) : marchMonth doy ≤ 11 := by
  unfold marchMonth
  omega

theorem marchDay_bounds (doy : Nat) : 1 ≤ marchDay doy ∧ marchDay doy ≤ 31 ∧
    (153 * marchMonth doy + 2) / 5 + marchDay doy = doy + 1 := by
  unfold marchDay marchMonth
  omega

theorem daysOf_dateOf (h : doy < 366) :
    daysOf (dateOf year doy).1 (dateOf year doy).2.1 (dateOf year doy).2.2 = daysBeforeYear year + doy - 719468 := by
  have hmonth := marchMonth_le h
  obtain ⟨-, -, hday⟩ := marchDay_bounds doy
  unfold daysOf dateOf
  dsimp only
  by_cases hspring : marchMonth doy < 10
  · have hlate : ¬ marchMonth doy + 3 ≤ 2 := by omega
    rw [if_pos hspring, if_neg hlate, if_neg hlate, if_pos (Nat.not_le.mp hlate), Nat.add_sub_cancel]
    omega
  · have hearly : marchMonth doy - 9 ≤ 2 := by omega
    rw [if_neg hspring, if_pos hearly, if_pos hearly, if_neg (Nat.not_lt.mpr hearly), Int.add_sub_cancel,
      Nat.sub_add_cancel (by omega)]
    omega

/-- The date of a day names that day. -/
theorem daysOf_civil (days : Int) : daysOf (civil days).1 (civil days).2.1 (civil days).2.2 = days := by
  obtain ⟨year, doy, hmarch, hcivil⟩ := civil_eq days
  rw [hcivil, daysOf_dateOf hmarch.doy_lt, hmarch.eq]
  omega

theorem civil_bounds (days : Int) : 1 ≤ (civil days).2.1 ∧ (civil days).2.1 ≤ 12 ∧ 1 ≤ (civil days).2.2 ∧
    (civil days).2.2 ≤ 31 := by
  obtain ⟨year, doy, hmarch, hcivil⟩ := civil_eq days
  have hmonth := marchMonth_le hmarch.doy_lt
  obtain ⟨hone, hlast, -⟩ := marchDay_bounds doy
  rw [hcivil]
  unfold dateOf
  dsimp only
  split <;> omega

/-- Later days are in later months, or later in the month. -/
theorem dateOf_lt (h : MarchDate days year doy) (h' : MarchDate days' year' doy') (hlt : days < days') :
    year < year' ∨ year = year' ∧ (marchMonth doy < marchMonth doy' ∨
      marchMonth doy = marchMonth doy' ∧ marchDay doy < marchDay doy') := by
  have hday := (marchDay_bounds doy).2.2
  have hday' := (marchDay_bounds doy').2.2
  have heq := h.eq
  have heq' := h'.eq
  rcases Int.lt_trichotomy year year' with hyear | rfl | hyear
  · exact .inl hyear
  · have hdoy : doy < doy' := by omega
    have hmonth : marchMonth doy ≤ marchMonth doy' := by
      unfold marchMonth
      omega
    refine .inr ⟨rfl, ?_⟩
    rcases Nat.lt_or_eq_of_le hmonth with hmonth | hmonth
    · exact .inl hmonth
    · rw [hmonth] at hday
      exact .inr ⟨hmonth, by omega⟩
  · have hmono : daysBeforeYear (year' + 1) ≤ daysBeforeYear year := daysBeforeYear_mono hyear
    have hlt' := h'.lt
    omega

theorem civil_lt (h : days < days') : (civil days).1 < (civil days').1 ∨ (civil days).1 = (civil days').1 ∧
    ((civil days).2.1 < (civil days').2.1 ∨ (civil days).2.1 = (civil days').2.1 ∧
      (civil days).2.2 < (civil days').2.2) := by
  obtain ⟨year, doy, hmarch, hcivil⟩ := civil_eq days
  obtain ⟨year', doy', hmarch', hcivil'⟩ := civil_eq days'
  have hlt := dateOf_lt hmarch hmarch' h
  have hmonth := marchMonth_le hmarch.doy_lt
  have hmonth' := marchMonth_le hmarch'.doy_lt
  rw [hcivil, hcivil']
  unfold dateOf
  dsimp only
  split_ifs <;> omega

end Dates

end AiManager.Lib.DateTime

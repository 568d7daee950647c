import FaultDrill.Instant.Calendar
/-!
# Day numbers and dates

Every day has a date in the calendar, and the date leads back to the day (`dayNumber_dateOf`).
-/
namespace FaultDrill.Calendar

/-- The year of a 400-year cycle that a day of the cycle lies in. -/
def yearOfEra (doe : Nat) : Nat := (doe - doe / 1460 + doe / 36524 - doe / 146096) / 365

/-- The day of the year, counted from the first of March. -/
def dayOfYear (doe : Nat) : Nat :=
  doe - (365 * yearOfEra doe + yearOfEra doe / 4 - yearOfEra doe / 100)

/-- A day of a cycle by century, cycle of four years, year and day; only the last year of four can
have a day more. -/
theorem exists_parts {doe : Nat} (h : doe < 146096) :
    ∃ c q y d, c ≤ 3 ∧ q ≤ 24 ∧ y ≤ 3 ∧ (d < 365 ∨ d = 365 ∧ y = 3) ∧
      doe = 36524 * c + 1461 * q + 365 * y + d ∧ doe < 36524 * (c + 1) := by
  by_cases hlast : doe % 36524 % 1461 = 1460
  · exact ⟨doe / 36524, doe % 36524 / 1461, 3, 365, by omega, by omega, by omega,
      .inr ⟨rfl, rfl⟩, by omega, by omega⟩
  · exact ⟨doe / 36524, doe % 36524 / 1461, doe % 36524 % 1461 / 365, doe % 36524 % 1461 % 365,
      by omega, by omega, by omega, .inl (by omega), by omega, by omega⟩

theorem yearOfEra_parts {c q y d doe : Nat} (hc : c ≤ 3) (hq : q ≤ 24) (hy : y ≤ 3)
    (hd : d < 365 ∨ d = 365 ∧ y = 3) (hdoe : doe = 36524 * c + 1461 * q + 365 * y + d)
    (hlt : doe < 36524 * (c + 1)) : yearOfEra doe = 100 * c + 4 * q + y := by
  have h1 : doe / 36524 = c := by omega
  have h2 : doe / 146096 = 0 := by omega
  have h3 : doe / 1460 = 25 * c + q + (24 * c + q + 365 * y + d) / 1460 := by omega
  rw [yearOfEra, h1, h2, h3]
  -- late in a century the quotient by 1460 is one ahead, which leads to the same year
  by_cases h : 24 * c + q + 365 * y + d < 1460
  · have h4 : (24 * c + q + 365 * y + d) / 1460 = 0 := by omega
    omega
  · have h4 : (24 * c + q + 365 * y + d) / 1460 = 1 := by omega
    omega

/-- A day of the cycle is a day of its year; the 366th only when the year that follows in the
common reckoning, which begins in January, is a leap year. -/
theorem yearOfEra_spec {doe : Nat} (h : doe < 146097) :
    yearOfEra doe < 400 ∧ dayOfYear doe ≤ 365 ∧
      doe = 365 * yearOfEra doe + yearOfEra doe / 4 - yearOfEra doe / 100 + dayOfYear doe ∧
      (dayOfYear doe = 365 → (yearOfEra doe + 1) % 4 = 0 ∧
        ((yearOfEra doe + 1) % 100 ≠ 0 ∨ (yearOfEra doe + 1) % 400 = 0)) := by
  by_cases hlast : doe = 146096
  · subst hlast
    decide
  · have hlt : doe < 146096 := by omega
    obtain ⟨c, q, y, d, hc, hq, hy, hd, hdoe, hlt⟩ := exists_parts hlt
    have hyoe := yearOfEra_parts hc hq hy hd hdoe hlt
    have h4 : (100 * c + 4 * q + y) / 4 = 25 * c + q := by omega
    have h100 : (100 * c + 4 * q + y) / 100 = c := by omega
    have hdoy : dayOfYear doe = d := by
      rw [dayOfYear, hyoe, h4, h100]
      omega
    rw [hdoy, hyoe, h4, h100]
    omega

/-! ## Dates -/

/-- The day of the cycle that a day number lies on. -/
def dayOfEra (n : Int) : Nat := ((n + 719468) % 146097).toNat

theorem dayOfEra_lt (n : Int) : dayOfEra n < 146097 := by
  unfold dayOfEra
  omega

/-- The year that the first of March before a day lies in. -/
def marchYear (n : Int) : Int := (n + 719468) / 146097 * 400 + yearOfEra (dayOfEra n)

/-- The parts of a date by the year, counted from March, and the day in it. -/
theorem dateOf_eq (n : Int) : ∃ mp : Nat, mp = (5 * dayOfYear (dayOfEra n) + 2) / 153 ∧
    (dateOf n).month = (if mp < 10 then mp + 3 else mp - 9) ∧
    (dateOf n).day = dayOfYear (dayOfEra n) - (153 * mp + 2) / 5 + 1 ∧
    (dateOf n).year = if (dateOf n).month ≤ 2 then marchYear n + 1 else marchYear n :=
  ⟨_, rfl, rfl, rfl, rfl⟩

/-- The date of a day leads back to the day. -/
theorem dayNumber_dateOf (n : Int) : dayNumber (dateOf n) = n := by
  obtain ⟨mp, hmp, hmonth, hday, hyear⟩ := dateOf_eq n
  have hdoe : (dayOfEra n : Int) = (n + 719468) % 146097 := by
    unfold dayOfEra
    omega
  obtain ⟨hyoe, hdoy, hsum, -⟩ := yearOfEra_spec (dayOfEra_lt n)
  have hmarch : marchYear n = (n + 719468) / 146097 * 400 + yearOfEra (dayOfEra n) := rfl
  have hy : (if (dateOf n).month ≤ 2 then (dateOf n).year - 1 else (dateOf n).year) =
      marchYear n := by
    rw [hyear]
    split
    · omega
    · rfl
  have hm : ((dateOf n).month + 9) % 12 = mp := by
    rw [hmonth]
    split <;> omega
  generalize dayOfYear (dayOfEra n) = doy at *
  generalize yearOfEra (dayOfEra n) = yoe at *
  generalize dayOfEra n = doe at *
  have hera : marchYear n / 400 = (n + 719468) / 146097 := by omega
  have hof : marchYear n % 400 = yoe := by omega
  simp only [dayNumber, hy, hm, hday, hera, hof]
  omega

/-- The length of a month, counted from March, bounds its days; the last one is February. -/
theorem day_le {doy mp : Nat} (hdoy : doy ≤ 365) (hmp : mp = (5 * doy + 2) / 153) :
    mp ≤ 11 ∧ doy - (153 * mp + 2) / 5 + 1 ≤ 31 ∧
      (mp = 1 ∨ mp = 3 ∨ mp = 6 ∨ mp = 8 → doy - (153 * mp + 2) / 5 + 1 ≤ 30) ∧
      (mp = 11 → doy - (153 * mp + 2) / 5 + 1 ≤ 29 ∧
        (doy ≠ 365 → doy - (153 * mp + 2) / 5 + 1 ≤ 28)) := by
  refine ⟨?_, ?_, ?_, ?_⟩ <;> omega

/-- Every day has a date in the calendar. -/
theorem valid_dateOf (n : Int) : (dateOf n).valid = true := by
  obtain ⟨mp, hmp, hmonth, hday, hyear⟩ := dateOf_eq n
  obtain ⟨-, hdoy, -, hleap⟩ := yearOfEra_spec (dayOfEra_lt n)
  obtain ⟨hlast, h31, h30, h29⟩ := day_le hdoy hmp
  rw [← hday] at h31 h30 h29
  have hlength : (dateOf n).day ≤ monthLength (dateOf n).year (dateOf n).month := by
    by_cases h2 : (dateOf n).month = 2
    · have hfeb : mp = 11 := by
        rw [hmonth] at h2
        split at h2 <;> omega
      have hshort : monthLength (dateOf n).year 2 =
          if isLeap (dateOf n).year then 29 else 28 := rfl
      rw [h2, hshort]
      by_cases hd : dayOfYear (dayOfEra n) = 365
      · obtain ⟨h4, h100⟩ := hleap hd
        have hy : isLeap (dateOf n).year = true := by
          rw [if_pos (by omega), marchYear] at hyear
          simp only [isLeap, Bool.and_eq_true, Bool.or_eq_true, beq_iff_eq, bne_iff_ne]
          omega
        rw [hy, if_pos rfl]
        exact (h29 hfeb).1
      · have h28 := (h29 hfeb).2 hd
        split <;> omega
    · simp only [monthLength, if_neg h2, Bool.or_eq_true, decide_eq_true_eq]
      split
      · rename_i hm
        refine h30 ?_
        rw [hmonth] at hm
        split at hm <;> omega
      · exact h31
  simp only [Date.valid, Bool.and_eq_true, decide_eq_true_eq]
  refine ⟨⟨⟨?_, ?_⟩, ?_⟩, hlength⟩
  · rw [hmonth]
    split <;> omega
  · rw [hmonth]
    split <;> omega
  · omega

end FaultDrill.Calendar

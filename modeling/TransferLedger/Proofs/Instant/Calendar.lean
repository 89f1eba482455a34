import Mathlib.Tactic.IntervalCases
import TransferLedger.Instant.Basic

/-! # The calendar

A day is counted in an era of 400 years, in a year of the era, and in that year, which begins in March
(`CalendarDate.Count`). That the year which `ofDays` computes is the one that the day falls into is a fact
about the 400 first and last days of years (`yearShift_first`, `yearShift_last`): between these the
quotient cannot change (`exists_count`). From the count it follows that

* `ofDays_before`: later days have later dates;
* `toDays_ofDays`: a date is counted back to its day;
* `ofDays_day_le`: no date is past the end of its month.
-/

namespace TransferLedger.CalendarDate
set_option autoImplicit false

/-- `d` is earlier than `e`: by year, then by month, then by day. -/
def Before (d e : CalendarDate) : Prop :=
  d.year < e.year ∨ (d.year = e.year ∧
    (d.month < e.month ∨ (d.month = e.month ∧ d.day < e.day)))

/-! ## Years of an era -/

/-- The days of an era before a year. -/
def yearStart (y : Int) : Int := 365 * y + y / 4 - y / 100

/-- A day of an era without the leap days before it. -/
def yearShift (d : Int) : Int := d - d / 1460 + d / 36524 - d / 146096

theorem yearShift_mono {d e : Int} (hde : d ≤ e) :
    yearShift d ≤ yearShift e := by
  unfold yearShift
  omega

theorem yearShift_first {y : Int} (h0 : 0 ≤ y) (h1 : y ≤ 399) : 365 * y ≤ yearShift (yearStart y) := by
  have hall : ∀ k : Fin 400, 365 * (k : Int) ≤ yearShift (yearStart k) := by decide +kernel
  obtain ⟨k, rfl⟩ := Int.eq_ofNat_of_zero_le h0
  exact hall ⟨k, by omega⟩

theorem yearShift_last {y : Int} (h0 : 0 ≤ y) (h1 : y < 399) :
    yearShift (yearStart (y + 1) - 1) < 365 * (y + 1) := by
  have hall : ∀ k : Fin 399, yearShift (yearStart (k + 1) - 1) < 365 * ((k : Int) + 1) := by
    decide +kernel
  obtain ⟨k, rfl⟩ := Int.eq_ofNat_of_zero_le h0
  exact hall ⟨k, by omega⟩

theorem yearStart_lt {y y' : Int} (h : y < y') : yearStart y + 365 ≤ yearStart y' := by
  unfold yearStart
  omega

theorem yearStart_bounds {y : Int} (h0 : 0 ≤ y) (h1 : y ≤ 399) :
    0 ≤ yearStart y ∧ yearStart y ≤ 145731 := by
  unfold yearStart
  omega

/-! ## Counted days -/

/-- A day, counted in years that begin in March. -/
structure Count where
  era : Int
  year : Int
  day : Int
  year_nonneg : 0 ≤ year
  year_le : year ≤ 399
  day_nonneg : 0 ≤ day
  day_le : day ≤ 365
  leap : day = 365 → year = 399 ∨ yearStart (year + 1) = yearStart year + 366

namespace Count

/-- Days since 1970-01-01. -/
def days (c : Count) : Int := c.era * 146097 + yearStart c.year + c.day - 719468

/-- Months since March. -/
def month (c : Count) : Int := (5 * c.day + 2) / 153

def dayOfMonth (c : Count) : Int := c.day - (153 * c.month + 2) / 5 + 1

def date (c : Count) : CalendarDate :=
  let month := if c.month < 10 then c.month + 3 else c.month - 9
  let year := c.year + c.era * 400 + (if month ≤ 2 then 1 else 0)
  ⟨year, month.toNat, c.dayOfMonth.toNat⟩

theorem month_bounds (c : Count) : 0 ≤ c.month ∧ c.month ≤ 11 ∧
    153 * c.month ≤ 5 * c.day + 2 ∧ 5 * c.day + 2 < 153 * c.month + 153 := by
  have := c.day_nonneg
  have := c.day_le
  unfold month
  omega

theorem dayOfEra_bounds (c : Count) :
    0 ≤ yearStart c.year + c.day ∧ yearStart c.year + c.day ≤ 146096 := by
  have := yearStart_bounds c.year_nonneg c.year_le
  have := c.day_nonneg
  have := c.day_le
  omega

theorem dayOfMonth_bounds (c : Count) : 1 ≤ c.dayOfMonth ∧ c.dayOfMonth ≤ 31 := by
  have := c.month_bounds
  unfold dayOfMonth
  omega

theorem date_of_lt {c : Count} (h : c.month < 10) :
    c.date = ⟨c.year + c.era * 400, (c.month + 3).toNat, c.dayOfMonth.toNat⟩ := by
  have := c.month_bounds
  simp only [date, if_pos h, if_neg (by omega : ¬ c.month + 3 ≤ 2), Int.add_zero]

theorem date_of_le {c : Count} (h : 10 ≤ c.month) :
    c.date = ⟨c.year + c.era * 400 + 1, (c.month - 9).toNat, c.dayOfMonth.toNat⟩ := by
  have := c.month_bounds
  simp only [date, if_neg (by omega : ¬ c.month < 10), if_pos (by omega : c.month - 9 ≤ 2)]

end Count

theorem exists_count (z : Int) : ∃ c : Count, c.days = z ∧ ofDays z = c.date := by
  obtain ⟨n, hn⟩ : ∃ n, n = z + 719468 := ⟨_, rfl⟩
  obtain ⟨d, hd⟩ : ∃ d, d = n % 146097 := ⟨_, rfl⟩
  have hd0 : 0 ≤ d := hd ▸ Int.emod_nonneg n (by decide)
  have hd1 : d ≤ 146096 := by omega
  have hdn : n = n / 146097 * 146097 + d := by omega
  obtain ⟨y, hy⟩ : ∃ y, y = yearShift d / 365 := ⟨_, rfl⟩
  have hy0 : 0 ≤ y := by
    have := yearShift_mono hd0
    rw [show yearShift 0 = 0 from rfl] at this
    omega
  have hy1 : y ≤ 399 := by
    have := yearShift_mono hd1
    rw [show yearShift 146096 = 145999 from rfl] at this
    omega
  -- A day before the first of the year, or after its last, has another quotient.
  have hfirst : yearStart y ≤ d := by
    refine Int.not_lt.1 fun hlt => ?_
    have hpos : 0 ≤ y - 1 := by unfold yearStart at hlt; omega
    have hbefore := yearShift_last hpos (by omega)
    rw [Int.sub_add_cancel] at hbefore
    have hbounds := yearStart_bounds hy0 hy1
    have := yearShift_mono (by omega : d ≤ yearStart y - 1)
    omega
  have hlast : y = 399 ∨ d < yearStart (y + 1) := by
    refine Decidable.or_iff_not_imp_left.2 fun hne => Int.not_le.1 fun hle => ?_
    have hafter := yearShift_first (by omega : 0 ≤ y + 1) (by omega)
    have hbounds := yearStart_bounds (by omega : 0 ≤ y + 1) (by omega)
    have := yearShift_mono hle
    omega
  refine ⟨⟨n / 146097, y, d - yearStart y, hy0, hy1, by omega, ?_, ?_⟩, ?_, ?_⟩
  · unfold yearStart at hlast ⊢
    omega
  · unfold yearStart at hlast ⊢
    omega
  · simp only [Count.days]
    omega
  · have hday : n - n / 146097 * 146097 = d := by omega
    have hyear : (d - d / 1460 + d / 36524 - d / 146096) / 365 = y := hy.symm
    simp only [ofDays, ← hn, Int.fdiv_eq_ediv_of_nonneg n (by decide : (0 : Int) ≤ 146097), hday, hyear]
    rfl

namespace Count

theorem year_before {c e : Count} (h : c.days < e.days) :
    c.year + c.era * 400 < e.year + e.era * 400 ∨
      (c.year + c.era * 400 = e.year + e.era * 400 ∧ c.day < e.day) := by
  have hc := c.dayOfEra_bounds
  have he := e.dayOfEra_bounds
  have := c.year_nonneg
  have := c.year_le
  have := e.year_nonneg
  have := e.year_le
  unfold days at h
  rcases Int.lt_trichotomy c.era e.era with hera | hera | hera
  · omega
  · rcases Int.lt_trichotomy c.year e.year with hyear | hyear | hyear
    · omega
    · rw [hera, hyear] at h
      omega
    · have := yearStart_lt hyear
      have := c.day_nonneg
      have := e.day_le
      omega
  · omega

theorem day_before {c e : Count} (h : c.day < e.day) :
    c.month < e.month ∨ (c.month = e.month ∧ c.dayOfMonth < e.dayOfMonth) := by
  have hc := c.month_bounds
  have he := e.month_bounds
  unfold dayOfMonth
  rcases Int.lt_trichotomy c.month e.month with hmonth | hmonth | hmonth
  · exact .inl hmonth
  · rw [hmonth]
    omega
  · omega

theorem date_before {c e : Count} (h : c.days < e.days) : c.date.Before e.date := by
  have hyear := year_before h
  have hday := fun hlt : c.day < e.day => day_before hlt
  have hc := c.month_bounds
  have he := e.month_bounds
  have hc' := c.dayOfMonth_bounds
  have he' := e.dayOfMonth_bounds
  unfold Before
  -- January and February belong to the next year of the calendar.
  rcases Int.lt_or_le c.month 10 with hcm | hcm <;> rcases Int.lt_or_le e.month 10 with hem | hem
  · rw [date_of_lt hcm, date_of_lt hem]
    dsimp only
    omega
  · rw [date_of_lt hcm, date_of_le hem]
    dsimp only
    omega
  · rw [date_of_le hcm, date_of_lt hem]
    dsimp only
    omega
  · rw [date_of_le hcm, date_of_le hem]
    dsimp only
    omega

theorem date_year (c : Count) :
    (if c.date.month ≤ 2 then c.date.year - 1 else c.date.year) = c.year + c.era * 400 := by
  have hc := c.month_bounds
  rcases Int.lt_or_le c.month 10 with hcm | hcm
  · rw [date_of_lt hcm, if_neg (by dsimp only; omega)]
  · rw [date_of_le hcm, if_pos (by dsimp only; omega), Int.add_sub_cancel]

theorem date_month (c : Count) : ((c.date.month : Int) + 9) % 12 = c.month := by
  have hc := c.month_bounds
  rcases Int.lt_or_le c.month 10 with hcm | hcm
  · rw [date_of_lt hcm]
    dsimp only
    omega
  · rw [date_of_le hcm]
    dsimp only
    omega

theorem date_day (c : Count) : (c.date.day : Int) = c.dayOfMonth :=
  Int.toNat_of_nonneg (Int.le_trans (by decide) c.dayOfMonth_bounds.1)

theorem toDays_date (c : Count) : c.date.toDays = c.days := by
  have := c.year_nonneg
  have := c.year_le
  have hera : (c.year + c.era * 400) / 400 = c.era := by omega
  have hyear : c.year + c.era * 400 - c.era * 400 = c.year := by omega
  have hday : (153 * c.month + 2) / 5 + c.dayOfMonth - 1 = c.day := by
    unfold dayOfMonth
    omega
  simp only [toDays, date_year, date_month, date_day,
    Int.fdiv_eq_ediv_of_nonneg _ (by decide : (0 : Int) ≤ 400), hera, hyear, hday]
  unfold days yearStart
  omega

theorem isLeapYear_of_day {c : Count} (h : c.day = 365) :
    isLeapYear (c.year + c.era * 400 + 1) = true := by
  have := c.year_nonneg
  have := c.year_le
  have hleap := c.leap h
  unfold yearStart at hleap
  simp only [isLeapYear, Bool.and_eq_true, Bool.or_eq_true, beq_iff_eq, bne_iff_ne]
  omega

/-- The months from March to December come in groups of five that have 153 days. -/
theorem daysInMonth_eq (y : Int) {m : Nat} (h : m < 10) :
    (daysInMonth y (m + 3) : Int) = (153 * (m : Int) + 155) / 5 - (153 * (m : Int) + 2) / 5 := by
  interval_cases m <;> rfl

theorem date_bounds (c : Count) : 1 ≤ c.date.month ∧ c.date.month ≤ 12 ∧ 1 ≤ c.date.day ∧
    c.date.day ≤ daysInMonth c.date.year c.date.month := by
  have hc := c.month_bounds
  have hday := c.dayOfMonth_bounds
  have hdef : c.dayOfMonth = c.day - (153 * c.month + 2) / 5 + 1 := rfl
  rcases Int.lt_or_le c.month 10 with hcm | hcm
  · obtain ⟨m, hm⟩ := Int.eq_ofNat_of_zero_le hc.1
    rw [hm] at hdef
    have hmonth : (c.month + 3).toNat = m + 3 := by omega
    have hlength := daysInMonth_eq (c.year + c.era * 400) (by omega : m < 10)
    rw [date_of_lt hcm]
    dsimp only
    rw [hmonth]
    omega
  · rw [date_of_le hcm]
    dsimp only
    obtain hm | hm : c.month = 10 ∨ c.month = 11 := by omega
    · rw [hm]
      have hlength : daysInMonth (c.year + c.era * 400 + 1) 1 = 31 := rfl
      refine ⟨by decide, by decide, by omega, ?_⟩
      exact hlength.symm ▸ (by omega)
    · have hlength : daysInMonth (c.year + c.era * 400 + 1) 2 =
          if isLeapYear (c.year + c.era * 400 + 1) then 29 else 28 := rfl
      rw [hm] at hdef ⊢
      refine ⟨by decide, by decide, by omega, ?_⟩
      refine Nat.le_trans ?_ (Nat.le_of_eq hlength.symm)
      have hlast := c.day_le
      by_cases hleap : c.day = 365
      · rw [isLeapYear_of_day hleap, if_pos rfl]
        omega
      · split <;> omega

end Count

/-! ## Dates of days -/

theorem ofDays_before {z w : Int} (h : z < w) : (ofDays z).Before (ofDays w) := by
  obtain ⟨c, rfl, hc⟩ := exists_count z
  obtain ⟨e, rfl, he⟩ := exists_count w
  rw [hc, he]
  exact Count.date_before h

theorem toDays_ofDays (z : Int) : (ofDays z).toDays = z := by
  obtain ⟨c, rfl, hc⟩ := exists_count z
  rw [hc, c.toDays_date]

theorem ofDays_bounds (z : Int) : 1 ≤ (ofDays z).month ∧ (ofDays z).month ≤ 12 ∧ 1 ≤ (ofDays z).day ∧
    (ofDays z).day ≤ daysInMonth (ofDays z).year (ofDays z).month := by
  obtain ⟨c, rfl, hc⟩ := exists_count z
  rw [hc]
  exact c.date_bounds

theorem daysInMonth_le (y : Int) (m : Nat) : daysInMonth y m ≤ 31 := by
  have hfebruary : (if isLeapYear y then 29 else 28) ≤ 31 := by split <;> decide
  unfold daysInMonth
  split
  · exact hfebruary
  all_goals decide

end TransferLedger.CalendarDate

import Mathlib.Algebra.BigOperators.Intervals
import Mathlib.Algebra.Order.BigOperators.Group.Finset
import Mathlib.Tactic.IntervalCases
import RecordFilter.Proofs.Text.Order

/-!
# The calendar, counted day by day

`Date.number` and `Date.ofNumber` reckon with quotients.  Here days are counted: the
years in between, the months of the year, the days of the month.  The two agree, a
date and its number determine each other, and dates stand in the order of their
numbers, year before month before day.

    d.number + 60 = d.dayCount                                        (number_add_sixty)
    (Date.ofNumber n).exists? = true                                  (exists_ofNumber)
    (Date.ofNumber n).number = n                                      (number_ofNumber)
    (o.then (p.then q)).Compares d.dayCount e.dayCount                (compares_dayCount)
-/

namespace RecordFilter

namespace Date

variable {d e : Date} {m : Nat}

/-! ## Counting days -/

/-- The days of a year before the first of a month. -/
def daysBeforeMonth (year : Int) (month : Nat) : Nat :=
  ∑ m ∈ Finset.Ico 1 month, daysInMonth year m

/-- The days of a year. -/
def daysInYear (year : Int) : Nat := daysBeforeMonth year 13

/-- The days from 1 January of the year 0 to that of another year. -/
def daysBeforeYear : Int → Int
  | .ofNat n => ∑ k ∈ Finset.range n, (daysInYear k : Int)
  | .negSucc n => -∑ k ∈ Finset.range (n + 1), (daysInYear (.negSucc k) : Int)

/-- The days from 1 January of the year 0 to a date. -/
def dayCount (d : Date) : Int :=
  daysBeforeYear d.year + daysBeforeMonth d.year d.month + (d.day - 1)

/-! ## Years and months -/

theorem daysInMonth_le (year : Int) (month : Nat) : daysInMonth year month ≤ 31 := by
  unfold daysInMonth
  split_ifs <;> decide

theorem daysBeforeMonth_succ (year : Int) (hm : 1 ≤ m) :
    daysBeforeMonth year (m + 1) = daysBeforeMonth year m + daysInMonth year m :=
  Finset.sum_Ico_succ_top hm _

theorem isLeapYear_iff (y : Int) :
    isLeapYear y = true ↔ y % 4 = 0 ∧ (y % 100 ≠ 0 ∨ y % 400 = 0) := by
  simp [isLeapYear]

/-- The leap days of a year. -/
def leapDay (year : Int) : Nat := if isLeapYear year then 1 else 0

theorem daysInMonth_eq (year : Int) (month : Nat) :
    daysInMonth year month =
      if month = 2 then 28 + leapDay year
      else if month = 4 ∨ month = 6 ∨ month = 9 ∨ month = 11 then 30 else 31 := by
  simp only [daysInMonth, leapDay]
  split_ifs <;> rfl

/-- A year has a leap day where the number of leap days before its end is larger than before it. -/
theorem leapDay_eq (y : Int) :
    (leapDay y : Int) = ((y + 4) / 4 - (y + 3) / 4) - ((y + 100) / 100 - (y + 99) / 100)
      + ((y + 400) / 400 - (y + 399) / 400) := by
  unfold leapDay
  split_ifs with h <;> rw [isLeapYear_iff] at h <;> omega

/-- The days of a year before a month: from March on, 153 days make five months. -/
theorem daysBeforeMonth_eq (year : Int) (h1 : 1 ≤ m) (h13 : m ≤ 13) :
    daysBeforeMonth year m =
      if m ≤ 2 then 31 * (m - 1) else (153 * (m - 3) + 2) / 5 + 59 + leapDay year := by
  induction m, h1 using Nat.le_induction with
  | base => rfl
  | succ m h1 ih =>
    have h12 : m ≤ 12 := by omega
    rw [daysBeforeMonth_succ year h1, ih (by omega), daysInMonth_eq]
    interval_cases m <;> simp <;> omega

theorem daysInYear_eq (year : Int) : daysInYear year = 365 + leapDay year := by
  rw [daysInYear, daysBeforeMonth_eq year (by decide) (by decide)]
  rfl

theorem daysBeforeYear_succ (y : Int) :
    daysBeforeYear (y + 1) = daysBeforeYear y + daysInYear y := by
  cases y with
  | ofNat n => exact Finset.sum_range_succ _ n
  | negSucc n =>
    cases n with
    | zero => simp [daysBeforeYear]
    | succ n =>
      have hy : Int.negSucc (n + 1) + 1 = Int.negSucc n := by omega
      rw [hy]
      simp only [daysBeforeYear]
      rw [Finset.sum_range_succ _ (n + 1)]
      omega

/-- The days before a year, with its leap days reckoned. -/
theorem daysBeforeYear_eq (y : Int) :
    daysBeforeYear y = 365 * y + (y + 3) / 4 - (y + 99) / 100 + (y + 399) / 400 := by
  induction y using Int.induction_on with
  | zero => rfl
  | succ n ih =>
    have := leapDay_eq n
    rw [daysBeforeYear_succ, ih, daysInYear_eq]
    omega
  | pred n ih =>
    have := leapDay_eq (-n - 1)
    have hs := daysBeforeYear_succ (-n - 1)
    rw [Int.sub_add_cancel, ih, daysInYear_eq] at hs
    omega

/-! ## Numbers -/

theorem exists_iff (d : Date) :
    d.exists? = true ↔
      1 ≤ d.month ∧ d.month ≤ 12 ∧ 1 ≤ d.day ∧ d.day ≤ daysInMonth d.year d.month := by
  simp [exists?, and_assoc]

/-- The numbers of days start on 1 March, which is 60 days into the leap year 0. -/
theorem number_add_sixty (h : d.exists? = true) : d.number + 60 = d.dayCount := by
  obtain ⟨h1, h12, -, -⟩ := (exists_iff d).1 h
  obtain ⟨year, month, day⟩ := d
  simp only at h1 h12
  rw [dayCount, daysBeforeYear_eq, daysBeforeMonth_eq _ h1 (by omega)]
  have hl := leapDay_eq year
  simp only [number]
  split_ifs <;> omega

/-! ## An era of 400 years -/

/-- A day of an era of 400 years: its century, its cycle of four years, its year and its day of the
year, which is counted from March.  Only the last year of a cycle has a 366th day, and the last
cycle of a century has it only in the last century. -/
structure InEra (dayOfEra century cycle year day : Int) : Prop where
  eq : dayOfEra = 36524 * century + 1461 * cycle + 365 * year + day
  century_bounds : 0 ≤ century ∧ century < 4
  cycle_bounds : 0 ≤ cycle ∧ cycle < 25
  year_bounds : 0 ≤ year ∧ year < 4
  day_bounds : 0 ≤ day ∧ day ≤ 365
  leap : day = 365 → year = 3 ∧ (cycle = 24 → century = 3)

theorem exists_inEra (k : Int) : ∃ c q y d, InEra (k % 146097) c q y d := by
  obtain ⟨n, hn⟩ : ∃ n, n = k % 146097 := ⟨_, rfl⟩
  have h0 : 0 ≤ n ∧ n < 146097 := by omega
  rw [← hn]
  obtain ⟨c, hc⟩ : ∃ c, c = min (n / 36524) 3 := ⟨_, rfl⟩
  obtain ⟨q, hq⟩ : ∃ q, q = (n - 36524 * c) / 1461 := ⟨_, rfl⟩
  obtain ⟨y, hy⟩ : ∃ y, y = min ((n - 36524 * c - 1461 * q) / 365) 3 := ⟨_, rfl⟩
  refine ⟨c, q, y, n - 36524 * c - 1461 * q - 365 * y, ?_, ?_, ?_, ?_, ?_, ?_⟩ <;> omega

/-- The first correction of `ofNumber` takes the day beyond four equal centuries back. -/
theorem InEra.century_eq {n c q y d : Int} (h : InEra n c q y d) : n / 36524 - n / 146096 = c := by
  obtain ⟨hn, hc, hq, hy, hd, hl⟩ := h
  obtain ⟨r, hr⟩ : ∃ r, r = 1461 * q + 365 * y + d := ⟨_, rfl⟩
  have hle : 0 ≤ r ∧ r ≤ 36524 ∧ (r = 36524 → c = 3) := by omega
  have hnr : n = 36524 * c + r := by omega
  clear hn hq hy hd hl hr
  rcases eq_or_ne r 36524 with h | h <;> omega

/-- The cycles are reckoned a day short, which moves the last day of some years into the next
one, but never as far as its second day. -/
theorem InEra.cycle_eq {n c q y d : Int} (h : InEra n c q y d) :
    ∃ e, n / 1460 = 25 * c + q + e ∧ 0 ≤ d - e ∧ d - e < 365 := by
  obtain ⟨hn, hc, hq, hy, hd, hl⟩ := h
  refine ⟨(24 * c + q + 365 * y + d) / 1460, ?_, ?_⟩
  · clear hl
    omega
  · omega

theorem InEra.year_eq {n c q y d : Int} (h : InEra n c q y d) :
    (n - n / 1460 + n / 36524 - n / 146096) / 365 = 100 * c + 4 * q + y := by
  obtain ⟨e, he, hd⟩ := h.cycle_eq
  have hn := h.eq
  have hc := h.century_eq
  omega

theorem InEra.day_eq {n c q y d : Int} (h : InEra n c q y d) (Y) (hY : Y = 100 * c + 4 * q + y) :
    n - (365 * Y + Y / 4 - Y / 100) = d := by
  obtain ⟨hn, hc, hq, hy, hd, hl⟩ := h
  have : Y / 4 = 25 * c + q := by omega
  have : Y / 100 = c := by omega
  omega

/-- The day is one of its year, which ends with the leap day of the next civil year. -/
theorem InEra.day_lt {n c q y d : Int} (h : InEra n c q y d) (era Y : Int)
    (hY : Y = 100 * c + 4 * q + y + 400 * era) : d < 365 + leapDay (Y + 1) := by
  obtain ⟨hn, hc, hq, hy, hd, hl⟩ := h
  have := leapDay_eq (Y + 1)
  omega

/-! ## The day with a number -/

/-- A day of a year that is counted from March. -/
def ofMarch (year dayOfYear : Int) : Date :=
  let month := (5 * dayOfYear + 2) / 153
  let civil := if month < 10 then month + 3 else month - 9
  ⟨year + (if civil ≤ 2 then 1 else 0), civil.toNat, (dayOfYear - (153 * month + 2) / 5 + 1).toNat⟩

theorem ofNumber_eq_ofMarch (n : Int) {c q y d : Int} (h : InEra (n % 146097) c q y d) :
    ofNumber n = ofMarch (100 * c + 4 * q + y + 400 * (n / 146097)) d := by
  simp only [ofNumber, h.year_eq, h.day_eq _ rfl, ofMarch]

theorem number_ofMarch (Y) {d : Int} (h0 : 0 ≤ d) (h : d < 366) :
    (ofMarch Y d).number = 365 * Y + Y / 4 - Y / 100 + Y / 400 + d := by
  obtain ⟨m, hm⟩ : ∃ m, m = (5 * d + 2) / 153 := ⟨_, rfl⟩
  obtain ⟨h0', h12⟩ : 0 ≤ m ∧ m < 12 := by omega
  simp only [ofMarch, number, ← hm]
  interval_cases m <;> simp <;> omega

theorem exists_ofMarch (Y) {d : Int} (h0 : 0 ≤ d) (h : d < 365 + leapDay (Y + 1)) :
    (ofMarch Y d).exists? = true := by
  obtain ⟨m, hm⟩ : ∃ m, m = (5 * d + 2) / 153 := ⟨_, rfl⟩
  have h1 : leapDay (Y + 1) ≤ 1 := by unfold leapDay; split_ifs <;> decide
  have : 0 ≤ m ∧ m < 12 := by omega
  rw [exists_iff, daysInMonth_eq]
  simp only [ofMarch, ← hm]
  obtain ⟨h0', h12⟩ := this
  interval_cases m <;> simp <;> omega

theorem exists_ofNumber (n : Int) : (ofNumber n).exists? = true := by
  obtain ⟨c, q, y, d, h⟩ := exists_inEra n
  rw [ofNumber_eq_ofMarch n h]
  exact exists_ofMarch _ h.day_bounds.1 (h.day_lt _ _ rfl)

/-- The leap days of 400 years are 97. -/
theorem leapDays_era {Y : Int} (h0 : 0 ≤ Y) (h : Y < 400) (era : Int) :
    (Y + 400 * era) / 4 - (Y + 400 * era) / 100 + (Y + 400 * era) / 400 =
      Y / 4 - Y / 100 + 97 * era := by
  omega

theorem number_ofNumber (n : Int) : (ofNumber n).number = n := by
  obtain ⟨c, q, y, d, h⟩ := exists_inEra n
  have hday := h.day_eq _ rfl
  rw [ofNumber_eq_ofMarch n h]
  obtain ⟨-, hc, hq, hy, hd, -⟩ := h
  have hleap := leapDays_era (Y := 100 * c + 4 * q + y) (by omega) (by omega) (n / 146097)
  rw [number_ofMarch _ hd.1 (by omega)]
  omega

theorem dayCount_ofNumber (n : Int) : (ofNumber n).dayCount = n + 60 := by
  rw [← number_add_sixty (exists_ofNumber n), number_ofNumber]

/-! ## Order -/

theorem daysBeforeYear_mono {x y : Int} (h : x ≤ y) : daysBeforeYear x ≤ daysBeforeYear y := by
  rw [daysBeforeYear_eq, daysBeforeYear_eq]
  omega

theorem daysBeforeMonth_mono (year : Int) {m n : Nat} (h : m ≤ n) :
    daysBeforeMonth year m ≤ daysBeforeMonth year n :=
  Finset.sum_le_sum_of_subset (Finset.Ico_subset_Ico_right h)

/-- The day of the month lies before the days of the next month. -/
theorem day_le (h : d.exists? = true) :
    1 ≤ d.day ∧ daysBeforeMonth d.year d.month + d.day ≤ daysBeforeMonth d.year (d.month + 1) := by
  obtain ⟨h1, -, hday, hle⟩ := (exists_iff d).1 h
  rw [daysBeforeMonth_succ _ h1]
  omega

theorem dayCount_bounds (h : d.exists? = true) :
    daysBeforeYear d.year ≤ d.dayCount ∧ d.dayCount < daysBeforeYear (d.year + 1) := by
  obtain ⟨-, h12, -, -⟩ := (exists_iff d).1 h
  have hday := day_le h
  have hmonth := daysBeforeMonth_mono d.year (m := d.month + 1) (n := 13) (by omega)
  rw [dayCount, daysBeforeYear_succ, daysInYear]
  omega

theorem dayCount_lt_iff (h : d.exists? = true) (y : Int) :
    d.dayCount < daysBeforeYear y ↔ d.year < y := by
  obtain ⟨hle, hlt⟩ := dayCount_bounds h
  constructor <;> intro hy
  · by_contra hge
    have := daysBeforeYear_mono (not_lt.1 hge)
    omega
  · have := daysBeforeYear_mono (Int.add_one_le_of_lt hy)
    omega

theorem dayCount_lt_of_year (hd : d.exists? = true) (he : e.exists? = true)
    (h : d.year < e.year) : d.dayCount < e.dayCount :=
  lt_of_lt_of_le ((dayCount_lt_iff hd _).2 h) (dayCount_bounds he).1

theorem dayCount_lt_of_month (hd : d.exists? = true) (he : e.exists? = true)
    (hy : d.year = e.year) (h : d.month < e.month) : d.dayCount < e.dayCount := by
  have h1 := day_le hd
  have h2 := day_le he
  have := daysBeforeMonth_mono d.year (m := d.month + 1) h
  rw [← hy] at h2
  rw [dayCount, dayCount, ← hy]
  omega

/-- Dates stand in the order of their days: year before month before day of the month. -/
theorem compares_dayCount (hd : d.exists? = true) (he : e.exists? = true) {o p q : Ordering}
    (ho : o.Compares d.year e.year) (hp : p.Compares d.month e.month)
    (hq : q.Compares d.day e.day) :
    (o.then (p.then q)).Compares d.dayCount e.dayCount := by
  refine compares_then ho (dayCount_lt_of_year hd he) (dayCount_lt_of_year he hd) fun hy => ?_
  refine compares_then hp (dayCount_lt_of_month hd he hy) (dayCount_lt_of_month he hd hy.symm)
    fun hm => ?_
  rw [dayCount, dayCount, hy, hm]
  cases q <;> simp only [Ordering.Compares] at hq ⊢ <;> omega

end Date

end RecordFilter

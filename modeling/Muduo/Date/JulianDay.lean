import Muduo.Date.Model
import Muduo.Lib.Calendar

/-!
# Julian day numbers

Both conversions count in years that begin in March, from March of the year -4800, so
that a leap day is the end of a year. Without overflow `getJulianDayNumber` is a numbering
of the days of the Gregorian calendar, and `getYearMonthDay` finds the date of a number:
first the century, then the year in it, then the month.
-/

namespace Muduo.Date

open Lib CivilDate

/-! ## From a date to its number -/

/-- The year that begins in March, from -4800 on. -/
def shiftedYear (year month : Int) : Int := year + 4800 - (14 - month) / 12

/-- Its month, from 0 on. -/
def shiftedMonth (month : Int) : Int := month + 12 * ((14 - month) / 12) - 3

/-- The number of a day, counted in integers. -/
def dayNumber (y m day : Int) : Int :=
  day + (153 * m + 2) / 5 + y * 365 + y / 4 - y / 100 + y / 400 - 32045

/-- The largest intermediate value. -/
def peak (y m day : Int) : Int := day + (153 * m + 2) / 5 + y * 365 + y / 4

def julianDay (d : CivilDate) : Int :=
  dayNumber (shiftedYear d.year d.month) (shiftedMonth d.month) d.day

/-- The date is in the range of `int` for `getJulianDayNumber`. -/
def InRange (d : CivilDate) : Prop :=
  peak (shiftedYear d.year d.month) (shiftedMonth d.month) d.day ≤ kMaxInt

instance (d : CivilDate) : Decidable (InRange d) := inferInstanceAs (Decidable (_ ≤ _))

/-- March 1, -4800. -/
def epoch : CivilDate := first (-4800) 3 (by decide) (by decide)

section Number

variable {d : CivilDate}

/-- The dates from the epoch on. -/
theorem epoch_le_iff : epoch ≤ d ↔ 0 ≤ shiftedYear d.year d.month := by
  have hlow := d.one_le_month
  have hhigh := d.month_le
  have hday := d.one_le_day
  rw [← not_lt, CivilDate.lt_iff, shiftedYear]
  simp only [epoch, first]
  omega

theorem shiftedMonth_bounds (d : CivilDate) :
    0 ≤ shiftedMonth d.month ∧ shiftedMonth d.month ≤ 11 := by
  have hlow := d.one_le_month
  have hhigh := d.month_le
  unfold shiftedMonth
  omega

/-- The conversion is exact where its largest intermediate value fits. -/
theorem getJulianDayNumber_eq (hd : epoch ≤ d) (hr : InRange d) :
    getJulianDayNumber d.year d.month d.day = .ok (julianDay d) := by
  have hlow := d.one_le_month
  have hhigh := d.month_le
  have hday := d.one_le_day
  have hy := epoch_le_iff.mp hd
  obtain ⟨hm, hm'⟩ := shiftedMonth_bounds d
  have hshift : 0 ≤ (14 - d.month) / 12 ∧ (14 - d.month) / 12 ≤ 1 := by omega
  unfold InRange peak at hr
  unfold kMaxInt at hr
  have hyear : d.year + 4800 - (14 - d.month) / 12 = shiftedYear d.year d.month := rfl
  have hmonth : d.month + 12 * ((14 - d.month) / 12) - 3 = shiftedMonth d.month := rfl
  unfold getJulianDayNumber julianDay dayNumber
  generalize shiftedYear d.year d.month = y at *
  generalize shiftedMonth d.month = m at *
  rw [CInt.sub_eq (by omega) (by omega), ok_bind, CInt.div_eq (by omega) (by omega) (by omega),
    ok_bind]
  generalize (14 - d.month) / 12 = a at *
  rw [CInt.add_eq (by omega) (by omega), ok_bind, CInt.sub_eq (by omega) (by omega), ok_bind, hyear,
    CInt.mul_eq (by omega) (by omega), ok_bind, CInt.add_eq (by omega) (by omega), ok_bind,
    CInt.sub_eq (by omega) (by omega), ok_bind, hmonth]
  clear hyear hmonth hshift hlow hhigh hd
  simp (disch := omega) only [CInt.add_eq, CInt.sub_eq, CInt.mul_eq, CInt.div_eq, ok_bind]

/-- The months before the last, counted from March, have 153 days in five. -/
theorem monthLength_eq {month : Int} (hlow : 1 ≤ month) (hhigh : month ≤ 12) (hne : month ≠ 2)
    (year : Int) : monthLength year month =
      (153 * (shiftedMonth month + 1) + 2) / 5 - (153 * shiftedMonth month + 2) / 5 := by
  interval_cases month
  case «2» => exact absurd rfl hne
  all_goals rfl

/-- After the last day of such a month, the next month of the same year begins. -/
theorem next_shifted (hlast : d.day = monthLength d.year d.month) (hne : d.month ≠ 2) :
    shiftedYear d.next.year d.next.month = shiftedYear d.year d.month ∧
      shiftedMonth d.next.month = shiftedMonth d.month + 1 ∧ d.next.day = 1 := by
  have hlow := d.one_le_month
  have hhigh := d.month_le
  unfold shiftedYear shiftedMonth
  rcases d.next_cases with ⟨hday, -⟩ | ⟨-, -, hyear, hmonth, hday⟩ | ⟨-, hdec, hyear, hmonth, hday⟩
  · omega
  · rw [hyear, hmonth]
    omega
  · rw [hyear, hmonth, hdec]
    omega

/-- The last day of February is the last day of the year. -/
theorem julianDay_march (y : Int) :
    dayNumber (shiftedYear y 3) (shiftedMonth 3) 1 =
      dayNumber (shiftedYear y 2) (shiftedMonth 2) (monthLength y 2) + 1 := by
  have hmarch : shiftedYear y 3 = y + 4800 := by
    unfold shiftedYear
    omega
  have hfeb : shiftedYear y 2 = y + 4799 := by
    unfold shiftedYear
    omega
  have hlength : monthLength y 2 = if IsLeap y then 29 else 28 := rfl
  rw [hmarch, hfeb, hlength, show shiftedMonth 3 = 0 from rfl, show shiftedMonth 2 = 11 from rfl]
  unfold dayNumber
  by_cases hleap : IsLeap y
  · rw [if_pos hleap]
    unfold IsLeap at hleap
    omega
  · rw [if_neg hleap]
    unfold IsLeap at hleap
    omega

/-- The next day has the next number. -/
theorem julianDay_next (d : CivilDate) : julianDay d.next = julianDay d + 1 := by
  rcases d.next_cases with ⟨-, hyear, hmonth, hday⟩ | hend
  · unfold julianDay dayNumber
    rw [hyear, hmonth, hday]
    omega
  · have hlast : d.day = monthLength d.year d.month := by
      rcases hend with h | h
      · exact h.1
      · exact h.1
    by_cases hfeb : d.month = 2
    · rcases hend with ⟨-, -, hyear, hmonth, hday⟩ | ⟨-, hdec, -⟩
      · unfold julianDay
        rw [hlast, hyear, hmonth, hday, hfeb]
        exact julianDay_march d.year
      · omega
    · obtain ⟨hyear, hmonth, hday⟩ := next_shifted hlast hfeb
      unfold julianDay dayNumber
      rw [hyear, hmonth, hday, hlast, monthLength_eq d.one_le_month d.month_le hfeb]
      omega

theorem julianDay_numbering : Numbering julianDay := julianDay_next

end Number

/-! ## From a number to its date -/

/-- Centuries of 36524 days, and one more at the end of every fourth. -/
theorem century_split {a b c : Int} (ha : 0 ≤ a) (hb : b = (4 * a + 3) / 146097)
    (hc : c = a - b * 146097 / 4) :
    0 ≤ b ∧ 0 ≤ c ∧ c ≤ 36524 ∧ (c = 36524 → b % 4 = 3) ∧ a = c + 36524 * b + b / 4 := by
  have hlow : 146097 * b ≤ 4 * a + 3 := by omega
  have hhigh : 4 * a + 3 < 146097 * b + 146097 := by omega
  have hquarter : b * 146097 / 4 = 36524 * b + b / 4 := by omega
  rw [hquarter] at hc
  clear hb hquarter
  refine ⟨by omega, by omega, by omega, by omega, by omega⟩

/-- Years of 365 days, and one more at the end of every fourth. -/
theorem year_split {c d e : Int} (hc : 0 ≤ c) (hc' : c ≤ 36524) (hd : d = (4 * c + 3) / 1461)
    (he : e = c - 1461 * d / 4) :
    0 ≤ d ∧ d ≤ 99 ∧ 0 ≤ e ∧ e ≤ 365 ∧ (e = 365 → d % 4 = 3) ∧ (e = 365 → d = 99 → c = 36524) ∧
      c = e + 365 * d + d / 4 := by
  have hlow : 1461 * d ≤ 4 * c + 3 := by omega
  have hhigh : 4 * c + 3 < 1461 * d + 1461 := by omega
  have hquarter : 1461 * d / 4 = 365 * d + d / 4 := by omega
  rw [hquarter] at he
  clear hd hquarter
  refine ⟨by omega, by omega, by omega, by omega, by omega, by omega, by omega⟩

/-- Months, the last of 28 or 29 days. -/
theorem month_split {e m day : Int} (he : 0 ≤ e) (he' : e ≤ 365) (hm : m = (5 * e + 2) / 153)
    (hday : day = e - (153 * m + 2) / 5 + 1) :
    0 ≤ m ∧ m ≤ 11 ∧ 1 ≤ day ∧ e + 1 = day + (153 * m + 2) / 5 ∧
      (m < 11 → day ≤ (153 * (m + 1) + 2) / 5 - (153 * m + 2) / 5) ∧ (m = 11 → day = e - 336) := by
  omega

/-- The date whose year is `100 * b + d`, counted in years that begin in March, and whose
month is `m`. -/
theorem exists_date {b c d e m day : Int} (hb : 0 ≤ b) (hcentury : c = 36524 → b % 4 = 3)
    (hd : 0 ≤ d ∧ d ≤ 99) (hleap : (e = 365 → d % 4 = 3) ∧ (e = 365 → d = 99 → c = 36524))
    (he : e ≤ 365) (hm : 0 ≤ m ∧ m ≤ 11) (hday : 1 ≤ day) (hsplit : e + 1 = day + (153 * m + 2) / 5)
    (hlength : m < 11 → day ≤ (153 * (m + 1) + 2) / 5 - (153 * m + 2) / 5)
    (hlast : m = 11 → day = e - 336) :
    ∃ date : CivilDate, epoch ≤ date ∧
      julianDay date = 36524 * b + b / 4 + 365 * d + d / 4 + e - 32044 ∧
      date.year = b * 100 + d - 4800 + m / 10 ∧ date.month = m + 3 - 12 * (m / 10) ∧
      date.day = day := by
  have hten : m / 10 = 0 ∧ m ≤ 9 ∨ m / 10 = 1 ∧ 10 ≤ m := by omega
  have hmonth : 1 ≤ m + 3 - 12 * (m / 10) ∧ m + 3 - 12 * (m / 10) ≤ 12 := by omega
  have hy : shiftedYear (b * 100 + d - 4800 + m / 10) (m + 3 - 12 * (m / 10)) = b * 100 + d := by
    unfold shiftedYear
    omega
  have hm' : shiftedMonth (m + 3 - 12 * (m / 10)) = m := by
    unfold shiftedMonth
    omega
  have hle : day ≤ monthLength (b * 100 + d - 4800 + m / 10) (m + 3 - 12 * (m / 10)) := by
    by_cases hfeb : m = 11
    · subst hfeb
      rw [show monthLength (b * 100 + d - 4800 + 11 / 10) (11 + 3 - 12 * (11 / 10)) =
        if IsLeap (b * 100 + d - 4800 + 1) then 29 else 28 from rfl]
      split
      · omega
      · rename_i hnot
        unfold IsLeap at hnot
        omega
    · rw [monthLength_eq hmonth.1 hmonth.2 (by omega), hm']
      omega
  refine ⟨⟨b * 100 + d - 4800 + m / 10, m + 3 - 12 * (m / 10), day, hmonth.1, hmonth.2, hday, hle⟩,
    epoch_le_iff.mpr ?_, ?_, rfl, rfl, rfl⟩
  · rw [hy]
    omega
  · have h₄ : (b * 100 + d) / 4 = 25 * b + d / 4 := by omega
    have h₁₀₀ : (b * 100 + d) / 100 = b := by omega
    have h₄₀₀ : (b * 100 + d) / 400 = b / 4 := by omega
    show dayNumber (shiftedYear _ _) (shiftedMonth _) day = _
    rw [hy, hm', dayNumber, h₄, h₁₀₀, h₄₀₀]
    omega

/-- No operation of `getYearMonthDay` overflows in this range, whose last number is the
largest with `4 * a + 3` in the range of `int`; the result is the date of the number. -/
theorem getYearMonthDay_spec {j : Int} (hlow : -32044 ≤ j) (hhigh : j ≤ 536838867) :
    ∃ date : CivilDate, epoch ≤ date ∧ julianDay date = j ∧
      getYearMonthDay j = .ok ⟨date.year, date.month, date.day⟩ := by
  unfold getYearMonthDay
  rw [CInt.add_eq (by omega) (by omega), ok_bind, CInt.mul_eq (by omega) (by omega), ok_bind,
    CInt.add_eq (by omega) (by omega), ok_bind, CInt.div_eq (by omega) (by omega) (by omega),
    ok_bind]
  generalize ha : j + 32044 = a
  generalize hb : (4 * a + 3) / 146097 = b
  have hb₁ : b ≤ 14699 ∧ 146097 * b ≤ 4 * a + 3 := by omega
  obtain ⟨hb₀, hc₀, hc₁, hcentury, hsplit⟩ := century_split (by omega) hb.symm rfl
  rw [CInt.mul_eq (by omega) (by omega), ok_bind, CInt.div_eq (by omega) (by omega) (by omega),
    ok_bind, CInt.sub_eq (by omega) (by omega), ok_bind]
  generalize a - b * 146097 / 4 = c at *
  rw [CInt.mul_eq (by omega) (by omega), ok_bind, CInt.add_eq (by omega) (by omega), ok_bind,
    CInt.div_eq (by omega) (by omega) (by omega), ok_bind]
  generalize hd : (4 * c + 3) / 1461 = d
  obtain ⟨hd₀, hd₁, he₀, he₁, hleap, hleap', hsplit'⟩ := year_split hc₀ hc₁ hd.symm rfl
  rw [CInt.mul_eq (by omega) (by omega), ok_bind, CInt.div_eq (by omega) (by omega) (by omega),
    ok_bind, CInt.sub_eq (by omega) (by omega), ok_bind]
  generalize c - 1461 * d / 4 = e at *
  rw [CInt.mul_eq (by omega) (by omega), ok_bind, CInt.add_eq (by omega) (by omega), ok_bind,
    CInt.div_eq (by omega) (by omega) (by omega), ok_bind]
  generalize hm : (5 * e + 2) / 153 = m
  obtain ⟨hm₀, hm₁, hday, hsplit'', hlength, hlast⟩ := month_split he₀ he₁ hm.symm rfl
  obtain ⟨date, hepoch, hnumber, hyear, hmonth, hdate⟩ := exists_date hb₀ hcentury ⟨hd₀, hd₁⟩
    ⟨hleap, hleap'⟩ he₁ ⟨hm₀, hm₁⟩ hday hsplit'' hlength hlast
  refine ⟨date, hepoch, by omega, ?_⟩
  rw [hyear, hmonth, hdate]
  clear hb hd hm hsplit hsplit' hsplit'' hlength hlast hnumber hyear hmonth hdate hcentury hleap hleap'
  simp (disch := omega) only [CInt.add_eq, CInt.sub_eq, CInt.mul_eq, CInt.div_eq, ok_bind]
  rfl

/-! ## Both conversions -/

theorem julianDay_epoch : julianDay epoch = -32044 := rfl

/-- The numbers from the epoch on are those of the days from the epoch on. -/
theorem exists_days_since_epoch {d : CivilDate} (hd : epoch ≤ d) :
    ∃ n : Nat, next^[n] epoch = d ∧ julianDay d = n - 32044 := by
  obtain ⟨n, hn, hnum⟩ := julianDay_numbering.exists_days hd
  rw [julianDay_epoch] at hnum
  exact ⟨n, hn, by omega⟩

/-- The intermediate values are not much larger than the number. -/
theorem inRange_of_julianDay {d : CivilDate} (hd : epoch ≤ d) (h : julianDay d ≤ 536838867) :
    InRange d := by
  have hy := epoch_le_iff.mp hd
  have hday := d.one_le_day
  obtain ⟨hm, hm'⟩ := shiftedMonth_bounds d
  unfold julianDay dayNumber at h
  unfold InRange peak kMaxInt
  generalize shiftedYear d.year d.month = y at *
  generalize shiftedMonth d.month = m at *
  omega

/-- **Julian day numbers.** Every number in the range is converted without overflow to a
date of the calendar and back. Every date from the epoch on is that of some day `n` after
it; if the number of that day is in the range, the date is converted to this number and
back. -/
theorem julian_day_bijection :
    (∀ j, -32044 ≤ j → j ≤ 536838867 → ∃ d : CivilDate, epoch ≤ d ∧
      getYearMonthDay j = .ok ⟨d.year, d.month, d.day⟩ ∧
        getJulianDayNumber d.year d.month d.day = .ok j) ∧
      ∀ d : CivilDate, epoch ≤ d → ∃ n : Nat, next^[n] epoch = d ∧
        ((n : Int) - 32044 ≤ 536838867 →
          getJulianDayNumber d.year d.month d.day = .ok (n - 32044) ∧
            getYearMonthDay (n - 32044) = .ok ⟨d.year, d.month, d.day⟩) := by
  refine ⟨fun j hlow hhigh => ?_, fun d hd => ?_⟩
  · obtain ⟨d, hd, hnum, hdate⟩ := getYearMonthDay_spec hlow hhigh
    have hrange := inRange_of_julianDay hd (hnum.trans_le hhigh)
    exact ⟨d, hd, hdate, by rw [getJulianDayNumber_eq hd hrange, hnum]⟩
  · obtain ⟨n, hn, hnum⟩ := exists_days_since_epoch hd
    refine ⟨n, hn, fun hhigh => ?_⟩
    have hrange := inRange_of_julianDay hd (hnum.trans_le hhigh)
    refine ⟨by rw [getJulianDayNumber_eq hd hrange, hnum], ?_⟩
    -- the date found has the same number, so it is this one
    obtain ⟨d', -, hnum', hdate⟩ := getYearMonthDay_spec (j := n - 32044) (by omega) hhigh
    obtain rfl : d' = d := julianDay_numbering.strictMono.injective (hnum'.trans hnum.symm)
    exact hdate

/-- February 29, 2000. -/
theorem julian_day_bijection_leap_day :
    ∃ d : CivilDate, epoch ≤ d ∧ getYearMonthDay 2451604 = .ok ⟨d.year, d.month, d.day⟩ ∧
      getJulianDayNumber d.year d.month d.day = .ok 2451604 :=
  julian_day_bijection.1 2451604 (by decide) (by decide)

/-! ## Counting days -/

/-- `Date(year, month, day)` of a date of the calendar. -/
def ofCivil (d : CivilDate) : Except IntFault Date := ofYearMonthDay d.year d.month d.day

theorem ofCivil_eq {d : CivilDate} (hd : epoch ≤ d) (hr : InRange d) :
    ofCivil d = .ok ⟨julianDay d⟩ := by
  rw [ofCivil, ofYearMonthDay, getJulianDayNumber_eq hd hr]
  rfl

/-- Only there. -/
theorem inRange_of_ofCivil {d : CivilDate} (hd : epoch ≤ d) {x : Date} (h : ofCivil d = .ok x) :
    InRange d := by
  have hlow := d.one_le_month
  have hhigh := d.month_le
  obtain ⟨hm, hm'⟩ := shiftedMonth_bounds d
  have hy : 0 ≤ d.year + 4800 - (14 - d.month) / 12 := epoch_le_iff.mp hd
  unfold shiftedMonth at hm hm'
  obtain ⟨j, h, -⟩ := bind_eq_ok h
  unfold getJulianDayNumber at h
  simp only [CInt.add, CInt.sub, CInt.mul] at h
  obtain ⟨-, h⟩ := CInt.exact_bind_eq_ok h
  rw [CInt.div_eq (by omega) (by omega) (by omega), ok_bind] at h
  obtain ⟨-, h⟩ := CInt.exact_bind_eq_ok h
  obtain ⟨⟨-, hfits⟩, h⟩ := CInt.exact_bind_eq_ok h
  obtain ⟨-, h⟩ := CInt.exact_bind_eq_ok h
  obtain ⟨-, h⟩ := CInt.exact_bind_eq_ok h
  obtain ⟨-, h⟩ := CInt.exact_bind_eq_ok h
  obtain ⟨-, h⟩ := CInt.exact_bind_eq_ok h
  obtain ⟨-, h⟩ := CInt.exact_bind_eq_ok h
  rw [CInt.div_eq (by omega) (by omega) (by omega), ok_bind] at h
  obtain ⟨-, h⟩ := CInt.exact_bind_eq_ok h
  obtain ⟨-, h⟩ := CInt.exact_bind_eq_ok h
  obtain ⟨-, h⟩ := CInt.exact_bind_eq_ok h
  rw [CInt.div_eq hy hfits (by omega), ok_bind] at h
  exact (CInt.exact_bind_eq_ok h).1.2

/-- A date is in range if the next day is. -/
theorem inRange_of_next {d : CivilDate} (hr : InRange d.next) : InRange d := by
  have hnum := julianDay_next d
  have hyear : shiftedYear d.year d.month ≤ shiftedYear d.next.year d.next.month := by
    have hhigh := d.month_le
    unfold shiftedYear
    rcases d.next_cases with ⟨-, hy, hm, -⟩ | ⟨-, -, hy, hm, -⟩ | ⟨-, hdec, hy, hm, -⟩
    · rw [hy, hm]
    · rw [hy, hm]
      omega
    · rw [hy, hm, hdec]
      omega
  unfold julianDay dayNumber at hnum
  unfold InRange peak at hr ⊢
  generalize shiftedYear d.year d.month = y at *
  generalize shiftedYear d.next.year d.next.month = y' at *
  have hcenturies : y / 100 - y / 400 ≤ y' / 100 - y' / 400 := by omega
  omega

/-- The weekday of a day whose number is not negative. -/
theorem weekDay_eq {d : CivilDate} (hd : epoch ≤ d) (hr : InRange d) (hj : 0 ≤ julianDay d) :
    weekDay ⟨julianDay d⟩ = .ok ((julianDay d + 1) % 7) := by
  have hhigh : julianDay d + 1 ≤ 2147483647 := by
    have hy := epoch_le_iff.mp hd
    unfold InRange peak kMaxInt at hr
    unfold julianDay dayNumber
    omega
  show CInt.add (julianDay d) 1 >>= (fun x => CInt.mod x kDaysPerWeek) = _
  rw [CInt.add_eq (by omega) hhigh, ok_bind]
  exact CInt.mod_eq (by omega) hhigh (by decide)

/-- **Dates count days.** The next day has the next number and, from number 0 on, the next
weekday. Dates are ordered by their numbers as by year, month and day, and the difference
of the numbers is the number of days between them. -/
theorem dates_count_days :
    (∀ d : CivilDate, epoch ≤ d → InRange d.next →
      Lands (ofCivil d) fun x => Lands (ofCivil d.next) fun x' =>
        x'.julianDayNumber = x.julianDayNumber + 1 ∧
          (0 ≤ x.julianDayNumber → Lands x.weekDay fun w => Lands x'.weekDay fun w' =>
            0 ≤ w ∧ w < 7 ∧ w' = (w + 1) % 7)) ∧
      ∀ d e : CivilDate, epoch ≤ d → epoch ≤ e → InRange d → InRange e →
        Lands (ofCivil d) fun x => Lands (ofCivil e) fun y =>
          (x.lt y = true ↔ d < e) ∧ (x.eq y = true ↔ d = e) ∧
            (d ≤ e → ∃ n : Nat, next^[n] d = e ∧ y.julianDayNumber - x.julianDayNumber = n) := by
  refine ⟨fun d hd hr => ?_, fun d e hd he hr hr' => ?_⟩
  · have hd' : epoch ≤ d.next := hd.trans (lt_next d).le
    have hnum := julianDay_next d
    rw [ofCivil_eq hd (inRange_of_next hr), ofCivil_eq hd' hr]
    refine .ok (.ok ⟨hnum, fun hj => ?_⟩)
    have hj : 0 ≤ julianDay d := hj
    rw [weekDay_eq hd (inRange_of_next hr) hj, weekDay_eq hd' hr (by omega)]
    exact .ok (.ok ⟨by omega, by omega, by omega⟩)
  · rw [ofCivil_eq hd hr, ofCivil_eq he hr']
    refine .ok (.ok ⟨?_, ?_, fun hle => julianDay_numbering.exists_days hle⟩)
    · rw [Date.lt, decide_eq_true_iff]
      exact julianDay_numbering.strictMono.lt_iff_lt
    · rw [Date.eq, decide_eq_true_iff]
      exact julianDay_numbering.strictMono.injective.eq_iff

/-- The end of a century without a leap day. -/
theorem dates_count_days_1900 :
    Lands (ofCivil ⟨1900, 2, 28, by decide, by decide, by decide, by decide⟩) fun x =>
      Lands (ofCivil (next ⟨1900, 2, 28, by decide, by decide, by decide, by decide⟩)) fun x' =>
        x'.julianDayNumber = x.julianDayNumber + 1 ∧
          (0 ≤ x.julianDayNumber → Lands x.weekDay fun w => Lands x'.weekDay fun w' =>
            0 ≤ w ∧ w < 7 ∧ w' = (w + 1) % 7) :=
  dates_count_days.1 _ (by decide) (by decide)

end Muduo.Date

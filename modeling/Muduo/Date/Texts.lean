import Muduo.Lib.Fields
import Muduo.Date.JulianDay

/-!
# The texts of times and dates (`Timestamp.cpp`, `Date.cpp`)

A `Timestamp` counts microseconds, a `Date` days. `toFormattedString` goes through
`gmtime_r`, `toIsoString` through `getYearMonthDay`. Within the years that have four
digits both print fields of fixed width, the largest unit first: the texts are ordered as
the times and the dates are.
-/

namespace Muduo

open Lib CivilDate

/-- `M_microSecondsSinceEpoch`, an `int64_t`. -/
structure Timestamp where
  microSecondsSinceEpoch : Int
  fits : -2 ^ 63 ≤ microSecondsSinceEpoch ∧ microSecondsSinceEpoch < 2 ^ 63
  deriving DecidableEq, Repr

/-- The fields of `struct tm` that are read. -/
structure Tm where
  tm_sec : Int
  tm_min : Int
  tm_hour : Int
  tm_mday : Int
  tm_mon : Int
  tm_year : Int
  deriving DecidableEq, Repr

theorem one_le_january : (1 : Int) ≤ 1 := le_rfl

theorem january_le_twelve : (1 : Int) ≤ 12 := by decide

/-- January 1, 1970. -/
def unixEpoch : CivilDate := first 1970 1 one_le_january january_le_twelve

/-- `gmtime_r`. -/
def gmtime (seconds : Int) : Tm :=
  let date := unixEpoch.addDays (seconds / 86400)
  let second := seconds % 86400
  { tm_sec := second % 60
    tm_min := second / 60 % 60
    tm_hour := second / 3600
    tm_mday := date.day
    tm_mon := date.month - 1
    tm_year := date.year - 1900 }

namespace Timestamp

def kMicroSecondsPerSecond : Int := 1000 * 1000

/-- `secondsSinceEpoch`: the division cuts towards zero. -/
def secondsSinceEpoch (t : Timestamp) : Int :=
  t.microSecondsSinceEpoch.tdiv kMicroSecondsPerSecond

/-- `operator<`. -/
def lt (x y : Timestamp) : Bool := x.microSecondsSinceEpoch < y.microSecondsSinceEpoch

/-- `operator==`. -/
def eq (x y : Timestamp) : Bool := x.microSecondsSinceEpoch = y.microSecondsSinceEpoch

/-- `toString`: the buffer of 32 bytes is passed with one byte less. -/
def toString (t : Timestamp) : List Char :=
  let seconds := t.microSecondsSinceEpoch.tdiv kMicroSecondsPerSecond
  let microseconds := t.microSecondsSinceEpoch.tmod kMicroSecondsPerSecond
  snprintf (32 - 1) (decimal seconds ++ '.' :: zeroPadded 6 microseconds)

/-- `toFormattedString(showMicroseconds)`. -/
def toFormattedString (t : Timestamp) (showMicroseconds : Bool) : List Char :=
  let seconds := t.microSecondsSinceEpoch.tdiv kMicroSecondsPerSecond
  let tm_time := gmtime seconds
  if showMicroseconds then
    let microseconds := t.microSecondsSinceEpoch.tmod kMicroSecondsPerSecond
    snprintf 32 (spacePadded 4 (tm_time.tm_year + 1900) ++ zeroPadded 2 (tm_time.tm_mon + 1) ++
      zeroPadded 2 tm_time.tm_mday ++ [' '] ++ zeroPadded 2 tm_time.tm_hour ++ [':'] ++
      zeroPadded 2 tm_time.tm_min ++ [':'] ++ zeroPadded 2 tm_time.tm_sec ++ ['.'] ++
      zeroPadded 6 microseconds)
  else
    snprintf 32 (spacePadded 4 (tm_time.tm_year + 1900) ++ zeroPadded 2 (tm_time.tm_mon + 1) ++
      zeroPadded 2 tm_time.tm_mday ++ [' '] ++ zeroPadded 2 tm_time.tm_hour ++ [':'] ++
      zeroPadded 2 tm_time.tm_min ++ [':'] ++ zeroPadded 2 tm_time.tm_sec)

end Timestamp

namespace Date

/-- `Date(const struct tm&)`. -/
def ofTm (t : Tm) : Except IntFault Date := do
  ofYearMonthDay (← CInt.add t.tm_year 1900) (← CInt.add t.tm_mon 1) t.tm_mday

def toIsoString (x : Date) : Except IntFault (List Char) := do
  let ymd ← x.yearMonthDay
  return snprintf 32 (spacePadded 4 ymd.year ++ ['-'] ++ zeroPadded 2 ymd.month ++ ['-'] ++
    zeroPadded 2 ymd.day)

end Date

/-! ## The fields -/

/-- The years of four digits, the first of them padded. -/
def FourDigits (d : CivilDate) : Prop := 0 ≤ d.year ∧ d.year < 10 ^ 4

/-- Year, month and day, the same text between them. -/
theorem civil_fieldOf (s : List Char) :
    FieldOf FourDigits (4 + (s.length + 2 + (s.length + 2))) fun d : CivilDate =>
      spacePadded 4 d.year ++ (s ++ zeroPadded 2 d.month ++ (s ++ zeroPadded 2 d.day)) := by
  have hmonth := (zeroPadded_fieldOf 1).sep s
  refine ((spacePadded_fieldOf 3).append (hmonth.append hmonth)).comap (e := key) ?_ ?_
  · intro d hyear
    have hlow := d.one_le_month
    have hhigh := d.month_le
    have hday := d.one_le_day
    have hday' := d.day_le.trans (monthLength_bounds _ _).2
    exact ⟨hyear, ⟨by show 0 ≤ d.month; omega, by show d.month < 10 ^ 2; omega⟩,
      by show 0 ≤ d.day; omega, by show d.day < 10 ^ 2; omega⟩
  · exact fun d e _ _ => Iff.rfl

/-- The number of the day is that of a year with four digits. -/
def DayInYears (n : Int) : Prop := -719528 ≤ n ∧ n < 2932897

theorem julianDay_addDays (n : Int) : Date.julianDay (unixEpoch.addDays n) = 2440588 + n :=
  Date.julianDay_numbering.addDays unixEpoch n

theorem fourDigits_addDays {n : Int} (hn : DayInYears n) : FourDigits (unixEpoch.addDays n) := by
  have hnum := julianDay_addDays n
  have hlow : ¬ unixEpoch.addDays n < first 0 1 (by decide) (by decide) := by
    rw [← Date.julianDay_numbering.strictMono.lt_iff_lt, hnum]
    show ¬ 2440588 + n < 1721060
    have := hn.1
    omega
  have hhigh : unixEpoch.addDays n < first 10000 1 (by decide) (by decide) := by
    rw [← Date.julianDay_numbering.strictMono.lt_iff_lt, hnum]
    show 2440588 + n < 5373485
    have := hn.2
    omega
  rw [CivilDate.lt_iff] at hlow hhigh
  have hmonth := (unixEpoch.addDays n).one_le_month
  have hday := (unixEpoch.addDays n).one_le_day
  simp only [first] at hlow hhigh
  exact ⟨by omega, by omega⟩

/-- The date of a day, counted from the epoch. -/
def dayText (n : Int) : List Char :=
  spacePadded 4 (unixEpoch.addDays n).year ++
    ([] ++ zeroPadded 2 (unixEpoch.addDays n).month ++
      ([] ++ zeroPadded 2 (unixEpoch.addDays n).day))

theorem dayText_fieldOf : FieldOf DayInYears 8 dayText :=
  (civil_fieldOf []).comap (fun _ hn => fourDigits_addDays hn) fun n m _ _ =>
    Date.julianDay_numbering.addDays_lt_iff unixEpoch n m

/-- A second of the day, one unit after the other. -/
def secondText (n : Int) : List Char :=
  dayText (n / 60 / 60 / 24) ++ ([' '] ++ zeroPadded 2 (n / 60 / 60 % 24)) ++
    ([':'] ++ zeroPadded 2 (n / 60 % 60)) ++ ([':'] ++ zeroPadded 2 (n % 60))

theorem secondText_fieldOf :
    FieldOf (fun n => DayInYears (n / 60 / 60 / 24)) 17 secondText := by
  have hunit : ∀ r k : Int, k ≤ 60 → 0 ≤ r → r < k → 0 ≤ r ∧ r < 10 ^ 2 := by
    intro r k hk hr hlt
    exact ⟨hr, by omega⟩
  have htwo := zeroPadded_fieldOf 1
  have hhour := dayText_fieldOf.divMod (k := 24) (by decide) (htwo.sep [' '])
    fun r => hunit r 24 (by decide)
  have hminute := hhour.divMod (k := 60) (by decide) (htwo.sep [':'])
    fun r => hunit r 60 (by decide)
  exact hminute.divMod (k := 60) (by decide) (htwo.sep [':']) fun r => hunit r 60 (by decide)

def microsecondText (n : Int) : List Char :=
  secondText (n / 1000000) ++ (['.'] ++ zeroPadded 6 (n % 1000000))

theorem microsecondText_fieldOf :
    FieldOf (fun n => DayInYears (n / 1000000 / 60 / 60 / 24)) 24 microsecondText :=
  secondText_fieldOf.divMod (k := 1000000) (by decide) ((zeroPadded_fieldOf 5).sep ['.'])
    fun _ hr hlt => ⟨hr, hlt⟩

/-- Minutes, hours and days are cut off one after the other, or the day at once. -/
theorem ediv_day (s : Int) : s / 60 / 60 / 24 = s / 86400 := by omega

/-- `gmtime_r` cuts the day first, and the day then into hours, minutes and seconds. -/
theorem gmtime_eq (s : Int) : gmtime s =
    { tm_sec := s % 60
      tm_min := s / 60 % 60
      tm_hour := s / 60 / 60 % 24
      tm_mday := (unixEpoch.addDays (s / 60 / 60 / 24)).day
      tm_mon := (unixEpoch.addDays (s / 60 / 60 / 24)).month - 1
      tm_year := (unixEpoch.addDays (s / 60 / 60 / 24)).year - 1900 } := by
  have hhour : s % 86400 / 3600 = s / 60 / 60 % 24 := by omega
  have hminute : s % 86400 / 60 % 60 = s / 60 % 60 := by omega
  have hsecond : s % 86400 % 60 = s % 60 := by omega
  unfold gmtime
  simp only [← ediv_day, hhour, hminute, hsecond]

/-- What both formats print first. -/
def tmText (t : Tm) : List Char :=
  spacePadded 4 (t.tm_year + 1900) ++ zeroPadded 2 (t.tm_mon + 1) ++ zeroPadded 2 t.tm_mday ++
    [' '] ++ zeroPadded 2 t.tm_hour ++ [':'] ++ zeroPadded 2 t.tm_min ++ [':'] ++
    zeroPadded 2 t.tm_sec

theorem tmText_gmtime (s : Int) : tmText (gmtime s) = secondText s := by
  rw [gmtime_eq]
  simp only [tmText, secondText, dayText, List.append_assoc, List.nil_append, Int.sub_add_cancel]

/-! ## Times -/

namespace Timestamp

/-- The second is one of a year with four digits. -/
def InYears (t : Timestamp) : Prop :=
  -62167219200 ≤ t.secondsSinceEpoch ∧ t.secondsSinceEpoch < 253402300800

instance (t : Timestamp) : Decidable t.InYears := inferInstanceAs (Decidable (_ ∧ _))

section Formatted

variable {t : Timestamp}

theorem InYears.day (h : t.InYears) : DayInYears (t.secondsSinceEpoch / 60 / 60 / 24) := by
  obtain ⟨hlow, hhigh⟩ := h
  exact ⟨by omega, by omega⟩

/-- From the epoch on the division cuts as that of the calendar does. -/
theorem InYears.microsecond (h : t.InYears) (hpos : 0 ≤ t.microSecondsSinceEpoch) :
    DayInYears (t.microSecondsSinceEpoch / 1000000 / 60 / 60 / 24) := by
  rw [← Int.tdiv_eq_ediv_of_nonneg hpos]
  exact h.day

theorem toFormattedString_false (t : Timestamp) :
    t.toFormattedString false = snprintf 32 (tmText (gmtime t.secondsSinceEpoch)) := by
  simp only [toFormattedString, tmText, secondsSinceEpoch, Bool.false_eq_true, if_false]

theorem toFormattedString_true (t : Timestamp) :
    t.toFormattedString true = snprintf 32 (tmText (gmtime t.secondsSinceEpoch) ++ ['.'] ++
      zeroPadded 6 (t.microSecondsSinceEpoch.tmod kMicroSecondsPerSecond)) := by
  simp only [toFormattedString, tmText, secondsSinceEpoch, if_true]

theorem formatted_seconds (h : t.InYears) :
    t.toFormattedString false = secondText t.secondsSinceEpoch := by
  have hlength := secondText_fieldOf.length _ h.day
  rw [toFormattedString_false, tmText_gmtime]
  exact snprintf_of_fits (by omega)

/-- From the epoch on, quotient and remainder by a second are not negative. -/
theorem formatted_microseconds (h : t.InYears) (hpos : 0 ≤ t.microSecondsSinceEpoch) :
    t.toFormattedString true = microsecondText t.microSecondsSinceEpoch := by
  have hseconds : t.secondsSinceEpoch = t.microSecondsSinceEpoch / 1000000 :=
    Int.tdiv_eq_ediv_of_nonneg hpos
  have hrest : t.microSecondsSinceEpoch.tmod kMicroSecondsPerSecond =
      t.microSecondsSinceEpoch % 1000000 := Int.tmod_eq_emod_of_nonneg hpos
  have hlength := microsecondText_fieldOf.length _ (h.microsecond hpos)
  have htext : tmText (gmtime t.secondsSinceEpoch) ++ ['.'] ++
      zeroPadded 6 (t.microSecondsSinceEpoch.tmod kMicroSecondsPerSecond) =
        microsecondText t.microSecondsSinceEpoch := by
    rw [tmText_gmtime, hrest, hseconds, List.append_assoc]
    rfl
  rw [toFormattedString_true, htext]
  exact snprintf_of_fits (by omega)

end Formatted

/-- **Formatted times are in order.** In the years with four digits the texts without
microseconds have 17 characters and are ordered as the seconds are; from the epoch on
those with microseconds have 24 and are ordered as the times are. -/
theorem formatted_ordered (x y : Timestamp) (hx : x.InYears) (hy : y.InYears) :
    ((x.toFormattedString false).length = 17 ∧
      (x.toFormattedString false < y.toFormattedString false ↔
        x.secondsSinceEpoch < y.secondsSinceEpoch)) ∧
      (0 ≤ x.microSecondsSinceEpoch → 0 ≤ y.microSecondsSinceEpoch →
        (x.toFormattedString true).length = 24 ∧
          (x.toFormattedString true < y.toFormattedString true ↔ x.lt y = true) ∧
          (x.toFormattedString true = y.toFormattedString true ↔ x.eq y = true)) := by
  constructor
  · rw [formatted_seconds hx, formatted_seconds hy]
    exact ⟨secondText_fieldOf.length _ hx.day, secondText_fieldOf.lt_iff _ _ hx.day hy.day⟩
  · intro hpos hpos'
    have hday := hx.microsecond hpos
    have hday' := hy.microsecond hpos'
    rw [formatted_microseconds hx hpos, formatted_microseconds hy hpos', Timestamp.lt,
      Timestamp.eq, decide_eq_true_iff, decide_eq_true_iff]
    exact ⟨microsecondText_fieldOf.length _ hday, microsecondText_fieldOf.lt_iff _ _ hday hday',
      microsecondText_fieldOf.eq_iff hday hday'⟩

/-- The ten thousandth microsecond of a day in February, and the next one. -/
theorem formatted_ordered_february :
    (Timestamp.toFormattedString ⟨1234567890010000, by decide⟩ true).length = 24 ∧
      Timestamp.toFormattedString ⟨1234567890010000, by decide⟩ true <
        Timestamp.toFormattedString ⟨1234567890010001, by decide⟩ true := by
  obtain ⟨-, hmicro⟩ := formatted_ordered ⟨1234567890010000, by decide⟩
    ⟨1234567890010001, by decide⟩ (by decide) (by decide)
  obtain ⟨hlength, hlt, -⟩ := hmicro (by decide) (by decide)
  exact ⟨hlength, hlt.mpr (by decide)⟩

/-- **No two times print alike.** The seconds and microseconds that `toString` prints fit
its buffer, those of times before the epoch too, and tell all times apart. -/
theorem toString_eq_iff (x y : Timestamp) : x.toString = y.toString ↔ x.eq y = true := by
  have hbounds : ∀ t : Timestamp,
      '.' ∉ decimal (t.microSecondsSinceEpoch.tdiv kMicroSecondsPerSecond) ∧
        (decimal (t.microSecondsSinceEpoch.tdiv kMicroSecondsPerSecond)).length ≤ 14 ∧
        (zeroPadded 6 (t.microSecondsSinceEpoch.tmod kMicroSecondsPerSecond)).length ≤ 7 := by
    intro t
    obtain ⟨hlow, hhigh⟩ := t.fits
    have hk : kMicroSecondsPerSecond = 1000000 := rfl
    rw [hk]
    refine ⟨fun hdot => ?_, length_decimal_le_succ (by decide) ?_,
      length_zeroPadded_le (by decide) ?_⟩
    · exact absurd (eq_sign_or_isDigit hdot) (by decide)
    · rw [Int.natAbs_tdiv]
      show t.microSecondsSinceEpoch.natAbs / 1000000 < 10 ^ 13
      omega
    · rw [Int.natAbs_tmod]
      exact Nat.mod_lt _ (by decide)
  obtain ⟨hdot, hseconds, hmicro⟩ := hbounds x
  obtain ⟨hdot', hseconds', hmicro'⟩ := hbounds y
  show (_ ++ '.' :: _).take (29 + 1) = (_ ++ '.' :: _).take (29 + 1) ↔ _
  rw [take_fields_eq_iff hdot hdot', List.take_of_length_le (by omega),
    List.take_of_length_le (by omega), decimal_injective.eq_iff]
  rw [Timestamp.eq, decide_eq_true_iff]
  constructor
  · rintro ⟨hdiv, hrest⟩
    rw [List.take_of_length_le (by omega), List.take_of_length_le (by omega),
      (zeroPadded_injective 6).eq_iff] at hrest
    rw [← Int.mul_tdiv_add_tmod x.microSecondsSinceEpoch kMicroSecondsPerSecond, hdiv, hrest,
      Int.mul_tdiv_add_tmod]
  · intro heq
    rw [heq]
    exact ⟨rfl, rfl⟩

end Timestamp

/-! ## Dates -/

namespace Date

/-- The day numbers of the years with four digits. -/
def InYears (x : Date) : Prop := 1721060 ≤ x.julianDayNumber ∧ x.julianDayNumber < 5373485

instance (x : Date) : Decidable x.InYears := inferInstanceAs (Decidable (_ ∧ _))

/-- The text of a date of the calendar. -/
def civilText (d : CivilDate) : List Char :=
  spacePadded 4 d.year ++ (['-'] ++ zeroPadded 2 d.month ++ (['-'] ++ zeroPadded 2 d.day))

theorem civilText_fieldOf : FieldOf FourDigits 10 civilText := civil_fieldOf ['-']

theorem toIsoString_eq {x : Date} (hx : x.InYears) :
    ∃ d : CivilDate, FourDigits d ∧ julianDay d = x.julianDayNumber ∧
      x.toIsoString = .ok (civilText d) := by
  obtain ⟨hlow, hhigh⟩ := hx
  obtain ⟨d, -, hnum, hdate⟩ := getYearMonthDay_spec (j := x.julianDayNumber) (by omega) (by omega)
  have hdays : d = unixEpoch.addDays (x.julianDayNumber - 2440588) := by
    apply julianDay_numbering.strictMono.injective
    rw [julianDay_addDays, hnum]
    omega
  have hfour : FourDigits d := by
    rw [hdays]
    exact fourDigits_addDays ⟨by omega, by omega⟩
  refine ⟨d, hfour, hnum, ?_⟩
  have hlength := civilText_fieldOf.length d hfour
  have htext : spacePadded 4 d.year ++ ['-'] ++ zeroPadded 2 d.month ++ ['-'] ++
      zeroPadded 2 d.day = civilText d := by
    simp only [civilText, List.append_assoc]
  rw [toIsoString, yearMonthDay, hdate, ok_bind]
  dsimp only
  rw [htext, snprintf_of_fits (by omega)]
  rfl

/-- **The texts of dates are in order.** In the years with four digits `toIsoString` has
ten characters, and the texts are ordered as the dates are. -/
theorem iso_ordered (x y : Date) (hx : x.InYears) (hy : y.InYears) :
    Lands x.toIsoString fun text => Lands y.toIsoString fun text' =>
      text.length = 10 ∧ (text < text' ↔ x.lt y = true) ∧ (text = text' ↔ x.eq y = true) := by
  obtain ⟨d, hd, hnum, htext⟩ := toIsoString_eq hx
  obtain ⟨e, he, hnum', htext'⟩ := toIsoString_eq hy
  rw [htext, htext']
  refine .ok (.ok ⟨civilText_fieldOf.length d hd, ?_, ?_⟩)
  · rw [civilText_fieldOf.lt_iff d e hd he, ← julianDay_numbering.strictMono.lt_iff_lt, hnum,
      hnum', Date.lt, decide_eq_true_iff]
  · rw [civilText_fieldOf.eq_iff hd he, ← julianDay_numbering.strictMono.injective.eq_iff, hnum,
      hnum', Date.eq, decide_eq_true_iff]

/-- The last day of a century and the first of the next. -/
theorem iso_ordered_2000 :
    Lands (Date.toIsoString ⟨2451544⟩) fun text => Lands (Date.toIsoString ⟨2451545⟩) fun text' =>
      text.length = 10 ∧ text < text' := by
  refine (iso_ordered ⟨2451544⟩ ⟨2451545⟩ (by decide) (by decide)).mono fun text htext => ?_
  refine htext.mono fun text' h => ⟨h.1, ?_⟩
  exact h.2.1.mpr (by decide)

/-! ## The date of a time -/

/-- Without what stands between its fields, the text of a date is the one that
`toFormattedString` begins with. -/
theorem filter_civilText {d : CivilDate} (hd : FourDigits d) :
    (civilText d).filter (· ≠ '-') =
      spacePadded 4 d.year ++ ([] ++ zeroPadded 2 d.month ++ ([] ++ zeroPadded 2 d.day)) := by
  have hkeep : ∀ text : List Char, '-' ∉ text → text.filter (· ≠ '-') = text := by
    intro text hno
    rw [List.filter_eq_self]
    intro c hc
    rw [decide_eq_true_iff]
    rintro rfl
    exact hno hc
  have hmonth : 0 ≤ d.month := by
    have := d.one_le_month
    omega
  have hday : 0 ≤ d.day := by
    have := d.one_le_day
    omega
  have hsep : ['-'].filter (· ≠ '-') = [] := by decide
  rw [civilText, List.filter_append, List.filter_append, List.filter_append, List.filter_append,
    hsep, hkeep _ (sign_notMem_spacePadded hd.1), hkeep _ (sign_notMem_zeroPadded hmonth),
    hkeep _ (sign_notMem_zeroPadded hday)]

/-- `Date(const struct tm&)` of what `gmtime_r` fills in. -/
theorem ofTm_gmtime {s : Int} (hs : DayInYears (s / 86400)) :
    ofTm (gmtime s) = .ok ⟨julianDay (unixEpoch.addDays (s / 86400))⟩ := by
  have hfour := fourDigits_addDays hs
  have hnum := julianDay_addDays (s / 86400)
  obtain ⟨hlow, hhigh⟩ := hs
  unfold ofTm gmtime
  dsimp only
  generalize unixEpoch.addDays (s / 86400) = d at *
  obtain ⟨hyear, hyear'⟩ := hfour
  have hmonth := d.one_le_month
  have hmonth' := d.month_le
  have hepoch : epoch ≤ d := by
    rw [epoch_le_iff, shiftedYear]
    omega
  rw [CInt.add_eq (by omega) (by omega), ok_bind, CInt.add_eq (by omega) (by omega), ok_bind,
    Int.sub_add_cancel, Int.sub_add_cancel]
  exact ofCivil_eq hepoch (inRange_of_julianDay hepoch (by omega))

/-- Both formats begin with the date. -/
theorem take_toFormattedString {t : Timestamp} (ht : t.InYears) (showMicroseconds : Bool) :
    (t.toFormattedString showMicroseconds).take 8 = dayText (t.secondsSinceEpoch / 86400) := by
  have hlength := dayText_fieldOf.length _ ht.day
  have htake : ∀ rest : List Char,
      (snprintf 32 (dayText (t.secondsSinceEpoch / 60 / 60 / 24) ++ rest)).take 8 =
        dayText (t.secondsSinceEpoch / 60 / 60 / 24) := by
    intro rest
    rw [snprintf, List.take_take]
    exact List.take_left' hlength
  rw [← ediv_day]
  cases showMicroseconds with
  | false =>
      rw [Timestamp.toFormattedString_false, tmText_gmtime, secondText, List.append_assoc,
        List.append_assoc]
      exact htake _
  | true =>
      rw [Timestamp.toFormattedString_true, tmText_gmtime, secondText, List.append_assoc,
        List.append_assoc, List.append_assoc, List.append_assoc]
      exact htake _

/-- **Times and dates agree.** In the years with four digits the date of the broken-down
time has the number of its day, counted from the epoch, and its `toIsoString` is, but for
the separators, what `toFormattedString` begins with. -/
theorem date_of_time (t : Timestamp) (ht : t.InYears) (showMicroseconds : Bool) :
    Lands (ofTm (gmtime t.secondsSinceEpoch)) fun x =>
      x.julianDayNumber = 2440588 + t.secondsSinceEpoch / 86400 ∧
        Lands x.toIsoString fun iso =>
          iso.filter (· ≠ '-') = (t.toFormattedString showMicroseconds).take 8 := by
  have hday : DayInYears (t.secondsSinceEpoch / 86400) := by
    rw [← ediv_day]
    exact ht.day
  have hnum := julianDay_addDays (t.secondsSinceEpoch / 86400)
  rw [ofTm_gmtime hday, take_toFormattedString ht]
  refine .ok ⟨hnum, ?_⟩
  have hyears : InYears ⟨julianDay (unixEpoch.addDays (t.secondsSinceEpoch / 86400))⟩ := by
    obtain ⟨hlow, hhigh⟩ := hday
    rw [hnum]
    exact ⟨by show 1721060 ≤ 2440588 + t.secondsSinceEpoch / 86400; omega,
      by show 2440588 + t.secondsSinceEpoch / 86400 < 5373485; omega⟩
  obtain ⟨d, hfour, hnum', htext⟩ := toIsoString_eq hyears
  obtain rfl : d = unixEpoch.addDays (t.secondsSinceEpoch / 86400) :=
    julianDay_numbering.strictMono.injective hnum'
  rw [htext]
  exact .ok (filter_civilText hfour)

/-- A second before the epoch. -/
theorem date_of_time_1969 :
    Lands (ofTm (gmtime (-1))) fun x => x.julianDayNumber = 2440587 ∧
      Lands x.toIsoString fun iso => iso.filter (· ≠ '-') =
        (Timestamp.toFormattedString ⟨-1000000, by decide⟩ true).take 8 := by
  have hdate := date_of_time ⟨-1000000, by decide⟩ (by decide) true
  have hseconds : Timestamp.secondsSinceEpoch ⟨-1000000, by decide⟩ = -1 := by decide
  rw [hseconds, show (2440588 : Int) + -1 / 86400 = 2440587 from by decide] at hdate
  exact hdate

end Date

end Muduo

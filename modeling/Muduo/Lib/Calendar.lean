import Mathlib

/-!
# The Gregorian calendar

Dates of the proleptic Gregorian calendar, with their order and the next day. The order
is lexicographic in year, month and day; the next day is the successor in it, and every
later date is reached by going from day to day (`SuccOrder`, `IsSuccArchimedean`).

A numbering of days is a function that grows by 1 from each day to the next. It tells
dates apart, keeps their order, and differences of numbers are days between them. The date
some days before or after another is found by going from day to day (`addDays`).
-/

namespace Muduo.Lib

def IsLeap (year : Int) : Prop := year % 4 = 0 ∧ (year % 100 ≠ 0 ∨ year % 400 = 0)

instance (year : Int) : Decidable (IsLeap year) := inferInstanceAs (Decidable (_ ∧ _))

def monthLength (year month : Int) : Int :=
  if month = 2 then if IsLeap year then 29 else 28
  else if month = 4 ∨ month = 6 ∨ month = 9 ∨ month = 11 then 30
  else 31

theorem monthLength_bounds (year month : Int) :
    28 ≤ monthLength year month ∧ monthLength year month ≤ 31 := by
  unfold monthLength
  split
  · split
    · omega
    · omega
  · split
    · omega
    · omega

@[ext]
structure CivilDate where
  year : Int
  month : Int
  day : Int
  one_le_month : 1 ≤ month
  month_le : month ≤ 12
  one_le_day : 1 ≤ day
  day_le : day ≤ monthLength year month
  deriving DecidableEq, Repr

namespace CivilDate

variable {d e : CivilDate}

/-- The first day of a month. -/
def first (year month : Int) (hlow : 1 ≤ month) (hhigh : month ≤ 12) : CivilDate where
  year := year
  month := month
  day := 1
  one_le_month := hlow
  month_le := hhigh
  one_le_day := le_rfl
  day_le := by
    have := (monthLength_bounds year month).1
    omega

/-- The next day. -/
def next (d : CivilDate) : CivilDate :=
  if h : d.day < monthLength d.year d.month then
    { d with day := d.day + 1, one_le_day := by have := d.one_le_day; omega, day_le := h }
  else if h' : d.month < 12 then
    first d.year (d.month + 1) (by have := d.one_le_month; omega) h'
  else first (d.year + 1) 1 le_rfl (by decide)

/-- The next day is in the same month, or the first of the next month, or the first of
the next year. -/
theorem next_cases (d : CivilDate) :
    (d.day < monthLength d.year d.month ∧
      d.next.year = d.year ∧ d.next.month = d.month ∧ d.next.day = d.day + 1) ∨
    (d.day = monthLength d.year d.month ∧ d.month < 12 ∧
      d.next.year = d.year ∧ d.next.month = d.month + 1 ∧ d.next.day = 1) ∨
    (d.day = monthLength d.year d.month ∧ d.month = 12 ∧
      d.next.year = d.year + 1 ∧ d.next.month = 1 ∧ d.next.day = 1) := by
  have hday := d.day_le
  have hmonth := d.month_le
  unfold next
  split
  · rename_i h
    exact .inl ⟨h, rfl, rfl, rfl⟩
  · split
    · rename_i h'
      exact .inr (.inl ⟨by omega, h', rfl, rfl, rfl⟩)
    · exact .inr (.inr ⟨by omega, by omega, rfl, rfl, rfl⟩)

/-! ## Order -/

/-- Year, month and day, to be compared in this order. -/
def key (d : CivilDate) : Int ×ₗ Int ×ₗ Int := toLex (d.year, toLex (d.month, d.day))

theorem key_injective : Function.Injective key := by
  intro d e h
  have h₁ := congrArg (fun k => (ofLex k).1) h
  have h₂ := congrArg (fun k => (ofLex (ofLex k).2).1) h
  have h₃ := congrArg (fun k => (ofLex (ofLex k).2).2) h
  exact CivilDate.ext h₁ h₂ h₃

instance : LinearOrder CivilDate := LinearOrder.lift' key key_injective

theorem lt_iff : d < e ↔
    d.year < e.year ∨ d.year = e.year ∧ (d.month < e.month ∨ d.month = e.month ∧ d.day < e.day) := by
  show key d < key e ↔ _
  simp [key, Prod.Lex.toLex_lt_toLex]

/-- The order in one number: no month has more than 31 days. -/
def rank (d : CivilDate) : Int := 372 * d.year + 31 * d.month + d.day

theorem lt_iff_rank : d < e ↔ d.rank < e.rank := by
  have hd := d.one_le_month
  have hd' := d.month_le
  have hd₁ := d.one_le_day
  have hd₂ := d.day_le.trans (monthLength_bounds _ _).2
  have he := e.one_le_month
  have he' := e.month_le
  have he₁ := e.one_le_day
  have he₂ := e.day_le.trans (monthLength_bounds _ _).2
  rw [lt_iff, rank, rank]
  omega

/-! ## The next day is the successor -/

theorem lt_next (d : CivilDate) : d < d.next := by
  rw [lt_iff]
  rcases d.next_cases with ⟨-, hy, hm, hd⟩ | ⟨-, -, hy, hm, hd⟩ | ⟨-, -, hy, hm, hd⟩
  · omega
  · omega
  · omega

/-- There is no date in between. -/
theorem next_le_of_lt (h : d < e) : d.next ≤ e := by
  have hmonth := e.one_le_month
  have hmonth' := e.month_le
  have hday := e.one_le_day
  have hsame : d.year = e.year → d.month = e.month → e.day ≤ monthLength d.year d.month := by
    intro hyear hmonth
    rw [hyear, hmonth]
    exact e.day_le
  rw [← not_lt, lt_iff]
  rw [lt_iff] at h
  rcases d.next_cases with ⟨-, hy, hm, hd⟩ | ⟨hlast, -, hy, hm, hd⟩ | ⟨hlast, hdec, hy, hm, hd⟩
  · omega
  · omega
  · omega

instance : SuccOrder CivilDate :=
  SuccOrder.ofSuccLeIff next fun {d _} =>
    ⟨fun h => (lt_next d).trans_le h, next_le_of_lt⟩

@[simp] theorem succ_eq_next (d : CivilDate) : Order.succ d = d.next := rfl

/-- Later dates are reached from day to day: the rank grows on the way. -/
theorem exists_iterate (n : Nat) : ∀ d e : CivilDate, d ≤ e → (e.rank - d.rank).toNat ≤ n →
    ∃ k, next^[k] d = e := by
  induction n with
  | zero =>
      intro d e hle hrank
      have hnot : ¬ d < e := by
        rw [lt_iff_rank]
        omega
      exact ⟨0, (hle.lt_or_eq.resolve_left hnot)⟩
  | succ n ih =>
      intro d e hle hrank
      rcases hle.lt_or_eq with hlt | rfl
      · have hgrow := lt_iff_rank.mp (lt_next d)
        have hlow := lt_iff_rank.mp hlt
        obtain ⟨k, hk⟩ := ih d.next e (next_le_of_lt hlt) (by omega)
        exact ⟨k + 1, hk⟩
      · exact ⟨0, rfl⟩

instance : IsSuccArchimedean CivilDate :=
  ⟨fun {d e} h => exists_iterate _ d e h le_rfl⟩

/-! ## Numbering the days -/

/-- A function that grows by 1 from each day to the next. -/
def Numbering (f : CivilDate → Int) : Prop := ∀ d : CivilDate, f d.next = f d + 1

section Numbering

variable {f : CivilDate → Int}

/-- After `n` days the number is `n` larger. -/
theorem Numbering.iterate (hf : Numbering f) (d : CivilDate) (n : Nat) :
    f (next^[n] d) = f d + n := by
  induction n with
  | zero => simp
  | succ n ih =>
      rw [Function.iterate_succ_apply', hf, ih]
      omega

/-- The difference of the numbers of two dates is the number of days between them. -/
theorem Numbering.exists_days (hf : Numbering f) (hle : d ≤ e) :
    ∃ n : Nat, next^[n] d = e ∧ f e - f d = n := by
  obtain ⟨n, hn⟩ := exists_succ_iterate_of_le hle
  refine ⟨n, hn, ?_⟩
  have hnum := hf.iterate d n
  rw [show next^[n] d = e from hn] at hnum
  omega

theorem Numbering.strictMono (hf : Numbering f) : StrictMono f := by
  intro d e hlt
  obtain ⟨n, -, hnum⟩ := hf.exists_days (next_le_of_lt hlt)
  have := hf d
  omega

end Numbering

/-! ## Days before and after -/

/-- The last day of a month. -/
def last (year month : Int) (hlow : 1 ≤ month) (hhigh : month ≤ 12) : CivilDate where
  year := year
  month := month
  day := monthLength year month
  one_le_month := hlow
  month_le := hhigh
  one_le_day := by
    have := (monthLength_bounds year month).1
    omega
  day_le := le_rfl

/-- The day before. -/
def prev (d : CivilDate) : CivilDate :=
  if h : 1 < d.day then
    { d with day := d.day - 1, one_le_day := by omega, day_le := by have := d.day_le; omega }
  else if h' : 1 < d.month then
    last d.year (d.month - 1) (by omega) (by have := d.month_le; omega)
  else last (d.year - 1) 12 (by decide) le_rfl

theorem next_prev (d : CivilDate) : d.prev.next = d := by
  have hmonth := d.one_le_month
  have hmonth' := d.month_le
  have hday := d.one_le_day
  have hday' := d.day_le
  unfold prev
  split
  · rename_i h
    rw [next, dif_pos (show d.day - 1 < monthLength d.year d.month by omega)]
    exact CivilDate.ext rfl rfl (by simp)
  · -- the day before is the last of its month
    split
    · rcases next_cases (last d.year (d.month - 1) _ _) with
        ⟨hlt, -⟩ | ⟨-, -, hyear, hmonth, hday⟩ | ⟨-, hdec, -⟩
      · exact absurd hlt (lt_irrefl _)
      · refine CivilDate.ext hyear (hmonth.trans ?_) (hday.trans ?_)
        · exact Int.sub_add_cancel d.month 1
        · omega
      · have hdec' : d.month - 1 = 12 := hdec
        omega
    · rcases next_cases (last (d.year - 1) 12 _ _) with
        ⟨hlt, -⟩ | ⟨-, hlt, -⟩ | ⟨-, -, hyear, hmonth, hday⟩
      · exact absurd hlt (lt_irrefl _)
      · exact absurd hlt (lt_irrefl _)
      · refine CivilDate.ext (hyear.trans ?_) (hmonth.trans ?_) (hday.trans ?_)
        · exact Int.sub_add_cancel d.year 1
        · omega
        · omega

/-- The date so many days later, or earlier. -/
def addDays (d : CivilDate) (n : Int) : CivilDate :=
  if 0 ≤ n then next^[n.toNat] d else prev^[(-n).toNat] d

section AddDays

variable {f : CivilDate → Int}

theorem Numbering.addDays (hf : Numbering f) (d : CivilDate) (n : Int) :
    f (d.addDays n) = f d + n := by
  have hback : ∀ k : Nat, f (prev^[k] d) = f d - k := by
    intro k
    induction k with
    | zero => simp
    | succ k ih =>
        have hprev := hf (prev (prev^[k] d))
        rw [next_prev, ih] at hprev
        rw [Function.iterate_succ_apply']
        omega
  unfold CivilDate.addDays
  split
  · rw [hf.iterate]
    omega
  · rw [hback]
    omega

theorem Numbering.addDays_lt_iff (hf : Numbering f) (d : CivilDate) (n m : Int) :
    d.addDays n < d.addDays m ↔ n < m := by
  rw [← hf.strictMono.lt_iff_lt, hf.addDays, hf.addDays]
  omega

end AddDays

end CivilDate

end Muduo.Lib

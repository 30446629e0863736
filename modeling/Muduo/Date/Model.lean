import Muduo.Lib.CInt

/-!
# Dates (`Date.h`, `Date.cpp`)

A `Date` is a Julian day number. `getJulianDayNumber` and `getYearMonthDay` convert
between it and year, month and day, in `int`: every operation stops where its result
would not fit.
-/

namespace Muduo

open Lib

structure Date where
  /-- `M_julianDayNumber`. -/
  julianDayNumber : Int
  deriving DecidableEq, Repr

namespace Date

structure YearMonthDay where
  year : Int
  month : Int
  day : Int
  deriving DecidableEq, Repr

/-- `detail::getJulianDayNumber`. -/
def getJulianDayNumber (year month day : Int) : Except IntFault Int := do
  let a ← CInt.div (← CInt.sub 14 month) 12
  let y ← CInt.sub (← CInt.add year 4800) a
  let m ← CInt.sub (← CInt.add month (← CInt.mul 12 a)) 3
  -- the sum is taken from the left
  let s ← CInt.add day (← CInt.div (← CInt.add (← CInt.mul 153 m) 2) 5)
  let s ← CInt.add s (← CInt.mul y 365)
  let s ← CInt.add s (← CInt.div y 4)
  let s ← CInt.sub s (← CInt.div y 100)
  let s ← CInt.add s (← CInt.div y 400)
  CInt.sub s 32045

/-- `detail::getYearMonthDay`. -/
def getYearMonthDay (julianDayNumber : Int) : Except IntFault YearMonthDay := do
  let a ← CInt.add julianDayNumber 32044
  let b ← CInt.div (← CInt.add (← CInt.mul 4 a) 3) 146097
  let c ← CInt.sub a (← CInt.div (← CInt.mul b 146097) 4)
  let d ← CInt.div (← CInt.add (← CInt.mul 4 c) 3) 1461
  let e ← CInt.sub c (← CInt.div (← CInt.mul 1461 d) 4)
  let m ← CInt.div (← CInt.add (← CInt.mul 5 e) 2) 153
  let day ← CInt.add (← CInt.sub e (← CInt.div (← CInt.add (← CInt.mul 153 m) 2) 5)) 1
  let month ← CInt.sub (← CInt.add m 3) (← CInt.mul 12 (← CInt.div m 10))
  let year ← CInt.add (← CInt.sub (← CInt.add (← CInt.mul b 100) d) 4800) (← CInt.div m 10)
  return ⟨year, month, day⟩

def kDaysPerWeek : Int := 7

/-- `Date()`, an invalid date. -/
def invalid : Date := ⟨0⟩

/-- `Date(year, month, day)`. -/
def ofYearMonthDay (year month day : Int) : Except IntFault Date := do
  let julianDayNumber ← getJulianDayNumber year month day
  return ⟨julianDayNumber⟩

def valid (x : Date) : Bool := x.julianDayNumber > 0

def yearMonthDay (x : Date) : Except IntFault YearMonthDay := getYearMonthDay x.julianDayNumber

/-- From 0, Sunday, to 6. -/
def weekDay (x : Date) : Except IntFault Int := do
  CInt.mod (← CInt.add x.julianDayNumber 1) kDaysPerWeek

/-- `operator<`. -/
def lt (x y : Date) : Bool := x.julianDayNumber < y.julianDayNumber

/-- `operator==`. -/
def eq (x y : Date) : Bool := x.julianDayNumber = y.julianDayNumber

/-- `Date::kJulianDayof1970_01_01`. -/
example : getJulianDayNumber 1970 1 1 = .ok 2440588 := by decide

end Date

end Muduo

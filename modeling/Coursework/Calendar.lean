import Coursework.Listing
/-!
The proleptic Gregorian calendar: dates and the number of days since 1970-01-01. Years are
counted as in ISO 8601, so the year before 1 is 0.
-/
namespace Coursework

structure Date where
  year : Int
  month : Nat
  day : Nat
  deriving DecidableEq, Repr

namespace Date

def isLeapYear (year : Int) : Bool :=
  year % 4 == 0 && (year % 100 != 0 || year % 400 == 0)

def monthLengths (leap : Bool) : List Nat :=
  [31,if leap then 29 else 28,31,30,31,30,31,31,30,31,30,31]

def daysInMonth (year : Int) (month : Nat) : Nat :=
  (monthLengths (isLeapYear year))[month - 1]?.getD 0

def isValid (d : Date) : Bool :=
  1 ≤ d.month && d.month ≤ 12 && 1 ≤ d.day && d.day ≤ daysInMonth d.year d.month

def daysBeforeYear (year : Int) : Int :=
  365 * (year - 1) + (year - 1) / 4 - (year - 1) / 100 + (year - 1) / 400

def daysBeforeMonth (year : Int) (month : Nat) : Nat :=
  total ((monthLengths (isLeapYear year)).take (month - 1))

def epochDays : Int := 719162

def dayNumber (d : Date) : Int :=
  daysBeforeYear d.year + daysBeforeMonth d.year d.month + (d.day - 1) - epochDays

def yearOfDay (day : Int) : Int :=
  let estimate := day * 400 / 146097 + 1
  if day < daysBeforeYear estimate then estimate - 1
  else if daysBeforeYear (estimate + 1) ≤ day then estimate + 1
  else estimate

def monthOfDay : (lengths : List Nat) → (month day : Nat) → Nat × Nat
  | [], month, day => (month,day + 1)
  | length :: lengths, month, day =>
    if day < length then (month,day + 1) else monthOfDay lengths (month + 1) (day - length)

def ofDayNumber (n : Int) : Date :=
  let day := n + epochDays
  let year := yearOfDay day
  let (month,dayOfMonth) :=
    monthOfDay (monthLengths (isLeapYear year)) 1 (day - daysBeforeYear year).toNat
  ⟨year,month,dayOfMonth⟩

theorem yearOfDaySpec (day : Int) :
    daysBeforeYear (yearOfDay day) ≤ day ∧ day < daysBeforeYear (yearOfDay day + 1) := by
  unfold yearOfDay
  simp only
  split
  · next early => simp only [daysBeforeYear] at early ⊢; omega
  · next notEarly =>
    split
    · next late => simp only [daysBeforeYear] at notEarly late ⊢; omega
    · next notLate => simp only [daysBeforeYear] at notEarly notLate ⊢; omega

end Date

end Coursework

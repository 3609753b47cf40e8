import Isam.Error
namespace Isam

/-- A day of the proleptic Gregorian calendar. Day 1 is 0001-01-01. -/
structure Date where
  days : Int32
  deriving DecidableEq, Repr

structure Civil where
  year : Int
  month : Nat
  day : Nat
  deriving DecidableEq, Repr

def isLeapYear (year : Int) : Bool := (year % 4 == 0 && year % 100 != 0) || year % 400 == 0

def daysInMonth (year : Int) (month : Nat) : Nat :=
  match month with
  | 1 | 3 | 5 | 7 | 8 | 10 | 12 => 31
  | 4 | 6 | 9 | 11 => 30
  | 2 => if isLeapYear year then 29 else 28
  | _ => 0

namespace Civil

def IsValid (c : Civil) : Prop := 1 ≤ c.day ∧ c.day ≤ daysInMonth c.year c.month

instance (c : Civil) : Decidable c.IsValid := inferInstanceAs (Decidable (_ ∧ _))

def dayNumber (c : Civil) : Int :=
  -- years begin with March, and eras are 400 of them
  let y := if c.month ≤ 2 then c.year - 1 else c.year
  let era := y / 400
  let yearOfEra := y - era * 400
  let monthFromMarch := ((c.month : Int) + 9) % 12
  let dayOfYear := (153 * monthFromMarch + 2) / 5 + c.day - 1
  era * 146097 + (yearOfEra * 365 + yearOfEra / 4 - yearOfEra / 100 + dayOfYear) - 305

def ofDayNumber (n : Int) : Civil :=
  let z := n + 305
  let era := z / 146097
  let dayOfEra := z - era * 146097
  let yearOfEra := (dayOfEra - dayOfEra / 1460 + dayOfEra / 36524 - dayOfEra / 146096) / 365
  let dayOfYear := dayOfEra - (365 * yearOfEra + yearOfEra / 4 - yearOfEra / 100)
  let monthFromMarch := (5 * dayOfYear + 2) / 153
  let day := dayOfYear - (153 * monthFromMarch + 2) / 5 + 1
  let month := if monthFromMarch < 10 then monthFromMarch + 3 else monthFromMarch - 9
  let year := yearOfEra + era * 400
  ⟨if month ≤ 2 then year + 1 else year, month.toNat, day.toNat⟩

end Civil

namespace Date

def first : Date := ⟨1⟩

def epochDay : Int := 719163

def civil (d : Date) : Civil := Civil.ofDayNumber d.days.toInt

def ofCivil (year : Int) (month day : Nat) : Except Error Date :=
  if 1 ≤ year ∧ year ≤ 9999 ∧ 1 ≤ day ∧ day ≤ daysInMonth year month then
    .ok ⟨Int32.ofInt (Civil.dayNumber ⟨year, month, day⟩)⟩
  else .error (.invalidDate year month day)

def dayOfWeek (d : Date) : Nat := (d.days.toInt % 7).toNat

def isLeapYear (d : Date) : Bool := Isam.isLeapYear d.civil.year

def compare (a b : Date) : Ordering := Ord.compare a.days.toInt b.days.toInt

end Date
end Isam

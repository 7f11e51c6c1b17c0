import Parlance.Number.Integer

/-! The Gregorian calendar, continued into the past, and times of day. Days are counted from
the first of January 1970. Years are grouped in eras of four hundred, and for counting a year
begins in March, so that a leap day is its last. -/

namespace Parlance

structure Date where
  year : Int
  month : Nat
  day : Nat
  deriving DecidableEq, Repr

/-- A time with a fraction; within the last second of a minute the fraction may reach into
a leap second. -/
structure TimeOfDay where
  hour : Nat
  minute : Nat
  second : Nat
  micros : Nat
  deriving DecidableEq, Repr

namespace Calendar

def isLeap (year : Int) : Bool := year % 4 = 0 && (year % 100 ≠ 0 || year % 400 = 0)

def daysInMonth (year : Int) (month : Nat) : Nat :=
  if month = 2 then (if isLeap year then 29 else 28)
  else if month = 4 || month = 6 || month = 9 || month = 11 then 30
  else 31

def daysInEra : Nat := 146097

/-- Days of an era before the day that begins its `n`th year. -/
def daysBeforeYear (n : Nat) : Nat := 365 * n + n / 4 - n / 100

/-- Days of a year before its `m`th month, March being the first. -/
def daysBeforeMonth (m : Nat) : Nat := (153 * m + 2) / 5

def yearOfDay (day : Nat) : Nat := (day - day / 1460 + day / 36524 - day / 146096) / 365

/-- From the first day of the era of the year 0 to the first of January 1970. -/
def epochOffset : Int := 719468

end Calendar

open Calendar

namespace Date

def isValid (d : Date) : Bool :=
  1 ≤ d.month && d.month ≤ 12 && 1 ≤ d.day && d.day ≤ daysInMonth d.year d.month

def ofDays (n : Int) : Date :=
  let shifted := n + epochOffset
  let era := shifted / daysInEra
  let day := (shifted % daysInEra).toNat
  let year := yearOfDay day
  let rest := day - daysBeforeYear year
  let march := (5 * rest + 2) / 153
  let month := if march < 10 then march + 3 else march - 9
  { year := era * 400 + year + (if month ≤ 2 then 1 else 0)
    month := month
    day := rest - daysBeforeMonth march + 1 }

def toDays (d : Date) : Int :=
  let year := if d.month ≤ 2 then d.year - 1 else d.year
  let march := if d.month ≤ 2 then d.month + 9 else d.month - 3
  year / 400 * daysInEra + daysBeforeYear (year % 400).toNat + daysBeforeMonth march + d.day - 1
    - epochOffset

end Date

def padded (width n : Nat) : String :=
  let ds := Nat.toDigits 10 n
  String.ofList (List.replicate (width - ds.length) '0' ++ ds)

namespace Date

/-- Years from 0 to 9999 have four digits and all others a sign. -/
def yearText (year : Int) : String :=
  if 0 ≤ year && year ≤ 9999 then padded 4 year.natAbs
  else (if year < 0 then "-" else "+") ++ padded 4 year.natAbs

def text (d : Date) : String := yearText d.year ++ "-" ++ padded 2 d.month ++ "-" ++ padded 2 d.day

end Date

namespace TimeOfDay

def midnight : TimeOfDay := ⟨0, 0, 0, 0⟩

def isValid (t : TimeOfDay) : Bool :=
  t.hour < 24 && t.minute < 60 && t.second < 60 &&
    (t.micros < 1000000 || (t.second = 59 && t.micros < 2000000))

def microsPerDay : Nat := 86400000000

def ofMicros (n : Nat) : TimeOfDay :=
  let seconds := n / 1000000
  ⟨seconds / 3600, seconds / 60 % 60, seconds % 60, n % 1000000⟩

def toMicros (t : TimeOfDay) : Nat :=
  ((60 * t.hour + t.minute) * 60 + t.second) * 1000000 + t.micros

/-- No fraction, milliseconds or microseconds, whichever is enough. -/
def fractionText (micros : Nat) : String :=
  if micros = 0 then ""
  else if micros % 1000 = 0 then "." ++ padded 3 (micros / 1000)
  else "." ++ padded 6 micros

def text (t : TimeOfDay) : String :=
  let leap := t.micros / 1000000
  padded 2 t.hour ++ ":" ++ padded 2 t.minute ++ ":" ++ padded 2 (t.second + leap) ++
    fractionText (t.micros % 1000000)

end TimeOfDay

structure Moment where
  date : Date
  time : TimeOfDay
  deriving DecidableEq, Repr

namespace Moment

/-- So many microseconds after the day with number `origin` began. -/
def ofMicros (origin : Int) (n : Int) : Moment :=
  ⟨.ofDays (origin + n / TimeOfDay.microsPerDay), .ofMicros (n % TimeOfDay.microsPerDay).toNat⟩

def text (m : Moment) : String := m.date.text ++ " " ++ m.time.text

def offsetText (m : Moment) : String := m.date.text ++ "T" ++ m.time.text ++ "+00:00"

end Moment

example : Date.ofDays 0 = ⟨1970, 1, 1⟩ ∧ Date.ofDays 10957 = ⟨2000, 1, 1⟩ := by decide
example : Date.ofDays (-719528) = ⟨0, 1, 1⟩ ∧ Date.toDays ⟨2024, 2, 29⟩ = 19782 := by decide

end Parlance

import PortableSql.Text.Digits

/-!
# Dates and times

The proleptic Gregorian calendar with years of any sign, and times of day that may be a leap
second. A date is written with at least four digits of year, and with a sign when the year is
negative or above 9999; a fraction of a second takes the fewest groups of three digits.
-/

namespace PortableSql

def isLeapYear (year : Int) : Bool := year % 4 == 0 && (year % 100 != 0 || year % 400 == 0)

def daysInMonth (year : Int) (month : Nat) : Nat :=
  if month = 2 then if isLeapYear year then 29 else 28
  else if month ∈ [4, 6, 9, 11] then 30
  else 31

structure Date where
  year : Int
  month : Nat
  day : Nat
  month_mem : 1 ≤ month ∧ month ≤ 12
  day_mem : 1 ≤ day ∧ day ≤ daysInMonth year month
  deriving DecidableEq, Repr

/-- A time of day. Second 60 is a leap second: the nanoseconds that a clock counts past the end of
second 59. Nanoseconds past the end of any other second are left out. -/
structure Time where
  hour : Nat
  minute : Nat
  second : Nat
  nanosecond : Nat
  hour_lt : hour < 24
  minute_lt : minute < 60
  second_le : second ≤ 60
  nanosecond_lt : nanosecond < 1000000000
  deriving DecidableEq, Repr

structure Timestamp where
  date : Date
  time : Time
  deriving DecidableEq, Repr

namespace Date

def of? (year : Int) (month day : Nat) : Option Date :=
  if h : (1 ≤ month ∧ month ≤ 12) ∧ 1 ≤ day ∧ day ≤ daysInMonth year month then
    some ⟨year, month, day, h.1, h.2⟩
  else none

def yearText (year : Int) : List Char :=
  if year < 0 then '-' :: Text.padded 4 year.natAbs
  else if 9999 < year then '+' :: Text.padded 4 year.natAbs
  else Text.padded 4 year.natAbs

def text (d : Date) : List Char :=
  yearText d.year ++ '-' :: Text.padded 2 d.month ++ '-' :: Text.padded 2 d.day

end Date

namespace Time

def of? (hour minute second nanosecond : Nat) : Option Time :=
  if h : (hour < 24 ∧ minute < 60) ∧ second ≤ 60 ∧ nanosecond < 1000000000 then
    some ⟨hour, minute, second, nanosecond, h.1.1, h.1.2, h.2.1, h.2.2⟩
  else none

/-- The point and three, six or nine digits; nothing for a whole second. -/
def fractionText (nanosecond : Nat) : List Char :=
  if nanosecond = 0 then []
  else if nanosecond % 1000000 = 0 then '.' :: Text.padded 3 (nanosecond / 1000000)
  else if nanosecond % 1000 = 0 then '.' :: Text.padded 6 (nanosecond / 1000)
  else '.' :: Text.padded 9 nanosecond

def text (t : Time) : List Char :=
  Text.padded 2 t.hour ++ ':' :: Text.padded 2 t.minute ++ ':' :: Text.padded 2 t.second ++
    fractionText t.nanosecond

end Time

/-- Date and time with `sep` between them. -/
def Timestamp.text (sep : Char) (t : Timestamp) : List Char := t.date.text ++ sep :: t.time.text

end PortableSql

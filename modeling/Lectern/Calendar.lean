import Lectern.Text.Blank

/-!
# Dates and times

A moment is a date of the Gregorian calendar, extended in both directions, with a time of day. It
has three written forms: the one of a header line (`15:04 2 Jan 2006`, or the date alone), the one
that a page shows (`2 January 2006`), and the one that is stored (`2006-01-02T15:04:00`).
-/

namespace Lectern

open Text

/-! ## Moments -/

/-- The Gregorian leap years. -/
def isLeapYear (year : Int) : Bool :=
  year % 4 = 0 && (year % 100 ≠ 0 || year % 400 = 0)

/-- The number of days of a month, counted from 1. -/
def daysInMonth (year : Int) (month : Nat) : Nat :=
  if month = 2 then if isLeapYear year then 29 else 28
  else if month = 4 || month = 6 || month = 9 || month = 11 then 30
  else 31

/-- Is there such a day, in a year that can be handled? -/
def isDate (year : Int) (month day : Nat) : Bool :=
  -262143 ≤ year && year ≤ 262142 && 1 ≤ month && month ≤ 12 &&
  1 ≤ day && day ≤ daysInMonth year month

/-- Is there such a time of day? A leap second is written as nanoseconds beyond second 59. -/
def isTimeOfDay (hour minute second nano : Nat) : Bool :=
  hour ≤ 23 && minute ≤ 59 && second ≤ 59 &&
  (nano < 1000000000 || second = 59 && nano < 2000000000)

/-- A day and a time of that day. -/
structure Moment where
  year : Int
  month : Nat
  day : Nat
  hour : Nat := 0
  minute : Nat := 0
  second : Nat := 0
  nano : Nat := 0
  date_ok : isDate year month day = true
  time_ok : isTimeOfDay hour minute second nano = true
deriving DecidableEq, Repr

/-- The moment with the given date and time, if both exist. -/
def Moment.of? (year : Int) (month day hour minute second nano : Nat) : Option Moment :=
  if h : isDate year month day = true then
    if h' : isTimeOfDay hour minute second nano = true then
      some ⟨year, month, day, hour, minute, second, nano, h, h'⟩
    else none
  else none

theorem Moment.of?_self (m : Moment) :
    of? m.year m.month m.day m.hour m.minute m.second m.nano = some m := by
  simp [of?, m.date_ok, m.time_ok]

/-! ## Numbers -/

/-- The decimal digits of a number, with zeros in front up to a width. -/
def padded (width n : Nat) : List Char :=
  let digits := Nat.toDigits 10 n
  List.replicate (width - digits.length) '0' ++ digits

/-- The number that decimal digits stand for. -/
def ofDigits (digits : List Char) : Nat :=
  digits.foldl (fun n c => 10 * n + (c.toNat - 48)) 0

/-- Reads up to `most` decimal digits, but at least one. -/
def readDigits (most : Nat) (s : List Char) : Option (Nat × List Char) :=
  let digits := (s.take most).takeWhile Char.isDigit
  if digits.isEmpty then none else some (ofDigits digits, s.drop digits.length)

/-- Reads a number of one or two digits behind blanks. -/
def readField (s : List Char) : Option (Nat × List Char) := readDigits 2 (trimStart s)

/-- Reads a year behind blanks: four digits at most, or a sign and any number of them. -/
def readYear (s : List Char) : Option (Int × List Char) :=
  match trimStart s with
  | '-' :: r => (readDigits r.length r).map fun (n, r) => (-(n : Int), r)
  | '+' :: r => (readDigits r.length r).map fun (n, r) => ((n : Int), r)
  | r => (readDigits 4 r).map fun (n, r) => ((n : Int), r)

/-- Reads a given character. -/
def readChar (c : Char) : List Char → Option (List Char)
  | d :: r => if d = c then some r else none
  | [] => none

/-- A year in at least four digits; years outside of 0 to 9999 have a sign. -/
def yearText (year : Int) : List Char :=
  if year < 0 then '-' :: padded 4 year.natAbs
  else if 9999 < year then '+' :: padded 4 year.natAbs
  else padded 4 year.natAbs

/-! ## The form of a header line -/

/-- The names of the months. -/
def monthNames : List (List Char) :=
  ["January", "February", "March", "April", "May", "June", "July", "August", "September",
    "October", "November", "December"].map String.toList

/-- Reads the first three letters of a month's name, in either case: the month, counted from 1. -/
def readMonthName (s : List Char) : Option (Nat × List Char) :=
  let short (name : List Char) := (name.take 3).map Char.toLower
  match monthNames.findIdx? fun name => short name = short s with
  | some i => some (i + 1, s.drop 3)
  | none => none

/-- Reads a date such as `2 Jan 2006` up to the end of the text. -/
def readHeaderDate (hour minute : Nat) (s : List Char) : Option Moment := do
  let (day, s) ← readField s
  let (month, s) ← readMonthName (trimStart s)
  let (year, s) ← readYear s
  if s.isEmpty then Moment.of? year month day hour minute 0 0 else none

/-- Reads a moment such as `15:04 2 Jan 2006`. -/
def readHeaderTime (s : List Char) : Option Moment := do
  let (hour, s) ← readField s
  let s ← readChar ':' s
  let (minute, s) ← readField s
  readHeaderDate hour minute s

/-- The moment of a header line: a time and a date, or a date alone. -/
def Moment.ofHeader? (s : List Char) : Option Moment :=
  readHeaderTime s <|> readHeaderDate 0 0 s

/-! ## The form that a page shows -/

/-- The date in words, such as `2 January 2006`. -/
def Moment.display (m : Moment) : List Char :=
  Nat.toDigits 10 m.day ++ ' ' :: monthNames.getD (m.month - 1) [] ++ ' ' :: yearText m.year

/-! ## The stored form -/

/-- A fraction of a second in thousandths, millionths or billionths, whichever is enough. -/
def fractionText (nano : Nat) : List Char :=
  if nano = 0 then []
  else if nano % 1000000 = 0 then '.' :: padded 3 (nano / 1000000)
  else if nano % 1000 = 0 then '.' :: padded 6 (nano / 1000)
  else '.' :: padded 9 nano

/-- The stored form of a moment; the seconds of a leap second are written as 60. -/
def Moment.stored (m : Moment) : List Char :=
  let leap := 1000000000 ≤ m.nano
  yearText m.year ++ '-' :: padded 2 m.month ++ '-' :: padded 2 m.day ++
    'T' :: padded 2 m.hour ++ ':' :: padded 2 m.minute ++
    ':' :: padded 2 (if leap then m.second + 1 else m.second) ++
    fractionText (if leap then m.nano - 1000000000 else m.nano)

/-- Reads a fraction of a second in nanoseconds; digits beyond the ninth are dropped. -/
def readFraction : List Char → Option (Nat × List Char)
  | '.' :: r => do
      let digits := (r.take 9).takeWhile Char.isDigit
      let (n, r) ← readDigits 9 r
      pure (n * Nat.pow 10 (9 - digits.length), r.dropWhile Char.isDigit)
  | r => some (0, r)

/-- The moment with a stored form; blanks may stand in front of its numbers and marks. -/
def Moment.ofStored? (s : List Char) : Option Moment := do
  let (year, s) ← readYear s
  let s ← readChar '-' (trimStart s)
  let (month, s) ← readField s
  let s ← readChar '-' (trimStart s)
  let (day, s) ← readField s
  let s ← readChar 'T' (trimStart s)
  let (hour, s) ← readField s
  let s ← readChar ':' (trimStart s)
  let (minute, s) ← readField s
  let s ← readChar ':' (trimStart s)
  let (second, s) ← readField s
  let (nano, s) ← readFraction s
  if !(trimStart s).isEmpty then none
  else if second = 60 then of? year month day hour minute 59 (nano + 1000000000)
  else of? year month day hour minute second nano

end Lectern

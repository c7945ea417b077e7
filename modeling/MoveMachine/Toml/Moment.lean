import MoveMachine.Decimal.Reading

/-!
# Dates and times

A moment is a day, a time of day, or both together, and then it may also say how
far its clock is ahead of universal time. `readMoment` reads one at the front of
a text, and `Moment.text` writes it.

The same moment can be read from several texts: small letters may stand for `T`
and `Z`, a blank for `T`, and zeros may end the fraction of a second. It is
written in one way only.
-/

set_option autoImplicit false

namespace MoveMachine.Toml

/-- A day of the calendar. -/
structure Date where
  year : Nat
  month : Nat
  day : Nat
deriving DecidableEq

/-- A time of day. -/
structure TimeOfDay where
  hour : Nat
  minute : Nat
  second : Nat
  nanosecond : Nat
deriving DecidableEq

/-- How far a clock is ahead of universal time. -/
inductive ClockOffset where
  /-- The clock shows universal time. -/
  | universal
  /-- The clock is ahead by a number of minutes, or behind if the number is negative. -/
  | ahead (minutes : Int)
deriving DecidableEq

/-- A day, a time of day, or both. -/
inductive Moment where
  | date (date : Date)
  | time (time : TimeOfDay)
  | dateTime (date : Date) (time : TimeOfDay) (offset : Option ClockOffset)
deriving DecidableEq

/-! ## Reading -/

/-- The number in the given count of digits at the front of a text. -/
def readDigits (count : Nat) (text : List Char) : Option (Nat × List Char) :=
  let digits := text.take count
  if digits.length = count ∧ digits.all Char.isDigit then
    some (Decimal.continueDigits 0 digits, text.drop count)
  else none

/-- A number of two digits at the front of a text that is not above a limit. -/
def readTwoDigits (limit : Nat) (text : List Char) : Option (Nat × List Char) := do
  let (number, rest) ← readDigits 2 text
  if number ≤ limit then return (number, rest) else none

/-- What follows a character at the front of a text. -/
def after? (mark : Char) : List Char → Option (List Char)
  | first :: rest => if first = mark then some rest else none
  | [] => none

/-- The last day of a month. -/
def lastDay (year month : Nat) : Nat :=
  if month = 2 then
    if year % 4 = 0 ∧ (year % 100 ≠ 0 ∨ year % 400 = 0) then 29 else 28
  else if month ∈ [4, 6, 9, 11] then 30
  else 31

/-- A day of the calendar, with a year of four digits. -/
def readDate (text : List Char) : Option (Date × List Char) := do
  let (year, rest) ← readDigits 4 text
  let (month, rest) ← readTwoDigits 12 (← after? '-' rest)
  let (day, rest) ← readTwoDigits (lastDay year month) (← after? '-' rest)
  if 0 < month ∧ 0 < day then return (⟨year, month, day⟩, rest) else none

/-- An hour and a minute. -/
def readHourAndMinute (text : List Char) : Option ((Nat × Nat) × List Char) := do
  let (hour, rest) ← readTwoDigits 23 text
  let (minute, rest) ← readTwoDigits 59 (← after? ':' rest)
  return ((hour, minute), rest)

/-- The nanoseconds in a fraction of a second, which may be missing. Places after the ninth are cut
off. -/
def readFraction (text : List Char) : Nat × List Char :=
  match text with
  | '.' :: rest =>
    let places := rest.takeWhile Char.isDigit
    if places.isEmpty then (0, text)
    else (Decimal.continueDigits 0 ((places ++ List.replicate 9 '0').take 9),
      rest.dropWhile Char.isDigit)
  | _ => (0, text)

/-- A time of day. Its second may be the sixtieth, for those days that have one second more. -/
def readTimeOfDay (text : List Char) : Option (TimeOfDay × List Char) := do
  let ((hour, minute), rest) ← readHourAndMinute text
  let (second, rest) ← readTwoDigits 60 (← after? ':' rest)
  let (nanosecond, rest) := readFraction rest
  return (⟨hour, minute, second, nanosecond⟩, rest)

/-- How far a clock is ahead of universal time. -/
def readClockOffset : List Char → Option (ClockOffset × List Char)
  | 'Z' :: rest => some (.universal, rest)
  | 'z' :: rest => some (.universal, rest)
  | '+' :: rest => (readHourAndMinute rest).map fun ((hours, minutes), rest) =>
      (.ahead (60 * hours + minutes), rest)
  | '-' :: rest => (readHourAndMinute rest).map fun ((hours, minutes), rest) =>
      (.ahead (-(60 * hours + minutes)), rest)
  | _ => none

/-- The time of day that follows a day, after a letter or a blank. -/
def readTimeAfterDate (text : List Char) : Option (TimeOfDay × List Char) :=
  match text with
  | separator :: rest => if separator ∈ ['T', 't', ' '] then readTimeOfDay rest else none
  | [] => none

/-- The moment at the front of a text. -/
def readMoment (text : List Char) : Option (Moment × List Char) :=
  match readDate text with
  | none => (readTimeOfDay text).map fun (time, rest) => (.time time, rest)
  | some (date, afterDate) =>
    match readTimeAfterDate afterDate with
    | none => some (.date date, afterDate)
    | some (time, afterTime) =>
      match readClockOffset afterTime with
      | none => some (.dateTime date time none, afterTime)
      | some (offset, rest) => some (.dateTime date time (some offset), rest)

/-! ## Writing -/

/-- A number in at least the given count of digits, with zeros in front. -/
def paddedDigits (count number : Nat) : List Char :=
  let digits := (toString number).toList
  List.replicate (count - digits.length) '0' ++ digits

/-- The text of a day. -/
def Date.text (date : Date) : List Char :=
  paddedDigits 4 date.year ++ '-' :: paddedDigits 2 date.month ++ '-' :: paddedDigits 2 date.day

/-- The text of a fraction of a second, without zeros at its end. -/
def fractionText (nanosecond : Nat) : List Char :=
  if nanosecond = 0 then []
  else '.' :: ((paddedDigits 9 nanosecond).reverse.dropWhile (· == '0')).reverse

/-- The text of a time of day. -/
def TimeOfDay.text (time : TimeOfDay) : List Char :=
  paddedDigits 2 time.hour ++ ':' :: paddedDigits 2 time.minute ++ ':' ::
    paddedDigits 2 time.second ++ fractionText time.nanosecond

/-- The text of a clock's distance from universal time. -/
def ClockOffset.text : ClockOffset → List Char
  | .universal => ['Z']
  | .ahead minutes =>
    (if minutes < 0 then '-' else '+') :: paddedDigits 2 (minutes.natAbs / 60) ++
      ':' :: paddedDigits 2 (minutes.natAbs % 60)

/-- The text of a moment. -/
def Moment.text (moment : Moment) : String :=
  String.ofList <| match moment with
    | .date day => day.text
    | .time clock => clock.text
    | .dateTime day clock offset =>
      day.text ++ 'T' :: clock.text ++ (offset.map ClockOffset.text).getD []

end MoveMachine.Toml

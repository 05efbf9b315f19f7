namespace LayeredConfig

/-- A day of the calendar. -/
structure Date where
  year : Nat
  month : Nat
  day : Nat
  deriving DecidableEq, Repr

/-- A time of a day, with its distance from universal time in seconds if that is known. -/
structure Moment where
  date : Date
  hour : Nat
  minute : Nat
  second : Nat
  microsecond : Nat
  offset : Option Int
  deriving DecidableEq, Repr

/-- A number in decimal, filled with zeros on the left. -/
def padded (width number : Nat) : List Char :=
  let figures := (toString number).toList
  List.replicate (width - figures.length) '0' ++ figures

namespace Date

def isLeap (year : Nat) : Bool :=
  year % 4 == 0 && (year % 100 != 0 || year % 400 == 0)

def daysInMonth (year month : Nat) : Nat :=
  if month == 2 then (if isLeap year then 29 else 28)
  else if month == 4 || month == 6 || month == 9 || month == 11 then 30
  else 31

/-- The date, if the calendar has it. -/
def of? (year month day : Nat) : Option Date :=
  if 1 ≤ year && year ≤ 9999 && 1 ≤ month && month ≤ 12 && 1 ≤ day && day ≤ daysInMonth year month
  then some ⟨year, month, day⟩
  else none

/-- The number of days since the eve of the year 1. -/
def ordinal (date : Date) : Nat :=
  let years := date.year - 1
  let months := (List.range (date.month - 1)).map (fun month => daysInMonth date.year (month + 1))
  365 * years + years / 4 - years / 100 + years / 400 + months.foldr (· + ·) 0 + date.day

/-- The date in the order year, month, day. -/
def iso (date : Date) : List Char :=
  padded 4 date.year ++ '-' :: (padded 2 date.month ++ '-' :: padded 2 date.day)

end Date

namespace Moment

/-- The moment, if its parts are in range; the distance from universal time is under a day. -/
def of? (date : Date) (hour minute second microsecond : Nat) (offset : Option Int) :
    Option Moment :=
  if hour < 24 && minute < 60 && second < 60 && microsecond < 1000000 &&
      offset.all (fun distance => distance.natAbs < 86400)
  then some ⟨date, hour, minute, second, microsecond, offset⟩
  else none

/-- Microseconds of the calendar, in universal time if the distance is known. -/
def instant (moment : Moment) : Int :=
  let seconds : Int :=
    moment.date.ordinal * 86400 + moment.hour * 3600 + moment.minute * 60 + moment.second
  (seconds - moment.offset.getD 0) * 1000000 + moment.microsecond

/-- A distance such as `+02:00`; seconds appear only when there are some. -/
def offsetText (distance : Int) : List Char :=
  let size := distance.natAbs
  let seconds := if size % 60 == 0 then [] else ':' :: padded 2 (size % 60)
  (if distance < 0 then '-' else '+') ::
    (padded 2 (size / 3600) ++ ':' :: (padded 2 (size / 60 % 60) ++ seconds))

/-- Date and time with a separator between them; microseconds appear only when there are some. -/
def iso (separator : Char) (moment : Moment) : List Char :=
  let fraction := if moment.microsecond == 0 then [] else '.' :: padded 6 moment.microsecond
  moment.date.iso ++ separator :: (padded 2 moment.hour ++ ':' :: (padded 2 moment.minute ++
    ':' :: (padded 2 moment.second ++ fraction ++ (moment.offset.map offsetText).getD [])))

end Moment

end LayeredConfig

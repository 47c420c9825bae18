namespace Etymology

def isLeapYear (year : Nat) : Bool :=
  year % 4 == 0 && (year % 100 != 0 || year % 400 == 0)

def monthLength (year month : Nat) : Nat :=
  if month == 2 then if isLeapYear year then 29 else 28
  else if [4, 6, 9, 11].contains month then 30 else 31

/-- A day of the Gregorian calendar. -/
structure Date where
  year : Nat
  month : Nat
  day : Nat
  inRange : (1 ≤ year ∧ year ≤ 9999) ∧ (1 ≤ month ∧ month ≤ 12) ∧ 1 ≤ day ∧ day ≤ monthLength year month
deriving DecidableEq

/-- How many minutes a clock is ahead of universal time: less than a day. -/
structure Offset where
  minutes : Int
  inRange : -1440 < minutes ∧ minutes < 1440
deriving DecidableEq

/-- A time of a day, by a clock of which the offset may be known. -/
structure Moment where
  date : Date
  hour : Fin 24
  minute : Fin 60
  second : Fin 60
  microsecond : Fin 1000000
  offset : Option Offset := none
deriving DecidableEq

/-- A number with zeros before it, so that it has at least so many digits. -/
def padded (width n : Nat) : String :=
  let digits := toString n
  String.ofList (List.replicate (width - digits.length) '0') ++ digits

namespace Date

def text (d : Date) : String :=
  padded 4 d.year ++ "-" ++ padded 2 d.month ++ "-" ++ padded 2 d.day

def fields (d : Date) : List Nat :=
  [d.year, d.month, d.day]

def quoted (d : Date) : String :=
  "datetime.date(" ++ ", ".intercalate (d.fields.map toString) ++ ")"

/-- How many days of the calendar lie before a day. -/
def ordinal (d : Date) : Nat :=
  let years := d.year - 1
  let before := (List.range (d.month - 1)).foldl (fun days m => days + monthLength d.year (m + 1)) 0
  365 * years + years / 4 - years / 100 + years / 400 + before + d.day - 1

end Date

namespace Offset

def text (o : Offset) : String :=
  let n := o.minutes.natAbs
  (if o.minutes < 0 then "-" else "+") ++ padded 2 (n / 60) ++ ":" ++ padded 2 (n % 60)

/-- A negative offset is told as a day back and some seconds on. -/
def quoted (o : Offset) : String :=
  if o.minutes = 0 then "datetime.timezone.utc"
  else "datetime.timezone(datetime.timedelta(" ++
    (if o.minutes < 0 then "days=-1, seconds=" ++ toString (86400 + 60 * o.minutes)
      else "seconds=" ++ toString (60 * o.minutes)) ++ "))"

end Offset

namespace Moment

def text (m : Moment) : String :=
  m.date.text ++ " " ++ padded 2 m.hour ++ ":" ++ padded 2 m.minute ++ ":" ++ padded 2 m.second ++
    (if m.microsecond = 0 then "" else "." ++ padded 6 m.microsecond) ++ (m.offset.map Offset.text).getD ""

/-- Seconds and microseconds that are zero are left out at the end. -/
def quoted (m : Moment) : String :=
  let clock : List Nat := [m.hour.val, m.minute.val] ++
    (if m.microsecond = 0 then if m.second = 0 then [] else [m.second.val] else [m.second.val, m.microsecond.val])
  let zone := (m.offset.map fun o => ", tzinfo=" ++ o.quoted).getD ""
  "datetime.datetime(" ++ ", ".intercalate ((m.date.fields ++ clock).map toString) ++ zone ++ ")"

/-- The microseconds from the start of the calendar, by the clock of the moment or, if its offset is
known, by universal time. -/
def instant (m : Moment) : Int :=
  let minutes : Int := ((m.date.ordinal * 24 + m.hour) * 60 + m.minute : Nat)
  let ahead := (m.offset.map Offset.minutes).getD 0
  ((minutes - ahead) * 60 + (m.second : Nat)) * 1000000 + (m.microsecond : Nat)

/-- Moments are the same by any clocks, as long as both offsets are known or neither is. -/
def isSame (m n : Moment) : Bool :=
  m.offset.isSome == n.offset.isSome && m.instant == n.instant

end Moment

end Etymology

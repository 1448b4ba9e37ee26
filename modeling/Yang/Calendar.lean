import Yang.Text.Digits

/-!
This module contains days of the calendar and moments of a day: which ones exist and how they are written.
-/

namespace Yang

structure Date where
  year : Nat
  month : Nat
  day : Nat
  deriving DecidableEq, Repr, Inhabited

structure Clock where
  hour : Nat
  minute : Nat
  second : Nat
  microsecond : Nat
  deriving DecidableEq, Repr, Inhabited

/--
A moment. The offset from universal time is in minutes; a moment without one is a local time.
-/
structure Moment where
  date : Date
  clock : Clock
  offset : Option Int
  deriving DecidableEq, Repr, Inhabited

inductive CalendarFault where
  | year (year : Nat)
  | month
  | day
  | hour
  | minute
  | second
  | offset (minutes : Int)
  deriving DecidableEq, Repr, Inhabited

namespace Date

def isLeap (year : Nat) : Bool :=
  year % 4 = 0 && (year % 100 ≠ 0 || year % 400 = 0)

def daysIn (year month : Nat) : Nat :=
  if month = 2 then
    if isLeap year then 29 else 28
  else if month = 4 ∨ month = 6 ∨ month = 9 ∨ month = 11 then
    30
  else
    31

def of (year month day : Nat) : Except CalendarFault Date :=
  if year < 1 ∨ 9999 < year then .error (.year year)
  else if month < 1 ∨ 12 < month then .error .month
  else if day < 1 ∨ daysIn year month < day then .error .day
  else .ok ⟨year, month, day⟩

def number (d : Date) : Nat :=
  let years := d.year - 1
  let before := (List.range (d.month - 1)).map (fun m => daysIn d.year (m + 1))
  365 * years + years / 4 - years / 100 + years / 400 + before.foldl (· + ·) 0 + (d.day - 1)

def text (d : Date) : String :=
  Text.decimal 4 d.year ++ "-" ++ Text.decimal 2 d.month ++ "-" ++ Text.decimal 2 d.day

end Date

namespace Clock

def of (hour minute second microsecond : Nat) : Except CalendarFault Clock :=
  if 23 < hour then .error .hour
  else if 59 < minute then .error .minute
  else if 59 < second then .error .second
  else .ok ⟨hour, minute, second, microsecond⟩

def text (c : Clock) : String :=
  let whole := Text.decimal 2 c.hour ++ ":" ++ Text.decimal 2 c.minute ++ ":" ++ Text.decimal 2 c.second
  if c.microsecond = 0 then whole else whole ++ "." ++ Text.decimal 6 c.microsecond

def number (c : Clock) : Nat :=
  ((c.hour * 60 + c.minute) * 60 + c.second) * 1000000 + c.microsecond

end Clock

namespace Moment

def instant (m : Moment) : Int :=
  (m.date.number * 86400000000 + m.clock.number : Nat) - m.offset.getD 0 * 60000000

def isSame (a b : Moment) : Bool :=
  -- a local time is no moment of universal time
  a.offset.isSome == b.offset.isSome && a.instant == b.instant

def offsetText (minutes : Int) : String :=
  let sign := if minutes < 0 then "-" else "+"
  sign ++ Text.decimal 2 (minutes.natAbs / 60) ++ ":" ++ Text.decimal 2 (minutes.natAbs % 60)

def text (separator : String) (m : Moment) : String :=
  let offset :=
    match m.offset with
    | none => ""
    | some minutes => offsetText minutes
  m.date.text ++ separator ++ m.clock.text ++ offset

end Moment

def spanText (minutes : Int) : String :=
  let seconds := minutes * 60
  let days := seconds.fdiv 86400
  let rest := seconds.fmod 86400
  let parts :=
    (if days = 0 then [] else ["days=" ++ toString days])
      ++ (if rest = 0 then [] else ["seconds=" ++ toString rest])
  "datetime.timedelta(" ++ (if parts.isEmpty then "0" else ", ".intercalate parts) ++ ")"

def CalendarFault.message : CalendarFault → String
  | year n => "year " ++ toString n ++ " is out of range"
  | month => "month must be in 1..12"
  | day => "day is out of range for month"
  | hour => "hour must be in 0..23"
  | minute => "minute must be in 0..59"
  | second => "second must be in 0..59"
  | offset minutes =>
    "offset must be a timedelta strictly between -timedelta(hours=24) and timedelta(hours=24), not "
      ++ spanText minutes ++ "."

end Yang

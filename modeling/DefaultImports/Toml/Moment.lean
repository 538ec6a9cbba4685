/-! Dates and times of day. -/
namespace DefaultImports.Toml

structure Date where
  year : Nat
  month : Nat
  day : Nat
deriving DecidableEq, Repr

structure Time where
  hour : Nat
  minute : Nat
  second : Nat
  micro : Nat
deriving DecidableEq, Repr

/-- A date and a time, with the offset from universal time in minutes if one is given. -/
structure Moment where
  date : Date
  time : Time
  offset : Option Int
deriving DecidableEq, Repr

/-- `n` in decimal with at least `width` digits. -/
def padded (width n : Nat) : String :=
  let digits := Nat.toDigits 10 n
  String.ofList (List.replicate (width - digits.length) '0' ++ digits)

namespace Date

def isLeapYear (year : Nat) : Bool := year % 4 == 0 && (year % 100 != 0 || year % 400 == 0)

def daysIn (year month : Nat) : Nat :=
  if month == 2 then (if isLeapYear year then 29 else 28)
  else if [4, 6, 9, 11].contains month then 30
  else 31

/-- There is no year 0. -/
def isValid (d : Date) : Bool :=
  1 ≤ d.year && 1 ≤ d.month && d.month ≤ 12 && 1 ≤ d.day && d.day ≤ daysIn d.year d.month

def text (d : Date) : String :=
  padded 4 d.year ++ "-" ++ padded 2 d.month ++ "-" ++ padded 2 d.day

def fields (d : Date) : List Nat := [d.year, d.month, d.day]

end Date

namespace Time

/-- Fractions of a second are written with six digits, and only if there are any. -/
def text (t : Time) : String :=
  padded 2 t.hour ++ ":" ++ padded 2 t.minute ++ ":" ++ padded 2 t.second ++
    if t.micro == 0 then "" else "." ++ padded 6 t.micro

/-- Hour and minute, then as much of the rest as is needed. -/
def fields (t : Time) : List Nat :=
  [t.hour, t.minute] ++
    if t.micro != 0 then [t.second, t.micro] else if t.second != 0 then [t.second] else []

end Time

namespace Moment

def offsetText (minutes : Int) : String :=
  (if minutes < 0 then "-" else "+") ++ padded 2 (minutes.natAbs / 60) ++ ":" ++
    padded 2 (minutes.natAbs % 60)

def text (m : Moment) : String :=
  m.date.text ++ " " ++ m.time.text ++ (m.offset.map offsetText).getD ""

end Moment

/-- A constructor call, as values inside lists and tables are shown. -/
def callText (name : String) (arguments : List String) : String :=
  name ++ "(" ++ ", ".intercalate arguments ++ ")"

def Date.display (d : Date) : String := callText "datetime.date" (d.fields.map toString)

def Time.display (t : Time) : String := callText "datetime.time" (t.fields.map toString)

/-- A span before zero is shown as a negative day and the seconds from there. -/
def offsetDisplay (minutes : Int) : String :=
  if minutes == 0 then "datetime.timezone.utc"
  else
    let span :=
      if minutes < 0 then ["days=-1", "seconds=" ++ toString (86400 + minutes * 60)]
      else ["seconds=" ++ toString (minutes * 60)]
    callText "datetime.timezone" [callText "datetime.timedelta" span]

def Moment.display (m : Moment) : String :=
  callText "datetime.datetime"
    ((m.date.fields ++ m.time.fields).map toString ++
      m.offset.toList.map fun o => "tzinfo=" ++ offsetDisplay o)

end DefaultImports.Toml

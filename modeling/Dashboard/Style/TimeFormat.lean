import Dashboard.Json.Decode
/-!
# Time formats

A clock shows the time, a date, or the time above a short date. The patterns are those of the
clock functions of the firmware.
-/

namespace Dashboard

inductive TimeFormat where
  | timeOnly | dateOnly | weekdayDayMonth | timeDate
deriving DecidableEq, Repr

namespace TimeFormat

def primaryPattern : TimeFormat → String
  | .timeOnly | .timeDate => "%H:%M"
  | .dateOnly => "%d.%m.%Y"
  | .weekdayDayMonth => "%A %d %B"

def secondaryPattern? : TimeFormat → Option String
  | .timeDate => some "%a, %b %d"
  | _ => none

def isDate : TimeFormat → Bool
  | .dateOnly | .weekdayDayMonth => true
  | _ => false

def name : TimeFormat → String
  | .timeOnly => "time_only"
  | .dateOnly => "date_only"
  | .weekdayDayMonth => "weekday_day_month"
  | .timeDate => "time_date"

def decoder : Json.Decoder TimeFormat :=
  .choice ([timeOnly, dateOnly, weekdayDayMonth, timeDate].map fun f => (f.name, f))

end TimeFormat

end Dashboard

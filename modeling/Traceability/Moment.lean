import Traceability.Text.Basic

/-!
# Moments

Which numbers are a date, a time of day and an offset of a time zone. Of several faults the one that
comes first in this order counts: offset, year, month, day, hour, minute, second.
-/
namespace Traceability

inductive MomentFault where
  | offset (seconds : Int)
  | year
  | month
  | day
  | hour
  | minute
  | second
deriving DecidableEq, Repr

namespace MomentFault

def spanText (seconds : Int) : Text :=
  let days := Int.fdiv seconds 86400
  let rest := Int.fmod seconds 86400
  let parts : List Text :=
    (if days = 0 then [] else ["days=" ++ Text.ofInt days]) ++
      (if rest = 0 then [] else ["seconds=" ++ Text.ofInt rest])
  "datetime.timedelta(" ++ Text.join ", " parts ++ ")"

def message : MomentFault → Text
  | .offset seconds =>
    "offset must be a timedelta strictly between -timedelta(hours=24) and timedelta(hours=24), not " ++
      spanText seconds ++ "."
  | .year => "year 0 is out of range"
  | .month => "month must be in 1..12"
  | .day => "day is out of range for month"
  | .hour => "hour must be in 0..23"
  | .minute => "minute must be in 0..59"
  | .second => "second must be in 0..59"

end MomentFault

namespace Moment

def isLeap (year : Nat) : Bool := year % 4 = 0 && (year % 100 ≠ 0 || year % 400 = 0)

def daysIn (year month : Nat) : Nat :=
  if month = 2 then if isLeap year then 29 else 28
  else if month = 4 || month = 6 || month = 9 || month = 11 then 30
  else 31

def dateFault? (year month day : Nat) : Option MomentFault :=
  if year = 0 then some .year
  else if month = 0 || 12 < month then some .month
  else if day = 0 || daysIn year month < day then some .day
  else none

def timeFault? (hour minute second : Nat) : Option MomentFault :=
  if 23 < hour then some .hour
  else if 59 < minute then some .minute
  else if 59 < second then some .second
  else none

def offsetFault? (seconds : Int) : Option MomentFault :=
  if -86400 < seconds && seconds < 86400 then none else some (.offset seconds)

example : dateFault? 1900 2 29 = some .day ∧ dateFault? 2000 2 29 = none := by decide

end Moment

end Traceability

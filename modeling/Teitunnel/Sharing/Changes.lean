import Teitunnel.Lib.Digits
import Teitunnel.Lib.Fallible
import Teitunnel.Lib.Spans
import Teitunnel.Sharing.Schedule

/-!
# Schedules made, and their next change

A checked schedule has its days in order and its times as `HH:MM`.  When it next turns on or off is
read off the windows around now: the end of the run of windows it is in, or the next start.
-/

namespace Teitunnel.Sharing

open Text Except

namespace Schedule

/-- `HH:MM`. -/
def timeText (minutes : ℕ) : String :=
  String.ofList (Digits.fixed 2 (minutes / 60) ++ ':' :: Digits.fixed 2 (minutes % 60))

variable [Calendar]

/-- A checked schedule: days sorted, times as `HH:MM`. -/
def new (days : List Weekday) (start stop : String) (timeZone : Option String) :
    Except ScheduleError Schedule := do
  let days := (days.insertionSort fun a b => a.index ≤ b.index).destutter (· ≠ ·)
  refuseIf (days = []) (.days "")
  let start ← parseTime start
  let stop ← parseTime stop
  let timeZone := (timeZone.map trim).filter (· ≠ "")
  refuseSome (timeZone.filter fun zone => (Calendar.get zone).isNone) .timeZone
  return { days, start := timeText start, stop := timeText stop, timeZone }

end Schedule

end Teitunnel.Sharing

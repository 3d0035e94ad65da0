import CodeAtlas.Number.Rounding
import CodeAtlas.Time.Calendar

/-! # The clock of a disk

A disk counts nanoseconds since 1970. They are read through a number of 53 significant bits and
then rounded to microseconds, so the last digits of a recent time are lost. -/

namespace CodeAtlas.Time

open CodeAtlas.Number

/-- Microseconds from the first day of year 1 to that of 1970. -/
def epoch : Int := 719162 * microsPerDay

/-- Seconds since 1970 as a number of 53 bits: the whole seconds, and the nanoseconds behind them
times the number nearest to a thousand-millionth. -/
def secondsOfNanos (nanos : Int) : Binary :=
  let unit := nearest 1 1000000000
  let part := nearest (unit.num * (nanos % 1000000000)) unit.den
  nearest (nanos / 1000000000 * part.den + part.num) part.den

/-- Microseconds since 1970. The fraction of a second is rounded twice: to 53 bits when it is
counted in microseconds, then to an integer. -/
def microsOfNanos (nanos : Int) : Int :=
  let seconds := secondsOfNanos nanos
  let whole := truncate seconds.num seconds.den
  let part := nearest ((seconds.num - whole * seconds.den) * 1000000) seconds.den
  whole * microsPerSecond + roundHalfEven part.num part.den

/-- Days in four hundred years, after which the calendar repeats. -/
def daysPerCycle : Int := 146097

/-- The year of a time that may lie outside the calendar. -/
def yearOf (wall : Int) : Int :=
  let days := wall / microsPerDay
  400 * (days / daysPerCycle) + (Date.ofDays (days % daysPerCycle).toNat).year

/-- A time of a disk in a year that the calendar does not have. -/
structure YearError where
  year : Int
  deriving Repr, DecidableEq

def YearError.message (e : YearError) : String := s!"year {e.year} is out of range"

/-- What the calendar and the clock show in universal time. -/
def Moment.ofNanos (nanos : Int) : Except YearError Moment :=
  let wall := epoch + microsOfNanos nanos
  if onCalendar wall then .ok ⟨wall, some 0⟩ else .error ⟨yearOf wall⟩

end CodeAtlas.Time

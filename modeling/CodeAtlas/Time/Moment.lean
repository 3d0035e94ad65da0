/-! # Moments

Times of day on a calendar date, to the microsecond, with or without an offset from universal
time. Dates follow the Gregorian calendar from year 1 to year 9999. -/

namespace CodeAtlas.Time

def microsPerSecond : Int := 1000000

def microsPerDay : Int := 86400 * microsPerSecond

/-- Days from the first day of year 1 to that of year 10000. -/
def calendarDays : Int := 3652059

/-- A time as a calendar and a clock show it, as microseconds since year 1 began. `offset?` is
how far the clock is ahead of universal time. -/
structure Moment where
  wall : Int
  offset? : Option Int
  deriving Repr, DecidableEq, Inhabited

/-- Whether a calendar can show a time. -/
def onCalendar (wall : Int) : Bool := 0 ≤ wall && wall < calendarDays * microsPerDay

namespace Moment

/-- The instant, in microseconds of universal time. Without an offset the clock shows universal
time. -/
def instant (m : Moment) : Int := m.wall - m.offset?.getD 0

/-- A moment of universal time. -/
def ofInstant (i : Int) : Moment := ⟨i, some 0⟩

end Moment

/-- The only way in which a conversion fails: the date is on no calendar. -/
inductive TimeError
  | outOfRange
  deriving Repr, DecidableEq

def TimeError.message : TimeError → String
  | outOfRange => "date value out of range"

namespace Moment

/-- The same instant in universal time. -/
def toUtc (m : Moment) : Except TimeError Moment :=
  match m.offset? with
  | none => .ok ⟨m.wall, some 0⟩
  | some _ => if onCalendar m.instant then .ok (ofInstant m.instant) else .error .outOfRange

/-- The same instant in universal time, without saying so. -/
def toNaiveUtc (m : Moment) : Except TimeError Moment :=
  match m.offset? with
  | none => .ok m
  | some _ => if onCalendar m.instant then .ok ⟨m.instant, none⟩ else .error .outOfRange

/-- A moment without an offset is taken to be in universal time. -/
def assumeUtc (m : Moment) : Moment := ⟨m.wall, some (m.offset?.getD 0)⟩

/-- Whether a moment is later than another. -/
def isAfter (m n : Moment) : Bool := n.instant < m.instant

end Moment

end CodeAtlas.Time

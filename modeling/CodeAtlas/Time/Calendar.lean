import CodeAtlas.Time.Moment

/-! # Calendar dates

Days since year 1 began as year, month and day, and times in the form
`2024-01-01T12:00:00.000001+05:30`. -/

namespace CodeAtlas.Time

def isLeap (year : Nat) : Bool := year % 4 == 0 && (year % 100 != 0 || year % 400 == 0)

/-- Days before a year. -/
def daysBeforeYear (year : Nat) : Nat :=
  let y := year - 1
  365 * y + y / 4 - y / 100 + y / 400

def daysInMonth (year month : Nat) : Nat :=
  if month == 2 then (if isLeap year then 29 else 28)
  else if month == 4 || month == 6 || month == 9 || month == 11 then 30
  else 31

/-- Days of a year before a month. -/
def daysBeforeMonth (year month : Nat) : Nat :=
  (List.range (month - 1)).foldl (fun n m => n + daysInMonth year (m + 1)) 0

structure Date where
  year : Nat
  month : Nat
  day : Nat
  deriving Repr, DecidableEq

/-- Days since the first day of year 1. -/
def Date.toDays (d : Date) : Nat :=
  daysBeforeYear d.year + daysBeforeMonth d.year d.month + (d.day - 1)

/-- The month and the day of a day of a year, counted from zero. -/
def monthAndDay (year : Nat) : Nat → Nat → Nat → Nat × Nat
  | 0, month, day => (month, day + 1)
  | fuel + 1, month, day =>
    let n := daysInMonth year month
    if day < n then (month, day + 1) else monthAndDay year fuel (month + 1) (day - n)

def Date.ofDays (days : Nat) : Date :=
  let guess := days / 366 + 1
  let year := (List.range 60).foldl (fun y _ =>
    if daysBeforeYear (y + 1) ≤ days then y + 1 else y) guess
  let (month, day) := monthAndDay year 12 1 (days - daysBeforeYear year)
  ⟨year, month, day⟩

/-! ## Text -/

def padded (width n : Nat) : String :=
  let digits := toString n
  String.ofList (List.replicate (width - digits.length) '0') ++ digits

def fraction (micros : Nat) : String := if micros == 0 then "" else "." ++ padded 6 micros

def clock (micros : Nat) : String :=
  let seconds := micros / 1000000
  padded 2 (seconds / 3600) ++ ":" ++ padded 2 (seconds / 60 % 60) ++ ":" ++
    padded 2 (seconds % 60) ++ fraction (micros % 1000000)

/-- An offset without the parts that are zero at its end. -/
def offsetText (offset : Int) : String :=
  let n := offset.natAbs
  let seconds := n / 1000000
  let sign := if offset < 0 then "-" else "+"
  let hoursAndMinutes := padded 2 (seconds / 3600) ++ ":" ++ padded 2 (seconds / 60 % 60)
  let rest :=
    if n % 60000000 == 0 then "" else ":" ++ padded 2 (seconds % 60) ++ fraction (n % 1000000)
  sign ++ hoursAndMinutes ++ rest

def dateText (d : Date) : String :=
  padded 4 d.year ++ "-" ++ padded 2 d.month ++ "-" ++ padded 2 d.day

namespace Moment

def micros (m : Moment) : Nat := m.wall.toNat

def text (m : Moment) : String :=
  let day := microsPerDay.toNat
  dateText (Date.ofDays (m.micros / day)) ++ "T" ++ clock (m.micros % day) ++
    (m.offset?.map offsetText).getD ""

end Moment

/-! ## Reading -/

/-- Reads exactly so many digits. -/
def readDigits? : Nat → List Char → Nat → Option (Nat × List Char)
  | 0, cs, n => some (n, cs)
  | width + 1, c :: cs, n =>
    if c.isDigit then readDigits? width cs (10 * n + (c.toNat - 48)) else none
  | _ + 1, [], _ => none

def readMark? (mark : Char) : List Char → Option (List Char)
  | c :: cs => if c == mark then some cs else none
  | [] => none

def readFraction? : List Char → Option (Nat × List Char)
  | '.' :: cs => readDigits? 6 cs 0
  | cs => some (0, cs)

/-- Seconds and their fraction, where they are written. -/
def readSeconds? : List Char → Option (Nat × List Char)
  | ':' :: cs => do
    let (s, cs) ← readDigits? 2 cs 0
    let (f, cs) ← readFraction? cs
    return (s * 1000000 + f, cs)
  | cs => some (0, cs)

/-- Hours and minutes, with what is written behind them, in microseconds. -/
def readClock? (cs : List Char) : Option (Nat × List Char) := do
  let (h, cs) ← readDigits? 2 cs 0
  let cs ← readMark? ':' cs
  let (m, cs) ← readDigits? 2 cs 0
  let (s, cs) ← readSeconds? cs
  return ((h * 60 + m) * 60000000 + s, cs)

def readOffset? : List Char → Option (Option Int)
  | [] => some none
  | ['Z'] => some (some 0)
  | '+' :: cs => do
    let (n, rest) ← readClock? cs
    if rest.isEmpty then some (some (n : Int)) else none
  | '-' :: cs => do
    let (n, rest) ← readClock? cs
    if rest.isEmpty then some (some (-(n : Int))) else none
  | _ => none

def Moment.ofChars? (cs : List Char) : Option Moment := do
  let (year, cs) ← readDigits? 4 cs 0
  let cs ← readMark? '-' cs
  let (month, cs) ← readDigits? 2 cs 0
  let cs ← readMark? '-' cs
  let (day, cs) ← readDigits? 2 cs 0
  let cs ← readMark? 'T' cs
  let (micros, cs) ← readClock? cs
  let offset? ← readOffset? cs
  return ⟨(Date.mk year month day).toDays * microsPerDay + micros, offset?⟩

def Moment.ofText? (s : String) : Option Moment := Moment.ofChars? s.toList

end CodeAtlas.Time

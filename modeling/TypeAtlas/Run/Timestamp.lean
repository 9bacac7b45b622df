/-!
# Timestamps

Points in time as seconds since the beginning of 1970 and nanoseconds of the second, and their two
spellings: the one of documents and the one of directory names. Time is universal time, dates are
those of the Gregorian calendar, continued backwards.
-/
namespace TypeAtlas

/-- A point in time. A leap second has the number of the last second of a minute, and its
nanoseconds are counted on from those of that second. -/
structure Timestamp where
  seconds : Int
  nanos : Nat
  nanos_lt : nanos < 1000000000 ∨ nanos < 2000000000 ∧ seconds % 60 = 59 := by decide
  deriving DecidableEq, Repr

/-- A day of the calendar. -/
structure Date where
  year : Int
  month : Nat
  day : Nat
  deriving DecidableEq, Repr

namespace Date

/-- The date of a day, counted from the first day of 1970.

Years are counted from March on, so that a leap day is the last day of its year, and in eras of 400
years, which all have the same length. -/
def ofDays (days : Int) : Date :=
  let shifted := days + 719468
  let era := shifted.fdiv 146097
  let dayOfEra := (shifted - era * 146097).toNat
  let yearOfEra := (dayOfEra - dayOfEra / 1460 + dayOfEra / 36524 - dayOfEra / 146096) / 365
  let dayOfYear := dayOfEra - (365 * yearOfEra + yearOfEra / 4 - yearOfEra / 100)
  let marchMonth := (5 * dayOfYear + 2) / 153
  let day := dayOfYear - (153 * marchMonth + 2) / 5 + 1
  let month := if marchMonth < 10 then marchMonth + 3 else marchMonth - 9
  let year := (yearOfEra : Int) + era * 400
  ⟨if month ≤ 2 then year + 1 else year, month, day⟩

end Date

/-- A number with zeros in front up to a width. -/
def zeroPadded (width n : Nat) : String :=
  let digits := (toString n).toList
  String.ofList (List.replicate (width - digits.length) '0' ++ digits)

/-- A year: four digits at least, with a sign if they do not suffice. -/
def yearText (y : Int) : String :=
  if 0 ≤ y ∧ y ≤ 9999 then zeroPadded 4 y.toNat
  else if 0 ≤ y then "+" ++ zeroPadded 4 y.toNat
  else "-" ++ zeroPadded 4 (-y).toNat

namespace Timestamp

/-- The date. -/
def date (t : Timestamp) : Date :=
  Date.ofDays (t.seconds.fdiv 86400)

/-- The second of the day. -/
def secondOfDay (t : Timestamp) : Nat :=
  (t.seconds.fmod 86400).toNat

/-- The second of the minute; a leap second is the second 60. -/
def secondOfMinute (t : Timestamp) : Nat :=
  t.secondOfDay % 60 + t.nanos / 1000000000

/-- Hour, minute and second with a separator in between. -/
def clock (sep : String) (t : Timestamp) : String :=
  let s := t.secondOfDay
  zeroPadded 2 (s / 3600) ++ sep ++ zeroPadded 2 (s / 60 % 60) ++ sep ++
    zeroPadded 2 t.secondOfMinute

/-- Year, month and day. -/
def calendar (t : Timestamp) : String :=
  let d := t.date
  yearText d.year ++ "-" ++ zeroPadded 2 d.month ++ "-" ++ zeroPadded 2 d.day

/-- The fraction of the second: as many groups of three digits as are needed. -/
def fraction (t : Timestamp) : String :=
  let n := t.nanos % 1000000000
  if n = 0 then ""
  else if n % 1000000 = 0 then "." ++ zeroPadded 3 (n / 1000000)
  else if n % 1000 = 0 then "." ++ zeroPadded 6 (n / 1000)
  else "." ++ zeroPadded 9 n

/-- The spelling in documents. -/
def render (t : Timestamp) : String :=
  t.calendar ++ "T" ++ t.clock ":" ++ t.fraction ++ "Z"

/-- The spelling in directory names. -/
def stamp (t : Timestamp) : String :=
  t.calendar ++ "T" ++ t.clock "-"

end Timestamp
end TypeAtlas
